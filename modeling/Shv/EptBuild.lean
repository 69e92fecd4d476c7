/-
# `Shv.EptBuild` — what `shv_build_ept` makes of a root

`eptSpec` is the guest-physical map the hypervisor wants: memory, the first
megabyte and the local APIC page are mapped to themselves, `0x12340000` shows the
target page of the current `ept_num`, and with `SHV_USE_LARGE_PAGE` two large
pages are swapped.  Here it is proved of the tables after one call.

A slot is in one of two states (`SlotOk`): untouched, or built.  The first call
takes it from the one to the other and every later call stays in the second.

* `eptMapContinuousAddr_mapped` — mapping a range, page by page;
* `eptRemap_remapped` — the remapping every call does, on top of any map;
* `shvBuildEpt_done` — a call that returns leaves its root with the map `eptSpec`;
* `shvBuildEpt_again` — a call for a root that has been built returns and takes
  nothing from the pool;
* `CallDone.other` — no other slot notices.
-/
import Shv.EptMap

namespace Shv

open ByteMem

/-! ## The intended map -/

/-- The page of a guest-physical address. -/
def pageOf (gpa : BitVec 64) : Nat := gpa.toNat / 4096 * 4096

/-- The addresses that are mapped to themselves. -/
def Image.IdentityMapped (img : Image) (g : Nat) : Prop :=
  (img.low ≤ g ∧ g < img.high) ∨ g < 0x100000 ∨ (0xfee00000 ≤ g ∧ g < 0xfee01000)

instance (img : Image) (g : Nat) : Decidable (img.IdentityMapped g) :=
  inferInstanceAs (Decidable (_ ∨ _))

/-- An address mapped to itself, with the memory type `ept_get_mem_type` gives its page. -/
def eptIdentity (img : Image) (vcpu : Vcpu) (gpa : BitVec 64) : Option Mapping :=
  (eptGetMemType img vcpu (BitVec.ofNat 64 (pageOf gpa))).map fun mt =>
    { spa := gpa, prots := hptProtsRwx, pmt := mt.setWidth 64, lvl := 1 }

/-- The page of `0x12340000`. -/
def InTarget (g : Nat) : Prop := g / 4096 = 0x12340

/-- `large_pages[i]`. -/
def Image.InLarge (img : Image) (i g : Nat) : Prop := g / 0x200000 = img.largePage i / 0x200000

instance (g : Nat) : Decidable (InTarget g) := inferInstanceAs (Decidable (_ = _))

instance (img : Image) (i g : Nat) : Decidable (img.InLarge i g) :=
  inferInstanceAs (Decidable (_ = _))

/-- `g_shv_opt & SHV_USE_LARGE_PAGE`. -/
def UseLargePage (shvOpt : BitVec 64) : Prop := shvOpt &&& shvUseLargePage ≠ 0

instance (shvOpt : BitVec 64) : Decidable (UseLargePage shvOpt) :=
  inferInstanceAs (Decidable (_ ≠ _))

/-- What `0x12340000 + off` is mapped to. -/
def eptTargetMapping (img : Image) (n : Nat) (gpa : BitVec 64) : Option Mapping :=
  if n = 0 then none
  else some { spa := BitVec.ofNat 64 (img.targetAt n + gpa.toNat % 4096), prots := hptProtsRwx,
              pmt := hptPmtWb, lvl := 1 }

/-- What an address of the other large page is mapped to. -/
def eptLargeMapping (img : Image) (i : Nat) (gpa : BitVec 64) : Option Mapping :=
  some { spa := BitVec.ofNat 64 (img.largePage i + gpa.toNat % 0x200000), prots := hptProtsRwx,
         pmt := hptPmtWb, lvl := 2 }

/-- The map of a root that `vcpu` was the first to build, after a call with `ept_num == n`. -/
def eptSpec (img : Image) (shvOpt : BitVec 64) (vcpu : Vcpu) (n : Nat) (gpa : BitVec 64) :
    Option Mapping :=
  if InTarget gpa.toNat then eptTargetMapping img n gpa
  else if UseLargePage shvOpt ∧ img.InLarge 0 gpa.toNat then eptLargeMapping img 1 gpa
  else if UseLargePage shvOpt ∧ img.InLarge 1 gpa.toNat then eptLargeMapping img 0 gpa
  else if img.IdentityMapped gpa.toNat then eptIdentity img vcpu gpa
  else none

/-! ## Regions as numbers -/

section Regions

variable {gpa va : BitVec 64} {a : Nat}

theorem regionOf_one (h : gpa.toNat < 2 ^ 48) : regionOf .ept 1 gpa = gpa.toNat / 4096 := by
  show gpa.toNat % 2 ^ 48 / 4096 = _
  rw [Nat.mod_eq_of_lt h]

theorem regionOf_two (h : gpa.toNat < 2 ^ 48) : regionOf .ept 2 gpa = gpa.toNat / 0x200000 := by
  show gpa.toNat % 2 ^ 48 / 0x200000 = _
  rw [Nat.mod_eq_of_lt h]

theorem toNat_ofNat_lt (h : a < 2 ^ 48) : (BitVec.ofNat 64 a).toNat = a := by
  rw [BitVec.toNat_ofNat, Nat.mod_eq_of_lt (by omega)]

theorem representable_ofNat (h : a < 2 ^ 48) (hm : a % 4096 = 0) :
    Representable .ept (BitVec.ofNat 64 a) := by
  apply representable_of_toNat
  · rw [toNat_ofNat_lt h]
    exact hm
  · rw [toNat_ofNat_lt h]
    show a < 2 ^ 52
    omega

theorem RwxPage.mapping_eq {pmeo : HptPmeo} (h : RwxPage pmeo)
    (ha : pmeAddr .ept pmeo.lvl pmeo.pme = BitVec.ofNat 64 a) :
    pmeo.mapping gpa =
      { spa := BitVec.ofNat 64 (a + gpa.toNat % 2 ^ (hptVaIdxHi .ept (pmeo.lvl - 1) + 1)),
        prots := hptProtsRwx, pmt := br64GetHl pmeo.pme 5 3, lvl := pmeo.lvl } := by
  have hhi : hptVaIdxHi .ept (pmeo.lvl - 1) < 64 := by
    rcases h.lvl with hl | hl <;> rw [hl] <;> decide
  have hoff : gpa &&& maskrange64 (hptVaIdxHi .ept (pmeo.lvl - 1)) 0 =
      BitVec.ofNat 64 (gpa.toNat % 2 ^ (hptVaIdxHi .ept (pmeo.lvl - 1) + 1)) := by
    apply BitVec.eq_of_toNat_eq
    rw [toNat_and_maskrange64 _ hhi, BitVec.toNat_ofNat]
    exact (Nat.mod_eq_of_lt (Nat.lt_of_le_of_lt (Nat.mod_le _ _) gpa.isLt)).symm
  rw [HptPmeo.mapping, h.type, ha, h.prot, hoff, ← BitVec.ofNat_add]

end Regions

/-! ## Mapping a range -/

section Range

variable {img : Image} {s : Slot} {vcpu : Vcpu} {m m' m'' : ByteMem} {pmeo pmeo' : HptPmeo}
  {lo mid hi : Nat}

/-- What mapping `[lo, hi)` to itself does to a slot. -/
structure Mapped (img : Image) (s : Slot) (vcpu : Vcpu) (lo hi : Nat) (m m' : ByteMem) :
    Prop where
  inv : PoolInv img s m'
  grows : Grows img s m m'
  xlate : ∀ gpa : BitVec 64, gpa.toNat < 2 ^ 48 → (img.ctx s).xlate m' gpa =
    if lo ≤ gpa.toNat ∧ gpa.toNat < hi then eptIdentity img vcpu gpa
    else (img.ctx s).xlate m gpa
  /-- `ept_get_mem_type` returned for every page -/
  memType : ∀ gpa : BitVec 64, gpa.toNat < 2 ^ 48 → lo ≤ gpa.toNat → gpa.toNat < hi →
    (eptIdentity img vcpu gpa).isSome
  node : ∀ gpa : BitVec 64, gpa.toNat < 2 ^ 48 → lo ≤ gpa.toNat → gpa.toNat < hi →
    ∃ q, (img.ctx s).radix.Node m' gpa 1 q
  nodes : ∀ {k l p}, (img.ctx s).radix.Node m k l p → (img.ctx s).radix.Node m' k l p

theorem Mapped.refl (h : PoolInv img s m) (vcpu : Vcpu) (lo : Nat) :
    Mapped img s vcpu lo lo m m where
  inv := h
  grows := .refl _ _ _
  xlate gpa _ := (if_neg (by omega)).symm
  memType gpa _ h₁ h₂ := by omega
  node gpa _ h₁ h₂ := by omega
  nodes hn := hn

theorem Mapped.trans (h₁ : Mapped img s vcpu lo mid m m') (h₂ : Mapped img s vcpu mid hi m' m'')
    (hlo : lo ≤ mid) (hhi : mid ≤ hi) : Mapped img s vcpu lo hi m m'' where
  inv := h₂.inv
  grows := h₁.grows.trans h₂.grows
  xlate gpa hg := by
    rw [h₂.xlate gpa hg, h₁.xlate gpa hg]
    by_cases hm : mid ≤ gpa.toNat ∧ gpa.toNat < hi
    · rw [if_pos hm, if_pos ⟨by omega, hm.2⟩]
    · rw [if_neg hm]
      by_cases hl : lo ≤ gpa.toNat ∧ gpa.toNat < mid
      · rw [if_pos hl, if_pos ⟨hl.1, by omega⟩]
      · rw [if_neg hl, if_neg (by omega)]
  memType gpa hg hl hh := by
    by_cases hm : gpa.toNat < mid
    · exact h₁.memType gpa hg hl hm
    · exact h₂.memType gpa hg (by omega) hh
  node gpa hg hl hh := by
    by_cases hm : gpa.toNat < mid
    · obtain ⟨q, hq⟩ := h₁.node gpa hg hl hm
      exact ⟨q, h₂.nodes hq⟩
    · exact h₂.node gpa hg (by omega) hh
  nodes hn := h₂.nodes (h₁.nodes hn)

variable (vcpu) in
theorem Inserted.mapped (h : Inserted img s pmeo (BitVec.ofNat 64 lo) m m') (hp : RwxPage pmeo)
    (hl : pmeo.lvl = 1) (hlo : lo % 4096 = 0) (hlt : lo < 2 ^ 48)
    (ha : pmeAddr .ept pmeo.lvl pmeo.pme = BitVec.ofNat 64 lo) {mt : BitVec 8}
    (hmt : eptGetMemType img vcpu (BitVec.ofNat 64 lo) = some mt)
    (hc : br64GetHl pmeo.pme 5 3 = mt.setWidth 64) :
    Mapped img s vcpu lo (lo + 4096) m m' := by
  have hreg : ∀ gpa : BitVec 64, gpa.toNat < 2 ^ 48 →
      (regionOf .ept pmeo.lvl gpa = regionOf .ept pmeo.lvl (BitVec.ofNat 64 lo) ↔
        lo ≤ gpa.toNat ∧ gpa.toNat < lo + 4096) := by
    intro gpa hg
    have hva : (BitVec.ofNat 64 lo).toNat = lo := toNat_ofNat_lt hlt
    rw [hl, regionOf_one hg, regionOf_one (by rw [hva]; exact hlt), hva]
    omega
  have hid : ∀ gpa : BitVec 64, gpa.toNat < 2 ^ 48 → lo ≤ gpa.toNat → gpa.toNat < lo + 4096 →
      eptIdentity img vcpu gpa = some (pmeo.mapping gpa) := by
    intro gpa hg h₁ h₂
    have hpage : pageOf gpa = lo := by
      show gpa.toNat / 4096 * 4096 = lo
      omega
    have hspa : BitVec.ofNat 64 (lo + gpa.toNat % 2 ^ (hptVaIdxHi .ept (1 - 1) + 1)) = gpa := by
      apply BitVec.eq_of_toNat_eq
      rw [BitVec.toNat_ofNat]
      show (lo + gpa.toNat % 4096) % 2 ^ 64 = gpa.toNat
      omega
    rw [eptIdentity, hpage, hmt, hp.mapping_eq ha, hc, hl, hspa]
    rfl
  refine ⟨h.inv, h.grows, fun gpa hg => ?_, fun gpa hg h₁ h₂ => ?_, fun gpa hg h₁ h₂ => ?_,
    fun {k l p} hn => h.nodes hn (Or.inl ?_)⟩
  · rw [h.xlate gpa, if_pos hp.present]
    by_cases hin : lo ≤ gpa.toNat ∧ gpa.toNat < lo + 4096
    · rw [if_pos ((hreg gpa hg).mpr hin), if_pos hin, hid gpa hg hin.1 hin.2]
    · rw [if_neg fun hr => hin ((hreg gpa hg).mp hr), if_neg hin]
  · rw [hid gpa hg h₁ h₂]
    rfl
  · obtain ⟨q, hq⟩ := h.node
    rw [hl] at hq
    have hr : regionOf .ept 1 (BitVec.ofNat 64 lo) = regionOf .ept 1 gpa := by
      have := (hreg gpa hg).mpr ⟨h₁, h₂⟩
      rw [hl] at this
      exact this.symm
    have hok : LvlOk .ept 1 := by decide
    have hag := (agree_iff_regionOf (img.ctx s) hok).mpr hr
    exact ⟨q, hq.congr_key (hag.mono (by decide))⟩
  · rw [hl]
    exact ((img.walkable s).node_lvl hn).1

theorem eptMapContinuousAddrLoop_mapped :
    ∀ (left : Nat) (m : ByteMem) (pmeo : HptPmeo) (paddr : Nat) (m' : ByteMem) (pmeo' : HptPmeo),
      PoolInv img s m → RwxPage pmeo → pmeo.lvl = 1 → paddr % 4096 = 0 →
      paddr + left * 4096 ≤ 2 ^ 48 →
      eptMapContinuousAddrLoop img vcpu (img.ctx s) left m pmeo paddr = some (m', pmeo') →
      Mapped img s vcpu paddr (paddr + left * 4096) m m' ∧ RwxPage pmeo' ∧ pmeo'.lvl = 1 := by
  intro left
  induction left with
  | zero =>
      intro m pmeo paddr m' pmeo' h hp hl _ _ hrun
      simp only [eptMapContinuousAddrLoop, Option.pure_def, Option.some.injEq,
        Prod.mk.injEq] at hrun
      obtain ⟨rfl, rfl⟩ := hrun
      rw [Nat.zero_mul, Nat.add_zero]
      exact ⟨.refl h vcpu paddr, hp, hl⟩
  | succ left ih =>
      intro m pmeo paddr m' pmeo' h hp hl hmod hle hrun
      simp only [eptMapContinuousAddrLoop, Option.bind_eq_bind] at hrun
      obtain ⟨mt, hmt, hrun⟩ := Option.bind_eq_some_iff.mp hrun
      obtain ⟨pmeo₁, hcache, hrun⟩ := Option.bind_eq_some_iff.mp hrun
      obtain ⟨pmeo₂, haddr, hrun⟩ := Option.bind_eq_some_iff.mp hrun
      obtain ⟨m₁, hins, hrun⟩ := Option.bind_eq_some_iff.mp hrun
      obtain ⟨hp₁, hl₁, hc₁⟩ := hp.setcache hcache
      obtain ⟨pmeo₂', haddr', hp₂, hl₂, ha₂, hc₂⟩ :=
        hp₁.setAddress (representable_ofNat (a := paddr) (by omega) hmod)
      rw [haddr] at haddr'
      obtain rfl := Option.some.inj haddr'
      have hlvl : pmeo₂.lvl = 1 := hl₂.trans (hl₁.trans hl)
      have hone := (h.inserted hp₂.type hp₂.lvlOk hp₂.not_table hins).mapped vcpu hp₂
        hlvl hmod (by omega) ha₂ hmt (hc₂.trans hc₁)
      obtain ⟨hrest, hp', hl'⟩ := ih m₁ pmeo₂ (paddr + 4096) m' pmeo' hone.inv hp₂ hlvl (by omega)
        (by omega) hrun
      refine ⟨?_, hp', hl'⟩
      have := hone.trans hrest (by omega) (by omega)
      rwa [show paddr + 4096 + left * 4096 = paddr + (left + 1) * 4096 by omega] at this

theorem eptMapContinuousAddr_mapped (h : PoolInv img s m) (hp : RwxPage pmeo)
    (hl : pmeo.lvl = 1) (hlo : lo % 4096 = 0) (hhi : hi % 4096 = 0) (hle : lo ≤ hi)
    (hlt : hi ≤ 2 ^ 48)
    (hrun : eptMapContinuousAddr img vcpu (img.ctx s) m pmeo lo hi = some (m', pmeo')) :
    Mapped img s vcpu lo hi m m' ∧ RwxPage pmeo' ∧ pmeo'.lvl = 1 := by
  have hcount : lo + (hi - lo + (pageSize4k - 1)) / pageSize4k * 4096 = hi := by
    show lo + (hi - lo + 4095) / 4096 * 4096 = hi
    omega
  have hres := eptMapContinuousAddrLoop_mapped _ m pmeo lo m' pmeo' h hp hl hlo
    (by rw [hcount]; exact hlt) hrun
  rwa [hcount] at hres

end Range

/-! ## Writes elsewhere -/

section Elsewhere

variable {img : Image} {s : Slot} {m m' : ByteMem}

theorem PoolInv.of_own (h : PoolInv img s m) (ho : ∀ x, img.Own s x → m' x = m x) :
    PoolInv img s m' ∧ (∀ gpa, (img.ctx s).xlate m' gpa = (img.ctx s).xlate m gpa) ∧
      ∀ {k l p}, (img.ctx s).radix.Node m k l p → (img.ctx s).radix.Node m' k l p := by
  have W := img.walkable s
  have hf : (img.ctx s).radix.Frame m m' :=
    h.frame (fun x hx => ho x (Image.own_root hx)) fun j hj x hx => ho x (Image.own_page hj hx)
  have hflag : ∀ j, j < 128 → m' (img.flag s j) = m (img.flag s j) :=
    fun j hj => ho _ (Image.own_flag hj)
  have hpme : ∀ {va l p}, (img.ctx s).radix.Node m' va l p →
      (img.ctx s).radix.Node m va l p ∧
        (img.ctx s).pme m' l p va = (img.ctx s).pme m l p va := by
    intro va l p hn
    have hn' := (hf.same W.top_pos va).node_rev hn
    exact ⟨hn', congrArg (BitVec.setWidth 64) (hf.same W.top_pos va _ _ hn')⟩
  refine ⟨⟨hf.tree W.top_pos h.tree, fun hn ht => ?_, fun hn ht => ?_, fun j hj h0 x hx => ?_,
    fun j hj => ?_⟩, fun gpa => ?_, fun {k l p} hn => (hf.same W.top_pos k).node hn⟩
  · obtain ⟨hn', heq⟩ := hpme hn
    rw [heq] at ht ⊢
    obtain ⟨j, hj, ha, h1⟩ := h.table hn' ht
    exact ⟨j, hj, ha, (hflag j hj).trans h1⟩
  · obtain ⟨hn', heq⟩ := hpme hn
    rw [heq] at ht ⊢
    exact h.prot hn' ht
  · rw [ho x (Image.own_page hj hx)]
    rw [hflag j hj] at h0
    exact h.free j hj h0 x hx
  · rw [hflag j hj]
    exact h.flags j hj
  · rw [HptwCtx.xlate, HptwCtx.xlate,
      Radix.lookup_congr ((hf.same W.top_pos gpa).walk_eq .root)]

theorem Image.target_span {n x : Nat} (hn : n < 256) (hx : x ∈ span (img.targetAt n) 16) :
    x ∈ span img.eptTarget 1048576 := by
  have hx' : img.eptTarget + n * 4096 ≤ x ∧ x < img.eptTarget + n * 4096 + 16 := hx
  exact ⟨by omega, by omega⟩

theorem Image.largePage_span {i x : Nat} (hi : i < 2) (hx : x ∈ span (img.largePage i) 16) :
    x ∈ span img.largePages 4194304 := by
  have hx' : img.largePages + i * 0x200000 ≤ x ∧ x < img.largePages + i * 0x200000 + 16 := hx
  exact ⟨by omega, by omega⟩

theorem Image.fill_target_own {n : Nat} (hn : n < 256) (x : Nat) (ho : img.Own s x) :
    m.fill (img.targetAt n) 16 (BitVec.ofNat 8 n) x = m x :=
  fill_of_notMem fun hin => (Image.own_apart ho).2.1 (img.target_span hn hin)

theorem Image.targetAt_bounds {n : Nat} (hn : n < 256) :
    img.targetAt n < 2 ^ 48 ∧ img.targetAt n % 4096 = 0 := by
  obtain ⟨-, -, -, -, h, -⟩ := img.bounds
  have hhi := img.high_le
  have hal : img.eptTarget % 4096 = 0 := img.target_aligned
  show img.eptTarget + n * 4096 < 2 ^ 48 ∧ (img.eptTarget + n * 4096) % 4096 = 0
  omega

theorem Image.largePage_bounds {i : Nat} (hi : i < 2) :
    img.low ≤ img.largePage i ∧ img.largePage i + 0x200000 ≤ img.high ∧
      img.largePage i % 0x200000 = 0 := by
  obtain ⟨-, -, -, -, -, h⟩ := img.bounds
  have hal : img.largePages % 0x200000 = 0 := img.large_aligned
  show img.low ≤ img.largePages + i * 0x200000 ∧
    img.largePages + i * 0x200000 + 0x200000 ≤ img.high ∧
    (img.largePages + i * 0x200000) % 0x200000 = 0
  omega

theorem Image.toNat_largePage {i : Nat} (hi : i < 2) :
    (hva2spa (img.largePage i)).toNat = img.largePage i := by
  have h := img.largePage_bounds hi
  have hhi := img.high_le
  exact toNat_ofNat_lt (by omega)

end Elsewhere

/-! ## The remapping every call does -/

section Remap

variable {img : Image} {shvOpt : BitVec 64} {s : Slot} {n : Nat} {m m' : ByteMem} {pmeo : HptPmeo}

/-- The tables that the remapping needs exist. -/
structure Ready (img : Image) (shvOpt : BitVec 64) (s : Slot) (m : ByteMem) : Prop where
  target : ∃ q, (img.ctx s).radix.Node m 0x12340000#64 1 q
  large : UseLargePage shvOpt → ∀ i, i < 2 →
    ∃ q, (img.ctx s).radix.Node m (hva2spa (img.largePage i)) 2 q

/-- What the remapping of a call with `ept_num == n` does. -/
structure Remapped (img : Image) (shvOpt : BitVec 64) (s : Slot) (n : Nat) (m m' : ByteMem) :
    Prop where
  inv : PoolInv img s m'
  xlate : ∀ gpa : BitVec 64, gpa.toNat < 2 ^ 48 → (img.ctx s).xlate m' gpa =
    if InTarget gpa.toNat then eptTargetMapping img n gpa
    else if UseLargePage shvOpt ∧ img.InLarge 0 gpa.toNat then eptLargeMapping img 1 gpa
    else if UseLargePage shvOpt ∧ img.InLarge 1 gpa.toNat then eptLargeMapping img 0 gpa
    else (img.ctx s).xlate m gpa
  target : ∀ x ∈ span (img.targetAt n) 16, m' x = BitVec.ofNat 8 n
  ready : Ready img shvOpt s m'
  frame : ∀ x, ¬ img.Own s x → x ∉ span img.eptTarget 1048576 →
    x ∉ span img.largePages 4194304 → m' x = m x

variable (img) in
theorem eptTargetPmeo_spec (hp : RwxPage pmeo) (hl : pmeo.lvl = 1) (hn : n < 256) :
    ∃ pmeo', eptTargetPmeo img n pmeo = some pmeo' ∧ pmeo'.t = .ept ∧ pmeo'.lvl = 1 ∧
      ∀ gpa, (if pmePresent .ept pmeo'.lvl pmeo'.pme then some (pmeo'.mapping gpa) else none) =
        eptTargetMapping img n gpa := by
  by_cases h0 : n = 0
  · refine ⟨{ pmeo with pme := 0 }, ?_, hp.type, hl, fun gpa => ?_⟩
    · rw [eptTargetPmeo, if_neg (not_not_intro h0)]
      rfl
    · rw [eptTargetMapping, if_pos h0, if_neg]
      rw [pmePresent_zero]
      decide
  · obtain ⟨pmeo₁, hc⟩ := hp.setcache_total hptPmtWb (by decide)
    obtain ⟨hp₁, hl₁, hc₁⟩ := hp.setcache hc
    obtain ⟨hb, hm⟩ := img.targetAt_bounds hn
    obtain ⟨pmeo₂, ha, hp₂, hl₂, ha₂, hc₂⟩ := hp₁.setAddress (representable_ofNat hb hm)
    refine ⟨pmeo₂, ?_, hp₂.type, hl₂.trans (hl₁.trans hl), fun gpa => ?_⟩
    · rw [eptTargetPmeo, if_pos h0, hc]
      exact ha
    · rw [if_pos hp₂.present, hp₂.mapping_eq ha₂, hc₂, hc₁, hl₂.trans (hl₁.trans hl),
        eptTargetMapping, if_neg h0]
      rfl

theorem eptLargePmeo_eq (ht : pmeo.t = .ept) :
    eptLargePmeo pmeo = some { pme := 0xb7#64, t := .ept, lvl := 2 } := by
  obtain ⟨pme, t, lvl⟩ := pmeo
  obtain rfl : t = .ept := ht
  show eptLargePmeo { pme := 0, t := .ept, lvl := 1 } = _
  decide

theorem rwxPage_large : RwxPage { pme := 0xb7#64, t := .ept, lvl := 2 } where
  type := rfl
  lvl := Or.inr rfl
  rwx i hi := by
    have : i = 0 ∨ i = 1 ∨ i = 2 := by omega
    rcases this with rfl | rfl | rfl <;> rfl
  page := by decide

variable (img) in
theorem RwxPage.setAddress_large {i : Nat} (hp : RwxPage pmeo) (hl : pmeo.lvl = 2)
    (hc : br64GetHl pmeo.pme 5 3 = hptPmtWb) (hi : i < 2) :
    ∃ pmeo', pmeo.setAddress (hva2spa (img.largePage i)) = some pmeo' ∧ RwxPage pmeo' ∧
      pmeo'.lvl = 2 ∧ br64GetHl pmeo'.pme 5 3 = hptPmtWb ∧
      ∀ gpa, some (pmeo'.mapping gpa) = eptLargeMapping img i gpa := by
  obtain ⟨-, hb, hm⟩ := img.largePage_bounds hi
  have hhi := img.high_le
  obtain ⟨pmeo', ha, hp', hl', ha', hc'⟩ :=
    hp.setAddress (representable_ofNat (a := img.largePage i) (by omega) (by omega))
  refine ⟨pmeo', ha, hp', hl'.trans hl, hc'.trans hc, fun gpa => ?_⟩
  rw [hp'.mapping_eq ha', hc', hc, hl'.trans hl]
  rfl

variable (img) in
theorem eptSwapLargePages_eq (ctx : HptwCtx) (ht : pmeo.t = .ept) :
    ∃ pmeo₀ pmeo₁, RwxPage pmeo₀ ∧ pmeo₀.lvl = 2 ∧ RwxPage pmeo₁ ∧ pmeo₁.lvl = 2 ∧
      (∀ gpa, some (pmeo₀.mapping gpa) = eptLargeMapping img 0 gpa) ∧
      (∀ gpa, some (pmeo₁.mapping gpa) = eptLargeMapping img 1 gpa) ∧
      ∀ m, eptSwapLargePages img ctx m pmeo =
        (assertInsert ctx m pmeo₀ (hva2spa (img.largePage 1))).bind fun m =>
          (assertInsert ctx m pmeo₁ (hva2spa (img.largePage 0))).bind fun m =>
            some ((m.fill (img.largePage 0) 16 0x41#8).fill (img.largePage 1) 16 0x42#8) := by
  obtain ⟨pmeo₀, ha₀, hp₀, hl₀, hc₀, hm₀⟩ :=
    rwxPage_large.setAddress_large img (i := 0) rfl (by decide) (by decide)
  obtain ⟨pmeo₁, ha₁, hp₁, hl₁, -, hm₁⟩ :=
    hp₀.setAddress_large img (i := 1) hl₀ hc₀ (by decide)
  refine ⟨pmeo₀, pmeo₁, hp₀, hl₀, hp₁, hl₁, hm₀, hm₁, fun m => ?_⟩
  have hal : ∀ i, i < 2 → ((hva2spa (img.largePage i)).toNat % pageSize2m == 0) = true := by
    intro i hi
    rw [img.toNat_largePage hi, beq_iff_eq]
    exact (img.largePage_bounds hi).2.2
  simp only [eptSwapLargePages, hal 0 (by decide), hal 1 (by decide), cAssert_true,
    eptLargePmeo_eq ht, ha₀, ha₁, Option.bind_eq_bind, Option.bind_some]
  rfl

/-- Two large pages and the page of `0x12340000` are three different regions. -/
theorem Image.inLarge_region {i : Nat} (hi : i < 2) {gpa : BitVec 64} (hg : gpa.toNat < 2 ^ 48) :
    regionOf .ept 2 gpa = regionOf .ept 2 (hva2spa (img.largePage i)) ↔
      img.InLarge i gpa.toNat := by
  have hb := img.largePage_bounds hi
  have hhi := img.high_le
  have hto := img.toNat_largePage hi
  rw [regionOf_two hg, regionOf_two (by omega), hto, Image.InLarge]

theorem inTarget_region {gpa : BitVec 64} (hg : gpa.toNat < 2 ^ 48) :
    regionOf .ept 1 gpa = regionOf .ept 1 0x12340000#64 ↔ InTarget gpa.toNat := by
  rw [regionOf_one hg, regionOf_one (by decide), InTarget]
  exact Iff.rfl

theorem Image.inTarget_not_inLarge {i g : Nat} (hi : i < 2) (h : InTarget g) :
    ¬ img.InLarge i g := by
  intro hl
  have hb := img.largePage_bounds hi
  have hhi := img.high_le
  have h' : g / 4096 = 0x12340 := h
  have hl' : g / 0x200000 = img.largePage i / 0x200000 := hl
  omega

theorem eptSwapLargePages_spec (h : PoolInv img s m) (ht : pmeo.t = .ept)
    (hrun : eptSwapLargePages img (img.ctx s) m pmeo = some m') :
    PoolInv img s m' ∧
      (∀ gpa : BitVec 64, gpa.toNat < 2 ^ 48 → (img.ctx s).xlate m' gpa =
        if img.InLarge 0 gpa.toNat then eptLargeMapping img 1 gpa
        else if img.InLarge 1 gpa.toNat then eptLargeMapping img 0 gpa
        else (img.ctx s).xlate m gpa) ∧
      (∀ i, i < 2 → ∃ q, (img.ctx s).radix.Node m' (hva2spa (img.largePage i)) 2 q) ∧
      (∀ {q}, (img.ctx s).radix.Node m 0x12340000#64 1 q →
        (img.ctx s).radix.Node m' 0x12340000#64 1 q) ∧
      ∀ x, ¬ img.Own s x → x ∉ span img.largePages 4194304 → m' x = m x := by
  obtain ⟨pmeo₀, pmeo₁, hp₀, hl₀, hp₁, hl₁, hm₀, hm₁, heq⟩ :=
    eptSwapLargePages_eq img (img.ctx s) ht
  rw [heq m] at hrun
  obtain ⟨m₁, hins₁, hrun⟩ := Option.bind_eq_some_iff.mp hrun
  obtain ⟨m₂, hins₂, hrun⟩ := Option.bind_eq_some_iff.mp hrun
  obtain rfl := Option.some.inj hrun
  have I₁ := h.inserted hp₀.type hp₀.lvlOk hp₀.not_table hins₁
  have I₂ := I₁.inv.inserted hp₁.type hp₁.lvlOk hp₁.not_table hins₂
  have hfill : ∀ x, x ∉ span img.largePages 4194304 →
      ((m₂.fill (img.largePage 0) 16 0x41#8).fill (img.largePage 1) 16 0x42#8) x = m₂ x := by
    intro x hx
    rw [fill_of_notMem fun hin => hx (img.largePage_span (by decide) hin),
      fill_of_notMem fun hin => hx (img.largePage_span (by decide) hin)]
  obtain ⟨hinv, hx, hnode⟩ := I₂.inv.of_own fun x ho => hfill x (Image.own_apart ho).2.2
  refine ⟨hinv, fun gpa hg => ?_, fun i hi => ?_, fun {q} hq => ?_, fun x hx hout => ?_⟩
  · rw [hx gpa, I₂.xlate gpa, I₁.xlate gpa, if_pos hp₁.present, if_pos hp₀.present, hl₀, hl₁,
      hm₀, hm₁, if_congr (img.inLarge_region (by decide) hg) rfl rfl,
      if_congr (img.inLarge_region (by decide) hg) rfl rfl]
  · have hcase : i = 0 ∨ i = 1 := by omega
    rcases hcase with rfl | rfl
    · obtain ⟨q, hq⟩ := I₂.node
      rw [hl₁] at hq
      exact ⟨q, hnode hq⟩
    · obtain ⟨q, hq⟩ := I₁.node
      rw [hl₀] at hq
      exact ⟨q, hnode (I₂.nodes hq (Or.inl (by rw [hl₁])))⟩
  · have hout : ∀ i, i < 2 →
        regionOf .ept 2 0x12340000#64 ≠ regionOf .ept 2 (hva2spa (img.largePage i)) := by
      intro i hi hr
      exact img.inTarget_not_inLarge hi (show InTarget 0x12340000 by decide)
        ((img.inLarge_region hi (by decide)).mp hr)
    refine hnode (I₂.nodes (I₁.nodes hq (Or.inr ?_)) (Or.inr ?_))
    · rw [hl₀]
      exact hout 1 (by decide)
    · rw [hl₁]
      exact hout 0 (by decide)
  · rw [hfill x hout, I₂.grows.own x hx, I₁.grows.own x hx]

/-- **The remapping of a call**, when it returns. -/
theorem eptRemap_remapped (h : PoolInv img s m) (hp : RwxPage pmeo) (hl : pmeo.lvl = 1)
    (hn : n < 256) (hrun : eptRemap img shvOpt (img.ctx s) n m pmeo = some m') :
    Remapped img shvOpt s n m m' := by
  obtain ⟨pmeo', hpm, ht', hl', hmap⟩ := eptTargetPmeo_spec img hp hl hn
  simp only [eptRemap, hpm, Option.bind_eq_bind, Option.bind_some] at hrun
  obtain ⟨m₁, hins, hrun⟩ := Option.bind_eq_some_iff.mp hrun
  have hfill : ∀ x, x ∉ span img.eptTarget 1048576 →
      m.fill (img.targetAt n) 16 (BitVec.ofNat 8 n) x = m x :=
    fun x hx => fill_of_notMem fun hin => hx (img.target_span hn hin)
  obtain ⟨hinv₀, hx₀, -⟩ := h.of_own (img.fill_target_own hn)
  have hok : LvlOk .ept pmeo'.lvl := by rw [hl']; decide
  have hleaf : pmeTable .ept pmeo'.lvl pmeo'.pme = false := by rw [hl', pmeTable_one]
  have I := hinv₀.inserted ht' hok hleaf hins
  have hx₁ : ∀ gpa : BitVec 64, gpa.toNat < 2 ^ 48 → (img.ctx s).xlate m₁ gpa =
      if InTarget gpa.toNat then eptTargetMapping img n gpa else (img.ctx s).xlate m gpa := by
    intro gpa hg
    rw [I.xlate gpa, hmap gpa, hx₀ gpa, hl', if_congr (inTarget_region hg) rfl rfl]
  have htgt : ∀ x ∈ span (img.targetAt n) 16, m₁ x = BitVec.ofNat 8 n := by
    intro x hx
    rw [I.grows.own x fun ho => (Image.own_apart ho).2.1 (img.target_span hn hx),
      fill_of_mem hx]
  obtain ⟨q, hq⟩ := I.node
  rw [hl'] at hq
  by_cases hlarge : UseLargePage shvOpt
  · replace hrun := (if_pos hlarge).symm.trans hrun
    obtain ⟨hinv, hx₂, hnl, hnt, hfr⟩ := eptSwapLargePages_spec I.inv ht' hrun
    refine ⟨hinv, fun gpa hg => ?_, fun x hx => ?_, ⟨⟨q, hnt hq⟩, fun _ => hnl⟩,
      fun x ho ht hlg => ?_⟩
    · rw [hx₂ gpa hg, hx₁ gpa hg]
      by_cases hin : InTarget gpa.toNat
      · rw [if_neg (img.inTarget_not_inLarge (by decide) hin),
          if_neg (img.inTarget_not_inLarge (by decide) hin), if_pos hin, if_pos hin]
      · simp only [hin, hlarge, true_and, if_false]
    · have hxt := img.target_span hn hx
      rw [hfr x (fun ho => (Image.own_apart ho).2.1 hxt)
        (img.disjoint.2.2.2.2.notMem hxt), htgt x hx]
    · rw [hfr x ho hlg, I.grows.own x ho, hfill x ht]
  · replace hrun := (if_neg hlarge).symm.trans hrun
    obtain rfl := Option.some.inj hrun
    refine ⟨I.inv, fun gpa hg => ?_, htgt, ⟨⟨q, hq⟩, fun hc => absurd hc hlarge⟩,
      fun x ho ht _ => ?_⟩
    · rw [hx₁ gpa hg]
      simp only [hlarge, false_and, if_false]
    · rw [I.grows.own x ho, hfill x ht]

variable (shvOpt) in
/-- Once `0x12340000` is mapped, the swap needs the tables above the large pages only. -/
theorem eptRemap_of_insert {pmeo' : HptPmeo} {m₁ : ByteMem} (h : PoolInv img s m₁)
    (hpm : eptTargetPmeo img n pmeo = some pmeo') (ht' : pmeo'.t = .ept)
    (hins : assertInsert (img.ctx s) (m.fill (img.targetAt n) 16 (BitVec.ofNat 8 n)) pmeo'
      0x12340000#64 = some m₁)
    (hnode : UseLargePage shvOpt → ∀ i, i < 2 →
      ∃ q, (img.ctx s).radix.Node m₁ (hva2spa (img.largePage i)) 2 q) :
    ∃ m', eptRemap img shvOpt (img.ctx s) n m pmeo = some m' ∧
      ∀ j, j < 128 → m' (img.flag s j) = m₁ (img.flag s j) := by
  simp only [eptRemap, hpm, hins, Option.bind_eq_bind, Option.bind_some]
  by_cases hlarge : UseLargePage shvOpt
  · obtain ⟨pmeo₀, pmeo₁, hp₀, hl₀, hp₁, hl₁, -, -, heq⟩ :=
      eptSwapLargePages_eq img (img.ctx s) ht'
    obtain ⟨q₁, hq₁⟩ := hnode hlarge 1 (by decide)
    rw [← hl₀] at hq₁
    obtain ⟨m₂, hins₂, hflag₂⟩ := h.insert_node pmeo₀ hp₀.lvlOk hq₁
    have I₂ := h.inserted hp₀.type hp₀.lvlOk hp₀.not_table hins₂
    obtain ⟨q₀, hq₀⟩ := hnode hlarge 0 (by decide)
    have hq₀' := I₂.nodes hq₀ (Or.inl (by rw [hl₀]))
    rw [← hl₁] at hq₀'
    obtain ⟨m₃, hins₃, hflag₃⟩ := I₂.inv.insert_node pmeo₁ hp₁.lvlOk hq₀'
    have hswap := heq m₁
    rw [hins₂, Option.bind_some, hins₃, Option.bind_some] at hswap
    refine ⟨_, (if_pos hlarge).trans hswap, fun j hj => ?_⟩
    have hown : img.Own s (img.flag s j) := Image.own_flag hj
    have hout := (Image.own_apart hown).2.2
    rw [fill_of_notMem fun hin => hout (img.largePage_span (by decide) hin),
      fill_of_notMem fun hin => hout (img.largePage_span (by decide) hin), hflag₃ j hj,
      hflag₂ j hj]
  · exact ⟨m₁, if_neg hlarge, fun _ _ => rfl⟩

/-- Where the tables exist the remapping returns and takes nothing from the pool. -/
theorem eptRemap_ready (h : PoolInv img s m) (hp : RwxPage pmeo) (hl : pmeo.lvl = 1)
    (hn : n < 256) (hr : Ready img shvOpt s m) :
    ∃ m', eptRemap img shvOpt (img.ctx s) n m pmeo = some m' ∧
      ∀ j, j < 128 → m' (img.flag s j) = m (img.flag s j) := by
  obtain ⟨pmeo', hpm, ht', hl', -⟩ := eptTargetPmeo_spec img hp hl hn
  have hok : LvlOk .ept pmeo'.lvl := by rw [hl']; decide
  have hleaf : pmeTable .ept pmeo'.lvl pmeo'.pme = false := by rw [hl', pmeTable_one]
  have hfill := img.fill_target_own (m := m) (s := s) hn
  obtain ⟨hinv₀, -, hnode₀⟩ := h.of_own hfill
  obtain ⟨q, hq⟩ := hr.target
  have hq₀ := hnode₀ hq
  rw [← hl'] at hq₀
  obtain ⟨m₁, hins, hflag₁⟩ := hinv₀.insert_node pmeo' hok hq₀
  have I := hinv₀.inserted ht' hok hleaf hins
  obtain ⟨m', hrun, hflag⟩ := eptRemap_of_insert shvOpt I.inv hpm ht' hins
    fun hlarge i hi => by
      obtain ⟨q, hq⟩ := hr.large hlarge i hi
      exact ⟨q, I.nodes (hnode₀ hq) (Or.inl (by rw [hl']; decide))⟩
  refine ⟨m', hrun, fun j hj => ?_⟩
  rw [hflag j hj, hflag₁ j hj, hfill _ (Image.own_flag hj)]

end Remap

/-! ## One call -/

section Build

variable {img : Image} {shvOpt : BitVec 64} {s : Slot} {vcpu : Vcpu} {n : Nat} {m m' : ByteMem}
  {pmeo pmeo' : HptPmeo}

/-- `&ept_valid` of a slot. -/
def Image.valid (img : Image) (s : Slot) : Nat := img.validAt s.idx s.r

theorem Image.valid_span : img.valid s ∈ span img.eptValid 20 := by
  have h := s.lt
  show img.eptValid ≤ img.eptValid + (s.idx * 2 + s.r) ∧
    img.eptValid + (s.idx * 2 + s.r) < img.eptValid + 20
  omega

theorem Image.valid_inj {s' : Slot} (h : img.valid s = img.valid s') : s = s' := by
  have h' : img.eptValid + (s.idx * 2 + s.r) = img.eptValid + (s'.idx * 2 + s'.r) := h
  have h₁ : s.r < 2 := s.r_lt
  have h₂ : s'.r < 2 := s'.r_lt
  exact Slot.ext' (by omega) (by omega)

theorem Image.own_ne_valid (s' : Slot) {x : Nat} (h : img.Own s x) : x ≠ img.valid s' := by
  rintro rfl
  exact (Image.own_apart h).1 Image.valid_span

theorem Image.xlate_zero (hz : ∀ x, img.Own s x → m x = 0) (gpa : BitVec 64) :
    (img.ctx s).xlate m gpa = none := by
  have W := img.walkable s
  have he := Image.entry_zero hz gpa
  have habs := (img.ctx s).radix.absent_zero 4
  have hstop := (Radix.Node.root (R := (img.ctx s).radix) (m := m) (k := gpa)).stop_eq_of_child_none
    W.top_pos (by
      show (img.ctx s).radix.child 4 ((img.ctx s).radix.entry m 4 (img.ctx s).radix.root gpa) = none
      rw [he]
      exact (img.ctx s).radix.child_absent habs)
  have hlook : (img.ctx s).radix.lookup m gpa = none := by
    rw [Radix.lookup, hstop]
    refine if_pos ?_
    show (img.ctx s).radix.absent 4 ((img.ctx s).radix.entry m 4 (img.ctx s).radix.root gpa) = true
    rw [he]
    exact habs
  rw [HptwCtx.xlate, hlook]
  rfl

/-- What the calls leave alone: addresses that are not remapped are translated as the first
build of `vcpu` set them up. -/
structure Base (img : Image) (shvOpt : BitVec 64) (s : Slot) (vcpu : Vcpu) (m : ByteMem) :
    Prop where
  inv : PoolInv img s m
  rest : ∀ gpa : BitVec 64, gpa.toNat < 2 ^ 48 → ¬ InTarget gpa.toNat →
    ¬ (UseLargePage shvOpt ∧ img.InLarge 0 gpa.toNat) →
    ¬ (UseLargePage shvOpt ∧ img.InLarge 1 gpa.toNat) →
    (img.ctx s).xlate m gpa =
      if img.IdentityMapped gpa.toNat then eptIdentity img vcpu gpa else none
  memType : ∀ gpa : BitVec 64, gpa.toNat < 2 ^ 48 → img.IdentityMapped gpa.toNat →
    (eptIdentity img vcpu gpa).isSome

/-- The two states of a slot, with the CPU that built it first. -/
inductive SlotOk (img : Image) (shvOpt : BitVec 64) (s : Slot) (m : ByteMem) :
    Option Vcpu → Prop
  | fresh : (∀ x, img.Own s x → m x = 0) → m (img.valid s) = 0 → SlotOk img shvOpt s m none
  | built {vcpu : Vcpu} : Base img shvOpt s vcpu m → Ready img shvOpt s m →
      m (img.valid s) ≠ 0 → SlotOk img shvOpt s m (some vcpu)

theorem SlotOk.of_own {first : Option Vcpu} (h : SlotOk img shvOpt s m first)
    (ho : ∀ x, img.Own s x → m' x = m x) (hv : m' (img.valid s) = m (img.valid s)) :
    SlotOk img shvOpt s m' first ∧
      ∀ gpa, (img.ctx s).xlate m' gpa = (img.ctx s).xlate m gpa := by
  cases h with
  | fresh hz h0 =>
      have hz' : ∀ x, img.Own s x → m' x = 0 := fun x hx => (ho x hx).trans (hz x hx)
      refine ⟨.fresh hz' (hv.trans h0), fun gpa => ?_⟩
      rw [Image.xlate_zero hz', Image.xlate_zero hz]
  | built hb hr h1 =>
      obtain ⟨hinv, hx, hn⟩ := hb.inv.of_own ho
      refine ⟨.built ⟨hinv, fun gpa hg h₁ h₂ h₃ => ?_, hb.memType⟩ ?_ (by rw [hv]; exact h1), hx⟩
      · rw [hx gpa, hb.rest gpa hg h₁ h₂ h₃]
      · obtain ⟨q, hq⟩ := hr.target
        refine ⟨⟨q, hn hq⟩, fun hl i hi => ?_⟩
        obtain ⟨q, hq⟩ := hr.large hl i hi
        exact ⟨q, hn hq⟩

theorem SlotOk.poolInv {first : Option Vcpu} (h : SlotOk img shvOpt s m first) :
    PoolInv img s m := by
  cases h with
  | fresh hz _ => exact poolInv_zero hz
  | built hb _ _ => exact hb.inv

theorem eptBuildFirst_spec (hz : ∀ x, img.Own s x → m x = 0) (hp : RwxPage pmeo)
    (hl : pmeo.lvl = 1)
    (hrun : eptBuildFirst img vcpu (img.ctx s) m pmeo = some (m', pmeo')) :
    PoolInv img s m' ∧ Grows img s m m' ∧ RwxPage pmeo' ∧ pmeo'.lvl = 1 ∧
      (∀ gpa : BitVec 64, gpa.toNat < 2 ^ 48 → (img.ctx s).xlate m' gpa =
        if img.IdentityMapped gpa.toNat then eptIdentity img vcpu gpa else none) ∧
      (∀ gpa : BitVec 64, gpa.toNat < 2 ^ 48 → img.IdentityMapped gpa.toNat →
        (eptIdentity img vcpu gpa).isSome) ∧
      ∀ gpa : BitVec 64, img.low ≤ gpa.toNat → gpa.toNat < img.high →
        ∃ q, (img.ctx s).radix.Node m' gpa 1 q := by
  have hlo := img.low_aligned
  have hhi := img.high_aligned
  have hle := img.high_le
  have hlow := img.low_ge
  have hlt : img.low ≤ img.high := by
    have := img.bounds.1
    omega
  simp only [eptBuildFirst, Option.bind_eq_bind] at hrun
  obtain ⟨⟨m₁, e₁⟩, hr₁, hrun⟩ := Option.bind_eq_some_iff.mp hrun
  obtain ⟨⟨m₂, e₂⟩, hr₂, hrun⟩ := Option.bind_eq_some_iff.mp hrun
  obtain ⟨⟨m₃, e₃⟩, hr₃, hr₄⟩ := Option.bind_eq_some_iff.mp hrun
  obtain ⟨M₁, p₁, l₁⟩ := eptMapContinuousAddr_mapped (poolInv_zero hz) hp hl hlo hhi hlt
    (by omega) hr₁
  obtain ⟨M₂, p₂, l₂⟩ := eptMapContinuousAddr_mapped M₁.inv p₁ l₁ (by decide) (by decide)
    (by decide) (by decide) hr₂
  obtain ⟨M₃, p₃, l₃⟩ := eptMapContinuousAddr_mapped M₂.inv p₂ l₂ (by decide) (by decide)
    (by decide) (by decide) hr₃
  obtain ⟨M₄, p₄, l₄⟩ := eptMapContinuousAddr_mapped M₃.inv p₃ l₃ (by decide) (by decide)
    (by decide) (by decide) hr₄
  refine ⟨M₄.inv, ((M₁.grows.trans M₂.grows).trans M₃.grows).trans M₄.grows, p₄, l₄,
    fun gpa hg => ?_, fun gpa hg hid => ?_, fun gpa h₁ h₂ => ?_⟩
  · rw [M₄.xlate gpa hg, M₃.xlate gpa hg, M₂.xlate gpa hg, M₁.xlate gpa hg,
      Image.xlate_zero hz]
    by_cases hid : img.IdentityMapped gpa.toNat
    · rw [if_pos hid]
      -- some range has the address, and an earlier one gives the same
      rcases hid with h | h | h <;> simp only [h, and_self, true_and, if_true, ite_self,
        Nat.zero_le]
    · rw [if_neg hid]
      simp only [Image.IdentityMapped, not_or] at hid
      rw [if_neg (by omega), if_neg (by omega), if_neg (by omega), if_neg hid.1]
  · rcases hid with h | h | h
    · exact M₁.memType gpa hg h.1 h.2
    · exact M₄.memType gpa hg (Nat.zero_le _) h
    · exact M₂.memType gpa hg h.1 h.2
  · obtain ⟨q, hq⟩ := M₁.node gpa (by omega) h₁ h₂
    exact ⟨q, M₄.nodes (M₃.nodes (M₂.nodes hq))⟩

theorem eptInitPmeo_eq : eptInitPmeo = some { pme := 7#64, t := .ept, lvl := 1 } := by decide

theorem rwxPage_init : RwxPage { pme := 7#64, t := .ept, lvl := 1 } where
  type := rfl
  lvl := Or.inl rfl
  rwx i hi := by
    have : i = 0 ∨ i = 1 ∨ i = 2 := by omega
    rcases this with rfl | rfl | rfl <;> rfl
  page := by decide

/-- A call for the slot `s`. -/
structure CallFor (s : Slot) (vcpu : Vcpu) (n : Nat) : Prop where
  idx : vcpu.idx = s.idx
  r : n >>> 4 = s.r

theorem CallFor.lt (h : CallFor s vcpu n) : n < 256 := by
  have h₁ := h.r
  have h₂ : s.r < 2 := s.r_lt
  rw [Nat.shiftRight_eq_div_pow] at h₁
  omega

theorem shvBuildEpt_valid_zero (hc : CallFor s vcpu n) (h0 : m (img.valid s) = 0) :
    shvBuildEpt img shvOpt vcpu n m =
      (eptBuildFirst img vcpu (img.ctx s) (m.store (img.valid s) 1 1#8)
        { pme := 7#64, t := .ept, lvl := 1 }).bind fun r =>
        (eptRemap img shvOpt (img.ctx s) n r.1 r.2).bind fun m =>
          some { rootPa := hva2spa (img.root s), mem := m, invept := none } := by
  have hz : (m (img.validAt s.idx s.r) == 0) = true := by rw [beq_iff_eq]; exact h0
  simp only [shvBuildEpt, eptInitPmeo_eq, hc.idx, hc.r, hz, if_true, Option.bind_eq_bind,
    Option.bind_some]
  rfl

theorem shvBuildEpt_valid_one (hc : CallFor s vcpu n) (h1 : m (img.valid s) ≠ 0) :
    shvBuildEpt img shvOpt vcpu n m =
      (eptRemap img shvOpt (img.ctx s) n m { pme := 7#64, t := .ept, lvl := 1 }).bind fun m =>
        some { rootPa := hva2spa (img.root s), mem := m,
               invept := some (eptpOf (hva2spa (img.root s))) } := by
  have hz : (m (img.validAt s.idx s.r) == 0) = false := by
    rw [beq_eq_false_iff_ne]
    exact h1
  simp only [shvBuildEpt, eptInitPmeo_eq, hc.idx, hc.r, hz, Bool.false_eq_true, if_false,
    Option.bind_eq_bind, Option.bind_some]
  rfl

/-- What a call for slot `s` does when it returns; `vcpu` built the root first. -/
structure CallDone (img : Image) (shvOpt : BitVec 64) (s : Slot) (vcpu : Vcpu) (n : Nat)
    (m : ByteMem) (b : EptBuilt) : Prop where
  slot : SlotOk img shvOpt s b.mem (some vcpu)
  xlate : ∀ gpa : BitVec 64, gpa.toNat < 2 ^ 48 →
    (img.ctx s).xlate b.mem gpa = eptSpec img shvOpt vcpu n gpa
  target : ∀ x ∈ span (img.targetAt n) 16, b.mem x = BitVec.ofNat 8 n
  frame : ∀ x, ¬ img.Own s x → x ∉ span img.eptTarget 1048576 →
    x ∉ span img.largePages 4194304 → x ≠ img.valid s → b.mem x = m x
  rootPa : b.rootPa = hva2spa (img.root s)

/-- On top of what the first build left, the remapping completes the map. -/
theorem Remapped.spec (R : Remapped img shvOpt s n m m') (hb : Base img shvOpt s vcpu m) :
    Base img shvOpt s vcpu m' ∧ ∀ gpa : BitVec 64, gpa.toNat < 2 ^ 48 →
      (img.ctx s).xlate m' gpa = eptSpec img shvOpt vcpu n gpa := by
  have hx : ∀ gpa : BitVec 64, gpa.toNat < 2 ^ 48 →
      (img.ctx s).xlate m' gpa = eptSpec img shvOpt vcpu n gpa := by
    intro gpa hg
    rw [R.xlate gpa hg, eptSpec]
    by_cases h₁ : InTarget gpa.toNat
    · rw [if_pos h₁, if_pos h₁]
    · rw [if_neg h₁, if_neg h₁]
      by_cases h₂ : UseLargePage shvOpt ∧ img.InLarge 0 gpa.toNat
      · rw [if_pos h₂, if_pos h₂]
      · rw [if_neg h₂, if_neg h₂]
        by_cases h₃ : UseLargePage shvOpt ∧ img.InLarge 1 gpa.toNat
        · rw [if_pos h₃, if_pos h₃]
        · rw [if_neg h₃, if_neg h₃, hb.rest gpa hg h₁ h₂ h₃]
  refine ⟨⟨R.inv, fun gpa hg h₁ h₂ h₃ => ?_, hb.memType⟩, hx⟩
  rw [hx gpa hg, eptSpec, if_neg h₁, if_neg h₂, if_neg h₃]

theorem valid_span_apart : img.valid s ∉ span img.eptTarget 1048576 ∧
    img.valid s ∉ span img.largePages 4194304 :=
  ⟨img.disjoint.1.2.2.2.1.notMem Image.valid_span, img.disjoint.1.2.2.2.2.notMem Image.valid_span⟩

theorem Image.valid_not_own {s' : Slot} : ¬ img.Own s (img.valid s') :=
  fun ho => Image.own_ne_valid s' ho rfl

/-- **A call, when it returns.** -/
theorem shvBuildEpt_done {first : Option Vcpu} {b : EptBuilt} (hc : CallFor s vcpu n)
    (hs : SlotOk img shvOpt s m first) (hrun : shvBuildEpt img shvOpt vcpu n m = some b) :
    CallDone img shvOpt s (first.getD vcpu) n m b ∧
      b.invept = if first.isSome then some (eptpOf (hva2spa (img.root s))) else none := by
  cases hs with
  | fresh hz h0 =>
      rw [shvBuildEpt_valid_zero hc h0] at hrun
      obtain ⟨⟨m₁, pmeo₁⟩, hfirst, hrun⟩ := Option.bind_eq_some_iff.mp hrun
      obtain ⟨m₂, hremap, hrun⟩ := Option.bind_eq_some_iff.mp hrun
      obtain rfl := Option.some.inj hrun
      have hstore : ∀ x, x ≠ img.valid s → m.store (img.valid s) 1 1#8 x = m x := fun x hx =>
        store_of_notMem fun hin => hx (by simp only [mem_span] at hin; omega)
      have hz' : ∀ x, img.Own s x → m.store (img.valid s) 1 1#8 x = 0 := fun x hx =>
        (hstore x (Image.own_ne_valid _ hx)).trans (hz x hx)
      obtain ⟨hinv, hgrow, hp, hl, hx, hmt, -⟩ := eptBuildFirst_spec hz' rwxPage_init rfl hfirst
      have R := eptRemap_remapped hinv hp hl hc.lt hremap
      have hbase : Base img shvOpt s vcpu _ := ⟨hinv, fun gpa hg _ _ _ => hx gpa hg, hmt⟩
      obtain ⟨hb, hspec⟩ := R.spec hbase
      have hv : m₂ (img.valid s) ≠ 0 := by
        rw [R.frame _ Image.valid_not_own valid_span_apart.1 valid_span_apart.2,
          hgrow.own _ Image.valid_not_own, store_flag_self]
        decide
      refine ⟨⟨.built hb R.ready hv, hspec, R.target, fun x ho ht hlg hne => ?_, rfl⟩, rfl⟩
      exact (R.frame x ho ht hlg).trans ((hgrow.own x ho).trans (hstore x hne))
  | built hb hr h1 =>
      rw [shvBuildEpt_valid_one hc h1] at hrun
      obtain ⟨m₂, hremap, hrun⟩ := Option.bind_eq_some_iff.mp hrun
      obtain rfl := Option.some.inj hrun
      have R := eptRemap_remapped hb.inv rwxPage_init rfl hc.lt hremap
      obtain ⟨hb', hspec⟩ := R.spec hb
      have hv : m₂ (img.valid s) ≠ 0 := by
        rw [R.frame _ Image.valid_not_own valid_span_apart.1 valid_span_apart.2]
        exact h1
      exact ⟨⟨.built hb' R.ready hv, hspec, R.target, fun x ho ht hlg _ => R.frame x ho ht hlg,
        rfl⟩, rfl⟩

theorem shvBuildEpt_again {vcpu₀ : Vcpu} (hc : CallFor s vcpu n)
    (hs : SlotOk img shvOpt s m (some vcpu₀)) :
    ∃ b, shvBuildEpt img shvOpt vcpu n m = some b ∧
      ∀ j, j < 128 → b.mem (img.flag s j) = m (img.flag s j) := by
  cases hs with
  | built hb hr h1 =>
      obtain ⟨m', hremap, hflag⟩ := eptRemap_ready hb.inv rwxPage_init rfl hc.lt hr
      rw [shvBuildEpt_valid_one hc h1, hremap]
      exact ⟨_, rfl, hflag⟩

theorem CallDone.other {s' : Slot} {first : Option Vcpu} {b : EptBuilt}
    (h : CallDone img shvOpt s vcpu n m b) (hne : s' ≠ s) (hs : SlotOk img shvOpt s' m first) :
    SlotOk img shvOpt s' b.mem first ∧
      (∀ gpa, (img.ctx s').xlate b.mem gpa = (img.ctx s').xlate m gpa) ∧
      ∀ j, j < 128 → b.mem (img.flag s' j) = m (img.flag s' j) := by
  have ho : ∀ x, img.Own s' x → b.mem x = m x := fun x hx =>
    h.frame x (Image.own_disjoint hne hx) (Image.own_apart hx).2.1 (Image.own_apart hx).2.2
      (Image.own_ne_valid _ hx)
  have hv : b.mem (img.valid s') = m (img.valid s') :=
    h.frame _ Image.valid_not_own valid_span_apart.1 valid_span_apart.2
      fun heq => hne (Image.valid_inj heq)
  obtain ⟨hs', hx⟩ := hs.of_own ho hv
  exact ⟨hs', hx, fun j hj => ho _ (Image.own_flag hj)⟩

end Build

end Shv
