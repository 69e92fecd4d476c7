/-
# `Shv.EptRun` — runs of `shv_build_ept`

Any number of CPUs call `shv_build_ept` in any order, each call for one of the
two roots of its CPU.  Over such runs, from zeroed `.bss`:

* `ept_run_translation` — after each call its root represents `eptSpec`, and no
  other root has changed;
* `ept_switch_no_alloc` — once a root has been built, every later call for it
  returns and takes no page from any pool;
* `ept_run_returns` — a pool of 128 pages is large enough for an image below
  246 MiB, so that under this condition no call halts at all.

The first two are inductions over the list of calls with the step lemmas of
`Shv.EptBuild`.  The last one counts: while only 4K pages are mapped, every page
that was given out is a table in use, and the tables in use are told apart by
their level and region.
-/
import Shv.EptBuild
import Mathlib.Data.Fintype.Card

namespace Shv

open ByteMem

variable {img : Image} {shvOpt : BitVec 64} {m m₀ : ByteMem} {calls : List (Vcpu × Nat)}

/-! ## Runs -/

/-- What the callers of `shv_build_ept` guarantee: `vcpu->idx` and `ept_num` are in range. -/
def CallOk (c : Vcpu × Nat) : Prop := c.1.idx < maxVcpuEntries ∧ c.2 < shvEptCount <<< 4

def slotOf (c : Vcpu × Nat) (h : CallOk c) : Slot where
  idx := c.1.idx
  r := c.2 >>> 4
  idx_lt := h.1
  r_lt := by
    have h₂ : c.2 < 32 := h.2
    rw [Nat.shiftRight_eq_div_pow]
    show c.2 / 16 < 2
    omega

/-- A sequence of `shv_build_ept` calls, one after another. -/
def runBuilds (img : Image) (shvOpt : BitVec 64) (m : ByteMem) (calls : List (Vcpu × Nat)) :
    Halting ByteMem :=
  calls.foldlM (fun m c => (shvBuildEpt img shvOpt c.1 c.2 m).map EptBuilt.mem) m

def isCallFor (s : Slot) (c : Vcpu × Nat) : Bool := c.1.idx == s.idx && c.2 >>> 4 == s.r

/-- The CPU that made the first call for a slot, as it was then. -/
def firstBuilder (calls : List (Vcpu × Nat)) (s : Slot) : Option Vcpu :=
  (calls.find? (isCallFor s)).map Prod.fst

theorem isCallFor_iff {s : Slot} {c : Vcpu × Nat} :
    isCallFor s c = true ↔ c.1.idx = s.idx ∧ c.2 >>> 4 = s.r := by
  rw [isCallFor, Bool.and_eq_true, beq_iff_eq, beq_iff_eq]

theorem callFor_slotOf {c : Vcpu × Nat} (h : CallOk c) : CallFor (slotOf c h) c.1 c.2 :=
  ⟨rfl, rfl⟩

theorem firstBuilder_concat (calls : List (Vcpu × Nat)) {c : Vcpu × Nat} (h : CallOk c) :
    firstBuilder (calls ++ [c]) (slotOf c h) =
      some ((firstBuilder calls (slotOf c h)).getD c.1) := by
  have hc : isCallFor (slotOf c h) c = true := isCallFor_iff.mpr ⟨rfl, rfl⟩
  rw [firstBuilder, firstBuilder, List.find?_append, List.find?_cons_of_pos hc]
  cases calls.find? (isCallFor (slotOf c h)) <;> rfl

theorem firstBuilder_concat_of_ne (calls : List (Vcpu × Nat)) {c : Vcpu × Nat} (h : CallOk c)
    {s : Slot} (hne : s ≠ slotOf c h) : firstBuilder (calls ++ [c]) s = firstBuilder calls s := by
  have hc : ¬ isCallFor s c = true := fun hc =>
    hne (Slot.ext' (isCallFor_iff.mp hc).1.symm (isCallFor_iff.mp hc).2.symm)
  rw [firstBuilder, firstBuilder, List.find?_append, List.find?_cons_of_neg hc]
  cases calls.find? (isCallFor s) <;> rfl

theorem firstBuilder_isSome {s : Slot} (h : ∃ c ∈ calls, c.1.idx = s.idx ∧ c.2 >>> 4 = s.r) :
    ∃ vcpu, firstBuilder calls s = some vcpu := by
  obtain ⟨c, hc, heq⟩ := h
  have hsome : (calls.find? (isCallFor s)).isSome = true :=
    List.find?_isSome.mpr ⟨c, hc, isCallFor_iff.mpr heq⟩
  obtain ⟨c', hc'⟩ := Option.isSome_iff_exists.mp hsome
  exact ⟨c'.1, by rw [firstBuilder, hc']; rfl⟩

theorem runBuilds_concat (calls : List (Vcpu × Nat)) (c : Vcpu × Nat) :
    runBuilds img shvOpt m₀ (calls ++ [c]) =
      (runBuilds img shvOpt m₀ calls).bind fun m =>
        (shvBuildEpt img shvOpt c.1 c.2 m).map EptBuilt.mem := by
  simp [runBuilds, List.foldlM_append]

theorem Image.ZeroBss.slotOk (hz : img.ZeroBss m₀) (s : Slot) : SlotOk img shvOpt s m₀ none := by
  refine .fresh (fun _ hx => hz.own hx) ?_
  have hz' := hz
  simp only [Image.ZeroBss, eptObjects, List.mem_cons, forall_eq_or_imp] at hz'
  exact hz'.1 _ Image.valid_span

theorem slotOk_step {c : Vcpu × Nat} {b : EptBuilt} (hc : CallOk c)
    (h : ∀ s, SlotOk img shvOpt s m (firstBuilder calls s))
    (hrun : shvBuildEpt img shvOpt c.1 c.2 m = some b) (s : Slot) :
    SlotOk img shvOpt s b.mem (firstBuilder (calls ++ [c]) s) := by
  obtain ⟨D, -⟩ := shvBuildEpt_done (callFor_slotOf hc) (h (slotOf c hc)) hrun
  by_cases hs : s = slotOf c hc
  · subst hs
    rw [firstBuilder_concat]
    exact D.slot
  · rw [firstBuilder_concat_of_ne calls hc hs]
    exact (D.other hs (h s)).1

/-- The run lemma: at every point of a run every slot is untouched or built. -/
theorem runBuilds_slotOk (hz : img.ZeroBss m₀) (hc : ∀ c ∈ calls, CallOk c)
    (hrun : runBuilds img shvOpt m₀ calls = some m) (s : Slot) :
    SlotOk img shvOpt s m (firstBuilder calls s) := by
  induction calls using List.reverseRecOn generalizing m s with
  | nil =>
      obtain rfl := Option.some.inj hrun
      exact hz.slotOk s
  | append_singleton calls c ih =>
      rw [runBuilds_concat] at hrun
      obtain ⟨m₁, hrun₁, hrun⟩ := Option.bind_eq_some_iff.mp hrun
      obtain ⟨b, hb, rfl⟩ := Option.map_eq_some_iff.mp hrun
      refine slotOk_step (hc c (by simp)) (fun s' => ?_) hb s
      exact ih (fun c' hc' => hc c' (List.mem_append_left _ hc')) hrun₁ s'

/-! ## The pool suffices -/

section Room

variable {s : Slot} {vcpu : Vcpu} {m' : ByteMem} {va : BitVec 64} {pmeo : HptPmeo}
  {S : Finset (Nat × Nat)}

/-- The tables a walk for `va` goes through below the root, by level and region, are in `S`. -/
def PathIn (S : Finset (Nat × Nat)) (va : BitVec 64) : Prop :=
  ∀ l, 1 ≤ l → l ≤ 3 → (l, regionOf .ept (l + 1) va) ∈ S

/-- Every page that was given out is a table in use, at a place in `S`; and no entry above
level 1 is a page. -/
structure Roomy (img : Image) (s : Slot) (S : Finset (Nat × Nat)) (m : ByteMem) : Prop where
  linked : ∀ j, j < 128 → m (img.flag s j) ≠ 0 →
    ∃ va l, l ≤ 3 ∧ (img.ctx s).radix.Node m va l (img.page s j) ∧
      (l, regionOf .ept (l + 1) va) ∈ S
  small : ∀ {va l p}, (img.ctx s).radix.Node m va l p → l ≠ 1 →
    pmePage .ept l ((img.ctx s).pme m l p va) = false

/-- While a table is missing the pool is not used up: the pages given out are at other places
of `S`, and no two at the same. -/
theorem Roomy.not_full (R : Roomy img s S m) (hS : S.card ≤ 128) {l : Nat} (hl : 1 ≤ l)
    (hl3 : l ≤ 3) (hpath : PathIn S va) (hno : ∀ p, ¬ (img.ctx s).radix.Node m va l p) :
    ¬ ∀ j, j < 128 → m (img.flag s j) ≠ 0 := by
  intro hfull
  have W := img.walkable s
  have hagree : ∀ {l : Nat} {k k' : BitVec 64}, 1 ≤ l → l ≤ 3 →
      regionOf .ept (l + 1) k = regionOf .ept (l + 1) k' →
      (img.ctx s).radix.Agree (l + 1) k k' := by
    intro l k k' h₁ h₃ hr
    have hok : LvlOk .ept (l + 1) := ⟨by omega, by show l + 1 ≤ 4; omega⟩
    exact (agree_iff_regionOf (img.ctx s) hok).mpr hr
  have hplace : ∀ j : Fin 128, ∃ x ∈ S.erase (l, regionOf .ept (l + 1) va), ∃ k, x.1 ≤ 3 ∧
      (img.ctx s).radix.Node m k x.1 (img.page s j) ∧ x.2 = regionOf .ept (x.1 + 1) k := by
    intro j
    obtain ⟨k, l', h3, hn, hmem⟩ := R.linked j j.isLt (hfull j j.isLt)
    refine ⟨(l', regionOf .ept (l' + 1) k), ?_, k, h3, hn, rfl⟩
    rw [Finset.mem_erase]
    refine ⟨fun heq => ?_, hmem⟩
    obtain ⟨rfl, hr⟩ := Prod.mk.inj heq
    exact hno _ (hn.congr_key (hagree hl hl3 hr))
  choose f hf k h3 hn hr using hplace
  have hinj : Function.Injective f := by
    intro i j hij
    have hnj := hn j
    have hrj := hr j
    rw [← hij] at hnj hrj
    have ha := hagree (W.node_lvl (hn i)).1 (h3 i) ((hr i).symm.trans hrj)
    exact Fin.ext (Image.page_inj (((hn i).congr_key ha).unique hnj))
  have hcard := Finset.card_le_card_of_injOn (s := Finset.univ) f (fun i _ => hf i)
    (fun i _ j _ h => hinj h)
  rw [Finset.card_univ, Fintype.card_fin, Finset.card_erase_of_mem (hpath l hl hl3)] at hcard
  omega

theorem pmePage_zero {l : Nat} (hl : l ≠ 1) :
    pmePage .ept l (BitVec.setWidth 64 (0 : BitVec (8 * (img.ctx s).radix.width))) = false := by
  rw [show BitVec.setWidth 64 (0 : BitVec (8 * (img.ctx s).radix.width)) = 0 by simp, pmePage,
    decide_eq_false hl, Bool.false_or]
  exact Bool.and_false _

theorem Roomy.link {l q j : Nat} {e : BitVec (8 * (img.ctx s).radix.width)}
    (R : Roomy img s S m) (h : PoolInv img s m) (hj : j < 128)
    (L : (img.ctx s).radix.Linking (m.store (img.flag s j) 1 1#8) va l q (img.page s j) e)
    (hpath : PathIn S va) :
    Roomy img s S ((img.ctx s).radix.put (m.store (img.flag s j) 1 1#8) (l + 1) q va e) := by
  have W := img.walkable s
  obtain ⟨hf, h₁⟩ := h.set_flag hj
  have hl : l + 1 ≤ 4 := L.node.le_top
  refine ⟨fun j' hj' hset => ?_, fun {va' l' p'} hn hne => ?_⟩
  · rw [h₁.put_flag L.node hj'] at hset
    by_cases heq : j' = j
    · subst heq
      exact ⟨va, l, by omega, L.node_fresh (.refl _ _), hpath l L.pos (by omega)⟩
    · have hout : img.flag s j' ∉ span (img.flag s j) 1 := by
        rw [mem_span, Image.flag_eq, Image.flag_eq]
        omega
      rw [store_of_notMem hout] at hset
      obtain ⟨k, l', h3, hn, hmem⟩ := R.linked j' hj' hset
      exact ⟨k, l', h3, L.node_mono ((hf.same W.top_pos k).node hn), hmem⟩
  · rcases L.node_cases hn with hnm | ⟨rfl, rfl, -⟩
    · by_cases hat : l' = l + 1 ∧ (img.ctx s).radix.Agree (l + 1) va va'
      · -- the link itself
        obtain ⟨rfl, ha⟩ := hat
        obtain ⟨hp, hent⟩ := L.tree.node_put_agree (e := e) W.top_pos L.node ha
        obtain rfl := hp.unique hn
        have hchild : (img.ctx s).radix.child (l + 1) ((img.ctx s).radix.entry
            ((img.ctx s).radix.put (m.store (img.flag s j) 1 1#8) (l + 1) q va e)
            (l + 1) q va') = some (img.page s j) := by
          rw [hent]
          exact L.child
        obtain ⟨ht, -⟩ := HptwCtx.child_eq_some hchild
        rw [pmeTable, Bool.and_eq_true, Bool.not_eq_true'] at ht
        exact ht.2
      · have hold := (hf.same W.top_pos va').node_rev hnm
        rw [HptwCtx.pme, L.tree.entry_put_of_ne W.top_pos L.node hnm hat,
          hf.same W.top_pos va' _ _ hold]
        exact R.small hold hne
    · rw [HptwCtx.pme, L.entry_fresh]
      exact pmePage_zero hne

/-- With room, the loop of `hptw_get_pmo_alloc` is never refused a page. -/
theorem AllocSteps.roomy {log : List Nat} (hst : AllocSteps (img.ctx s) va m log m')
    (h : PoolInv img s m) (R : Roomy img s S m) (hS : S.card ≤ 128) (hpath : PathIn S va) :
    Roomy img s S m' ∧ 0 ∉ log := by
  induction hst with
  | done => exact ⟨R, by simp⟩
  | @full m m₁ l q hg hf hl hn habs =>
      have hok := (img.walkable s).node_lvl hn
      have h4 : l + 1 ≤ 4 := hn.le_top
      rcases img.gzp_cases s m hok hl with ⟨-, hfull⟩ | ⟨j, hj, -, hp⟩
      · refine absurd hfull (R.not_full hS hl (by omega) hpath fun p hp => ?_)
        have := hp.le_of_child_none hn ((img.ctx s).radix.child_absent habs)
        omega
      · have heq := hg.symm.trans hp
        exact absurd (congrArg Prod.fst (Option.some.inj heq)).symm (Image.page_ne_zero hj)
  | @link m m₁ m' l p q e log hg hne hf L E _ ih =>
      have hok := (img.walkable s).node_lvl L.node
      rcases Image.gzp_some hok L.pos hg with ⟨rfl, -⟩ | ⟨j, hj, -, rfl, rfl⟩
      · exact absurd rfl hne
      · have h₂ := (h.set_flag hj).2.link hj (store_flag_self _ _) L E
        obtain ⟨R', hlog⟩ := ih h₂ (R.link h hj L hpath)
        refine ⟨R', fun hmem => ?_⟩
        rcases List.mem_cons.mp hmem with h0 | hin
        · exact hne h0.symm
        · exact hlog hin

theorem Roomy.put_leaf {p : Nat} (R : Roomy img s S m) (h : PoolInv img s m)
    (hn : (img.ctx s).radix.Node m va 1 p) (e : BitVec (8 * (img.ctx s).radix.width)) :
    Roomy img s S ((img.ctx s).radix.put m 1 p va e) := by
  have W := img.walkable s
  refine ⟨fun j hj hset => ?_, fun {va' l' p'} hn' hne => ?_⟩
  · rw [h.put_flag hn hj] at hset
    obtain ⟨k, l, h3, hk, hmem⟩ := R.linked j hj hset
    exact ⟨k, l, h3, h.tree.node_put W.top_pos hn hk (W.node_lvl hk).1, hmem⟩
  · have hold := h.tree.node_of_put_leaf W.top_pos hn ((img.ctx s).radix.child_one e) hn'
    rw [HptwCtx.pme, h.tree.entry_put_of_ne W.top_pos hn hold fun hat => hne hat.1]
    exact R.small hold hne

variable (va pmeo) in
/-- **With room, mapping a 4K page succeeds** and leaves room. -/
theorem Roomy.insert (R : Roomy img s S m) (h : PoolInv img s m) (hS : S.card ≤ 128)
    (hpath : PathIn S va) (hl : pmeo.lvl = 1) :
    ∃ m', assertInsert (img.ctx s) m pmeo va = some m' ∧ Roomy img s S m' := by
  have A := shvEptCtx_allocator img s
  have W := img.walkable s
  have hok : LvlOk .ept pmeo.lvl := by rw [hl]; decide
  have hleaf : pmeTable .ept pmeo.lvl pmeo.pme = false := by rw [hl, pmeTable_one]
  obtain ⟨err, m', log, hins, -⟩ := h.insert va hok hleaf
  obtain ⟨m₁, hst, h₁, -, hcase⟩ := hptwInsertPmeoAlloc_cases A W hok h h.tree hins
  obtain ⟨R₁, hlog⟩ := hst.roomy h R hS hpath
  rcases hcase with ⟨-, -, hnull | ⟨l, q, hle, hq, hpage⟩⟩ | ⟨rfl, q, hq, rfl⟩
  · exact absurd hnull hlog
  · rw [hl] at hle
    have hsmall := R₁.small hq (by omega)
    exact absurd (hsmall.symm.trans hpage) (by decide)
  · refine ⟨(img.ctx s).radix.put m₁ pmeo.lvl q va ((img.ctx s).word pmeo.pme), ?_, ?_⟩
    · simp only [assertInsert, hins, Option.bind_eq_bind, Option.bind_some]
      rfl
    · rw [hl] at hq ⊢
      exact R₁.put_leaf h₁ hq _

theorem Roomy.of_own (R : Roomy img s S m) (h : PoolInv img s m)
    (ho : ∀ x, img.Own s x → m' x = m x) : Roomy img s S m' := by
  have W := img.walkable s
  have hf : (img.ctx s).radix.Frame m m' :=
    h.frame (fun x hx => ho x (Image.own_root hx)) fun j hj x hx => ho x (Image.own_page hj hx)
  refine ⟨fun j hj hset => ?_, fun {va l p} hn hne => ?_⟩
  · rw [ho _ (Image.own_flag hj)] at hset
    obtain ⟨k, l, h3, hk, hmem⟩ := R.linked j hj hset
    exact ⟨k, l, h3, (hf.same W.top_pos k).node hk, hmem⟩
  · have hold := (hf.same W.top_pos va).node_rev hn
    rw [HptwCtx.pme, hf.same W.top_pos va _ _ hold]
    exact R.small hold hne

theorem roomy_zero (hz : ∀ x, img.Own s x → m x = 0) : Roomy img s S m := by
  refine ⟨fun j hj hset => absurd (hz _ (Image.own_flag hj)) hset, fun {va l p} hn hne => ?_⟩
  obtain ⟨rfl, rfl⟩ := Image.node_zero hz hn
  rw [HptwCtx.pme, Image.entry_zero hz]
  exact pmePage_zero hne

/-- `ept_get_mem_type` returns a type that fits an entry, for every page that is mapped to
itself. -/
def MemTypesOk (img : Image) (vcpu : Vcpu) : Prop :=
  ∀ a, a % 4096 = 0 → img.IdentityMapped a →
    ∃ mt, eptGetMemType img vcpu (BitVec.ofNat 64 a) = some mt ∧ mt.toNat < 8

theorem eptMapContinuousAddrLoop_total (hS : S.card ≤ 128) (hmt : MemTypesOk img vcpu) :
    ∀ (left : Nat) (m : ByteMem) (pmeo : HptPmeo) (paddr : Nat),
      PoolInv img s m → Roomy img s S m → RwxPage pmeo → pmeo.lvl = 1 → paddr % 4096 = 0 →
      paddr + left * 4096 ≤ 2 ^ 48 →
      (∀ a, paddr ≤ a → a < paddr + left * 4096 →
        img.IdentityMapped a ∧ PathIn S (BitVec.ofNat 64 a)) →
      ∃ m' pmeo', eptMapContinuousAddrLoop img vcpu (img.ctx s) left m pmeo paddr =
        some (m', pmeo') ∧ Roomy img s S m' := by
  intro left
  induction left with
  | zero =>
      intro m pmeo paddr _ R _ _ _ _ _
      exact ⟨m, pmeo, rfl, R⟩
  | succ left ih =>
      intro m pmeo paddr h R hp hl hmod hle hin
      obtain ⟨hid, hpath⟩ := hin paddr (Nat.le_refl _) (by omega)
      obtain ⟨mt, hget, hlt⟩ := hmt paddr hmod hid
      have hwide : (mt.setWidth 64).toNat < 8 := by
        rw [BitVec.toNat_setWidth, Nat.mod_eq_of_lt (by omega)]
        exact hlt
      obtain ⟨pmeo₁, hcache⟩ := hp.setcache_total _ hwide
      obtain ⟨hp₁, hl₁, -⟩ := hp.setcache hcache
      obtain ⟨pmeo₂, haddr, hp₂, hl₂, -⟩ :=
        hp₁.setAddress (representable_ofNat (a := paddr) (by omega) hmod)
      have hlvl : pmeo₂.lvl = 1 := hl₂.trans (hl₁.trans hl)
      obtain ⟨m₁, hins, R₁⟩ := R.insert _ _ h hS hpath hlvl
      have I := h.inserted hp₂.type hp₂.lvlOk hp₂.not_table hins
      obtain ⟨m', pmeo', hrun, R'⟩ := ih m₁ pmeo₂ (paddr + 4096) I.inv R₁ hp₂ hlvl (by omega)
        (by omega) fun a h₁ h₂ => hin a (by omega) (by omega)
      refine ⟨m', pmeo', ?_, R'⟩
      simp only [eptMapContinuousAddrLoop, hget, hcache, haddr, hins, Option.bind_eq_bind,
        Option.bind_some]
      exact hrun

theorem eptMapContinuousAddr_total (lo hi : Nat) (hS : S.card ≤ 128) (hmt : MemTypesOk img vcpu)
    (h : PoolInv img s m) (R : Roomy img s S m) (hp : RwxPage pmeo) (hl : pmeo.lvl = 1)
    (hlo : lo % 4096 = 0) (hhi : hi % 4096 = 0) (hle : lo ≤ hi) (hlt : hi ≤ 2 ^ 48)
    (hin : ∀ a, lo ≤ a → a < hi → img.IdentityMapped a ∧ PathIn S (BitVec.ofNat 64 a)) :
    ∃ m' pmeo', eptMapContinuousAddr img vcpu (img.ctx s) m pmeo lo hi = some (m', pmeo') ∧
      Roomy img s S m' ∧ PoolInv img s m' ∧ RwxPage pmeo' ∧ pmeo'.lvl = 1 := by
  have hcount : lo + (hi - lo + (pageSize4k - 1)) / pageSize4k * 4096 = hi := by
    show lo + (hi - lo + 4095) / 4096 * 4096 = hi
    omega
  obtain ⟨m', pmeo', hrun, R'⟩ := eptMapContinuousAddrLoop_total hS hmt
    ((hi - lo + (pageSize4k - 1)) / pageSize4k) m pmeo lo h R hp hl hlo
    (by rw [hcount]; exact hlt) (by rw [hcount]; exact hin)
  obtain ⟨M, hp', hl'⟩ := eptMapContinuousAddr_mapped h hp hl hlo hhi hle hlt hrun
  exact ⟨m', pmeo', hrun, R', M.inv, hp', hl'⟩

/-- The tables of an image below 246 MiB: one on level 3, two on level 2, and on level 1 those
of the image and of two single pages. -/
def eptTables : Finset (Nat × Nat) :=
  insert (3, 0) (insert (2, 0) (insert (2, 3) (insert (1, 0x91) (insert (1, 0x7f7)
    ((Finset.range 123).image fun i => (1, i))))))

theorem card_eptTables : eptTables.card ≤ 128 := by
  have h : ((Finset.range 123).image fun i => (1, i)).card ≤ 123 :=
    Finset.card_image_le.trans (Finset.card_range 123).le
  have hins : ∀ (x : Nat × Nat) (T : Finset (Nat × Nat)) (n : Nat), T.card ≤ n →
      (insert x T).card ≤ n + 1 := fun x T n hT =>
    (Finset.card_insert_le x T).trans (Nat.add_le_add_right hT 1)
  exact hins _ _ 127 (hins _ _ 126 (hins _ _ 125 (hins _ _ 124 (hins _ _ 123 h))))

theorem pathIn_eptTables {a : Nat} (h : a < 0x100000000)
    (h₁ : a / 0x200000 < 123 ∨ a / 0x200000 = 0x91 ∨ a / 0x200000 = 0x7f7)
    (h₂ : a / 0x40000000 = 0 ∨ a / 0x40000000 = 3) : PathIn eptTables (BitVec.ofNat 64 a) := by
  have hto : (BitVec.ofNat 64 a).toNat = a := toNat_ofNat_lt (by omega)
  have hreg : ∀ l w, 2 ^ (hptVaIdxHi .ept l + 1) = w →
      regionOf .ept (l + 1) (BitVec.ofNat 64 a) = a / w := by
    intro l w hw
    show (BitVec.ofNat 64 a).toNat % 2 ^ 48 / 2 ^ (hptVaIdxHi .ept l + 1) = a / w
    rw [hto, hw, Nat.mod_eq_of_lt (by omega)]
  intro l hl hl3
  have hcase : l = 1 ∨ l = 2 ∨ l = 3 := by omega
  simp only [eptTables, Finset.mem_insert, Finset.mem_image, Finset.mem_range, Prod.mk.injEq]
  rcases hcase with rfl | rfl | rfl
  · rw [hreg 1 0x200000 rfl]
    rcases h₁ with h | h | h
    · exact Or.inr (Or.inr (Or.inr (Or.inr (Or.inr ⟨_, h, rfl, rfl⟩))))
    · exact Or.inr (Or.inr (Or.inr (Or.inl ⟨rfl, h⟩)))
    · exact Or.inr (Or.inr (Or.inr (Or.inr (Or.inl ⟨rfl, h⟩))))
  · rw [hreg 2 0x40000000 rfl]
    rcases h₂ with h | h
    · exact Or.inr (Or.inl ⟨rfl, h⟩)
    · exact Or.inr (Or.inr (Or.inl ⟨rfl, h⟩))
  · rw [hreg 3 0x8000000000 rfl]
    exact Or.inl ⟨rfl, Nat.div_eq_of_lt (by omega)⟩

theorem eptBuildFirst_total (hz : ∀ x, img.Own s x → m x = 0) (hhigh : img.high ≤ 0xf600000)
    (hmt : MemTypesOk img vcpu) (hp : RwxPage pmeo) (hl : pmeo.lvl = 1) :
    ∃ m' pmeo', eptBuildFirst img vcpu (img.ctx s) m pmeo = some (m', pmeo') ∧
      Roomy img s eptTables m' := by
  have hlt : img.low ≤ img.high := by
    have := img.bounds.1
    omega
  have hS := card_eptTables
  obtain ⟨m₁, e₁, r₁, R₁, i₁, p₁, l₁⟩ := eptMapContinuousAddr_total _ _ hS hmt (poolInv_zero hz)
    (roomy_zero hz) hp hl img.low_aligned img.high_aligned hlt (by omega) fun a h₁ h₂ =>
      ⟨Or.inl ⟨h₁, h₂⟩, pathIn_eptTables (by omega) (by omega) (by omega)⟩
  obtain ⟨m₂, e₂, r₂, R₂, i₂, p₂, l₂⟩ := eptMapContinuousAddr_total 0xfee00000
    0xfee01000 hS hmt i₁ R₁ p₁ l₁ (by decide) (by decide) (by decide) (by decide)
    fun a h₁ h₂ =>
      ⟨Or.inr (Or.inr ⟨h₁, h₂⟩), pathIn_eptTables (by omega) (by omega) (by omega)⟩
  obtain ⟨m₃, e₃, r₃, R₃, i₃, p₃, l₃⟩ := eptMapContinuousAddr_total 0x000b8000
    0x000b9000 hS hmt i₂ R₂ p₂ l₂ (by decide) (by decide) (by decide) (by decide)
    fun a h₁ h₂ =>
      ⟨Or.inr (Or.inl (by omega)), pathIn_eptTables (by omega) (by omega) (by omega)⟩
  obtain ⟨m₄, e₄, r₄, R₄, -⟩ := eptMapContinuousAddr_total 0x00000000
    0x00100000 hS hmt i₃ R₃ p₃ l₃ (by decide) (by decide) (by decide) (by decide)
    fun a h₁ h₂ =>
      ⟨Or.inr (Or.inl h₂), pathIn_eptTables (by omega) (by omega) (by omega)⟩
  refine ⟨m₄, e₄, ?_, R₄⟩
  simp only [eptBuildFirst, r₁, r₂, r₃, r₄, Option.bind_eq_bind, Option.bind_some]

theorem shvBuildEpt_first {n : Nat} (hc : CallFor s vcpu n) (hs : SlotOk img shvOpt s m none)
    (hhigh : img.high ≤ 0xf600000) (hmt : MemTypesOk img vcpu) :
    ∃ b, shvBuildEpt img shvOpt vcpu n m = some b := by
  cases hs with
  | fresh hz h0 =>
      have hz' : ∀ x, img.Own s x → m.store (img.valid s) 1 1#8 x = 0 := by
        intro x hx
        rw [store_of_notMem]
        · exact hz x hx
        · intro hin
          exact Image.own_ne_valid s hx (by simp only [mem_span] at hin; omega)
      obtain ⟨m₁, pmeo₁, hfirst, R⟩ := eptBuildFirst_total hz' hhigh hmt rwxPage_init rfl
      obtain ⟨hinv, -, hp, hl, -, -, hnode⟩ := eptBuildFirst_spec hz' rwxPage_init rfl hfirst
      obtain ⟨pmeo', hpm, ht', hl', -⟩ := eptTargetPmeo_spec img hp hl hc.lt
      have hfill := img.fill_target_own (m := m₁) (s := s) hc.lt
      obtain ⟨hinv₀, -, hnode₀⟩ := hinv.of_own hfill
      obtain ⟨m₂, hins, -⟩ := (R.of_own hinv hfill).insert 0x12340000#64 pmeo' hinv₀ card_eptTables
        (pathIn_eptTables (a := 0x12340000) (by decide) (by decide) (by decide)) hl'
      have hok : LvlOk .ept pmeo'.lvl := by rw [hl']; decide
      have hleaf : pmeTable .ept pmeo'.lvl pmeo'.pme = false := by rw [hl', pmeTable_one]
      have I := hinv₀.inserted ht' hok hleaf hins
      obtain ⟨m₃, hremap, -⟩ := eptRemap_of_insert shvOpt I.inv hpm ht' hins
        fun _ i hi => by
          obtain ⟨h₁, h₂, -⟩ := img.largePage_bounds hi
          have hto := img.toNat_largePage hi
          obtain ⟨q, hq⟩ := hnode (hva2spa (img.largePage i)) (by omega) (by omega)
          have htop : 2 ≤ (img.ctx s).radix.top := by
            show 2 ≤ 4
            decide
          obtain ⟨p, hp, -⟩ := hq.of_lt (by decide) htop
          exact ⟨p, I.nodes (hnode₀ hp) (Or.inl (by rw [hl']; decide))⟩
      rw [shvBuildEpt_valid_zero hc h0, hfirst, Option.bind_some, hremap]
      exact ⟨_, rfl⟩

end Room

/-- **The pool suffices.**  For an image below 246 MiB, if the memory types of the pages that
are mapped to themselves fit an entry, no call of any run halts. -/
theorem ept_run_returns (hz : img.ZeroBss m₀) (hhigh : img.high ≤ 0xf600000)
    (hc : ∀ c ∈ calls, CallOk c ∧ MemTypesOk img c.1) :
    ∃ m, runBuilds img shvOpt m₀ calls = some m := by
  induction calls using List.reverseRecOn with
  | nil => exact ⟨m₀, rfl⟩
  | append_singleton calls c ih =>
      have hc' : ∀ c ∈ calls, CallOk c ∧ MemTypesOk img c.1 :=
        fun c' hin => hc c' (List.mem_append_left _ hin)
      obtain ⟨m, hrun⟩ := ih hc'
      obtain ⟨hok, hmt⟩ := hc c (by simp)
      have hs := runBuilds_slotOk hz (fun c' hin => (hc' c' hin).1) hrun (slotOf c hok)
      have hcall : ∃ b, shvBuildEpt img shvOpt c.1 c.2 m = some b := by
        cases hf : firstBuilder calls (slotOf c hok) with
        | none =>
            rw [hf] at hs
            exact shvBuildEpt_first (callFor_slotOf hok) hs hhigh hmt
        | some vcpu₀ =>
            rw [hf] at hs
            obtain ⟨b, hb, -⟩ := shvBuildEpt_again (callFor_slotOf hok) hs
            exact ⟨b, hb⟩
      obtain ⟨b, hb⟩ := hcall
      exact ⟨b.mem, by rw [runBuilds_concat, hrun, Option.bind_some, hb]; rfl⟩

def sampleVcpu : Vcpu where
  idx := 0
  vmxEptDefaulttype := 6#8
  vmxEptMtrrEnable := false
  vmxEptFixmtrrEnable := false
  fixMtrrs _ := 0
  varMtrrs := []

theorem memTypesOk_sample : MemTypesOk sampleImage sampleVcpu :=
  fun _ _ _ => ⟨0#8, rfl, by decide⟩

theorem runBuilds_sample (shvOpt : BitVec 64) (ns : List Nat) (h : ∀ n ∈ ns, n < 32) :
    ∃ m, runBuilds sampleImage shvOpt (fun _ => 0) (ns.map fun n => (sampleVcpu, n)) = some m := by
  refine ept_run_returns (fun _ _ _ _ => rfl) (by decide) fun c hc => ?_
  obtain ⟨n, hn, rfl⟩ := List.mem_map.mp hc
  exact ⟨⟨show 0 < 10 by decide, h n hn⟩, memTypesOk_sample⟩

/-! ## The two theorems about runs -/

/-- **The translation of the EPTs.**  At any point of any run, a call for `ept_num == n` that
returns leaves its root with the map `eptSpec`, where `vcpu₀` is the CPU that built the root
first (for which `ept_get_mem_type` returned for every page that is mapped to itself), and the
first 16 bytes of the target of `n` with the value `n`; the translations of all other roots
stay as they are. -/
theorem ept_run_translation (hz : img.ZeroBss m₀) (hc : ∀ c ∈ calls, CallOk c)
    (hrun : runBuilds img shvOpt m₀ calls = some m) {vcpu : Vcpu} {n : Nat}
    (hcn : CallOk (vcpu, n)) {b : EptBuilt}
    (hcall : shvBuildEpt img shvOpt vcpu n m = some b) :
    ∃ vcpu₀, firstBuilder (calls ++ [(vcpu, n)]) (slotOf (vcpu, n) hcn) = some vcpu₀ ∧
      b.rootPa = hva2spa (img.rootAt vcpu.idx (n >>> 4)) ∧
      (∀ gpa : BitVec 64, gpa.toNat < 2 ^ 48 →
        eptTranslate (shvEptCtx img vcpu.idx (n >>> 4)) b.mem gpa =
          some (eptSpec img shvOpt vcpu₀ n gpa)) ∧
      (∀ gpa : BitVec 64, gpa.toNat < 2 ^ 48 → img.IdentityMapped gpa.toNat →
        (eptGetMemType img vcpu₀ (BitVec.ofNat 64 (pageOf gpa))).isSome) ∧
      (∀ i, i < 16 → b.mem (img.targetAt n + i) = BitVec.ofNat 8 n) ∧
      ∀ s : Slot, ¬ (s.idx = vcpu.idx ∧ s.r = n >>> 4) → ∀ gpa : BitVec 64,
        eptTranslate (shvEptCtx img s.idx s.r) b.mem gpa =
          eptTranslate (shvEptCtx img s.idx s.r) m gpa := by
  have hs := runBuilds_slotOk hz hc hrun
  obtain ⟨D, -⟩ := shvBuildEpt_done (callFor_slotOf hcn) (hs (slotOf (vcpu, n) hcn)) hcall
  refine ⟨_, firstBuilder_concat calls hcn, D.rootPa, fun gpa hg => ?_, fun gpa hg hid => ?_,
    fun i hi => D.target _ ⟨Nat.le_add_right _ _, Nat.add_lt_add_left hi _⟩,
    fun s hne gpa => ?_⟩
  · exact (D.slot.poolInv.translate gpa).trans (congrArg some (D.xlate gpa hg))
  · cases D.slot with
    | built hb _ _ =>
        have := hb.memType gpa hg hid
        rwa [eptIdentity, Option.isSome_map] at this
  · have hne' : s ≠ slotOf (vcpu, n) hcn := by
      rintro rfl
      exact hne ⟨rfl, rfl⟩
    obtain ⟨hs', hx, -⟩ := D.other hne' (hs s)
    refine (hs'.poolInv.translate gpa).trans ?_
    rw [hx gpa]
    exact ((hs s).poolInv.translate gpa).symm

/-- Two calls for the same root with large pages, the second for `ept_num == 5`. -/
theorem ept_run_translation_sample :
    ∃ m b, runBuilds sampleImage shvUseLargePage (fun _ => 0) [(sampleVcpu, 3)] = some m ∧
      shvBuildEpt sampleImage shvUseLargePage sampleVcpu 5 m = some b ∧
      eptTranslate (shvEptCtx sampleImage 0 0) b.mem 0x12340008#64 =
        some (some { spa := 0x11b008#64, prots := 7#64, pmt := 6#64, lvl := 1 }) ∧
      eptTranslate (shvEptCtx sampleImage 0 0) b.mem 0x400123#64 =
        some (some { spa := 0x600123#64, prots := 7#64, pmt := 6#64, lvl := 2 }) ∧
      eptTranslate (shvEptCtx sampleImage 0 0) b.mem 0x20000000#64 = some none := by
  obtain ⟨m₂, hrun₂⟩ := runBuilds_sample shvUseLargePage [3, 5] (by decide)
  rw [show [3, 5].map (fun n => (sampleVcpu, n)) = [(sampleVcpu, 3)] ++ [(sampleVcpu, 5)] from rfl,
    runBuilds_concat] at hrun₂
  obtain ⟨m, hrun, hcall⟩ := Option.bind_eq_some_iff.mp hrun₂
  obtain ⟨b, hb, -⟩ := Option.map_eq_some_iff.mp hcall
  obtain ⟨vcpu₀, hfirst, -, hx, -⟩ := ept_run_translation (fun _ _ _ _ => rfl)
    (fun c hc => by rw [List.mem_singleton.mp hc]; exact ⟨by decide, by decide⟩) hrun
    ⟨by decide, by decide⟩ hb
  obtain rfl : sampleVcpu = vcpu₀ := Option.some.inj hfirst
  refine ⟨m, b, hrun, hb, (hx _ (by decide)).trans ?_, (hx _ (by decide)).trans ?_,
    (hx _ (by decide)).trans ?_⟩ <;> decide

/-- **Switching never exhausts the pool.**  Once a call for a root has returned, every later
call for it returns, whatever its `ept_num`, and leaves the allocation flags of all roots as
they are. -/
theorem ept_switch_no_alloc (hz : img.ZeroBss m₀) (hc : ∀ c ∈ calls, CallOk c)
    (hrun : runBuilds img shvOpt m₀ calls = some m) {vcpu : Vcpu} {n : Nat}
    (hcn : CallOk (vcpu, n))
    (hbuilt : ∃ c ∈ calls, c.1.idx = vcpu.idx ∧ c.2 >>> 4 = n >>> 4) :
    ∃ b, shvBuildEpt img shvOpt vcpu n m = some b ∧
      ∀ (s : Slot) (j : Nat), j < eptPoolSize → b.mem (img.flag s j) = m (img.flag s j) := by
  have hs := runBuilds_slotOk hz hc hrun
  obtain ⟨vcpu₀, hfirst⟩ := firstBuilder_isSome (s := slotOf (vcpu, n) hcn) hbuilt
  have hslot := hs (slotOf (vcpu, n) hcn)
  rw [hfirst] at hslot
  obtain ⟨b, hb, hflag⟩ := shvBuildEpt_again (callFor_slotOf hcn) hslot
  refine ⟨b, hb, fun s j hj => ?_⟩
  obtain ⟨D, -⟩ := shvBuildEpt_done (callFor_slotOf hcn) hslot hb
  by_cases hne : s = slotOf (vcpu, n) hcn
  · rw [hne]
    exact hflag j hj
  · exact (D.other hne (hs s)).2.2 j hj

/-- After the first call for a root, the second takes nothing from the pools. -/
theorem ept_switch_no_alloc_sample :
    ∃ m b, runBuilds sampleImage shvUseLargePage (fun _ => 0) [(sampleVcpu, 3)] = some m ∧
      shvBuildEpt sampleImage shvUseLargePage sampleVcpu 0 m = some b ∧
      ∀ (s : Slot) (j : Nat), j < eptPoolSize →
        b.mem (sampleImage.flag s j) = m (sampleImage.flag s j) := by
  obtain ⟨m, hrun⟩ := runBuilds_sample shvUseLargePage [3] (by decide)
  have hcall : CallOk (sampleVcpu, 0) := ⟨by decide, by decide⟩
  obtain ⟨b, hb, hflag⟩ := ept_switch_no_alloc (fun _ _ _ _ => rfl)
    (fun c hc => by rw [List.mem_singleton.mp hc]; exact ⟨by decide, by decide⟩) hrun
    hcall ⟨(sampleVcpu, 3), List.mem_singleton_self _, rfl, rfl⟩
  exact ⟨m, b, hrun, hb, hflag⟩

end Shv
