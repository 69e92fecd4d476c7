/-
# `Shv.Walk` — the walks of `hptw.c` over the radix tree they read

A context and a memory are a radix tree (`HptwCtx.radix`): the tables of
`ctx->t`, linked by the present entries that are not pages.  Every loop of
`hptw.c` that calls `hptw_next_lvl` is here shown to compute a function of the
list of entries `Radix.walk` reads, or to stop at the table `Radix.Node` names:

* `hptwGetPmo_node` — `hptw_get_pmo` reaches the table of the level asked for
  whenever the walk meets one;
* `hptwGetPmeo_one` — asked for level 1, `hptw_get_pmeo` reads the entry at which
  the walk ends;
* `hptwCheckedGetPmeo_eq` — `hptw_checked_get_pmeo` succeeds iff every entry
  grants the access and the last one maps a page.
-/
import Shv.Hptw
import Shv.HptSpec
import Shv.Lib.Radix

namespace Shv

open ByteMem

/-! ## The tree of a context -/

/-- Bytes per entry. -/
def pmeBytes : HptType → Nat
  | .norm => 4
  | _ => 8

def pmIdx (t : HptType) (lvl : Nat) (va : BitVec 64) : Nat :=
  (br64GetHl va (hptVaIdxHi t lvl) (hptVaIdxHi t (lvl - 1) + 1)).toNat

def pmeTable (t : HptType) (lvl : Nat) (e : BitVec 64) : Bool :=
  pmePresent t lvl e && !pmePage t lvl e

/-- Where `hptw_get_root` finds the top table. -/
def HptwCtx.rootPm (ctx : HptwCtx) : Nat :=
  (ctx.pa2ptr ctx.rootPa (hptPmSizes ctx.t (hptTypeMaxLvl ctx.t)) hptProtsRw .cpl0).1

/-- Where `hptw_next_lvl` finds the table of an entry. -/
def HptwCtx.nextPm (ctx : HptwCtx) (lvl : Nat) (e : BitVec 64) : Nat :=
  (ctx.pa2ptr (pmeAddr ctx.t lvl e) (hptPmSizes ctx.t (lvl - 1)) hptProtsR .cpl0).1

theorem pmIdx_lt {t : HptType} {lvl : Nat} (va : BitVec 64) (h : LvlOk t lvl) :
    pmeBytes t * (pmIdx t lvl va + 1) ≤ hptPmSizes t lvl := by
  have key : ∀ hi lo n, hi < 64 → lo ≤ hi → 2 ^ (hi - lo + 1) = n →
      (br64GetHl va hi lo).toNat < n := by
    intro hi lo n hhi hlo hn
    rw [toNat_br64GetHl va hhi hlo, hn]
    exact Nat.mod_lt _ (by rw [← hn]; exact Nat.two_pow_pos _)
  have bound : ∀ w n i, i < n → w * (i + 1) ≤ w * n :=
    fun w n i hi => Nat.mul_le_mul_left w hi
  apply h.elim (P := fun t lvl => pmeBytes t * (pmIdx t lvl va + 1) ≤ hptPmSizes t lvl)
  case n₁ => exact bound 4 1024 _ (key 21 12 1024 (by decide) (by decide) (by decide))
  case n₂ => exact bound 4 1024 _ (key 31 22 1024 (by decide) (by decide) (by decide))
  case p₃ => exact bound 8 4 _ (key 31 30 4 (by decide) (by decide) (by decide))
  case p₁ | l₁ | e₁ => exact bound 8 512 _ (key 20 12 512 (by decide) (by decide) (by decide))
  case p₂ | l₂ | e₂ => exact bound 8 512 _ (key 29 21 512 (by decide) (by decide) (by decide))
  case l₃ | e₃ => exact bound 8 512 _ (key 38 30 512 (by decide) (by decide) (by decide))
  case l₄ | e₄ => exact bound 8 512 _ (key 47 39 512 (by decide) (by decide) (by decide))

theorem pmeTable_one {t : HptType} {e : BitVec 64} : pmeTable t 1 e = false := by
  rw [pmeTable, pmePage_one, Bool.not_true, Bool.and_false]

/-- The radix tree of page maps a context describes. -/
def HptwCtx.radix (ctx : HptwCtx) : Radix (BitVec 64) where
  width := pmeBytes ctx.t
  top := hptTypeMaxLvl ctx.t
  root := ctx.rootPm
  idx := pmIdx ctx.t
  size := hptPmSizes ctx.t
  child lvl w :=
    if pmeTable ctx.t lvl (w.setWidth 64) && ctx.nextPm lvl (w.setWidth 64) != 0
    then some (ctx.nextPm lvl (w.setWidth 64)) else none
  absent lvl w := !pmePresent ctx.t lvl (w.setWidth 64)
  slot_le va h₁ h₂ := pmIdx_lt va ⟨h₁, h₂⟩
  child_one w := by rw [pmeTable_one, Bool.false_and]; rfl
  child_absent {lvl w} h := by
    have hp : pmePresent ctx.t lvl (w.setWidth 64) = false := by simpa using h
    rw [pmeTable, hp, Bool.false_and, Bool.false_and]; rfl
  absent_zero lvl := by
    rw [show BitVec.setWidth 64 (0 : BitVec (8 * pmeBytes ctx.t)) = 0 by simp, pmePresent_zero]
    rfl

/-- `pa2ptr` always answers the size asked for. -/
def HptwCtx.Sized (ctx : HptwCtx) : Prop :=
  ∀ pa sz prot cpl, (ctx.pa2ptr pa sz prot cpl).2 = sz

/-- `pa2ptr` is total: never `NULL`, always the size asked for. -/
structure HptwCtx.Total (ctx : HptwCtx) : Prop where
  ne_null : ∀ pa sz prot cpl, (ctx.pa2ptr pa sz prot cpl).1 ≠ 0
  sized : ctx.Sized

variable {ctx : HptwCtx} {m : ByteMem} {lvl p : Nat} {va : BitVec 64}

/-- The entry of a table, as the 64-bit value `hpt_pm_get_pme_by_va` returns. -/
def HptwCtx.pme (ctx : HptwCtx) (m : ByteMem) (lvl p : Nat) (va : BitVec 64) : BitVec 64 :=
  (ctx.radix.entry m lvl p va).setWidth 64

def HptwCtx.word (ctx : HptwCtx) (e : BitVec 64) : BitVec (8 * ctx.radix.width) := e.setWidth _

theorem HptwCtx.child_eq_none (h : ctx.radix.child lvl (ctx.radix.entry m lvl p va) = none)
    (hn : pmeTable ctx.t lvl (ctx.pme m lvl p va) = true) :
    ctx.nextPm lvl (ctx.pme m lvl p va) = 0 := by
  by_contra hne
  have hb : (ctx.nextPm lvl (ctx.pme m lvl p va) != 0) = true := by simpa using hne
  change (if pmeTable ctx.t lvl (ctx.pme m lvl p va) &&
    ctx.nextPm lvl (ctx.pme m lvl p va) != 0 then _ else none) = none at h
  rw [hn, hb] at h
  cases h

theorem HptwCtx.child_eq_some {q : Nat}
    (h : ctx.radix.child lvl (ctx.radix.entry m lvl p va) = some q) :
    pmeTable ctx.t lvl (ctx.pme m lvl p va) = true ∧
      ctx.nextPm lvl (ctx.pme m lvl p va) = q ∧ q ≠ 0 := by
  change (if pmeTable ctx.t lvl (ctx.pme m lvl p va) &&
    ctx.nextPm lvl (ctx.pme m lvl p va) != 0 then
      some (ctx.nextPm lvl (ctx.pme m lvl p va)) else none) = some q at h
  split at h
  · rename_i hc
    rw [Bool.and_eq_true, bne_iff_ne] at hc
    obtain rfl := Option.some.inj h
    exact ⟨hc.1, rfl, hc.2⟩
  · cases h

/-! ## One level -/

theorem hptPmSize_eq {t : HptType} (h : LvlOk t lvl) :
    hptPmSize t lvl = some (hptPmSizes t lvl) := by
  apply h.elim (P := fun t lvl => hptPmSize t lvl = some (hptPmSizes t lvl)) <;> rfl

theorem hptGetPmIdx_eq {t : HptType} (h : LvlOk t lvl) :
    hptGetPmIdx t lvl va = some (pmIdx t lvl va) := by
  have h₁ : hptTypeIsValid t = true := by simpa [hptTypeIsValid] using h.type_ne
  have h₂ : hptLvlIsValid t lvl = true := by simpa [hptLvlIsValid] using h.2
  simp [hptGetPmIdx, h₁, h₂, pmIdx]

theorem hptPmGetPmeByIdx_eq {t : HptType} (ht : t ≠ .invalid) (idx : Nat) :
    hptPmGetPmeByIdx m t p idx =
      some ((m.load (p + pmeBytes t * idx) (pmeBytes t)).setWidth 64) := by
  cases t with
  | norm => rfl
  | invalid => exact absurd rfl ht
  | _ => exact congrArg some (BitVec.setWidth_eq _).symm

theorem hptPmSetPmeByIdx_eq {t : HptType} (ht : t ≠ .invalid) (idx : Nat) (pme : BitVec 64) :
    hptPmSetPmeByIdx m t p idx pme =
      some (m.store (p + pmeBytes t * idx) (pmeBytes t) (pme.setWidth (8 * pmeBytes t))) := by
  cases t with
  | norm => rfl
  | invalid => exact absurd rfl ht
  | _ => exact congrArg (fun v => some (m.store (p + 8 * idx) 8 v)) (BitVec.setWidth_eq _).symm

theorem hptPmGetPmeoByVa_eq (h : LvlOk ctx.t lvl) :
    hptPmGetPmeoByVa m { pm := p, t := ctx.t, lvl := lvl } va =
      some { pme := ctx.pme m lvl p va, t := ctx.t, lvl := lvl } := by
  simp only [hptPmGetPmeoByVa, hptPmGetPmeByVa, hptGetPmIdx_eq h, Option.bind_eq_bind,
    Option.bind_some, hptPmGetPmeByIdx_eq h.type_ne]
  rfl

theorem hptPmoSetPmeByVa_eq (h : LvlOk ctx.t lvl) (pmeo : HptPmeo) :
    hptPmoSetPmeByVa m { pm := p, t := ctx.t, lvl := lvl } pmeo va =
      some (ctx.radix.put m lvl p va (ctx.word pmeo.pme)) := by
  simp only [hptPmoSetPmeByVa, hptPmSetPmeByVa, hptGetPmIdx_eq h, Option.bind_eq_bind,
    Option.bind_some, hptPmSetPmeByIdx_eq h.type_ne]
  rfl

theorem HptwCtx.pme_norm (ht : ctx.t = .norm) (i : Nat) (hi : 32 ≤ i) :
    (ctx.pme m lvl p va).getLsbD i = false := by
  have hw : ctx.radix.width = 4 := by show pmeBytes ctx.t = 4; rw [ht]; rfl
  rw [HptwCtx.pme, BitVec.getLsbD_setWidth,
    BitVec.getLsbD_of_ge (ctx.radix.entry m lvl p va) i (by rw [hw]; omega), Bool.and_false]

theorem hptwGetRoot_eq (hs : ctx.Sized) (ht : ctx.t ≠ .invalid) :
    hptwGetRoot ctx = some (if ctx.rootPm = 0 then none else
      some { pm := ctx.rootPm, t := ctx.t, lvl := hptTypeMaxLvl ctx.t }) := by
  have hl : LvlOk ctx.t (hptTypeMaxLvl ctx.t) := by
    refine ⟨?_, Nat.le_refl _⟩
    cases hc : ctx.t <;> first | decide | exact absurd hc ht
  simp only [hptwGetRoot, hptPmSize_eq hl, Option.bind_eq_bind, Option.bind_some]
  rw [if_neg (not_not_intro (hs _ _ _ _))]
  by_cases h0 : ctx.rootPm = 0
  · rw [if_pos h0]; exact if_pos h0
  · rw [if_neg h0]; exact if_neg h0

theorem absent_or_page (t : HptType) (lvl : Nat) (e : BitVec 64) :
    (!pmePresent t lvl e || pmePage t lvl e) = !pmeTable t lvl e := by
  rw [pmeTable, Bool.not_and, Bool.not_not]

variable (m va) in
/-- `hptw_next_lvl` descends exactly when the radix tree does; when it does not, it leaves
the object as it is, or invalidates it if a table could not be accessed. -/
theorem hptwNextLvl_eq (hs : ctx.Sized) (h : LvlOk ctx.t lvl) (hp : p ≠ 0) :
    hptwNextLvl ctx m { pm := p, t := ctx.t, lvl := lvl } va =
      some (match ctx.radix.child lvl (ctx.radix.entry m lvl p va) with
        | some q => (true, { pm := q, t := ctx.t, lvl := lvl - 1 })
        | none => (false, if pmeTable ctx.t lvl (ctx.pme m lvl p va)
            then { pm := 0, t := .invalid, lvl := 0 }
            else { pm := p, t := ctx.t, lvl := lvl })) := by
  have hpr := hptPmeIsPresent_eq (e := ctx.pme m lvl p va) h
  have hpg := hptPmeIsPage_eq (e := ctx.pme m lvl p va) h
  have had := hptPmeGetAddress_eq (e := ctx.pme m lvl p va) h fun ht => ctx.pme_norm ht
  have hp' : (p != 0) = true := by simpa using hp
  by_cases htab : pmeTable ctx.t lvl (ctx.pme m lvl p va) = true
  · -- only levels above 1 have table entries, so there is a size for the level below
    have hl : LvlOk ctx.t (lvl - 1) := by
      have hne : lvl ≠ 1 := by
        rintro rfl
        rw [pmeTable_one] at htab
        cases htab
      have h₁ := h.1
      have h₂ := h.2
      exact ⟨by omega, by omega⟩
    have hcond : (!pmePresent ctx.t lvl (ctx.pme m lvl p va) ||
        pmePage ctx.t lvl (ctx.pme m lvl p va)) = false := by
      rw [absent_or_page, htab]
      rfl
    simp only [hptwNextLvl, hptPmGetPmeoByVa_eq h, HptPmeo.isPresent, HptPmeo.isPage,
      HptPmeo.getAddress, hpr, hpg, had, hp', cAssert_true, Option.bind_eq_bind,
      Option.bind_some, hcond, Bool.false_eq_true, if_false, hptPmSize_eq hl, hs _ _ _ _,
      beq_self_eq_true]
    cases hc : ctx.radix.child lvl (ctx.radix.entry m lvl p va) with
    | none =>
        have h0 := HptwCtx.child_eq_none hc htab
        rw [if_pos htab]
        exact (if_pos h0).trans
          (congrArg (fun q => some (false, HptPmo.mk q .invalid 0)) h0)
    | some q =>
        obtain ⟨-, hq, hq0⟩ := HptwCtx.child_eq_some hc
        subst hq
        exact if_neg hq0
  · have hcond : (!pmePresent ctx.t lvl (ctx.pme m lvl p va) ||
        pmePage ctx.t lvl (ctx.pme m lvl p va)) = true := by
      rw [absent_or_page, Bool.eq_false_iff.mpr htab]
      rfl
    simp only [hptwNextLvl, hptPmGetPmeoByVa_eq h, HptPmeo.isPresent, HptPmeo.isPage,
      hpr, hpg, hp', cAssert_true, Option.bind_eq_bind, Option.bind_some, hcond, if_true]
    cases hc : ctx.radix.child lvl (ctx.radix.entry m lvl p va) with
    | none => rw [if_neg htab]; rfl
    | some q => exact absurd (HptwCtx.child_eq_some hc).1 htab

/-! ## Whole walks -/

/-- A context `hptw.c` can walk: a real format, a root it can access, sizes as asked for. -/
structure HptwCtx.Walkable (ctx : HptwCtx) : Prop where
  sized : ctx.Sized
  valid : ctx.t ≠ .invalid
  root : ctx.rootPm ≠ 0

theorem HptwCtx.Total.walkable (h : ctx.Total) (ht : ctx.t ≠ .invalid) : ctx.Walkable :=
  ⟨h.sized, ht, h.ne_null _ _ _ _⟩

namespace HptwCtx.Walkable

variable (W : ctx.Walkable)
include W

theorem lvlOk_top : LvlOk ctx.t ctx.radix.top := by
  refine ⟨?_, Nat.le_refl _⟩
  show 1 ≤ hptTypeMaxLvl ctx.t
  have ht := W.valid
  cases hc : ctx.t <;> first | decide | exact absurd hc ht

theorem top_pos : 1 ≤ ctx.radix.top := W.lvlOk_top.1

theorem node_lvl (h : ctx.radix.Node m va lvl p) : LvlOk ctx.t lvl :=
  ⟨h.pos W.top_pos, h.le_top⟩

theorem node_ne_null (h : ctx.radix.Node m va lvl p) : p ≠ 0 := by
  cases h with
  | root => exact W.root
  | down _ hc => exact (HptwCtx.child_eq_some hc).2.2

theorem getRoot :
    hptwGetRoot ctx = some (some { pm := ctx.radix.root, t := ctx.t, lvl := ctx.radix.top }) := by
  rw [hptwGetRoot_eq W.sized W.valid, if_neg W.root]
  rfl

end HptwCtx.Walkable

/-- An entry read by a walk as the object `hptw.c` makes of it. -/
def HptwCtx.pmeo (ctx : HptwCtx) (x : Nat × BitVec (8 * ctx.radix.width)) : HptPmeo :=
  { pme := x.2.setWidth 64, t := ctx.t, lvl := x.1 }

/-- The table of the level asked for is found whenever the walk meets one. -/
theorem hptwGetPmoLoop_node (W : ctx.Walkable) {endLvl q : Nat}
    (hq : ctx.radix.Node m va endLvl q) :
    ∀ (lvl p fuel : Nat), ctx.radix.Node m va lvl p → endLvl ≤ lvl → lvl < fuel →
      hptwGetPmoLoop ctx m endLvl va fuel { pm := p, t := ctx.t, lvl := lvl } =
        some { pm := q, t := ctx.t, lvl := endLvl } := by
  intro lvl
  induction lvl with
  | zero =>
      intro p fuel hp _ _
      exact absurd (W.node_lvl hp).1 (by decide)
  | succ lvl ih =>
      intro p fuel hp hle hf
      obtain ⟨fuel, rfl⟩ := Nat.exists_eq_add_of_lt hf
      rw [show lvl + 1 + fuel + 1 = (lvl + 1 + fuel) + 1 from rfl, hptwGetPmoLoop]
      rcases Nat.eq_or_lt_of_le hle with rfl | hlt
      · obtain rfl := hp.unique hq
        exact if_neg (Nat.lt_irrefl _)
      · obtain ⟨r, hr⟩ := hq.child_of_lt hp hlt
        have hnext := hptwNextLvl_eq m va W.sized (W.node_lvl hp)
          (W.node_ne_null hp)
        rw [hr] at hnext
        refine (if_pos hlt).trans ?_
        simp only [hnext, Option.bind_eq_bind, Option.bind_some, if_true]
        exact ih r (lvl + 1 + fuel) (.down hp hr) (Nat.le_of_lt_succ hlt) (by omega)

theorem hptwGetPmo_node (W : ctx.Walkable) (h : ctx.radix.Node m va lvl p) :
    hptwGetPmo ctx m lvl va = some { pm := p, t := ctx.t, lvl := lvl } := by
  simp only [hptwGetPmo, W.getRoot, Option.bind_eq_bind, Option.bind_some]
  exact hptwGetPmoLoop_node W h _ _ _ .root h.le_top (Nat.lt_succ_self _)

theorem hptwGetPmeo_node (W : ctx.Walkable) (h : ctx.radix.Node m va lvl p) :
    hptwGetPmeo ctx m lvl va = some (ctx.pmeo (lvl, ctx.radix.entry m lvl p va)) := by
  simp only [hptwGetPmeo, hptwGetPmo_node W h, Option.bind_eq_bind, Option.bind_some]
  exact hptPmGetPmeoByVa_eq (W.node_lvl h)

/-- Asked for level 1, `hptw_get_pmo` stops where the walk stops; a table it cannot access
leaves an invalid object. -/
theorem hptwGetPmoLoop_one (W : ctx.Walkable) {q : Nat}
    (hq : ctx.radix.Node m va (ctx.radix.stop m va).1 q) :
    ∀ (lvl p fuel : Nat), ctx.radix.Node m va lvl p → lvl < fuel →
      hptwGetPmoLoop ctx m 1 va fuel { pm := p, t := ctx.t, lvl := lvl } = some
        (if pmeTable ctx.t (ctx.radix.stop m va).1 ((ctx.radix.stop m va).2.setWidth 64)
          then { pm := 0, t := .invalid, lvl := 0 }
          else { pm := q, t := ctx.t, lvl := (ctx.radix.stop m va).1 }) := by
  intro lvl
  induction lvl with
  | zero =>
      intro p fuel hp _
      exact absurd (W.node_lvl hp).1 (by decide)
  | succ lvl ih =>
      intro p fuel hp hf
      obtain ⟨fuel, rfl⟩ := Nat.exists_eq_add_of_lt hf
      rw [show lvl + 1 + fuel + 1 = (lvl + 1 + fuel) + 1 from rfl, hptwGetPmoLoop]
      have hnext := hptwNextLvl_eq m va W.sized (W.node_lvl hp) (W.node_ne_null hp)
      cases hc : ctx.radix.child (lvl + 1) (ctx.radix.entry m (lvl + 1) p va) with
      | none =>
          have hstop := hp.stop_eq_of_child_none W.top_pos hc
          rw [hstop] at hq ⊢
          obtain rfl := hq.unique hp
          rw [hc] at hnext
          by_cases hlt : lvl + 1 > 1
          · refine (if_pos hlt).trans ?_
            simp only [hnext, Option.bind_eq_bind, Option.bind_some, Bool.false_eq_true, if_false]
            rfl
          · obtain rfl : lvl = 0 := by omega
            refine (if_neg hlt).trans ?_
            rw [pmeTable_one]
            rfl
      | some r =>
          rw [hc] at hnext
          have hlt : lvl + 1 > 1 := by
            have := (W.node_lvl (.down hp hc)).1
            omega
          refine (if_pos hlt).trans ?_
          simp only [hnext, Option.bind_eq_bind, Option.bind_some, if_true]
          exact ih r (lvl + 1 + fuel) (.down hp hc) (by omega)

/-- `hptw_get_pmeo(ctx, 1, va)` reads the entry at which the walk ends, and halts when that
is a table entry whose table it cannot access. -/
theorem hptwGetPmeo_one (W : ctx.Walkable) :
    hptwGetPmeo ctx m 1 va =
      if pmeTable ctx.t (ctx.radix.stop m va).1 ((ctx.radix.stop m va).2.setWidth 64) then none
      else some (ctx.pmeo (ctx.radix.stop m va)) := by
  obtain ⟨q, hq, he, -⟩ := Radix.stop_spec W.top_pos m va
  have hloop := hptwGetPmoLoop_one W hq _ _ (ctx.radix.top + 1) .root (Nat.lt_succ_self _)
  simp only [hptwGetPmeo, hptwGetPmo, W.getRoot, Option.bind_eq_bind, Option.bind_some, hloop]
  split
  · rfl
  · rw [hptPmGetPmeoByVa_eq (W.node_lvl hq), HptwCtx.pme, he]
    rfl

/-! ## The checked walk -/

/-- The test `hptw_checked_get_pmeo` makes of every entry. -/
def HptwCtx.grants (ctx : HptwCtx) (accessType : BitVec 64) (cpl : HptwCpl)
    (x : Nat × BitVec (8 * ctx.radix.width)) : Bool :=
  (accessType &&& pmeProt ctx.t x.1 (x.2.setWidth 64) == accessType) &&
    (cpl == .cpl0 || pmeUser ctx.t x.1 (x.2.setWidth 64))

/-- The entry maps a page. -/
def HptwCtx.maps (ctx : HptwCtx) (x : Nat × BitVec (8 * ctx.radix.width)) : Bool :=
  pmePresent ctx.t x.1 (x.2.setWidth 64) && pmePage ctx.t x.1 (x.2.setWidth 64)

section Checked

variable {accessType : BitVec 64} {cpl : HptwCpl}

variable (m va accessType cpl) in
/-- The `do … while` reads the entries of the walk as long as they grant the access. -/
theorem hptwCheckedGetPmeoLoop_eq (W : ctx.Walkable) :
    ∀ (lvl p fuel : Nat), ctx.radix.Node m va lvl p → lvl < fuel →
      ∃ pmo : HptPmo,
        hptwCheckedGetPmeoLoop ctx m accessType cpl va fuel { pm := p, t := ctx.t, lvl := lvl } =
          some (if (ctx.radix.walk m va lvl p).all (ctx.grants accessType cpl)
            then some (ctx.pmeo (ctx.radix.stop m va), pmo) else none) ∧
        pmo.t = if pmeTable ctx.t (ctx.radix.stop m va).1 ((ctx.radix.stop m va).2.setWidth 64)
          then .invalid else ctx.t := by
  intro lvl
  induction lvl with
  | zero =>
      intro p fuel hp _
      exact absurd (W.node_lvl hp).1 (by decide)
  | succ lvl ih =>
      intro p fuel hp hf
      obtain ⟨fuel, rfl⟩ := Nat.exists_eq_add_of_lt hf
      have hl := W.node_lvl hp
      have hnext := hptwNextLvl_eq m va W.sized hl (W.node_ne_null hp)
      -- one iteration, with the two getters replaced by the bits they read
      have hstep : hptwCheckedGetPmeoLoop ctx m accessType cpl va (lvl + 1 + fuel + 1)
          { pm := p, t := ctx.t, lvl := lvl + 1 } =
          if ctx.grants accessType cpl (lvl + 1, ctx.radix.entry m (lvl + 1) p va) then
            (hptwNextLvl ctx m { pm := p, t := ctx.t, lvl := lvl + 1 } va).bind fun r =>
              if r.1 then hptwCheckedGetPmeoLoop ctx m accessType cpl va (lvl + 1 + fuel) r.2
              else some (some (ctx.pmeo (lvl + 1, ctx.radix.entry m (lvl + 1) p va), r.2))
          else some none := by
        rw [hptwCheckedGetPmeoLoop]
        simp only [hptPmGetPmeoByVa_eq hl, HptPmeo.getprot, HptPmeo.getuser,
          hptPmeGetprot_eq hl, hptPmeGetuser_eq hl, Option.bind_eq_bind, Option.bind_some]
        rfl
      rw [hstep, hnext]
      cases hc : ctx.radix.child (lvl + 1) (ctx.radix.entry m (lvl + 1) p va) with
      | none =>
          rw [hp.stop_eq_of_child_none W.top_pos hc, Radix.walk_succ_none hc]
          refine ⟨if pmeTable ctx.t (lvl + 1) (ctx.pme m (lvl + 1) p va)
            then { pm := 0, t := .invalid, lvl := 0 }
            else { pm := p, t := ctx.t, lvl := lvl + 1 }, ?_, ?_⟩
          · rw [List.all_cons, List.all_nil, Bool.and_true]
            split <;> rfl
          · exact apply_ite HptPmo.t _ _ _
      | some q =>
          obtain ⟨pmo, hloop, hpmo⟩ := ih q (lvl + 1 + fuel) (.down hp hc) (by omega)
          refine ⟨pmo, ?_, hpmo⟩
          rw [Radix.walk_succ_some hc, List.all_cons]
          by_cases hg : ctx.grants accessType cpl
              (lvl + 1, ctx.radix.entry m (lvl + 1) p va) = true
          · rw [if_pos hg, hg, Bool.true_and]
            exact hloop
          · rw [if_neg hg, Bool.eq_false_iff.mpr hg, Bool.false_and]
            rfl

theorem HptwCtx.maps_eq (x : Nat × BitVec (8 * ctx.radix.width)) :
    ctx.maps x = (pmePresent ctx.t x.1 (x.2.setWidth 64) &&
      !pmeTable ctx.t x.1 (x.2.setWidth 64)) := by
  rw [HptwCtx.maps, pmeTable]
  cases pmePresent ctx.t x.1 (x.2.setWidth 64) <;> simp

variable (m va) in
theorem HptwCtx.Walkable.lvlOk_stop (W : ctx.Walkable) : LvlOk ctx.t (ctx.radix.stop m va).1 := by
  obtain ⟨q, hq, -⟩ := Radix.stop_spec W.top_pos m va
  exact W.node_lvl hq

variable (m va accessType cpl) in
/-- `hptw_checked_get_pmeo` never halts (its `EU_VERIFY` holds), and returns 0 exactly when
every entry grants the access and the last one maps a page, which is then the result. -/
theorem hptwCheckedGetPmeo_eq (W : ctx.Walkable) :
    hptwCheckedGetPmeo ctx m accessType cpl va =
      some (if (ctx.radix.walk m va ctx.radix.top ctx.radix.root).all (ctx.grants accessType cpl) &&
          ctx.maps (ctx.radix.stop m va)
        then some (ctx.pmeo (ctx.radix.stop m va)) else none) := by
  obtain ⟨pmo, hloop, hpmo⟩ := hptwCheckedGetPmeoLoop_eq m va accessType cpl W _ _
    (ctx.radix.top + 1) .root (Nat.lt_succ_self _)
  have hl := W.lvlOk_stop m va
  simp only [hptwCheckedGetPmeo, W.getRoot, Option.bind_eq_bind, Option.bind_some, hloop]
  by_cases hg : (ctx.radix.walk m va ctx.radix.top ctx.radix.root).all
      (ctx.grants accessType cpl) = true
  · rw [hg, Bool.true_and]
    simp only [if_true, hpmo, HptPmeo.isPresent, HptPmeo.isPage, HptwCtx.pmeo,
      hptPmeIsPresent_eq hl, hptPmeIsPage_eq hl, Option.bind_some, HptwCtx.maps_eq, pmeTable]
    rcases Bool.eq_false_or_eq_true (pmePresent ctx.t (ctx.radix.stop m va).1
      ((ctx.radix.stop m va).2.setWidth 64)) with hpr | hpr <;>
      rcases Bool.eq_false_or_eq_true (pmePage ctx.t (ctx.radix.stop m va).1
        ((ctx.radix.stop m va).2.setWidth 64)) with hpg | hpg <;>
      simp [W.valid, hpr, hpg]
  · rw [Bool.eq_false_iff.mpr hg, Bool.false_and]
    rfl

end Checked

theorem hptwCheckedGetPmeo_null (hs : ctx.Sized) (ht : ctx.t ≠ .invalid) (h : ctx.rootPm = 0)
    (accessType : BitVec 64) (cpl : HptwCpl) :
    hptwCheckedGetPmeo ctx m accessType cpl va = some none := by
  simp only [hptwCheckedGetPmeo, hptwGetRoot_eq hs ht, h, if_true, Option.bind_eq_bind,
    Option.bind_some]
  rfl

theorem hptwCheckedGetPmeo_absent (W : ctx.Walkable)
    (h : ctx.radix.absent (ctx.radix.stop m va).1 (ctx.radix.stop m va).2 = true)
    (accessType : BitVec 64) (cpl : HptwCpl) :
    hptwCheckedGetPmeo ctx m accessType cpl va = some none := by
  have hp : pmePresent ctx.t (ctx.radix.stop m va).1
      ((ctx.radix.stop m va).2.setWidth 64) = false := by simpa [HptwCtx.radix] using h
  rw [hptwCheckedGetPmeo_eq _ _ _ _ W, HptwCtx.maps, hp, Bool.false_and, Bool.and_false]
  rfl

theorem hptwCheckedGetPmeo_alike (W : ctx.Walkable) {m' : ByteMem} (h : ctx.radix.Alike m m' va)
    (accessType : BitVec 64) (cpl : HptwCpl) :
    hptwCheckedGetPmeo ctx m' accessType cpl va = hptwCheckedGetPmeo ctx m accessType cpl va := by
  rcases h with h | ⟨h, h'⟩
  · rw [hptwCheckedGetPmeo_eq _ _ _ _ W, hptwCheckedGetPmeo_eq _ _ _ _ W, Radix.stop, Radix.stop, h]
  · rw [hptwCheckedGetPmeo_absent W h, hptwCheckedGetPmeo_absent W h']

/-! ## Translation through one entry -/

/-- A property of entries, for an entry read by a walk. -/
def HptwCtx.on (ctx : HptwCtx) (f : HptType → Nat → BitVec 64 → Bool)
    (x : Nat × BitVec (8 * ctx.radix.width)) : Bool :=
  f ctx.t x.1 (x.2.setWidth 64)

variable (va) in
/-- `hpt_pmeo_va_to_pa` of an entry read from a table: only its "is page" assertion can fail. -/
theorem HptwCtx.vaToPa_pmeo {x : Nat × BitVec (8 * ctx.radix.width)} (h : LvlOk ctx.t x.1) :
    (ctx.pmeo x).vaToPa va =
      if ctx.on pmePage x then
        some (pmeAddr ctx.t x.1 (x.2.setWidth 64) +
          (va &&& maskrange64 (hptVaIdxHi ctx.t (x.1 - 1)) 0))
      else none := by
  have hn : ctx.t = .norm → ∀ i, 32 ≤ i → (x.2.setWidth 64).getLsbD i = false := by
    intro ht i hi
    have hw : ctx.radix.width = 4 := by show pmeBytes ctx.t = 4; rw [ht]; rfl
    rw [BitVec.getLsbD_setWidth, BitVec.getLsbD_of_ge x.2 i (by rw [hw]; omega), Bool.and_false]
  simp only [HptPmeo.vaToPa, HptPmeo.getAddress, HptwCtx.pmeo, hptPmeIsPage_eq h,
    hptPmeGetAddress_eq h hn, Option.bind_eq_bind, Option.bind_some, HptwCtx.on]
  rcases Bool.eq_false_or_eq_true (pmePage ctx.t x.1 (x.2.setWidth 64)) with hp | hp <;>
    simp [hp]

/-- A context in which physical address `a` is accessed at `a + 4096`, so that no pointer is
`NULL`; the root table is at `0x1000`. -/
def offsetCtx (t : HptType) : HptwCtx where
  gzp m _ _ := some (0, m)
  pa2ptr pa sz _ _ := (pa.toNat + 4096, sz)
  ptr2pa p := BitVec.ofNat 64 (p - 4096)
  rootPa := 0x1000#64
  t := t

theorem offsetCtx_total (t : HptType) : (offsetCtx t).Total :=
  ⟨fun _ _ _ _ => Nat.succ_ne_zero _, fun _ _ _ _ => rfl⟩

end Shv
