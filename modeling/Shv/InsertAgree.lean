/-
# `Shv.InsertAgree` — insertions that fail, and insertions that allocate nothing

`hptw_insert_pmeo_alloc` links new tables before it knows whether it will succeed
and never unlinks them; `hptw_insert_pmeo` has nothing to undo.  Two results:

* `failed_insert_keeps_translations` — whatever made an insertion return 1, every
  checked walk is what it was before.  The tables left behind are empty, and what
  they replace was absent;
* `insert_agrees_with_alloc` — where no table is missing, the two are one
  function.  Both return 0 exactly when the walk meets a table of the entry's
  level (`hptwInsertPmeo_iff`, `hptwInsertPmeoAlloc_iff`), whatever the shape of
  the tables: nothing is assumed of them here, not even that they form a tree.
-/
import Shv.Insert

namespace Shv

open ByteMem

variable {ctx : HptwCtx} {m m' : ByteMem} {va : BitVec 64} {pmeo : HptPmeo} {log : List Nat}

/-! ## Failed insertions -/

theorem hptwGetPmoAllocLoop_above {endLvl fuel : Nat} {pmo : HptPmo} (h : pmo.lvl ≤ endLvl) :
    hptwGetPmoAllocLoop ctx endLvl va (fuel + 1) m pmo = some (some pmo, m, []) := by
  rw [hptwGetPmoAllocLoop]
  exact if_neg (Nat.not_lt.mpr h)

/-- A failed insertion has linked tables, at most.  Levels no table has are included: below
level 1 every path is blocked, and above the root the levels differ. -/
theorem hptwInsertPmeoAlloc_failed {I : ByteMem → Prop} (A : Allocator ctx I) (W : ctx.Walkable)
    (hI : I m) (hm : ctx.radix.Tree m)
    (h : hptwInsertPmeoAlloc ctx m pmeo va = some (1, m', log)) :
    AllocSteps ctx va m log m' := by
  simp only [hptwInsertPmeoAlloc, hptwGetPmoAlloc, W.getRoot, Option.bind_eq_bind,
    Option.bind_some] at h
  obtain ⟨⟨r, m₁, log₁⟩, hloop, h⟩ := Option.bind_eq_some_iff.mp h
  rcases Nat.lt_or_ge ctx.radix.top pmeo.lvl with hlt | hle
  · have hroot : ctx.radix.root ≠ 0 := W.root
    rw [hptwGetPmoAllocLoop_above (Nat.le_of_lt hlt)] at hloop
    simp only [Option.some.injEq, Prod.mk.injEq] at hloop
    obtain ⟨rfl, rfl, rfl⟩ := hloop
    simp only [hroot, if_false, Nat.ne_of_lt hlt, ne_eq, not_false_eq_true, if_true,
      Option.pure_def, Option.some.injEq, Prod.mk.injEq, true_and] at h
    obtain ⟨rfl, rfl⟩ := h
    exact .done
  · obtain ⟨hsteps, -, -, -, hr⟩ :=
      hptwGetPmoAllocLoop_steps A W _ _ _ _ _ _ _ hI hm .root hle hloop
    cases r with
    | none =>
        simp only [Option.pure_def, Option.some.injEq, Prod.mk.injEq] at h
        obtain ⟨-, rfl, rfl⟩ := h
        exact hsteps
    | some pmo =>
        -- the table was found, so the entry was written
        obtain ⟨q, rfl, hq⟩ := hr pmo rfl
        simp [W.node_ne_null hq, hptPmoSetPmeByVa_eq (W.node_lvl hq)] at h

theorem hptwInsertPmeo_failed (h : hptwInsertPmeo ctx m pmeo va = some (1, m')) : m' = m := by
  obtain ⟨pmo, -, h⟩ := Option.bind_eq_some_iff.mp h
  split at h
  · cases h
    rfl
  · split at h
    · cases h
      rfl
    · obtain ⟨m₁, -, h⟩ := Option.bind_eq_some_iff.mp h
      cases h

/-- **Failed inserts do not change any translation.**  If `hptw_insert_pmeo_alloc` returns 1,
every checked walk returns the same code as before and, on success, the same entry; if
`hptw_insert_pmeo` returns 1, memory is as it was. -/
theorem failed_insert_keeps_translations {I : ByteMem → Prop} (A : Allocator ctx I)
    (hs : ctx.Sized) (ht : ctx.t ≠ .invalid) (hI : I m) (hm : ctx.radix.Tree m)
    (pmeo : HptPmeo) (va : BitVec 64) :
    (∀ m' log, hptwInsertPmeoAlloc ctx m pmeo va = some (1, m', log) →
      ∀ va' accessType cpl, hptwCheckedGetPmeo ctx m' accessType cpl va' =
        hptwCheckedGetPmeo ctx m accessType cpl va') ∧
    ∀ m', hptwInsertPmeo ctx m pmeo va = some (1, m') → m' = m := by
  refine ⟨fun m' log h va' accessType cpl => ?_, fun m' h => hptwInsertPmeo_failed h⟩
  by_cases hroot : ctx.rootPm = 0
  · rw [hptwCheckedGetPmeo_null hs ht hroot, hptwCheckedGetPmeo_null hs ht hroot]
  · have W : ctx.Walkable := ⟨hs, ht, hroot⟩
    have hsteps := hptwInsertPmeoAlloc_failed A W hI hm h
    exact hptwCheckedGetPmeo_alike W (hsteps.alike W.top_pos va') accessType cpl

/-- The allocator of `onePageCtx` after its page has been given out. -/
def pageGivenOut : ByteMem := fun x => if x = 0x1000 then 1 else 0

/-- Nothing is left for a page table; address 0 stays as unmapped as it was. -/
theorem failed_insert_keeps_translations_onePage :
    ∃ m' log,
      hptwInsertPmeoAlloc onePageCtx pageGivenOut { pme := 0x5007#64, t := .norm, lvl := 1 } 0 =
        some (1, m', log) ∧
      hptwCheckedGetPmeo onePageCtx m' 0 .cpl0 0 =
        hptwCheckedGetPmeo onePageCtx pageGivenOut 0 .cpl0 0 := by
  have hcode : (hptwInsertPmeoAlloc onePageCtx pageGivenOut
      { pme := 0x5007#64, t := .norm, lvl := 1 } 0).map Prod.fst = some 1 := by decide
  obtain ⟨⟨err, m', log⟩, hins, herr⟩ := Option.map_eq_some_iff.mp hcode
  obtain rfl : err = 1 := herr
  have hzero : ∀ x ∈ span 0x2000 0x2000, pageGivenOut x = 0 := by
    intro x hx
    exact if_neg (by simp only [mem_span] at hx; omega)
  have hm : onePageCtx.radix.Tree pageGivenOut := by
    intro k k' l l' p p' h h'
    obtain ⟨rfl, rfl⟩ := onePageCtx_node hzero h
    obtain ⟨rfl, rfl⟩ := onePageCtx_node hzero h'
    exact Or.inl ⟨rfl, fun j hj ht => absurd (Nat.le_trans hj ht) (by decide)⟩
  obtain ⟨hkeep, -⟩ := failed_insert_keeps_translations onePageCtx_allocator
    (fun _ _ _ _ => rfl) (by decide) (fun _ => hzero) hm
    { pme := 0x5007#64, t := .norm, lvl := 1 } 0
  exact ⟨m', log, hins, hkeep m' log hins 0 0 .cpl0⟩

/-! ## Insertions that allocate nothing -/

/-- `hptw_get_pmo` leaves a table the walk meets, unless it could not access one. -/
theorem hptwGetPmoLoop_found (W : ctx.Walkable) {endLvl : Nat} :
    ∀ (fuel lvl p : Nat) (pmo : HptPmo), ctx.radix.Node m va lvl p →
      hptwGetPmoLoop ctx m endLvl va fuel { pm := p, t := ctx.t, lvl := lvl } = some pmo →
      pmo.pm ≠ 0 → pmo.t = ctx.t ∧ ctx.radix.Node m va pmo.lvl pmo.pm := by
  intro fuel
  induction fuel with
  | zero => intro lvl p pmo _ h; cases h
  | succ fuel ih =>
      intro lvl p pmo hp h hne
      have hnext := hptwNextLvl_eq m va W.sized (W.node_lvl hp) (W.node_ne_null hp)
      rw [hptwGetPmoLoop] at h
      split at h
      · simp only [hnext, Option.bind_eq_bind, Option.bind_some] at h
        cases hc : ctx.radix.child lvl (ctx.radix.entry m lvl p va) with
        | none =>
            rw [hc] at h
            simp only [Bool.false_eq_true, if_false, Option.pure_def, Option.some.injEq] at h
            split at h
            · subst h
              exact absurd rfl hne
            · subst h
              exact ⟨rfl, hp⟩
        | some q =>
            rw [hc] at h
            obtain ⟨lvl, rfl⟩ : ∃ n, lvl = n + 1 := ⟨lvl - 1, by have := (W.node_lvl hp).1; omega⟩
            exact ih lvl q pmo (.down hp hc) h hne
      · obtain rfl := Option.some.inj h
        exact ⟨rfl, hp⟩

/-- So does `hptw_get_pmo_alloc`, in a memory it has not touched, if it called no `gzp`. -/
theorem hptwGetPmoAllocLoop_found (W : ctx.Walkable) {endLvl : Nat} :
    ∀ (fuel lvl p : Nat) (pmo : HptPmo), ctx.radix.Node m va lvl p →
      hptwGetPmoAllocLoop ctx endLvl va fuel m { pm := p, t := ctx.t, lvl := lvl } =
        some (some pmo, m', []) →
      m' = m ∧ pmo.t = ctx.t ∧ ctx.radix.Node m va pmo.lvl pmo.pm := by
  intro fuel
  induction fuel with
  | zero => intro lvl p pmo _ h; cases h
  | succ fuel ih =>
      intro lvl p pmo hp h
      have hok := W.node_lvl hp
      have hnext := hptwNextLvl_eq m va W.sized hok (W.node_ne_null hp)
      rw [hptwGetPmoAllocLoop] at h
      split at h
      · simp only [hptPmGetPmeoByVa_eq hok, HptPmeo.isPage, HptPmeo.isPresent,
          hptPmeIsPage_eq hok, hptPmeIsPresent_eq hok, Option.bind_eq_bind,
          Option.bind_some] at h
        split at h
        · cases h
        · split at h
          · rw [hnext] at h
            cases hc : ctx.radix.child lvl (ctx.radix.entry m lvl p va) with
            | none =>
                rw [hc] at h
                cases h
            | some q =>
                rw [hc] at h
                obtain ⟨lvl, rfl⟩ : ∃ n, lvl = n + 1 :=
                  ⟨lvl - 1, by have := (W.node_lvl hp).1; omega⟩
                exact ih lvl q pmo (.down hp hc) h
          · -- every way through this branch has called `gzp`
            obtain ⟨⟨pm, m₂⟩, -, h⟩ := Option.bind_eq_some_iff.mp h
            split at h
            · cases h
            · obtain ⟨⟨walked, pmo'⟩, -, h⟩ := Option.bind_eq_some_iff.mp h
              obtain ⟨-, -, h⟩ := Option.bind_eq_some_iff.mp h
              obtain ⟨⟨r, m₃, log⟩, -, h⟩ := Option.bind_eq_some_iff.mp h
              cases h
      · cases h
        exact ⟨rfl, rfl, hp⟩

/-- `hptw_insert_pmeo` returns 0 exactly when the walk meets a table of the entry's level, and
writes the entry there. -/
theorem hptwInsertPmeo_iff (W : ctx.Walkable) :
    hptwInsertPmeo ctx m pmeo va = some (0, m') ↔ ∃ q, ctx.radix.Node m va pmeo.lvl q ∧
      m' = ctx.radix.put m pmeo.lvl q va (ctx.word pmeo.pme) := by
  constructor
  · intro h
    obtain ⟨⟨pm, t, lvl⟩, hget, h⟩ := Option.bind_eq_some_iff.mp h
    rw [hptwGetPmo, W.getRoot] at hget
    split at h
    · cases h
    · rename_i hne
      obtain ⟨rfl, hq⟩ := hptwGetPmoLoop_found W _ _ _ _ .root hget hne
      split at h
      · cases h
      · rename_i hlvl
        obtain rfl : lvl = pmeo.lvl := not_not.mp hlvl
        rw [hptPmoSetPmeByVa_eq (W.node_lvl hq)] at h
        cases h
        exact ⟨pm, hq, rfl⟩
  · rintro ⟨q, hq, rfl⟩
    rw [hptwInsertPmeo, hptwGetPmo_node W hq]
    simp only [Option.bind_eq_bind, Option.bind_some, W.node_ne_null hq, if_false, ne_eq,
      not_true_eq_false, hptPmoSetPmeByVa_eq (W.node_lvl hq)]
    rfl

/-- `hptw_insert_pmeo_alloc` returns 0 without calling `gzp` in the same case. -/
theorem hptwInsertPmeoAlloc_iff (W : ctx.Walkable) :
    hptwInsertPmeoAlloc ctx m pmeo va = some (0, m', []) ↔
      ∃ q, ctx.radix.Node m va pmeo.lvl q ∧
        m' = ctx.radix.put m pmeo.lvl q va (ctx.word pmeo.pme) := by
  constructor
  · intro h
    simp only [hptwInsertPmeoAlloc, hptwGetPmoAlloc, W.getRoot, Option.bind_eq_bind,
      Option.bind_some] at h
    obtain ⟨⟨r, m₁, log⟩, hloop, h⟩ := Option.bind_eq_some_iff.mp h
    cases r with
    | none => cases h
    | some pmo =>
        obtain ⟨pm, t, lvl⟩ := pmo
        simp only at h
        split at h
        · cases h
        · split at h
          · cases h
          · rename_i hlvl
            obtain rfl : lvl = pmeo.lvl := not_not.mp hlvl
            obtain ⟨m₂, hset, h⟩ := Option.bind_eq_some_iff.mp h
            cases h
            obtain ⟨rfl, rfl, hq⟩ := hptwGetPmoAllocLoop_found W _ _ _ _ .root hloop
            rw [hptPmoSetPmeByVa_eq (W.node_lvl hq)] at hset
            exact ⟨pm, hq, (Option.some.inj hset).symm⟩
  · rintro ⟨q, hq, rfl⟩
    exact hptwInsertPmeoAlloc_node pmeo W (W.node_lvl hq) hq

/-- **The plain and the allocating insert agree.**  One returns 0 exactly when the other
returns 0 without calling `gzp`, and both then leave the same memory. -/
theorem insert_agrees_with_alloc (hs : ctx.Sized) (ht : ctx.t ≠ .invalid) (m : ByteMem)
    (pmeo : HptPmeo) (va : BitVec 64) (m' : ByteMem) :
    hptwInsertPmeo ctx m pmeo va = some (0, m') ↔
      hptwInsertPmeoAlloc ctx m pmeo va = some (0, m', []) := by
  by_cases hroot : ctx.rootPm = 0
  · -- without a root the one halts and the other returns 1
    have hget : hptwGetRoot ctx = some none := by
      rw [hptwGetRoot_eq hs ht, if_pos hroot]
    constructor
    · intro h
      rw [hptwInsertPmeo, hptwGetPmo, hget] at h
      cases h
    · intro h
      rw [hptwInsertPmeoAlloc, hptwGetPmoAlloc, hget] at h
      cases h
  · have W : ctx.Walkable := ⟨hs, ht, hroot⟩
    exact (hptwInsertPmeo_iff W).trans (hptwInsertPmeoAlloc_iff W).symm

/-- A 4M page goes into the root of an empty 32-bit table, which is there already. -/
theorem insert_agrees_with_alloc_onePage :
    ∃ m', hptwInsertPmeo onePageCtx (fun _ => 0) { pme := 0x400087#64, t := .norm, lvl := 2 }
        0x400000#64 = some (0, m') ∧
      hptwInsertPmeoAlloc onePageCtx (fun _ => 0) { pme := 0x400087#64, t := .norm, lvl := 2 }
        0x400000#64 = some (0, m', []) := by
  have hcode : (hptwInsertPmeo onePageCtx (fun _ => 0)
      { pme := 0x400087#64, t := .norm, lvl := 2 } 0x400000#64).map Prod.fst = some 0 := by decide
  obtain ⟨⟨err, m'⟩, hins, herr⟩ := Option.map_eq_some_iff.mp hcode
  obtain rfl : err = 0 := herr
  exact ⟨m', hins, (insert_agrees_with_alloc (fun _ _ _ _ => rfl) (by decide) _ _ _ _).mp hins⟩

end Shv
