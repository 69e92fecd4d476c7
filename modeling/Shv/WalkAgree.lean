/-
# `Shv.WalkAgree` — do the walks of `hptw.c` agree with each other?

`hptw.c` walks a table in three places that are written separately and meant to
fit together.

* `hptw_get_effective_prots` intersects the protections of the entries it reads;
  `hptw_checked_get_pmeo` tests an access against each of them.  One should
  grant what the other reports.
* `hptw_va_to_pa` does not check anything and leaves it to the assertion in
  `hpt_pmeo_va_to_pa` to reject what is not mapped.

Neither holds without a condition, and for one reason: presence is not among the
things tested.  `hptw_checked_get_pmeo` asks `hpt_pmeo_is_present` after its loop,
`hptw_get_effective_prots` does not, and outside EPT an absent entry still grants
whatever its RW and NX bits say.  Likewise the assertion of `hpt_pmeo_va_to_pa`
asks only whether the entry is a page, which every level-1 entry is.

`permission_walks_agree_iff` and `va_to_pa_agrees_iff` give the exact conditions.
-/
import Shv.Walk

namespace Shv

open ByteMem

variable {ctx : HptwCtx} {m : ByteMem} {lvl p : Nat} {va : BitVec 64}

/-! ## Effective protections -/

def HptwCtx.walkProts (ctx : HptwCtx) (w : List (Nat × BitVec (8 * ctx.radix.width))) :
    BitVec 64 :=
  hptProtOf (w.all (ctx.on pmeR)) (w.all (ctx.on pmeW)) (w.all (ctx.on pmeX))

theorem hptProtOf_and (r w x r' w' x' : Bool) :
    hptProtOf r w x &&& hptProtOf r' w' x' = hptProtOf (r && r') (w && w') (x && x') := by
  revert r w x r' w' x'; decide

theorem HptwCtx.walkProts_cons (x : Nat × BitVec (8 * ctx.radix.width))
    (w : List (Nat × BitVec (8 * ctx.radix.width))) :
    ctx.walkProts (x :: w) = pmeProt ctx.t x.1 (x.2.setWidth 64) &&& ctx.walkProts w := by
  rw [pmeProt, HptwCtx.walkProts, HptwCtx.walkProts, hptProtOf_and]
  rfl

variable (m va) in
theorem hptwGetEffectiveProtsLoop_eq (W : ctx.Walkable) :
    ∀ (lvl p fuel : Nat) (prots : BitVec 64) (user : Bool),
      ctx.radix.Node m va lvl p → lvl < fuel →
      ∃ pmo : HptPmo,
        hptwGetEffectiveProtsLoop ctx m va fuel { pm := p, t := ctx.t, lvl := lvl } prots user =
          some (pmo, prots &&& ctx.walkProts (ctx.radix.walk m va lvl p),
            user && (ctx.radix.walk m va lvl p).all (ctx.on pmeUser)) ∧
        pmo.t = if pmeTable ctx.t (ctx.radix.stop m va).1 ((ctx.radix.stop m va).2.setWidth 64)
          then .invalid else ctx.t := by
  intro lvl
  induction lvl with
  | zero =>
      intro p fuel _ _ hp _
      exact absurd (W.node_lvl hp).1 (by decide)
  | succ lvl ih =>
      intro p fuel prots user hp hf
      obtain ⟨fuel, rfl⟩ := Nat.exists_eq_add_of_lt hf
      have hl := W.node_lvl hp
      have hnext := hptwNextLvl_eq m va W.sized hl (W.node_ne_null hp)
      rw [hptwGetEffectiveProtsLoop]
      simp only [hptPmGetPmeoByVa_eq hl, HptPmeo.getprot, HptPmeo.getuser, hptPmeGetprot_eq hl,
        hptPmeGetuser_eq hl, hnext, Option.bind_eq_bind, Option.bind_some]
      cases hc : ctx.radix.child (lvl + 1) (ctx.radix.entry m (lvl + 1) p va) with
      | none =>
          rw [hp.stop_eq_of_child_none W.top_pos hc, Radix.walk_succ_none hc]
          refine ⟨if pmeTable ctx.t (lvl + 1) (ctx.pme m (lvl + 1) p va)
            then { pm := 0, t := .invalid, lvl := 0 }
            else { pm := p, t := ctx.t, lvl := lvl + 1 }, ?_, apply_ite HptPmo.t _ _ _⟩
          have hone : ctx.walkProts [(lvl + 1, ctx.radix.entry m (lvl + 1) p va)] =
              pmeProt ctx.t (lvl + 1) (ctx.pme m (lvl + 1) p va) := by
            simp only [HptwCtx.walkProts, List.all_cons, List.all_nil, Bool.and_true]
            rfl
          rw [hone, List.all_cons, List.all_nil, Bool.and_true]
          rfl
      | some q =>
          obtain ⟨pmo, hloop, hpmo⟩ := ih q (lvl + 1 + fuel)
            (prots &&& pmeProt ctx.t (lvl + 1) (ctx.pme m (lvl + 1) p va))
            (user && pmeUser ctx.t (lvl + 1) (ctx.pme m (lvl + 1) p va)) (.down hp hc) (by omega)
          refine ⟨pmo, ?_, hpmo⟩
          rw [Radix.walk_succ_some hc, HptwCtx.walkProts_cons, List.all_cons, ← BitVec.and_assoc,
            ← Bool.and_assoc]
          exact hloop

theorem rwx_and_walkProts (w : List (Nat × BitVec (8 * ctx.radix.width))) :
    hptProtsRwx &&& ctx.walkProts w = ctx.walkProts w := by
  rw [HptwCtx.walkProts, show hptProtsRwx = hptProtOf true true true by decide, hptProtOf_and]
  simp only [Bool.true_and]

theorem HptwCtx.Total.stop_not_table (h : ctx.Total) (ht : ctx.t ≠ .invalid) :
    pmeTable ctx.t (ctx.radix.stop m va).1 ((ctx.radix.stop m va).2.setWidth 64) = false := by
  obtain ⟨q, -, -, hnone⟩ := Radix.stop_spec (h.walkable ht).top_pos m va
  by_contra htab
  rw [Bool.not_eq_false] at htab
  have hne : (ctx.nextPm (ctx.radix.stop m va).1
      ((ctx.radix.stop m va).2.setWidth 64) != 0) = true :=
    bne_iff_ne.mpr (h.ne_null _ _ _ _)
  have hsome : ctx.radix.child (ctx.radix.stop m va).1 (ctx.radix.stop m va).2 = some _ :=
    if_pos (Bool.and_eq_true_iff.mpr ⟨htab, hne⟩)
  rw [hnone] at hsome
  cases hsome

variable (m va) in
/-- Under a total `pa2ptr` an address is mapped iff its walk ends at a present entry. -/
theorem HptwCtx.Total.maps_stop (h : ctx.Total) (ht : ctx.t ≠ .invalid) :
    ctx.maps (ctx.radix.stop m va) =
      pmePresent ctx.t (ctx.radix.stop m va).1 ((ctx.radix.stop m va).2.setWidth 64) := by
  rw [HptwCtx.maps_eq, h.stop_not_table ht, Bool.not_false, Bool.and_true]

/-- `hptw_get_effective_prots` is the conjunction of what the entries grant. -/
theorem hptwGetEffectiveProts_walk (W : ctx.Walkable)
    (hstop : pmeTable ctx.t (ctx.radix.stop m va).1
      ((ctx.radix.stop m va).2.setWidth 64) = false) :
    hptwGetEffectiveProts ctx m va =
      some (ctx.walkProts (ctx.radix.walk m va ctx.radix.top ctx.radix.root),
        some ((ctx.radix.walk m va ctx.radix.top ctx.radix.root).all (ctx.on pmeUser))) := by
  obtain ⟨pmo, hloop, hpmo⟩ := hptwGetEffectiveProtsLoop_eq m va W _ _
    (ctx.radix.top + 1) hptProtsRwx true .root (Nat.lt_succ_self _)
  rw [hstop] at hpmo
  simp only [hptwGetEffectiveProts, W.getRoot, Option.bind_eq_bind, Option.bind_some, hloop,
    hpmo, Bool.false_eq_true, if_false, W.valid, rwx_and_walkProts, Bool.true_and]
  rfl

theorem hptwGetEffectiveProts_eq (h : ctx.Total) (ht : ctx.t ≠ .invalid) :
    hptwGetEffectiveProts ctx m va =
      some (ctx.walkProts (ctx.radix.walk m va ctx.radix.top ctx.radix.root),
        some ((ctx.radix.walk m va ctx.radix.top ctx.radix.root).all (ctx.on pmeUser))) :=
  hptwGetEffectiveProts_walk (h.walkable ht) (h.stop_not_table ht)

/-! ## The permission walks -/

/-- The two permission walks agree at `va`: the checked walk never halts and grants, at any
privilege level, exactly the non-empty sets of accesses that the other one reports; and
nothing is reported for an address that is not mapped. -/
def PermissionWalksAgree (ctx : HptwCtx) (m : ByteMem) (va : BitVec 64) : Prop :=
  (∀ accessType cpl, hptwCheckedGetPmeo ctx m accessType cpl va ≠ none) ∧
  ∃ prots user, hptwGetEffectiveProts ctx m va = some (prots, some user) ∧
    (∀ accessType cpl, accessType ≠ 0 → accessType &&& hptProtsRwx = accessType →
      ((∃ pmeo, hptwCheckedGetPmeo ctx m accessType cpl va = some (some pmeo)) ↔
        accessType &&& prots = accessType ∧ (cpl = .cpl0 ∨ user = true))) ∧
    (hptwCheckedGetPmeo ctx m 0 .cpl0 va = some none → prots = hptProtsNone)

/-- The entry at which the walk ends is present, or the entries read forbid both writing and
executing.  (An absent entry never allows reading.) -/
def PresentOrRefused (ctx : HptwCtx) (m : ByteMem) (va : BitVec 64) : Prop :=
  ctx.on pmePresent (ctx.radix.stop m va) = true ∨
    ((∃ x ∈ ctx.radix.walk m va ctx.radix.top ctx.radix.root, ctx.on pmeW x = false) ∧
      ∃ x ∈ ctx.radix.walk m va ctx.radix.top ctx.radix.root, ctx.on pmeX x = false)

/-- An access that every entry grants is one that their conjunction grants. -/
theorem HptwCtx.all_grants (accessType : BitVec 64) (cpl : HptwCpl)
    (hrwx : accessType &&& hptProtsRwx = accessType) :
    ∀ w : List (Nat × BitVec (8 * ctx.radix.width)), w.all (ctx.grants accessType cpl) = true ↔
      accessType &&& ctx.walkProts w = accessType ∧
        (cpl = .cpl0 ∨ w.all (ctx.on pmeUser) = true)
  | [] => by
      have h : ctx.walkProts [] = hptProtsRwx :=
        show hptProtOf true true true = hptProtsRwx by decide
      rw [h]
      exact ⟨fun _ => ⟨hrwx, Or.inr rfl⟩, fun _ => rfl⟩
  | x :: w => by
      have hand : ∀ a b : BitVec 64, accessType &&& (a &&& b) = accessType ↔
          accessType &&& a = accessType ∧ accessType &&& b = accessType := by
        intro a b
        constructor
        · intro h
          constructor
          · rw [← h, BitVec.and_assoc, BitVec.and_comm (a &&& b) a, ← BitVec.and_assoc a a b,
              BitVec.and_self]
          · rw [← h, BitVec.and_assoc, BitVec.and_assoc a b b, BitVec.and_self]
        · rintro ⟨ha, hb⟩
          rw [← BitVec.and_assoc, ha, hb]
      rw [List.all_cons, Bool.and_eq_true, HptwCtx.all_grants accessType cpl hrwx w,
        HptwCtx.walkProts_cons, hand, List.all_cons, Bool.and_eq_true, HptwCtx.grants,
        Bool.and_eq_true, Bool.or_eq_true, beq_iff_eq, beq_iff_eq, HptwCtx.on]
      tauto

theorem HptwCtx.mem_walk_stop (W : ctx.Walkable) :
    ctx.radix.stop m va ∈ ctx.radix.walk m va ctx.radix.top ctx.radix.root := by
  have hne := Radix.walk_ne_nil (R := ctx.radix) (m := m) (k := va)
    (p := ctx.radix.root) W.top_pos
  rw [Radix.stop, List.getLastD_eq_getLast?, List.getLast?_eq_some_getLast hne]
  exact List.getLast_mem hne

theorem HptwCtx.all_pmeR_false (W : ctx.Walkable)
    (h : ctx.on pmePresent (ctx.radix.stop m va) = false) :
    (ctx.radix.walk m va ctx.radix.top ctx.radix.root).all (ctx.on pmeR) = false := by
  rw [List.all_eq_false]
  refine ⟨_, HptwCtx.mem_walk_stop W, ?_⟩
  rw [HptwCtx.on, pmePresent] at h
  rw [HptwCtx.on]
  split at h
  · rw [Bool.or_eq_false_iff, Bool.or_eq_false_iff] at h
    rw [h.1.1]
    decide
  · rw [h]
    decide

theorem hptProtOf_eq_none {r w x : Bool} :
    hptProtOf r w x = hptProtsNone ↔ r = false ∧ w = false ∧ x = false := by
  revert r w x; decide

/-- **When the two permission walks agree.**  For every format, table and address. -/
theorem permission_walks_agree_iff (h : ctx.Total) (ht : ctx.t ≠ .invalid) :
    PermissionWalksAgree ctx m va ↔ PresentOrRefused ctx m va := by
  have W := h.walkable ht
  have hmaps := h.maps_stop m va ht
  rw [PermissionWalksAgree, PresentOrRefused, hptwGetEffectiveProts_eq h ht, HptwCtx.on]
  by_cases hp : pmePresent ctx.t (ctx.radix.stop m va).1
      ((ctx.radix.stop m va).2.setWidth 64) = true
  · -- mapped: both walks test the same entries
    refine ⟨fun _ => Or.inl hp, fun _ => ⟨fun _ _ => ?_, _, _, rfl, ?_, ?_⟩⟩
    · rw [hptwCheckedGetPmeo_eq _ _ _ _ W]
      exact Option.some_ne_none _
    · intro accessType cpl _ hrwx
      rw [← HptwCtx.all_grants accessType cpl hrwx, hptwCheckedGetPmeo_eq _ _ _ _ W, hmaps, hp,
        Bool.and_true]
      split <;> simp_all
    · intro h0
      rw [hptwCheckedGetPmeo_eq _ _ _ _ W, hmaps, hp, Bool.and_true] at h0
      have hall : (ctx.radix.walk m va ctx.radix.top ctx.radix.root).all
          (ctx.grants 0 .cpl0) = true :=
        (HptwCtx.all_grants 0 .cpl0 (by decide) _).mpr ⟨BitVec.zero_and, Or.inl rfl⟩
      rw [if_pos hall] at h0
      cases h0
  · -- not mapped: the checked walk always fails, so nothing may be reported
    rw [Bool.not_eq_true] at hp
    have hnone : ∀ accessType cpl, hptwCheckedGetPmeo ctx m accessType cpl va = some none := by
      intro accessType cpl
      rw [hptwCheckedGetPmeo_eq _ _ _ _ W, hmaps, hp, Bool.and_false]
      rfl
    have hprots : ctx.walkProts (ctx.radix.walk m va ctx.radix.top ctx.radix.root) =
          hptProtsNone ↔
        (∃ x ∈ ctx.radix.walk m va ctx.radix.top ctx.radix.root, ctx.on pmeW x = false) ∧
          ∃ x ∈ ctx.radix.walk m va ctx.radix.top ctx.radix.root, ctx.on pmeX x = false := by
      rw [HptwCtx.walkProts, hptProtOf_eq_none, HptwCtx.all_pmeR_false W hp, List.all_eq_false,
        List.all_eq_false]
      simp only [Bool.not_eq_true, true_and]
    rw [hp, ← hprots]
    constructor
    · rintro ⟨-, prots, user, heq, -, hz⟩
      obtain ⟨rfl, rfl⟩ : _ = prots ∧ _ = user := by simpa using heq
      exact Or.inr (hz (hnone _ _))
    · rintro (hfalse | hz)
      · cases hfalse
      · refine ⟨fun _ _ => ?_, _, _, rfl, ?_, fun _ => hz⟩
        · rw [hnone]
          exact Option.some_ne_none _
        · intro accessType cpl hne _
          rw [hnone, hz, show accessType &&& hptProtsNone = 0 from BitVec.and_zero]
          refine ⟨fun hsome => ?_, fun hs => absurd hs.1.symm hne⟩
          obtain ⟨_, hs⟩ := hsome
          cases hs

/-- A 32-bit table that maps the page at 0 to the one at `0x5000`, for the user to read. -/
def onePage : ByteMem :=
  ByteMem.store (ByteMem.store (fun _ => 0) 0x2000 4 0x2007#32) 0x3000 4 0x5005#32

theorem permission_walks_agree_onePage :
    PermissionWalksAgree (offsetCtx .norm) onePage 0x123 ∧
      hptwGetEffectiveProts (offsetCtx .norm) onePage 0x123 =
        some (hptProtReadMask ||| hptProtExecMask, some true) :=
  ⟨(permission_walks_agree_iff (offsetCtx_total .norm) (by decide)).mpr (Or.inl (by decide)),
    by decide⟩

/-- In an empty LONG table the effective protections of address 0 are "execute", because the
NX bit of an absent entry is clear, while the checked walk refuses to execute. -/
theorem permission_walks_disagree_long_zero :
    (offsetCtx .long).Total ∧ (offsetCtx .long).t = .long ∧
      hptwGetEffectiveProts (offsetCtx .long) (fun _ => 0) 0 =
        some (hptProtExecMask, some false) ∧
      hptwCheckedGetPmeo (offsetCtx .long) (fun _ => 0) hptProtExecMask .cpl0 0 = some none ∧
      ¬ PermissionWalksAgree (offsetCtx .long) (fun _ => 0) 0 := by
  have heff : hptwGetEffectiveProts (offsetCtx .long) (fun _ => 0) 0 =
      some (hptProtExecMask, some false) := by decide
  have hchk : hptwCheckedGetPmeo (offsetCtx .long) (fun _ => 0) hptProtExecMask .cpl0 0 =
      some none := by decide
  refine ⟨offsetCtx_total _, rfl, heff, hchk, ?_⟩
  rintro ⟨-, prots, user, heq, hagree, -⟩
  rw [heff] at heq
  obtain ⟨rfl, rfl⟩ : hptProtExecMask = prots ∧ false = user := by simpa [eq_comm] using heq
  obtain ⟨pmeo, hsome⟩ := (hagree hptProtExecMask .cpl0 (by decide) (by decide)).mpr
    ⟨by decide, Or.inl rfl⟩
  rw [hchk] at hsome
  cases hsome

/-! ## The unchecked translation -/

/-- The unchecked functions return at `va` only if it is mapped, and then the translation is
that of the entry the checked walk finds. -/
def VaToPaAgrees (ctx : HptwCtx) (m : ByteMem) (va : BitVec 64) : Prop :=
  (∀ pa, hptwVaToPa ctx m va = some pa →
    ∃ pmeo, hptwCheckedGetPmeo ctx m 0 .cpl0 va = some (some pmeo) ∧ pmeo.vaToPa va = some pa) ∧
  (∀ arch spa, hptwGpaToSpa arch ctx m va = some spa →
    ∃ pmeo pa, hptwCheckedGetPmeo ctx m 0 .cpl0 va = some (some pmeo) ∧
      pmeo.vaToPa va = some pa ∧ spa = pa.toNat % 2 ^ arch.ptrBits) ∧
  ∀ sz r, hptwAccessVa ctx m va sz = some r →
    ∃ pmeo pa, hptwCheckedGetPmeo ctx m 0 .cpl0 va = some (some pmeo) ∧
      pmeo.vaToPa va = some pa ∧
      r = ctx.pa2ptr pa (min sz (pmeo.remainingOnPage pa)) hptProtsR .cpl0

/-- **When the unchecked translation agrees with the checked walk.**  For every format, table
and address: unless the walk ends at an absent entry that counts as a page. -/
theorem va_to_pa_agrees_iff (h : ctx.Total) (ht : ctx.t ≠ .invalid) :
    VaToPaAgrees ctx m va ↔
      ctx.on pmePresent (ctx.radix.stop m va) = true ∨
        ctx.on pmePage (ctx.radix.stop m va) = false := by
  have W := h.walkable ht
  have hl := W.lvlOk_stop m va
  have hget : hptwGetPmeo ctx m 1 va = some (ctx.pmeo (ctx.radix.stop m va)) := by
    rw [hptwGetPmeo_one W, h.stop_not_table ht]
    rfl
  have hpa : hptwVaToPa ctx m va = (ctx.pmeo (ctx.radix.stop m va)).vaToPa va := by
    rw [hptwVaToPa, hget]
    rfl
  have hchk : hptwCheckedGetPmeo ctx m 0 .cpl0 va =
      some (if ctx.on pmePresent (ctx.radix.stop m va)
        then some (ctx.pmeo (ctx.radix.stop m va)) else none) := by
    rw [hptwCheckedGetPmeo_eq _ _ _ _ W, h.maps_stop m va ht,
      (HptwCtx.all_grants 0 .cpl0 (by decide) _).mpr ⟨BitVec.zero_and, Or.inl rfl⟩, Bool.true_and]
    rfl
  constructor
  · rintro ⟨hagree, -⟩
    by_cases hpg : ctx.on pmePage (ctx.radix.stop m va) = true
    · obtain ⟨pmeo, hsome, -⟩ :=
        hagree _ (hpa.trans ((HptwCtx.vaToPa_pmeo va hl).trans (if_pos hpg)))
      rw [hchk] at hsome
      split at hsome
      · exact Or.inl ‹_›
      · cases hsome
    · exact Or.inr (Bool.eq_false_iff.mpr hpg)
  · intro hcond
    -- a translation that is returned comes from a page, so the entry is present
    have key : ∀ pa, (ctx.pmeo (ctx.radix.stop m va)).vaToPa va = some pa →
        hptwCheckedGetPmeo ctx m 0 .cpl0 va = some (some (ctx.pmeo (ctx.radix.stop m va))) := by
      intro pa hsome
      rw [HptwCtx.vaToPa_pmeo va hl] at hsome
      rcases hcond with hp | hpg
      · rw [hchk, if_pos hp]
      · rw [hpg] at hsome
        cases hsome
    refine ⟨fun pa hsome => ?_, fun arch spa hsome => ?_, fun sz r hsome => ?_⟩
    · rw [hpa] at hsome
      exact ⟨_, key pa hsome, hsome⟩
    · rw [hptwGpaToSpa, hpa] at hsome
      obtain ⟨pa, hpa', hspa⟩ := Option.bind_eq_some_iff.mp hsome
      exact ⟨_, pa, key pa hpa', hpa', (Option.some.inj hspa).symm⟩
    · simp only [hptwAccessVa, hget, Option.bind_eq_bind, Option.bind_some] at hsome
      obtain ⟨pa, hpa', hr⟩ := Option.bind_eq_some_iff.mp hsome
      exact ⟨_, pa, key pa hpa', hpa', (Option.some.inj hr).symm⟩

/-- A 32-bit table whose directory entry 0 (at pointer `0x2000`) points at an empty page table
(physical `0x2000`). -/
def emptyPageTable : ByteMem := ByteMem.store (fun _ => 0) 0x2000 4 0x2007#32

/-- Address 0 of that table is not mapped, yet `hptw_va_to_pa` translates it. -/
theorem va_to_pa_disagrees_norm :
    (offsetCtx .norm).Total ∧ (offsetCtx .norm).t = .norm ∧
      hptwVaToPa (offsetCtx .norm) emptyPageTable 0 = some 0 ∧
      hptwCheckedGetPmeo (offsetCtx .norm) emptyPageTable 0 .cpl0 0 = some none ∧
      ¬ VaToPaAgrees (offsetCtx .norm) emptyPageTable 0 := by
  have hpa : hptwVaToPa (offsetCtx .norm) emptyPageTable 0 = some 0 := by decide
  have hchk : hptwCheckedGetPmeo (offsetCtx .norm) emptyPageTable 0 .cpl0 0 = some none := by
    decide
  refine ⟨offsetCtx_total _, rfl, hpa, hchk, ?_⟩
  rintro ⟨hagree, -⟩
  obtain ⟨pmeo, hsome, -⟩ := hagree 0 hpa
  rw [hchk] at hsome
  cases hsome

theorem va_to_pa_agrees_onePage :
    VaToPaAgrees (offsetCtx .norm) onePage 0x123 ∧
      hptwVaToPa (offsetCtx .norm) onePage 0x123 = some 0x5123 :=
  ⟨(va_to_pa_agrees_iff (offsetCtx_total .norm) (by decide)).mpr (Or.inl (by decide)), by decide⟩

end Shv
