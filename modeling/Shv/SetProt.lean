/-
# `Shv.SetProt` — `hptw_set_prot`

`hptw_set_prot` rewrites the protection bits of one level-1 entry.  The format decides where those
bits are, `hpt_pme_setprot` writes them, and a checked walk intersects them again with what the
entries above grant.  `hptw_set_prot_one_page` puts the three together: a checked walk of an address
in the page succeeds exactly when `prot` and the rest of the path allow the access, and finds the
same memory; for every other address nothing changes.

That the write shows nowhere else is `Radix.Tree.walk_put_leaf`; that it changes nothing else of the
entry is `HptSetter.read_eq`; that `prot` is read back is `pmeProt_eq_of_setprot`.
-/
import Shv.HptCodec
import Shv.InsertAgree
import Shv.WalkAgree

namespace Shv

open ByteMem

variable {ctx : HptwCtx} {m m' : ByteMem} {va va' prot accessType : BitVec 64} {cpl : HptwCpl}

/-- The entries above level 1 on the way to an address grant an access, and the user bits of all of
them allow the privilege level. -/
def PathGrants (ctx : HptwCtx) (m : ByteMem) (va accessType : BitVec 64) (cpl : HptwCpl) : Prop :=
  ∀ x ∈ ctx.radix.walk m va ctx.radix.top ctx.radix.root,
    (x.1 ≠ 1 → ∃ pr, (ctx.pmeo x).getprot = some pr ∧ accessType &&& pr = accessType) ∧
      (cpl = .cpl0 ∨ (ctx.pmeo x).getuser = some true)

/-! ## The write -/

/-- What `hptw_set_prot` does when it returns: one entry of a level-1 table, rewritten by
`hpt_pme_setprot`. -/
theorem hptwSetProt_cases (W : ctx.Walkable) (h : hptwSetProt ctx m va prot = some m') :
    ∃ q e', ctx.radix.Node m va 1 q ∧
      hptPmeSetprot ctx.t 1 (ctx.pme m 1 q va) prot = some e' ∧
      m' = ctx.radix.put m 1 q va (ctx.word e') := by
  obtain ⟨⟨pm, t, lvl⟩, hget, h⟩ := Option.bind_eq_some_iff.mp h
  rw [hptwGetPmo, W.getRoot] at hget
  obtain ⟨_, hne, h⟩ := Option.bind_eq_some_iff.mp h
  obtain ⟨_, hlvl, h⟩ := Option.bind_eq_some_iff.mp h
  simp only [cAssert_eq_some, bne_iff_ne, beq_iff_eq] at hne hlvl
  subst hlvl
  obtain ⟨rfl, hq⟩ := hptwGetPmoLoop_found W _ _ _ _ .root hget hne
  rw [hptPmGetPmeoByVa_eq (W.node_lvl hq)] at h
  simp only [Option.bind_some, HptPmeo.setprot, Option.bind_eq_bind] at h
  obtain ⟨pmeo, hset, h⟩ := Option.bind_eq_some_iff.mp h
  obtain ⟨e', he', hpmeo⟩ := Option.bind_eq_some_iff.mp hset
  cases hpmeo
  rw [hptPmoSetPmeByVa_eq (W.node_lvl hq)] at h
  exact ⟨pm, e', hq, he', (Option.some.inj h).symm⟩

theorem setprot_one (hl : LvlOk ctx.t 1) {e e' : BitVec 64} (hp : prot < 8#64)
    (hv : hptProtIsValid ctx.t 1 prot = true) (hw : hptPmeSetprot ctx.t 1 e prot = some e') :
    pmeProt ctx.t 1 e' = prot ∧ pmePresent ctx.t 1 e' = (prot != hptProtsNone) ∧
      pmeUser ctx.t 1 e' = pmeUser ctx.t 1 e ∧
      hptPmeGetAddress ctx.t 1 e' = hptPmeGetAddress ctx.t 1 e ∧
      hptPmeGetPmt ctx.t 1 e' = hptPmeGetPmt ctx.t 1 e := by
  have hread := pmeProt_eq_of_setprot hl hp hv (fun hc => absurd hc.2.1 (by decide)) hw
  have hpresent := hptPmeIsPresent_of_prot hl hp hv hread
  rw [hptPmeIsPresent_eq hl, Option.some.injEq] at hpresent
  have hkeep : ∀ g : HptGetter, g.field ≠ some .prot → g.read ctx.t 1 e' = g.read ctx.t 1 e :=
    fun g hg => HptSetter.read_eq (s := .prot prot) hl hw hg
  refine ⟨hread, hpresent, ?_, hkeep .address (fun hc => nomatch hc),
    hkeep .pmt (fun hc => nomatch hc)⟩
  apply pmeUser_agree
  intro i hi
  apply HptSetter.frame (s := .prot prot) hl hw
  rw [hi]
  exact fun hc => nomatch hc

theorem setprot_norm {e e' : BitVec 64} (hw : hptPmeSetprot .norm 1 e prot = some e')
    (hn : ∀ i, 32 ≤ i → e.getLsbD i = false) : ∀ i, 32 ≤ i → e'.getLsbD i = false := by
  intro i hi
  by_cases hlt : i < 64
  · have hlayout : ∀ page, ∀ i < 64, 32 ≤ i → pmeLayout .norm 1 page i ≠ some .prot := by decide
    rw [HptSetter.frame (s := .prot prot) (by decide) hw (hlayout _ i hlt hi), hn i hi]
  · exact BitVec.getLsbD_of_ge _ _ (Nat.le_of_not_lt hlt)

/-! ## The walks -/

theorem HptwCtx.grants_iff {x : Nat × BitVec (8 * ctx.radix.width)}
    (hl : LvlOk ctx.t x.1) : ctx.grants accessType cpl x = true ↔
      (∃ pr, (ctx.pmeo x).getprot = some pr ∧ accessType &&& pr = accessType) ∧
        (cpl = .cpl0 ∨ (ctx.pmeo x).getuser = some true) := by
  simp only [HptwCtx.grants, HptwCtx.pmeo, HptPmeo.getprot, HptPmeo.getuser, hptPmeGetprot_eq hl,
    hptPmeGetuser_eq hl, Bool.and_eq_true, Bool.or_eq_true, beq_iff_eq, Option.some.injEq,
    exists_eq_left']

/-- Of a walk that ends at level 1, the entries above are the ones whose permissions count. -/
theorem pathGrants_append {pre : List (Nat × BitVec (8 * ctx.radix.width))}
    {w : BitVec (8 * ctx.radix.width)}
    (hwalk : ctx.radix.walk m va ctx.radix.top ctx.radix.root = pre ++ [(1, w)])
    (habove : ∀ x ∈ pre, 1 < x.1) (hlvl : ∀ x ∈ pre, LvlOk ctx.t x.1) :
    PathGrants ctx m va accessType cpl ↔ pre.all (ctx.grants accessType cpl) = true ∧
      (cpl = .cpl0 ∨ (ctx.pmeo (1, w)).getuser = some true) := by
  rw [PathGrants, hwalk, List.forall_mem_append, List.forall_mem_singleton, List.all_eq_true]
  refine and_congr ?_ ?_
  · refine forall₂_congr fun x hx => ?_
    rw [HptwCtx.grants_iff (hlvl x hx)]
    exact and_congr_left' (forall_prop_of_true (Nat.ne_of_gt (habove x hx)))
  · simp

/-- What a rewritten entry grants: `prot`, and to user mode what it granted before. -/
theorem HptwCtx.grants_setprot {w w' : BitVec (8 * ctx.radix.width)} (hl : LvlOk ctx.t 1)
    (hp : prot < 8#64) (hv : hptProtIsValid ctx.t 1 prot = true)
    (hw : hptPmeSetprot ctx.t 1 (w.setWidth 64) prot = some (w'.setWidth 64)) :
    ctx.grants accessType cpl (1, w') = true ↔ accessType &&& prot = accessType ∧
      (cpl = .cpl0 ∨ (ctx.pmeo (1, w)).getuser = some true) := by
  obtain ⟨hprot, -, huser, -, -⟩ := setprot_one hl hp hv hw
  simp only [HptwCtx.grants, HptwCtx.pmeo, HptPmeo.getuser, hptPmeGetuser_eq hl, hprot, huser,
    Bool.and_eq_true, Bool.or_eq_true, beq_iff_eq, Option.some.injEq]

/-- What a checked walk finds in the page after the entry has been rewritten: `old` is the entry
before. -/
structure SetProtOutcome (ctx : HptwCtx) (m : ByteMem) (va prot accessType : BitVec 64)
    (cpl : HptwCpl) (old : HptPmeo) (r : Checked HptPmeo) : Prop where
  granted : r.isSome = true ↔ accessType &&& prot = accessType ∧ PathGrants ctx m va accessType cpl
  address : ∀ pmeo, r = some pmeo →
    pmeo.getAddress = old.getAddress ∧ pmeo.vaToPa va = old.vaToPa va
  memory : ∀ pmeo, r = some pmeo → pmeo.getcache = old.getcache

theorem hptwSetProt_same_page (W : ctx.Walkable) (hm : ctx.radix.Tree m) (hp : prot < 8#64)
    (hv : hptProtIsValid ctx.t 1 prot = true) {q : Nat} {e' : BitVec 64}
    (hq : ctx.radix.Node m va 1 q)
    (hw : hptPmeSetprot ctx.t 1 (ctx.pme m 1 q va) prot = some e') (haccess : accessType ≠ 0)
    (cpl : HptwCpl) (ha : ctx.radix.Agree 1 va va') :
    ∃ r, hptwCheckedGetPmeo ctx (ctx.radix.put m 1 q va (ctx.word e')) accessType cpl va' =
        some r ∧
      SetProtOutcome ctx m va' prot accessType cpl
        (ctx.pmeo (1, ctx.radix.entry m 1 q va)) r := by
  have hl := W.node_lvl hq
  have hone : ∀ w, ctx.radix.child 1 w = none := ctx.radix.child_one
  have hword : (ctx.word e').setWidth 64 = e' := by
    apply HptwCtx.setWidth_word
    intro ht
    rw [ht] at hw
    exact setprot_norm hw (fun i hi => ctx.pme_norm ht i hi)
  -- the walk of `va'` goes through the entry, and only that entry of it has changed
  obtain ⟨pre, habove, hwalk, hwalk'⟩ := hm.walk_put_leaf W.top_pos hq (hone _)
    (hone (ctx.word e')) ha
  have hstop := hm.stop_put_leaf W.top_pos hq (hone (ctx.word e')) ha
  have hlvl : ∀ x ∈ pre, LvlOk ctx.t x.1 := by
    intro x hx
    have hmem : x ∈ ctx.radix.walk m va' ctx.radix.top ctx.radix.root := by
      rw [hwalk]
      exact List.mem_append_left _ hx
    exact Radix.lvl_of_mem_walk hmem
  obtain ⟨-, hpresent, -, haddr, hpmt⟩ := setprot_one hl hp hv hw
  rw [← hword] at hw
  have hmaps : ctx.maps (1, ctx.word e') = (prot != hptProtsNone) := by
    rw [HptwCtx.maps, hword, hpresent, pmePage_one, Bool.and_true]
  have hcheck := hptwCheckedGetPmeo_eq (ctx.radix.put m 1 q va (ctx.word e')) va' accessType cpl W
  rw [hwalk', hstop, hmaps, List.all_append, List.all_cons, List.all_nil, Bool.and_true] at hcheck
  have hsome : ∀ pmeo, (if (pre.all (ctx.grants accessType cpl) &&
      ctx.grants accessType cpl (1, ctx.word e') && (prot != hptProtsNone)) = true
        then some (ctx.pmeo (1, ctx.word e')) else none) = some pmeo →
      pmeo = { pme := e', t := ctx.t, lvl := 1 } := by
    intro pmeo hr
    rw [Option.ite_none_right_eq_some] at hr
    rw [← Option.some.inj hr.2, HptwCtx.pmeo, hword]
  refine ⟨_, hcheck, ?_, ?_, ?_⟩
  · rw [pathGrants_append hwalk habove hlvl, Option.isSome_ite, Bool.and_eq_true, Bool.and_eq_true,
      HptwCtx.grants_setprot hl hp hv hw, bne_iff_ne]
    constructor
    · rintro ⟨⟨hpre, hwithin, hcpl⟩, -⟩
      exact ⟨hwithin, hpre, hcpl⟩
    · rintro ⟨hwithin, hpre, hcpl⟩
      refine ⟨⟨hpre, hwithin, hcpl⟩, ?_⟩
      rintro rfl
      exact haccess (hwithin.symm.trans BitVec.and_zero)
  · intro pmeo hr
    rw [hsome pmeo hr]
    refine ⟨haddr, ?_⟩
    simp only [HptPmeo.vaToPa, HptPmeo.getAddress, HptwCtx.pmeo, hptPmeIsPage_eq hl, pmePage_one,
      haddr]
    rfl
  · intro pmeo hr
    rw [hsome pmeo hr]
    exact hpmt

/-- **`hptw_set_prot` changes the permissions of one page.**  For every format and table, every
`prot` the format has at level 1, every non-empty access, privilege level and address. -/
theorem hptw_set_prot_one_page (h : ctx.Total) (hm : ctx.radix.Tree m) (hp : prot < 8#64)
    (hv : hptProtIsValid ctx.t 1 prot = true) (hset : hptwSetProt ctx m va prot = some m')
    (haccess : accessType ≠ 0) (cpl : HptwCpl) (va' : BitVec 64) :
    (regionOf ctx.t 1 va' = regionOf ctx.t 1 va →
      ∃ old r, hptwGetPmeo ctx m 1 va' = some old ∧ old.lvl = 1 ∧
        hptwCheckedGetPmeo ctx m' accessType cpl va' = some r ∧
        SetProtOutcome ctx m va' prot accessType cpl old r) ∧
    (regionOf ctx.t 1 va' ≠ regionOf ctx.t 1 va →
      hptwCheckedGetPmeo ctx m' accessType cpl va' =
        hptwCheckedGetPmeo ctx m accessType cpl va') := by
  have ht : ctx.t ≠ .invalid := by
    intro ht
    rw [ht] at hv
    cases hv
  have W := h.walkable ht
  obtain ⟨q, e', hq, hw, rfl⟩ := hptwSetProt_cases W hset
  have hl := W.node_lvl hq
  constructor
  · intro heq
    have ha := (agree_iff_regionOf ctx hl).mpr heq.symm
    obtain ⟨r, hcheck, hout⟩ := hptwSetProt_same_page W hm hp hv hq hw haccess cpl ha
    refine ⟨_, r, hptwGetPmeo_node W (hq.congr_key (ha.mono (Nat.le_succ 1))), rfl, hcheck, ?_⟩
    rwa [Radix.entry_congr_key ha hq.le_top]
  · intro hne
    have hna : ¬ ctx.radix.Agree 1 va va' := fun ha => hne ((agree_iff_regionOf ctx hl).mp ha).symm
    exact hptwCheckedGetPmeo_alike W (Or.inl (hm.walk_put_of_not_agree W.top_pos hq hna))
      accessType cpl

/-! ### A table with one empty page table -/

theorem emptyPageTable_child {q : Nat}
    (h : (offsetCtx .norm).radix.child 2
      ((offsetCtx .norm).radix.entry emptyPageTable 2 0x2000 va) = some q) :
    pmIdx .norm 2 va = 0 ∧ q = 0x3000 := by
  by_cases hidx : pmIdx .norm 2 va = 0
  · refine ⟨hidx, ?_⟩
    have hs : (offsetCtx .norm).radix.slot 2 0x2000 va = 0x2000 := by
      show 0x2000 + 4 * pmIdx .norm 2 va = 0x2000
      omega
    have he : (offsetCtx .norm).radix.entry emptyPageTable 2 0x2000 va = 0x2007#32 := by
      rw [Radix.entry, hs]
      exact load_store_self (fun _ => 0) 0x2000 4 0x2007#32
    rw [he] at h
    exact (Option.some.inj h).symm
  · have hap : Apart 0x2000 4 ((offsetCtx .norm).radix.slot 2 0x2000 va) 4 := by
      left
      show 0x2000 + 4 ≤ 0x2000 + 4 * pmIdx .norm 2 va
      omega
    have he : (offsetCtx .norm).radix.entry emptyPageTable 2 0x2000 va = 0#32 :=
      (load_store_of_apart hap).trans (load_zero fun _ _ => rfl)
    rw [he] at h
    cases h

theorem emptyPageTable_node {lvl p : Nat}
    (h : (offsetCtx .norm).radix.Node emptyPageTable va lvl p) :
    (lvl = 2 ∧ p = 0x2000) ∨ (lvl = 1 ∧ p = 0x3000 ∧ pmIdx .norm 2 va = 0) := by
  induction h with
  | root => exact Or.inl ⟨rfl, rfl⟩
  | @down l p q _ hc ih =>
      rcases ih with ⟨hl, rfl⟩ | ⟨hl, -, -⟩
      · obtain rfl : l = 1 := Nat.succ.inj hl
        obtain ⟨hidx, rfl⟩ := emptyPageTable_child hc
        exact Or.inr ⟨rfl, rfl, hidx⟩
      · obtain rfl : l = 0 := Nat.succ.inj hl
        rw [(offsetCtx .norm).radix.child_one] at hc
        cases hc

theorem emptyPageTable_tree : (offsetCtx .norm).radix.Tree emptyPageTable := by
  intro k k' l l' p p' h h'
  rcases emptyPageTable_node h with ⟨rfl, rfl⟩ | ⟨rfl, rfl, hk⟩ <;>
    rcases emptyPageTable_node h' with ⟨rfl, rfl⟩ | ⟨rfl, rfl, hk'⟩
  · exact Or.inl ⟨rfl, fun j hj ht => absurd (Nat.le_trans hj ht) (by decide)⟩
  · exact Or.inr (Or.inl (by decide))
  · exact Or.inr (Or.inr (by decide))
  · refine Or.inl ⟨rfl, fun j hj ht => ?_⟩
    obtain rfl : j = 2 := Nat.le_antisymm ht hj
    exact hk.trans hk'.symm

/-- Page 0 of that table is given RX: it can be read, and page 1 still cannot. -/
theorem hptw_set_prot_one_page_norm :
    ∃ m', hptwSetProt (offsetCtx .norm) emptyPageTable 0 hptProtsRx = some m' ∧
      (∃ old r, hptwGetPmeo (offsetCtx .norm) emptyPageTable 1 0xfff#64 = some old ∧ old.lvl = 1 ∧
        hptwCheckedGetPmeo (offsetCtx .norm) m' hptProtsR .cpl0 0xfff#64 = some r ∧
        SetProtOutcome (offsetCtx .norm) emptyPageTable 0xfff#64 hptProtsRx hptProtsR .cpl0 old
          r) ∧
      hptwCheckedGetPmeo (offsetCtx .norm) m' hptProtsR .cpl0 0x1000#64 = some none := by
  obtain ⟨m', hset⟩ := Option.isSome_iff_exists.mp
    (show (hptwSetProt (offsetCtx .norm) emptyPageTable 0 hptProtsRx).isSome = true by decide)
  have hmain := hptw_set_prot_one_page (offsetCtx_total .norm) emptyPageTable_tree (by decide)
    (by decide) hset (show hptProtsR ≠ 0 by decide) .cpl0
  refine ⟨m', hset, (hmain 0xfff#64).1 (by decide), ?_⟩
  rw [(hmain 0x1000#64).2 (by decide)]
  decide

end Shv
