/-
# `Shv.Insert` — `hptw_get_pmo_alloc` and `hptw_insert_pmeo_alloc`

Inserting an entry may have to create the tables above it.  What can happen is
said once, as the relation `AllocSteps`: a run of the loop of
`hptw_get_pmo_alloc` links fresh tables into absent entries on the path of `va`,
one after another, and possibly ends with `gzp` out of memory.  That every run is
such a sequence is `hptwGetPmoAllocLoop_steps`; everything else about the loop is
an induction on `AllocSteps`.

The allocator is a parameter.  What is asked of it (`Allocator`) is what a caller
of `hptw.c` must provide: `gzp` does not touch tables in use, and what it returns
is an empty page map apart from them all, at an address that fits an entry.  The
invariant `I` is the allocator's own; it may speak of free lists and flags, and
has to survive the linking of a page `gzp` returned.

The result is `hptwInsertPmeoAlloc_read_frame`: an inserted entry reads back,
and no address outside its region is translated differently than before.
-/
import Shv.Region

namespace Shv

open ByteMem

variable {ctx : HptwCtx} {m m' : ByteMem} {lvl p : Nat} {va va' : BitVec 64}

/-! ## The allocator -/

/-- The entry `hptw_get_pmo_alloc` writes for the table at `p`. -/
structure LinkEntry (ctx : HptwCtx) (lvl p : Nat) (e : BitVec (8 * ctx.radix.width)) : Prop where
  prot : pmeProt ctx.t lvl (e.setWidth 64) = hptProtsRwx
  addr : pmeAddr ctx.t lvl (e.setWidth 64) = ctx.ptr2pa p

/-- What `hptw_get_pmo_alloc` relies on.  `I` is an invariant of the allocator that holds
whenever `gzp` is called. -/
structure Allocator (ctx : HptwCtx) (I : ByteMem → Prop) : Prop where
  /-- `gzp` leaves the tables in use alone. -/
  frame : ∀ {m lvl p m₁}, I m → ctx.radix.Tree m → LvlOk ctx.t (lvl + 1) → 1 ≤ lvl →
    ctx.gzp m hptPmSizeBytes (hptPmSizes ctx.t lvl) = some (p, m₁) → ctx.radix.Frame m m₁
  /-- What it returns, if not `NULL`, is an empty page map apart from all reachable ones. -/
  fresh : ∀ {m lvl p m₁}, I m → ctx.radix.Tree m → LvlOk ctx.t (lvl + 1) → 1 ≤ lvl →
    ctx.gzp m hptPmSizeBytes (hptPmSizes ctx.t lvl) = some (p, m₁) → p ≠ 0 →
    ctx.radix.Fresh m₁ lvl p
  /-- Its address fits an entry, and `pa2ptr` inverts `ptr2pa` on it. -/
  address : ∀ {m lvl p m₁}, I m → ctx.radix.Tree m → LvlOk ctx.t (lvl + 1) → 1 ≤ lvl →
    ctx.gzp m hptPmSizeBytes (hptPmSizes ctx.t lvl) = some (p, m₁) → p ≠ 0 →
    Representable ctx.t (ctx.ptr2pa p) ∧
      ∀ sz prot cpl, (ctx.pa2ptr (ctx.ptr2pa p) sz prot cpl).1 = p
  /-- The invariant survives a failed call, … -/
  full : ∀ {m lvl m₁}, I m → ctx.radix.Tree m → LvlOk ctx.t (lvl + 1) → 1 ≤ lvl →
    ctx.gzp m hptPmSizeBytes (hptPmSizes ctx.t lvl) = some (0, m₁) → I m₁
  /-- … and the linking of a page that was returned. -/
  link : ∀ {m lvl p m₁ va q e}, I m → ctx.radix.Tree m →
    ctx.gzp m hptPmSizeBytes (hptPmSizes ctx.t lvl) = some (p, m₁) → p ≠ 0 →
    ctx.radix.Linking m₁ va lvl q p e → LinkEntry ctx (lvl + 1) p e →
    I (ctx.radix.put m₁ (lvl + 1) q va e)

/-- What a run of the loop of `hptw_get_pmo_alloc` can do to memory, with what `gzp` returned. -/
inductive AllocSteps (ctx : HptwCtx) (va : BitVec 64) : ByteMem → List Nat → ByteMem → Prop
  | done {m : ByteMem} : AllocSteps ctx va m [] m
  | full {m m₁ : ByteMem} {lvl q : Nat} :
      ctx.gzp m hptPmSizeBytes (hptPmSizes ctx.t lvl) = some (0, m₁) → ctx.radix.Frame m m₁ →
      1 ≤ lvl → ctx.radix.Node m va (lvl + 1) q →
      ctx.radix.absent (lvl + 1) (ctx.radix.entry m (lvl + 1) q va) = true →
      AllocSteps ctx va m [0] m₁
  | link {m m₁ m' : ByteMem} {lvl p q : Nat} {e : BitVec (8 * ctx.radix.width)}
      {log : List Nat} :
      ctx.gzp m hptPmSizeBytes (hptPmSizes ctx.t lvl) = some (p, m₁) → p ≠ 0 →
      ctx.radix.Frame m m₁ → ctx.radix.Linking m₁ va lvl q p e →
      LinkEntry ctx (lvl + 1) p e →
      AllocSteps ctx va (ctx.radix.put m₁ (lvl + 1) q va e) log m' →
      AllocSteps ctx va m (p :: log) m'

namespace AllocSteps

theorem alike {log : List Nat} (ht : 1 ≤ ctx.radix.top) (h : AllocSteps ctx va m log m')
    (k : BitVec 64) : ctx.radix.Alike m m' k := by
  induction h with
  | done => exact .refl _ _
  | full _ hf _ _ _ => exact Or.inl ((hf.same ht k).walk_eq .root)
  | link _ _ hf L _ _ ih =>
      exact Radix.Alike.trans (Or.inl ((hf.same ht k).walk_eq .root)) ((L.alike k).trans ih)

theorem node_mono {log : List Nat} (ht : 1 ≤ ctx.radix.top) (h : AllocSteps ctx va m log m')
    {k : BitVec 64} (hn : ctx.radix.Node m k lvl p) : ctx.radix.Node m' k lvl p := by
  induction h with
  | done => exact hn
  | full _ hf _ _ _ => exact (hf.same ht k).node hn
  | link _ _ hf L _ _ ih => exact ih (L.node_mono ((hf.same ht k).node hn))

end AllocSteps

/-- Why the loop gives up on its way to level `endLvl`: `gzp` returned `NULL`, or the path goes
through a page. -/
def Blocked (ctx : HptwCtx) (va : BitVec 64) (endLvl : Nat) (log : List Nat) (m : ByteMem) :
    Prop :=
  0 ∈ log ∨ ∃ lvl q, endLvl ≤ lvl ∧ ctx.radix.Node m va (lvl + 1) q ∧
    pmePage ctx.t (lvl + 1) (ctx.pme m (lvl + 1) q va) = true

/-! ## The loop -/

/-- A value whose high half is empty where entries are 32 bits wide goes through a table
unchanged. -/
theorem HptwCtx.setWidth_word {e : BitVec 64}
    (h : ctx.t = .norm → ∀ i, 32 ≤ i → e.getLsbD i = false) : (ctx.word e).setWidth 64 = e := by
  show (e.setWidth (8 * pmeBytes ctx.t)).setWidth 64 = e
  revert h
  generalize ctx.t = t
  intro h
  apply BitVec.eq_of_getLsbD_eq
  intro i hi
  rw [BitVec.getLsbD_setWidth, BitVec.getLsbD_setWidth, decide_eq_true hi, Bool.true_and]
  by_cases ht : t = .norm
  · by_cases h32 : i < 32
    · rw [ht, decide_eq_true (show i < 8 * pmeBytes .norm from h32), Bool.true_and]
    · rw [h ht i (by omega), Bool.and_false]
  · have hw : pmeBytes t = 8 := by cases t <;> first | rfl | exact absurd rfl ht
    rw [hw, decide_eq_true (by omega), Bool.true_and]

theorem child_link {e : BitVec 64} (h : pmePresent ctx.t lvl e = true)
    (hp : pmePage ctx.t lvl e = false)
    (hn : ctx.t = .norm → ∀ i, 32 ≤ i → e.getLsbD i = false) (hne : p ≠ 0)
    (ha : ctx.nextPm lvl e = p) :
    ctx.radix.child lvl (ctx.word e) = some p := by
  show (if pmeTable ctx.t lvl ((ctx.word e).setWidth 64) &&
    ctx.nextPm lvl ((ctx.word e).setWidth 64) != 0 then
    some (ctx.nextPm lvl ((ctx.word e).setWidth 64)) else none) = some p
  rw [HptwCtx.setWidth_word hn, pmeTable, h, hp, ha]
  exact if_pos (by simpa using hne)

section Loop

variable {I : ByteMem → Prop} (A : Allocator ctx I) (W : ctx.Walkable)
include A W

theorem hptwLinkNewPm_cases {q pm : Nat} {m₂ : ByteMem} (hI : I m) (hm : ctx.radix.Tree m)
    (hq : ctx.radix.Node m va (lvl + 1) q) (hl : 1 ≤ lvl)
    (hpg : pmePage ctx.t (lvl + 1) (ctx.pme m (lvl + 1) q va) = false)
    (hpr : pmePresent ctx.t (lvl + 1) (ctx.pme m (lvl + 1) q va) = false)
    (h : hptwLinkNewPm ctx m { pm := q, t := ctx.t, lvl := lvl + 1 }
      { pme := ctx.pme m (lvl + 1) q va, t := ctx.t, lvl := lvl + 1 } va = some (pm, m₂)) :
    ∃ m₁, ctx.gzp m hptPmSizeBytes (hptPmSizes ctx.t lvl) = some (pm, m₁) ∧
      ((pm = 0 ∧ m₂ = m₁) ∨ (pm ≠ 0 ∧ ∃ e, ctx.radix.Linking m₁ va lvl q pm e ∧
        LinkEntry ctx (lvl + 1) pm e ∧ m₂ = ctx.radix.put m₁ (lvl + 1) q va e)) := by
  have hok := W.node_lvl hq
  have hsz : hptPmSize ctx.t lvl = some (hptPmSizes ctx.t lvl) := hptPmSize_eq (hok.pred hl)
  simp only [hptwLinkNewPm, Nat.add_sub_cancel, hsz, Option.bind_eq_bind, Option.bind_some] at h
  obtain ⟨⟨pm', m₁⟩, hg, h⟩ := Option.bind_eq_some_iff.mp h
  by_cases h0 : pm' = 0
  · subst h0
    simp only [if_true] at h
    obtain ⟨rfl, rfl⟩ : pm = 0 ∧ m₂ = m₁ := by
      have := Option.some.inj h
      exact ⟨(congrArg Prod.fst this).symm, (congrArg Prod.snd this).symm⟩
    exact ⟨_, hg, Or.inl ⟨rfl, rfl⟩⟩
  · obtain ⟨hrep, hinv⟩ := A.address hI hm hok hl hg h0
    obtain ⟨e₁, e₂, e₃, s₁, s₂, s₃, prot₃, pres₃, page₃, addr₃, norm₃⟩ :=
      link_entry hok hpg (fun ht => ctx.pme_norm ht) hrep
    simp only [h0, if_false, HptPmeo.setAddress, HptPmeo.setprot, HptPmeo.setuser, s₁, s₂, s₃,
      Option.bind_eq_bind, Option.bind_some, hptPmoSetPmeByVa_eq hok, Option.pure_def,
      Option.some.injEq, Prod.mk.injEq] at h
    obtain ⟨rfl, rfl⟩ := h
    have hf := A.frame hI hm hok hl hg
    refine ⟨m₁, hg, Or.inr ⟨h0, _, ?_, ?_, rfl⟩⟩
    · refine ⟨hf.tree W.top_pos hm, W.top_pos, (hf.same W.top_pos va).node hq, ?_,
        A.fresh hI hm hok hl hg h0, ?_⟩
      · rw [hf.same W.top_pos va _ _ hq]
        show (!pmePresent ctx.t (lvl + 1) (ctx.pme m (lvl + 1) q va)) = true
        rw [hpr]
        rfl
      · refine child_link pres₃ page₃ norm₃ h0 ?_
        rw [HptwCtx.nextPm, addr₃]
        exact hinv _ _ _
    · constructor <;> rw [HptwCtx.setWidth_word norm₃]
      · exact prot₃
      · exact addr₃

/-- Every run of the loop is a sequence of linkings, and ends at a table of the level asked
for or with an error. -/
theorem hptwGetPmoAllocLoop_steps {endLvl : Nat} :
    ∀ (fuel lvl p : Nat) (m : ByteMem) (r : Checked HptPmo) (m' : ByteMem) (log : List Nat),
      I m → ctx.radix.Tree m → ctx.radix.Node m va lvl p → endLvl ≤ lvl →
      hptwGetPmoAllocLoop ctx endLvl va fuel m { pm := p, t := ctx.t, lvl := lvl } =
        some (r, m', log) →
      AllocSteps ctx va m log m' ∧ I m' ∧ ctx.radix.Tree m' ∧
        (r = none → Blocked ctx va endLvl log m') ∧
        ∀ pmo, r = some pmo →
          ∃ q, pmo = { pm := q, t := ctx.t, lvl := endLvl } ∧ ctx.radix.Node m' va endLvl q := by
  intro fuel
  induction fuel with
  | zero => intro lvl p m r m' log _ _ _ _ h; cases h
  | succ fuel ih =>
      intro lvl p m r m' log hI hm hp hle h
      rw [hptwGetPmoAllocLoop] at h
      rcases Nat.eq_or_lt_of_le hle with rfl | hlt
      · -- the level asked for
        rw [if_neg (Nat.lt_irrefl _)] at h
        simp only [Option.pure_def, Option.some.injEq, Prod.mk.injEq] at h
        obtain ⟨rfl, rfl, rfl⟩ := h
        refine ⟨.done, hI, hm, fun hnone => (by cases hnone), fun pmo hpmo => ?_⟩
        exact ⟨p, (Option.some.inj hpmo).symm, hp⟩
      · obtain ⟨lvl, rfl⟩ : ∃ n, lvl = n + 1 := ⟨lvl - 1, by omega⟩
        have hok := W.node_lvl hp
        have hnext := fun m => hptwNextLvl_eq m va W.sized hok (W.node_ne_null hp)
        rw [if_pos hlt] at h
        simp only [hptPmGetPmeoByVa_eq hok, HptPmeo.isPage, HptPmeo.isPresent,
          hptPmeIsPage_eq hok, hptPmeIsPresent_eq hok, Option.bind_eq_bind,
          Option.bind_some] at h
        by_cases hpg : pmePage ctx.t (lvl + 1) (ctx.pme m (lvl + 1) p va) = true
        · -- a page is in the way
          rw [if_pos hpg] at h
          simp only [Option.pure_def, Option.some.injEq, Prod.mk.injEq] at h
          obtain ⟨rfl, rfl, rfl⟩ := h
          exact ⟨.done, hI, hm, fun _ => Or.inr ⟨lvl, p, Nat.le_of_lt_succ hlt, hp, hpg⟩,
            fun pmo hpmo => by cases hpmo⟩
        · rw [if_neg hpg] at h
          rw [Bool.not_eq_true] at hpg
          -- entries of level 1 are pages, so there is a level below
          have hl : 1 ≤ lvl := by
            refine Nat.one_le_iff_ne_zero.mpr fun h0 => ?_
            subst h0
            rw [pmePage_one] at hpg
            cases hpg
          by_cases hpr : pmePresent ctx.t (lvl + 1) (ctx.pme m (lvl + 1) p va) = true
          · -- an existing table
            rw [if_pos hpr, hnext] at h
            cases hc : ctx.radix.child (lvl + 1) (ctx.radix.entry m (lvl + 1) p va) with
            | none =>
                rw [hc] at h
                simp at h
            | some q =>
                rw [hc] at h
                simp only [Option.bind_some, cAssert_true, Nat.add_sub_cancel] at h
                exact ih lvl q m r m' log hI hm (.down hp hc) (by omega) h
          · -- a new table
            rw [if_neg hpr] at h
            rw [Bool.not_eq_true] at hpr
            obtain ⟨⟨pm, m₂⟩, hlink, h⟩ := Option.bind_eq_some_iff.mp h
            obtain ⟨m₁, hg, hcases⟩ := hptwLinkNewPm_cases A W hI hm hp hl hpg hpr hlink
            have hf := A.frame hI hm hok hl hg
            rcases hcases with ⟨rfl, rfl⟩ | ⟨hne, e, L, hE, rfl⟩
            · simp only [if_true] at h
              simp only [Option.pure_def, Option.some.injEq, Prod.mk.injEq] at h
              obtain ⟨rfl, rfl, rfl⟩ := h
              have habs : ctx.radix.absent (lvl + 1) (ctx.radix.entry m (lvl + 1) p va) = true := by
                show (!pmePresent ctx.t (lvl + 1) (ctx.pme m (lvl + 1) p va)) = true
                rw [hpr]
                rfl
              exact ⟨.full hg hf hl hp habs, A.full hI hm hok hl hg,
                hf.tree W.top_pos hm, fun _ => Or.inl (List.mem_singleton_self _),
                fun pmo hpmo => by cases hpmo⟩
            · simp only [hne, if_false, hnext, Radix.entry_put_self, L.child, Option.bind_some,
                cAssert_true, Nat.add_sub_cancel] at h
              obtain ⟨⟨r', m'', log'⟩, hrec, h⟩ := Option.bind_eq_some_iff.mp h
              obtain ⟨rfl, rfl, rfl⟩ : r' = r ∧ m'' = m' ∧ pm :: log' = log := by simpa using h
              obtain ⟨hst, hI', hm', hnone, hend'⟩ := ih lvl pm _ _ _ _ (A.link hI hm hg hne L hE)
                L.tree_put (L.node_fresh (.refl _ _)) (by omega) hrec
              exact ⟨.link hg hne hf L hE hst, hI', hm',
                fun hr => (hnone hr).imp_left (List.mem_cons_of_mem _), hend'⟩

/-- Everything `hptw_insert_pmeo_alloc` can do: link tables, then fail or write the entry. -/
theorem hptwInsertPmeoAlloc_cases {pmeo : HptPmeo} {err : Nat} {log : List Nat}
    (hl : LvlOk ctx.t pmeo.lvl) (hI : I m) (hm : ctx.radix.Tree m)
    (h : hptwInsertPmeoAlloc ctx m pmeo va = some (err, m', log)) :
    ∃ m₁, AllocSteps ctx va m log m₁ ∧ I m₁ ∧ ctx.radix.Tree m₁ ∧
      ((err = 1 ∧ m' = m₁ ∧ Blocked ctx va pmeo.lvl log m₁) ∨
        (err = 0 ∧ ∃ q, ctx.radix.Node m₁ va pmeo.lvl q ∧
          m' = ctx.radix.put m₁ pmeo.lvl q va (ctx.word pmeo.pme))) := by
  simp only [hptwInsertPmeoAlloc, hptwGetPmoAlloc, W.getRoot, Option.bind_eq_bind,
    Option.bind_some] at h
  obtain ⟨⟨r, m₁, log₁⟩, hloop, h⟩ := Option.bind_eq_some_iff.mp h
  obtain ⟨hsteps, hI₁, hm₁, hnone, hr⟩ :=
    hptwGetPmoAllocLoop_steps A W _ _ _ _ _ _ _ hI hm .root hl.2 hloop
  cases r with
  | none =>
      simp only [Option.pure_def, Option.some.injEq, Prod.mk.injEq] at h
      obtain ⟨rfl, rfl, rfl⟩ := h
      exact ⟨m₁, hsteps, hI₁, hm₁, Or.inl ⟨rfl, rfl, hnone rfl⟩⟩
  | some pmo =>
      obtain ⟨q, rfl, hq⟩ := hr pmo rfl
      simp only [W.node_ne_null hq, if_false, ne_eq, not_true_eq_false,
        hptPmoSetPmeByVa_eq hl, Option.bind_some, Option.pure_def, Option.some.injEq,
        Prod.mk.injEq] at h
      obtain ⟨rfl, rfl, rfl⟩ := h
      exact ⟨m₁, hsteps, hI₁, hm₁, Or.inr ⟨rfl, q, hq, rfl⟩⟩

theorem hptwLinkNewPm_total {q : Nat} (hI : I m) (hm : ctx.radix.Tree m)
    (hq : ctx.radix.Node m va (lvl + 1) q) (hl : 1 ≤ lvl)
    (hpg : pmePage ctx.t (lvl + 1) (ctx.pme m (lvl + 1) q va) = false)
    (hg : ctx.gzp m hptPmSizeBytes (hptPmSizes ctx.t lvl) ≠ none) :
    ∃ r, hptwLinkNewPm ctx m { pm := q, t := ctx.t, lvl := lvl + 1 }
      { pme := ctx.pme m (lvl + 1) q va, t := ctx.t, lvl := lvl + 1 } va = some r := by
  have hok := W.node_lvl hq
  have hsz : hptPmSize ctx.t lvl = some (hptPmSizes ctx.t lvl) := hptPmSize_eq (hok.pred hl)
  obtain ⟨⟨pm, m₁⟩, hg⟩ := Option.ne_none_iff_exists'.mp hg
  simp only [hptwLinkNewPm, Nat.add_sub_cancel, hsz, hg, Option.bind_eq_bind, Option.bind_some]
  by_cases h0 : pm = 0
  · exact ⟨_, if_pos h0⟩
  · obtain ⟨hrep, -⟩ := A.address hI hm hok hl hg h0
    obtain ⟨e₁, e₂, e₃, s₁, s₂, s₃, -⟩ :=
      link_entry hok hpg (fun ht => ctx.pme_norm ht) hrep
    simp only [h0, if_false, HptPmeo.setAddress, HptPmeo.setprot, HptPmeo.setuser, s₁, s₂, s₃,
      Option.bind_eq_bind, Option.bind_some, hptPmoSetPmeByVa_eq hok, Option.pure_def]
    exact ⟨_, rfl⟩

variable (hgzp : ∀ {m lvl}, I m → ctx.radix.Tree m → LvlOk ctx.t (lvl + 1) → 1 ≤ lvl →
    ctx.gzp m hptPmSizeBytes (hptPmSizes ctx.t lvl) ≠ none)
  (hnull : ∀ {m va lvl p}, I m → ctx.radix.Node m va lvl p →
    pmeTable ctx.t lvl (ctx.pme m lvl p va) = true →
    ctx.radix.child lvl (ctx.radix.entry m lvl p va) ≠ none)
include hgzp hnull

variable (va) in
/-- The loop never halts if `gzp` does not and every table can be accessed. -/
theorem hptwGetPmoAllocLoop_total {endLvl : Nat} (hend : 1 ≤ endLvl) :
    ∀ (lvl fuel p : Nat) (m : ByteMem), I m → ctx.radix.Tree m → ctx.radix.Node m va lvl p →
      endLvl ≤ lvl → lvl < fuel →
      ∃ r, hptwGetPmoAllocLoop ctx endLvl va fuel m { pm := p, t := ctx.t, lvl := lvl } =
        some r := by
  intro lvl
  induction lvl with
  | zero => intro fuel p m _ _ hp; exact absurd (W.node_lvl hp).1 (by decide)
  | succ lvl ih =>
      intro fuel p m hI hm hp hle hf
      obtain ⟨fuel, rfl⟩ := Nat.exists_eq_add_of_lt hf
      rw [show lvl + 1 + fuel + 1 = (lvl + 1 + fuel) + 1 from rfl, hptwGetPmoAllocLoop]
      by_cases hlt : lvl + 1 > endLvl
      · have hok := W.node_lvl hp
        have hl : 1 ≤ lvl := by omega
        have hnext := fun m => hptwNextLvl_eq m va W.sized hok (W.node_ne_null hp)
        rw [if_pos hlt]
        simp only [hptPmGetPmeoByVa_eq hok, HptPmeo.isPage, HptPmeo.isPresent,
          hptPmeIsPage_eq hok, hptPmeIsPresent_eq hok, Option.bind_eq_bind, Option.bind_some]
        by_cases hpg : pmePage ctx.t (lvl + 1) (ctx.pme m (lvl + 1) p va) = true
        · exact ⟨_, if_pos hpg⟩
        · rw [if_neg hpg]
          rw [Bool.not_eq_true] at hpg
          by_cases hpr : pmePresent ctx.t (lvl + 1) (ctx.pme m (lvl + 1) p va) = true
          · have htab : pmeTable ctx.t (lvl + 1) (ctx.pme m (lvl + 1) p va) = true := by
              rw [pmeTable, hpr, hpg]
              rfl
            obtain ⟨q, hc⟩ := Option.ne_none_iff_exists'.mp (hnull hI hp htab)
            rw [if_pos hpr, hnext, hc]
            simp only [Option.bind_some, cAssert_true, Nat.add_sub_cancel]
            exact ih (lvl + 1 + fuel) q m hI hm (.down hp hc) (by omega) (by omega)
          · rw [if_neg hpr]
            rw [Bool.not_eq_true] at hpr
            obtain ⟨⟨pm, m₂⟩, hlink⟩ :=
              hptwLinkNewPm_total A W hI hm hp hl hpg (hgzp hI hm hok hl)
            obtain ⟨m₁, hg, hcases⟩ := hptwLinkNewPm_cases A W hI hm hp hl hpg hpr hlink
            rw [hlink]
            rcases hcases with ⟨rfl, rfl⟩ | ⟨hne, e, L, hE, rfl⟩
            · exact ⟨_, rfl⟩
            · simp only [hne, if_false, hnext, Radix.entry_put_self, L.child, Option.bind_some,
                cAssert_true, Nat.add_sub_cancel]
              obtain ⟨r, hr⟩ := ih (lvl + 1 + fuel) pm _ (A.link hI hm hg hne L hE) L.tree_put
                (L.node_fresh (.refl _ _)) (by omega) (by omega)
              rw [hr]
              exact ⟨_, rfl⟩
      · exact ⟨_, if_neg hlt⟩

variable (va) in
theorem hptwInsertPmeoAlloc_total (pmeo : HptPmeo) (hl : LvlOk ctx.t pmeo.lvl) (hI : I m)
    (hm : ctx.radix.Tree m) : ∃ r, hptwInsertPmeoAlloc ctx m pmeo va = some r := by
  obtain ⟨⟨r, m₁, log⟩, hloop⟩ := hptwGetPmoAllocLoop_total va A W hgzp hnull hl.1
    _ (ctx.radix.top + 1) _ m hI hm .root hl.2 (Nat.lt_succ_self _)
  obtain ⟨-, -, -, -, hr⟩ :=
    hptwGetPmoAllocLoop_steps A W _ _ _ _ _ _ _ hI hm .root hl.2 hloop
  simp only [hptwInsertPmeoAlloc, hptwGetPmoAlloc, W.getRoot, Option.bind_eq_bind,
    Option.bind_some, hloop]
  cases r with
  | none => exact ⟨_, rfl⟩
  | some pmo =>
      obtain ⟨q, rfl, hq⟩ := hr pmo rfl
      simp only [W.node_ne_null hq, if_false, ne_eq, not_true_eq_false, hptPmoSetPmeByVa_eq hl,
        Option.bind_some]
      exact ⟨_, rfl⟩

end Loop

/-- Where the table of the level asked for exists, the loop finds it and allocates nothing. -/
theorem hptwGetPmoAllocLoop_node (W : ctx.Walkable) {endLvl q : Nat}
    (hq : ctx.radix.Node m va endLvl q) :
    ∀ (lvl p fuel : Nat), ctx.radix.Node m va lvl p → endLvl ≤ lvl → lvl < fuel →
      hptwGetPmoAllocLoop ctx endLvl va fuel m { pm := p, t := ctx.t, lvl := lvl } =
        some (some { pm := q, t := ctx.t, lvl := endLvl }, m, []) := by
  intro lvl
  induction lvl with
  | zero => intro p fuel hp; exact absurd (W.node_lvl hp).1 (by decide)
  | succ lvl ih =>
      intro p fuel hp hle hf
      obtain ⟨fuel, rfl⟩ := Nat.exists_eq_add_of_lt hf
      rw [show lvl + 1 + fuel + 1 = (lvl + 1 + fuel) + 1 from rfl, hptwGetPmoAllocLoop]
      rcases Nat.eq_or_lt_of_le hle with rfl | hlt
      · obtain rfl := hp.unique hq
        exact if_neg (Nat.lt_irrefl _)
      · obtain ⟨r, hr⟩ := hq.child_of_lt hp hlt
        have hok := W.node_lvl hp
        have hnext := hptwNextLvl_eq m va W.sized hok (W.node_ne_null hp)
        rw [hr] at hnext
        obtain ⟨htab, -, -⟩ := HptwCtx.child_eq_some hr
        rw [pmeTable, Bool.and_eq_true, Bool.not_eq_true'] at htab
        rw [if_pos hlt]
        simp only [hptPmGetPmeoByVa_eq hok, HptPmeo.isPage, HptPmeo.isPresent,
          hptPmeIsPage_eq hok, hptPmeIsPresent_eq hok, Option.bind_eq_bind, Option.bind_some,
          htab.1, htab.2, Bool.false_eq_true, if_false, if_true, hnext, cAssert_true,
          Nat.add_sub_cancel]
        exact ih r (lvl + 1 + fuel) (.down hp hr) (Nat.le_of_lt_succ hlt) (by omega)

/-- Inserting where the table exists writes the entry and nothing else. -/
theorem hptwInsertPmeoAlloc_node (pmeo : HptPmeo) (W : ctx.Walkable) {q : Nat}
    (hl : LvlOk ctx.t pmeo.lvl) (hq : ctx.radix.Node m va pmeo.lvl q) :
    hptwInsertPmeoAlloc ctx m pmeo va =
      some (0, ctx.radix.put m pmeo.lvl q va (ctx.word pmeo.pme), []) := by
  have hloop := hptwGetPmoAllocLoop_node W hq _ _ (ctx.radix.top + 1) .root hq.le_top
    (Nat.lt_succ_self _)
  simp only [hptwInsertPmeoAlloc, hptwGetPmoAlloc, W.getRoot, Option.bind_eq_bind,
    Option.bind_some, hloop, W.node_ne_null hq, if_false, ne_eq, not_true_eq_false,
    hptPmoSetPmeByVa_eq hl]
  rfl

/-! ## Read-after-write and frame -/

/-- An entry as a table of type `t` keeps it: the low half where entries are 32 bits wide. -/
def storedPme (t : HptType) (pme : BitVec 64) : BitVec 64 :=
  if t = .norm then (pme.setWidth 32).setWidth 64 else pme

theorem HptwCtx.setWidth_word_eq (pme : BitVec 64) :
    (ctx.word pme).setWidth 64 = storedPme ctx.t pme := by
  show (pme.setWidth (8 * pmeBytes ctx.t)).setWidth 64 = storedPme ctx.t pme
  generalize ctx.t = t
  cases t with
  | norm => rfl
  | _ => exact (BitVec.setWidth_eq _).trans (BitVec.setWidth_eq pme)

theorem rootPm_ne_of_insert (hs : ctx.Sized) (ht : ctx.t ≠ .invalid) {pmeo : HptPmeo}
    {log : List Nat} (h : hptwInsertPmeoAlloc ctx m pmeo va = some (0, m', log)) :
    ctx.rootPm ≠ 0 := by
  intro h0
  rw [hptwInsertPmeoAlloc, hptwGetPmoAlloc, hptwGetRoot_eq hs ht, if_pos h0] at h
  simp at h

/-- **`hptw_insert_pmeo_alloc`, when it returns 0.**  The entry reads back at its level, and
for every address outside the region it covers every checked walk is what it was: the same
return code and, on success, the same entry. -/
theorem hptwInsertPmeoAlloc_read_frame {I : ByteMem → Prop} (A : Allocator ctx I)
    (hs : ctx.Sized) (hI : I m) (hm : ctx.radix.Tree m) {pmeo : HptPmeo} {log : List Nat}
    (hl : LvlOk ctx.t pmeo.lvl)
    (h : hptwInsertPmeoAlloc ctx m pmeo va = some (0, m', log)) :
    hptwGetPmeo ctx m' pmeo.lvl va =
      some { pme := storedPme ctx.t pmeo.pme, t := ctx.t, lvl := pmeo.lvl } ∧
    ∀ va', regionOf ctx.t pmeo.lvl va' ≠ regionOf ctx.t pmeo.lvl va →
      ∀ accessType cpl, hptwCheckedGetPmeo ctx m' accessType cpl va' =
        hptwCheckedGetPmeo ctx m accessType cpl va' := by
  have W : ctx.Walkable := ⟨hs, hl.type_ne, rootPm_ne_of_insert hs hl.type_ne h⟩
  obtain ⟨m₁, hsteps, -, hm₁, ⟨h10, -⟩ | ⟨-, q, hq, rfl⟩⟩ :=
    hptwInsertPmeoAlloc_cases A W hl hI hm h
  · cases h10
  constructor
  · have hn := hm₁.node_put (e := ctx.word pmeo.pme) W.top_pos hq hq
      (Nat.le_refl _)
    rw [hptwGetPmeo_node W hn, Radix.entry_put_self, HptwCtx.pmeo, HptwCtx.setWidth_word_eq]
  · intro va' hne accessType cpl
    have hna : ¬ ctx.radix.Agree pmeo.lvl va va' :=
      fun ha => hne ((agree_iff_regionOf ctx hl).mp ha).symm
    exact hptwCheckedGetPmeo_alike W
      ((hsteps.alike W.top_pos va').trans (Or.inl (hm₁.walk_put_of_not_agree W.top_pos hq hna)))
      accessType cpl

/-- A 32-bit table at `0x2000` over an allocator that owns the one page at `0x3000`; the byte
at `0x1000` tells whether it has been given out.  Physical addresses are pointers. -/
def onePageCtx : HptwCtx where
  gzp m _ _ := if m 0x1000 = 0 then some (0x3000, m.store 0x1000 1 1) else some (0, m)
  pa2ptr pa sz _ _ := (pa.toNat, sz)
  ptr2pa p := BitVec.ofNat 64 p
  rootPa := 0x2000#64
  t := .norm

/-- While the page is free, it and the root are empty. -/
def OnePageFree (m : ByteMem) : Prop := m 0x1000 = 0 → ∀ x ∈ span 0x2000 0x2000, m x = 0

theorem onePageCtx_node {m : ByteMem} (h : ∀ x ∈ span 0x2000 0x2000, m x = 0)
    (hn : onePageCtx.radix.Node m va lvl p) : lvl = 2 ∧ p = 0x2000 := by
  induction hn with
  | root => exact ⟨rfl, rfl⟩
  | @down l p q _ hc ih =>
      obtain ⟨hl, rfl⟩ := ih
      obtain rfl : l = 1 := Nat.succ.inj hl
      have hle : pmeBytes .norm * (pmIdx .norm 2 va + 1) ≤ hptPmSizes .norm 2 :=
        pmIdx_lt va (by decide)
      have hz : onePageCtx.radix.entry m 2 0x2000 va = 0 := by
        apply load_zero
        intro x hx
        have hx' : 0x2000 + 4 * pmIdx .norm 2 va ≤ x ∧ x < 0x2000 + 4 * pmIdx .norm 2 va + 4 := hx
        have hle' : 4 * (pmIdx .norm 2 va + 1) ≤ 4096 := hle
        exact h x ⟨by omega, by omega⟩
      rw [hz] at hc
      cases hc

theorem onePageCtx_gzp {m m₁ : ByteMem} {sz : Nat}
    (h : onePageCtx.gzp m hptPmSizeBytes sz = some (p, m₁)) :
    (m 0x1000 = 0 ∧ p = 0x3000 ∧ m₁ = m.store 0x1000 1 1) ∨
      (m 0x1000 ≠ 0 ∧ p = 0 ∧ m₁ = m) := by
  by_cases h0 : m 0x1000 = 0
  · have h' := h.symm.trans (if_pos h0)
    simp only [Option.some.injEq, Prod.mk.injEq] at h'
    exact Or.inl ⟨h0, h'⟩
  · have h' := h.symm.trans (if_neg h0)
    simp only [Option.some.injEq, Prod.mk.injEq] at h'
    exact Or.inr ⟨h0, h'⟩

theorem onePageCtx_allocator : Allocator onePageCtx OnePageFree where
  frame := by
    intro m lvl p m₁ hI _ _ _ hg k l q x hn hx
    rcases onePageCtx_gzp hg with ⟨h0, -, rfl⟩ | ⟨-, -, rfl⟩
    · obtain ⟨rfl, rfl⟩ := onePageCtx_node (hI h0) hn
      have hx' : 0x2000 ≤ x ∧ x < 0x2000 + 4096 := hx
      exact store_of_notMem (by simp only [mem_span]; omega)
    · rfl
  fresh := by
    intro m lvl p m₁ hI _ hok hl hg hne
    rcases onePageCtx_gzp hg with ⟨h0, rfl, rfl⟩ | ⟨-, rfl, -⟩
    · obtain rfl : lvl = 1 := by
        have h₂ : lvl + 1 ≤ 2 := hok.2
        omega
      have hz : ∀ x ∈ span 0x2000 0x2000, m.store 0x1000 1 1 x = 0 := by
        intro x hx
        rw [store_of_notMem (by simp only [mem_span] at hx ⊢; omega)]
        exact hI h0 x hx
      refine ⟨fun x hx => hz x ?_, fun hn => ?_⟩
      · have hx' : 0x3000 ≤ x ∧ x < 0x3000 + 4096 := hx
        exact ⟨by omega, by omega⟩
      · obtain ⟨rfl, rfl⟩ := onePageCtx_node hz hn
        exact Or.inr (by decide)
    · exact absurd rfl hne
  address := by
    intro m lvl p m₁ _ _ _ _ hg hne
    rcases onePageCtx_gzp hg with ⟨-, rfl, -⟩ | ⟨-, rfl, -⟩
    · exact ⟨representable_of_toNat (by decide) (by decide), fun _ _ _ => rfl⟩
    · exact absurd rfl hne
  full := by
    intro m lvl m₁ hI _ _ _ hg
    rcases onePageCtx_gzp hg with ⟨-, h, -⟩ | ⟨-, -, rfl⟩
    · cases h
    · exact hI
  link := by
    intro m lvl p m₁ va q e hI _ hg hne L _ h0
    rcases onePageCtx_gzp hg with ⟨hfree, -, rfl⟩ | ⟨-, rfl, -⟩
    · -- the flag is set now, and the link was written into the root
      have hz : ∀ x ∈ span 0x2000 0x2000, m.store 0x1000 1 1 x = 0 := by
        intro x hx
        rw [store_of_notMem (by simp only [mem_span] at hx ⊢; omega)]
        exact hI hfree x hx
      obtain ⟨hl, rfl⟩ := onePageCtx_node hz L.node
      have hkeep : onePageCtx.radix.put (m.store 0x1000 1 1) (lvl + 1) 0x2000 va e 0x1000 =
          m.store 0x1000 1 1 0x1000 := by
        apply store_of_notMem
        rintro ⟨hle, -⟩
        have : 0x2000 ≤ onePageCtx.radix.slot (lvl + 1) 0x2000 va := Nat.le_add_right _ _
        omega
      rw [hkeep] at h0
      exact absurd (show (1 : BitVec 8) = 0 from h0) (by decide)
    · exact absurd rfl hne

/-- One page table is allocated to map address 0; address `0x400000` needs another one and
stays as unmapped as it was. -/
theorem hptwInsertPmeoAlloc_read_frame_onePage :
    ∃ m' log,
      hptwInsertPmeoAlloc onePageCtx (fun _ => 0) { pme := 0x5007#64, t := .norm, lvl := 1 } 0 =
        some (0, m', log) ∧
      hptwGetPmeo onePageCtx m' 1 0 = some { pme := 0x5007#64, t := .norm, lvl := 1 } ∧
      hptwCheckedGetPmeo onePageCtx m' 0 .cpl0 0x400000#64 = some none := by
  have hcode : (hptwInsertPmeoAlloc onePageCtx (fun _ => 0)
      { pme := 0x5007#64, t := .norm, lvl := 1 } 0).map Prod.fst = some 0 := by decide
  obtain ⟨⟨err, m', log⟩, hins, herr⟩ := Option.map_eq_some_iff.mp hcode
  obtain rfl : err = 0 := herr
  have hm : onePageCtx.radix.Tree (fun _ => 0) := by
    intro k k' l l' p p' h h'
    obtain ⟨rfl, rfl⟩ := onePageCtx_node (fun _ _ => rfl) h
    obtain ⟨rfl, rfl⟩ := onePageCtx_node (fun _ _ => rfl) h'
    exact Or.inl ⟨rfl, fun j hj ht => absurd (Nat.le_trans hj ht) (by decide)⟩
  obtain ⟨hread, hframe⟩ := hptwInsertPmeoAlloc_read_frame onePageCtx_allocator
    (fun _ _ _ _ => rfl) (fun _ _ _ => rfl) hm (by decide) hins
  refine ⟨m', log, hins, hread.trans (by decide), ?_⟩
  rw [hframe 0x400000#64 (by decide)]
  decide

end Shv
