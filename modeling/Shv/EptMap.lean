/-
# `Shv.EptMap` — the guest-physical map an EPT root represents

`eptTranslate` asks the walker what the tables of a root say of a guest-physical
address: whether it is mapped, where to, with which protections and memory type,
and by an entry of which level.  Under `PoolInv` this is a function of the one
entry at which the walk ends (`HptwCtx.xlate`), because no table restricts
anything.

`Inserted` is what a successful `ASSERT(hptw_insert_pmeo_alloc(…) == 0)` means in
these terms: the addresses the entry covers are translated by it, all others as
before.  The build of `Shv.EptBuild` is a sequence of such steps.
-/
import Shv.EptPool
import Shv.WalkAgree

namespace Shv

open ByteMem

/-! ## Reading a map off the tables -/

structure Mapping where
  spa : BitVec 64
  prots : BitVec 64
  pmt : HptPmt
  lvl : Nat
  deriving DecidableEq, Repr

/-- The translation of `gpa`, as the functions of `hptw.c` and `hpto.c` report it. -/
def eptTranslate (ctx : HptwCtx) (m : ByteMem) (gpa : BitVec 64) :
    Halting (Option Mapping) := do
  match ← hptwCheckedGetPmeo ctx m 0 .cpl0 gpa with
  | none => return none
  | some pmeo =>
      let spa ← pmeo.vaToPa gpa
      let (prots, _) ← hptwGetEffectiveProts ctx m gpa
      let pmt ← pmeo.getcache
      return some { spa := spa, prots := prots, pmt := pmt, lvl := pmeo.lvl }

/-- What one EPT entry says of an address it covers. -/
def HptPmeo.mapping (pmeo : HptPmeo) (gpa : BitVec 64) : Mapping where
  spa := pmeAddr pmeo.t pmeo.lvl pmeo.pme +
    (gpa &&& maskrange64 (hptVaIdxHi pmeo.t (pmeo.lvl - 1)) 0)
  prots := pmeProt pmeo.t pmeo.lvl pmeo.pme
  pmt := br64GetHl pmeo.pme 5 3
  lvl := pmeo.lvl

/-- The map of a radix tree whose tables restrict nothing. -/
def HptwCtx.xlate (ctx : HptwCtx) (m : ByteMem) (gpa : BitVec 64) : Option Mapping :=
  (ctx.radix.lookup m gpa).map fun x => (ctx.pmeo x).mapping gpa

section Translate

variable {ctx : HptwCtx} {m : ByteMem} {gpa : BitVec 64} {l p : Nat}

/-- A walk through tables that restrict nothing grants what its last entry grants. -/
theorem HptwCtx.walkProts_eq_stop (W : ctx.Walkable)
    (hrwx : ∀ {l p}, ctx.radix.Node m gpa l p → pmeTable ctx.t l (ctx.pme m l p gpa) = true →
      pmeProt ctx.t l (ctx.pme m l p gpa) = hptProtsRwx) :
    ∀ l p, ctx.radix.Node m gpa l p → ctx.walkProts (ctx.radix.walk m gpa l p) =
      pmeProt ctx.t (ctx.radix.stop m gpa).1 ((ctx.radix.stop m gpa).2.setWidth 64) := by
  intro l
  induction l with
  | zero => intro p hp; exact absurd (W.node_lvl hp).1 (by decide)
  | succ l ih =>
      intro p hp
      cases hc : ctx.radix.child (l + 1) (ctx.radix.entry m (l + 1) p gpa) with
      | none =>
          rw [hp.stop_eq_of_child_none W.top_pos hc, Radix.walk_succ_none hc,
            HptwCtx.walkProts_cons]
          show _ &&& hptProtOf true true true = _
          rw [pmeProt, hptProtOf_and, Bool.and_true, Bool.and_true, Bool.and_true]
      | some q =>
          obtain ⟨ht, -, -⟩ := HptwCtx.child_eq_some hc
          rw [Radix.walk_succ_some hc, HptwCtx.walkProts_cons, ih q (.down hp hc)]
          have h := hrwx hp ht
          rw [HptwCtx.pme] at h
          rw [h, show hptProtsRwx = hptProtOf true true true by decide, pmeProt, hptProtOf_and,
            Bool.true_and, Bool.true_and, Bool.true_and]

theorem pmePage_ept_le {e : BitVec 64} (h : pmePage .ept l e = true) : l ≤ 3 := by
  simp only [pmePage, LargeLvl, Bool.or_eq_true, Bool.and_eq_true, decide_eq_true_eq] at h
  omega

/-- **The walker reports the map.** -/
theorem eptTranslate_eq_xlate (W : ctx.Walkable) (ht : ctx.t = .ept)
    (hrwx : ∀ {l p}, ctx.radix.Node m gpa l p → pmeTable ctx.t l (ctx.pme m l p gpa) = true →
      pmeProt ctx.t l (ctx.pme m l p gpa) = hptProtsRwx)
    (hacc : ∀ {l p}, ctx.radix.Node m gpa l p → pmeTable ctx.t l (ctx.pme m l p gpa) = true →
      ctx.radix.child l (ctx.radix.entry m l p gpa) ≠ none) :
    eptTranslate ctx m gpa = some (ctx.xlate m gpa) := by
  have hl := W.lvlOk_stop m gpa
  have hgrant : (ctx.radix.walk m gpa ctx.radix.top ctx.radix.root).all
      (ctx.grants 0 .cpl0) = true := by
    rw [List.all_eq_true]
    intro x _
    simp [HptwCtx.grants]
  -- the walk cannot end at a table entry
  have hstop : pmeTable ctx.t (ctx.radix.stop m gpa).1
      ((ctx.radix.stop m gpa).2.setWidth 64) = false := by
    obtain ⟨q, hq, he, hnone⟩ := Radix.stop_spec W.top_pos m gpa
    rw [Bool.eq_false_iff]
    intro htab
    rw [← he] at htab hnone
    exact hacc hq htab hnone
  have hchk := hptwCheckedGetPmeo_eq m gpa 0 .cpl0 W
  rw [hgrant, Bool.true_and, HptwCtx.maps_eq, hstop, Bool.not_false, Bool.and_true] at hchk
  have habs : ctx.radix.absent (ctx.radix.stop m gpa).1 (ctx.radix.stop m gpa).2 =
      !pmePresent ctx.t (ctx.radix.stop m gpa).1 ((ctx.radix.stop m gpa).2.setWidth 64) := rfl
  cases hpr : pmePresent ctx.t (ctx.radix.stop m gpa).1
      ((ctx.radix.stop m gpa).2.setWidth 64) with
  | false =>
      rw [hpr] at hchk habs
      simp only [eptTranslate, hchk, Option.bind_eq_bind, Option.bind_some, Bool.false_eq_true,
        if_false]
      rw [HptwCtx.xlate, Radix.lookup, habs]
      rfl
  | true =>
      have hpg : pmePage ctx.t (ctx.radix.stop m gpa).1
          ((ctx.radix.stop m gpa).2.setWidth 64) = true := by
        rw [pmeTable, hpr, Bool.true_and] at hstop
        simpa using hstop
      have hle : (ctx.radix.stop m gpa).1 ≤ 3 := pmePage_ept_le (ht ▸ hpg)
      have hva : (ctx.pmeo (ctx.radix.stop m gpa)).vaToPa gpa = _ :=
        HptwCtx.vaToPa_pmeo gpa hl
      rw [show ctx.on pmePage (ctx.radix.stop m gpa) = true from hpg, if_pos rfl] at hva
      have hpmt : (ctx.pmeo (ctx.radix.stop m gpa)).getcache =
          some (br64GetHl ((ctx.radix.stop m gpa).2.setWidth 64) 5 3) := by
        have hip := hptPmeIsPage_eq (e := (ctx.radix.stop m gpa).2.setWidth 64) hl
        rw [hpg] at hip
        simp only [ht] at hip
        simp only [HptPmeo.getcache, HptwCtx.pmeo, hptPmeGetPmt, ht, hip, hle, decide_true,
          cAssert_true, Option.bind_eq_bind, Option.bind_some]
        rfl
      have heff := hptwGetEffectiveProts_walk W hstop
      rw [HptwCtx.walkProts_eq_stop W hrwx _ _ .root] at heff
      rw [hpr] at hchk habs
      simp only [if_true] at hchk
      simp only [eptTranslate, hchk, hva, heff, hpmt, Option.bind_eq_bind, Option.bind_some]
      rw [HptwCtx.xlate, Radix.lookup, habs]
      rfl

end Translate

/-! ## Page entries -/

section Entries

variable {pmeo pmeo' : HptPmeo} {a mt : BitVec 64}

/-- The entry objects `shv_build_ept` works with: EPT entries of level 1 or 2 that map a page
and restrict nothing. -/
structure RwxPage (pmeo : HptPmeo) : Prop where
  type : pmeo.t = .ept
  lvl : pmeo.lvl = 1 ∨ pmeo.lvl = 2
  rwx : ∀ i, i ≤ 2 → pmeo.pme.getLsbD i = true
  page : pmePage .ept pmeo.lvl pmeo.pme = true

namespace RwxPage

theorem lvlOk (h : RwxPage pmeo) : LvlOk .ept pmeo.lvl := by
  rcases h.lvl with hl | hl <;> rw [hl] <;> decide

theorem prot (h : RwxPage pmeo) : pmeProt .ept pmeo.lvl pmeo.pme = hptProtsRwx :=
  pmeProt_eq_rwx (h.rwx 0 (by decide)) (h.rwx 1 (by decide)) (h.rwx 2 (by decide))

theorem present (h : RwxPage pmeo) : pmePresent .ept pmeo.lvl pmeo.pme = true :=
  pmePresent_of_rwx h.prot

theorem not_table (h : RwxPage pmeo) : pmeTable .ept pmeo.lvl pmeo.pme = false := by
  rw [pmeTable, h.page, Bool.not_true, Bool.and_false]

theorem setAddress (h : RwxPage pmeo) (ha : Representable .ept a) :
    ∃ pmeo', pmeo.setAddress a = some pmeo' ∧ RwxPage pmeo' ∧ pmeo'.lvl = pmeo.lvl ∧
      pmeAddr .ept pmeo'.lvl pmeo'.pme = a ∧
      br64GetHl pmeo'.pme 5 3 = br64GetHl pmeo.pme 5 3 := by
  obtain ⟨pme, t, lvl⟩ := pmeo
  obtain rfl : t = .ept := h.type
  obtain ⟨e, he, hb⟩ := br64CopyBitsHl_zero pme a 51 12 (by decide) (by decide)
  have hle : lvl ≤ 4 := h.lvlOk.le_four
  have hset : HptPmeo.setAddress { pme := pme, t := .ept, lvl := lvl } a =
      some { pme := e, t := .ept, lvl := lvl } := by
    simp only [HptPmeo.setAddress, hptPmeSetAddress, hle, decide_true, cAssert_true, he,
      Option.bind_eq_bind, Option.bind_some]
    rfl
  have hlow : ∀ i, i < 12 → e.getLsbD i = pme.getLsbD i := by
    intro i hi
    rw [hb i, if_neg (by omega)]
  refine ⟨_, hset, ⟨rfl, h.lvl, fun i hi => ?_, ?_⟩, rfl, ?_, ?_⟩
  · exact (hlow i (by omega)).trans (h.rwx i hi)
  · exact (pmePage_congr (hlow 7 (by decide))).trans h.page
  · obtain ⟨a', ha', hb'⟩ := hptPmeGetAddress_spec (e := e) h.lvlOk (fun ht => by cases ht)
    have hlo : addrLo .ept lvl (pmePage .ept lvl e) = 12 := by simp [addrLo]
    show pmeAddr .ept lvl e = a
    rw [pmeAddr, ha', Option.getD_some]
    apply BitVec.eq_of_getLsbD_eq
    intro i _
    rw [hb' i, hlo, show addrHi .ept = 51 from rfl]
    by_cases hin : 12 ≤ i ∧ i ≤ 51
    · rw [decide_eq_true hin, Bool.true_and, hb i, if_pos hin]
    · rw [decide_eq_false hin, Bool.false_and]
      exact (ha i (by show i < 12 ∨ 51 < i; omega)).symm
  · apply BitVec.eq_of_getLsbD_eq
    intro i _
    rw [getLsbD_br64GetHl _ (by decide), getLsbD_br64GetHl _ (by decide)]
    by_cases hi : 3 + i ≤ 5
    · show (_ && e.getLsbD (3 + i)) = _
      rw [hlow _ (by omega)]
    · rw [decide_eq_false hi, Bool.false_and, Bool.false_and]

/-- `hpt_pmeo_setcache` sets the memory type if it fits the field, and halts otherwise. -/
theorem setcache (h : RwxPage pmeo) (hs : pmeo.setcache mt = some pmeo') :
    RwxPage pmeo' ∧ pmeo'.lvl = pmeo.lvl ∧ br64GetHl pmeo'.pme 5 3 = mt := by
  obtain ⟨pme, t, lvl⟩ := pmeo
  obtain rfl : t = .ept := h.type
  simp only [HptPmeo.setcache, hptPmeSetPmt, br64SetHl, Option.bind_eq_bind] at hs
  obtain ⟨e, he, hret⟩ := Option.bind_eq_some_iff.mp hs
  obtain ⟨_, -, hpage⟩ := Option.bind_eq_some_iff.mp he
  obtain ⟨_, -, hassert⟩ := Option.bind_eq_some_iff.mp hpage
  obtain ⟨_, -, hput⟩ := Option.bind_eq_some_iff.mp hassert
  obtain ⟨u, hfit, heq⟩ := Option.bind_eq_some_iff.mp hput
  obtain rfl := Option.some.inj hret
  obtain rfl := Option.some.inj heq
  have hfit' : zeroHi64 mt 61 = mt := by simpa using cAssert_eq_some.mp hfit
  have hv : ∀ i, 5 - 3 < i → mt.getLsbD i = false := by
    intro i hi
    rw [← hfit', getLsbD_zeroHi64 _ (by decide), decide_eq_false (by omega), Bool.false_and]
  have hb := getLsbD_put pme mt 5 3 (by decide) (by decide) hv
  have hput : ∀ i, i < 3 ∨ 5 < i →
      ((pme &&& ~~~(maskrange64 5 3)) ||| (mt <<< 3)).getLsbD i = pme.getLsbD i := by
    intro i hi
    rw [hb i, if_neg (by omega)]
  refine ⟨⟨rfl, h.lvl, fun i hi => ?_, ?_⟩, rfl, ?_⟩
  · exact (hput i (by omega)).trans (h.rwx i hi)
  · exact (pmePage_congr (hput 7 (by decide))).trans h.page
  · apply BitVec.eq_of_getLsbD_eq
    intro i _
    rw [getLsbD_br64GetHl _ (by decide)]
    show (_ && ((pme &&& ~~~(maskrange64 5 3)) ||| (mt <<< 3)).getLsbD (3 + i)) = _
    by_cases hi : 3 + i ≤ 5
    · rw [decide_eq_true hi, Bool.true_and, hb, if_pos ⟨by omega, hi⟩, Nat.add_sub_cancel_left]
    · rw [decide_eq_false hi, Bool.false_and, hv i (by omega)]

variable (mt) in
theorem setcache_total (h : RwxPage pmeo) (hmt : mt.toNat < 8) :
    ∃ pmeo', pmeo.setcache mt = some pmeo' := by
  obtain ⟨pme, t, lvl⟩ := pmeo
  obtain rfl : t = .ept := h.type
  have hle : lvl ≤ 3 := pmePage_ept_le h.page
  have hip := hptPmeIsPage_eq (e := pme) h.lvlOk
  rw [h.page] at hip
  have hfit : ∀ i : Nat, (5 : Int) - 3 < i → mt.getLsbD i = false := by
    intro i hi
    exact (lt_two_pow_iff_getLsbD (w := 3) mt).mp hmt i (by omega)
  have hset := br64SetHl_eq (x := pme) hfit
  simp only [HptPmeo.setcache, hptPmeSetPmt, hle, decide_true, cAssert_true, hip, hset,
    Option.bind_eq_bind, Option.bind_some]
  exact ⟨_, rfl⟩

end RwxPage

end Entries

/-! ## Inserting an entry -/

section Inserting

variable {img : Image} {s : Slot} {m m' : ByteMem} {pmeo : HptPmeo} {va : BitVec 64}

theorem PoolInv.translate (h : PoolInv img s m) (gpa : BitVec 64) :
    eptTranslate (img.ctx s) m gpa = some ((img.ctx s).xlate m gpa) :=
  eptTranslate_eq_xlate (img.walkable s) rfl h.prot h.child_ne_none

structure Inserted (img : Image) (s : Slot) (pmeo : HptPmeo) (va : BitVec 64)
    (m m' : ByteMem) : Prop where
  inv : PoolInv img s m'
  grows : Grows img s m m'
  /-- the addresses the entry covers are translated by it, the others as before -/
  xlate : ∀ gpa, (img.ctx s).xlate m' gpa =
    if regionOf .ept pmeo.lvl gpa = regionOf .ept pmeo.lvl va then
      (if pmePresent .ept pmeo.lvl pmeo.pme then some (pmeo.mapping gpa) else none)
    else (img.ctx s).xlate m gpa
  /-- the table of the entry exists now -/
  node : ∃ q, (img.ctx s).radix.Node m' va pmeo.lvl q
  /-- no table at or above its level disappears, and none elsewhere -/
  nodes : ∀ {k l p}, (img.ctx s).radix.Node m k l p →
    pmeo.lvl ≤ l ∨ regionOf .ept pmeo.lvl k ≠ regionOf .ept pmeo.lvl va →
    (img.ctx s).radix.Node m' k l p

theorem assertInsert_eq_some (hok : assertInsert (img.ctx s) m pmeo va = some m') :
    ∃ log, hptwInsertPmeoAlloc (img.ctx s) m pmeo va = some (0, m', log) := by
  simp only [assertInsert, Option.bind_eq_bind] at hok
  obtain ⟨⟨err, m₁, log⟩, hins, hok⟩ := Option.bind_eq_some_iff.mp hok
  obtain ⟨u, herr, hok⟩ := Option.bind_eq_some_iff.mp hok
  obtain rfl := Option.some.inj hok
  have h0 : err = 0 := by simpa using cAssert_eq_some.mp herr
  exact ⟨log, h0 ▸ hins⟩

theorem PoolInv.inserted (h : PoolInv img s m) (ht : pmeo.t = .ept)
    (hl : LvlOk .ept pmeo.lvl) (hleaf : pmeTable .ept pmeo.lvl pmeo.pme = false)
    (hok : assertInsert (img.ctx s) m pmeo va = some m') : Inserted img s pmeo va m m' := by
  have A := shvEptCtx_allocator img s
  have W := img.walkable s
  obtain ⟨log, hins⟩ := assertInsert_eq_some hok
  obtain ⟨err, m₂, log₂, hins₂, hinv, hgrow, -⟩ := h.insert va hl hleaf
  rw [hins] at hins₂
  simp only [Option.some.injEq, Prod.mk.injEq] at hins₂
  obtain ⟨rfl, rfl, rfl⟩ := hins₂
  obtain ⟨m₁, hst, -, hm₁, ⟨h10, -⟩ | ⟨-, q, hq, rfl⟩⟩ :=
    hptwInsertPmeoAlloc_cases A W hl h h.tree hins
  · cases h10
  have hset := img.setWidth_word s pmeo.pme
  have hc : (img.ctx s).radix.child pmeo.lvl ((img.ctx s).word pmeo.pme) = none := by
    show (if pmeTable .ept pmeo.lvl (((img.ctx s).word pmeo.pme).setWidth 64) && _ then _
      else none) = none
    rw [hset, hleaf]
    rfl
  have hagree : ∀ k, (img.ctx s).radix.Agree pmeo.lvl va k ↔
      regionOf .ept pmeo.lvl k = regionOf .ept pmeo.lvl va := fun k =>
    (agree_iff_regionOf (img.ctx s) hl).trans eq_comm
  refine ⟨hinv, hgrow, fun gpa => ?_, ⟨q, ?_⟩, fun {k l p} hn hor => ?_⟩
  · classical
    rw [HptwCtx.xlate, hm₁.lookup_put_leaf W.top_pos hq hc, (hst.alike W.top_pos gpa).lookup_eq]
    by_cases hr : regionOf .ept pmeo.lvl gpa = regionOf .ept pmeo.lvl va
    · rw [if_pos ((hagree gpa).mpr hr), if_pos hr]
      have habs : (img.ctx s).radix.absent pmeo.lvl ((img.ctx s).word pmeo.pme) =
          !pmePresent .ept pmeo.lvl pmeo.pme := by
        show (!pmePresent .ept pmeo.lvl (((img.ctx s).word pmeo.pme).setWidth 64)) = _
        rw [hset]
      have hobj : (img.ctx s).pmeo (pmeo.lvl, (img.ctx s).word pmeo.pme) = pmeo := by
        rw [HptwCtx.pmeo, hset]
        obtain ⟨pme, t, lvl⟩ := pmeo
        obtain rfl : t = .ept := ht
        rfl
      rw [habs]
      cases pmePresent .ept pmeo.lvl pmeo.pme with
      | false => rfl
      | true =>
          show some (((img.ctx s).pmeo (pmeo.lvl, (img.ctx s).word pmeo.pme)).mapping gpa) = _
          rw [hobj]
          rfl
    · rw [if_neg fun ha => hr ((hagree gpa).mp ha), if_neg hr, HptwCtx.xlate]
  · exact hm₁.node_put W.top_pos hq hq (Nat.le_refl _)
  · have hn₁ := hst.node_mono W.top_pos hn
    rcases hor with hle | hne
    · exact hm₁.node_put W.top_pos hq hn₁ hle
    · exact (hm₁.same_put W.top_pos hq fun ha => hne ((hagree k).mp ha)).node hn₁

variable (pmeo) in
/-- Where the table exists the insertion succeeds and takes nothing from the pool. -/
theorem PoolInv.insert_node {q : Nat} (h : PoolInv img s m) (hl : LvlOk .ept pmeo.lvl)
    (hq : (img.ctx s).radix.Node m va pmeo.lvl q) :
    ∃ m', assertInsert (img.ctx s) m pmeo va = some m' ∧
      ∀ j, j < 128 → m' (img.flag s j) = m (img.flag s j) := by
  have hins := hptwInsertPmeoAlloc_node pmeo (img.walkable s) hl hq
  refine ⟨_, ?_, fun j hj => h.put_flag hq hj ((img.ctx s).word pmeo.pme)⟩
  simp only [assertInsert, hins, Option.bind_eq_bind, Option.bind_some]
  rfl

end Inserting

end Shv
