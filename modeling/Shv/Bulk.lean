/-
# `Shv.Bulk` — the checked bulk operations of `hptw.c`

`hptw_checked_copy_from_va`, `_copy_to_va`, `_copy_va_to_va` and `_memset_va` move
data in chunks: each chunk is what `hptw_checked_access_va` says is left of the
current page.  Here they are shown to be byte-by-byte translated accesses.

The central fact is `hptwCheckedAccessVa_cases`: the chunk that is returned is
never empty, never leaves the page, and its `j`-th byte is where address `va + j`
translates to (`bytePtr`), with the same permissions.  It needs that a large page
is aligned to its size, since the rest of the page is computed from the *physical*
address, and that the pointer to a chunk is good for all of it (`ChunkAt`), which is
asked of the chunks of an operation only.  From it each loop follows by the rule
`transfers_of_chunks`.
-/
import Shv.Region
import Shv.Lib.Chunk

namespace Shv

open ByteMem

variable {ctx : HptwCtx} {m : ByteMem} {lvl : Nat} {va : BitVec 64}
  {prot : BitVec 64} {cpl : HptwCpl}

/-! ## Bytes behind addresses -/

/-- Large pages are aligned to their size. -/
def LargeAligned (ctx : HptwCtx) (m : ByteMem) : Prop :=
  ∀ va, 1 < (ctx.radix.stop m va).1 → ctx.maps (ctx.radix.stop m va) = true →
    (pmeAddr ctx.t (ctx.radix.stop m va).1 ((ctx.radix.stop m va).2.setWidth 64)).toNat %
      2 ^ (hptVaIdxHi ctx.t ((ctx.radix.stop m va).1 - 1) + 1) = 0

/-- The pointer to the byte that `va` translates to, if `hptw_checked_get_pmeo` allows the
access. -/
def bytePtr (ctx : HptwCtx) (m : ByteMem) (prot : BitVec 64) (cpl : HptwCpl) (va : BitVec 64) :
    Option Nat :=
  match hptwCheckedGetPmeo ctx m prot cpl va with
  | some (some pmeo) => (pmeo.vaToPa va).map fun pa => (ctx.pa2ptr pa 1 prot cpl).1
  | _ => none

/-- The pointer to what follows `va` in its page, up to `len` bytes, is not `NULL` and good for
all of them: byte `j` of it is the byte at physical address `pa + j`. -/
def ChunkAt (ctx : HptwCtx) (m : ByteMem) (prot : BitVec 64) (cpl : HptwCpl) (va : BitVec 64)
    (len : Nat) : Prop :=
  ∀ sz pmeo pa, 0 < sz → sz ≤ len → hptwCheckedGetPmeo ctx m prot cpl va = some (some pmeo) →
    pmeo.vaToPa va = some pa → sz ≤ pmeo.remainingOnPage pa →
    (ctx.pa2ptr pa sz prot cpl).1 ≠ 0 ∧ ∀ j, j < sz →
      (ctx.pa2ptr (pa + BitVec.ofNat 64 j) 1 prot cpl).1 = (ctx.pa2ptr pa sz prot cpl).1 + j

def tableBytes (ctx : HptwCtx) (m : ByteMem) : Set Nat :=
  {x | ∃ va lvl p, ctx.radix.Node m va lvl p ∧ x ∈ span p (ctx.radix.size lvl)}

theorem pmeAddr_mod {t : HptType} {e : BitVec 64} (h : LvlOk t lvl)
    (hn : t = .norm → ∀ i, 32 ≤ i → e.getLsbD i = false) :
    (pmeAddr t lvl e).toNat % 2 ^ 12 = 0 := by
  obtain ⟨a, ha, hb⟩ := hptPmeGetAddress_spec h hn
  rw [pmeAddr, ha, Option.getD_some]
  apply Nat.eq_of_testBit_eq
  intro i
  rw [Nat.testBit_mod_two_pow, Nat.zero_testBit, BitVec.testBit_toNat, hb i]
  by_cases hi : i < 12
  · have hlo := addrLo_le t lvl (pmePage t lvl e)
    rw [decide_eq_false (show ¬ (addrLo t lvl (pmePage t lvl e) ≤ i ∧ i ≤ addrHi t) by omega),
      Bool.false_and, Bool.and_false]
  · rw [decide_eq_false hi, Bool.false_and]

theorem toNat_add_of_lt {s j : Nat} (hs : s ≤ 64) (h : va.toNat % 2 ^ s + j < 2 ^ s) :
    (va + BitVec.ofNat 64 j).toNat = va.toNat + j := by
  have hlt := va.isLt
  have hdiv : va.toNat / 2 ^ s * 2 ^ s + 2 ^ s ≤ 2 ^ 64 := by
    have hq : va.toNat / 2 ^ s < 2 ^ (64 - s) := by
      apply Nat.div_lt_of_lt_mul
      rwa [← Nat.pow_add, Nat.add_sub_of_le hs]
    have hmul := Nat.mul_le_mul_right (2 ^ s) (Nat.succ_le_of_lt hq)
    rwa [← Nat.pow_add, Nat.sub_add_cancel hs, Nat.succ_mul] at hmul
  have hmod := Nat.div_add_mod' va.toNat (2 ^ s)
  have hj : j < 2 ^ 64 := by omega
  rw [BitVec.toNat_add, BitVec.toNat_ofNat, Nat.mod_eq_of_lt hj, Nat.mod_eq_of_lt (by omega)]

theorem regionOf_add {t : HptType} {j : Nat} (h : LvlOk t lvl)
    (hj : va.toNat % 2 ^ (hptVaIdxHi t (lvl - 1) + 1) + j < 2 ^ (hptVaIdxHi t (lvl - 1) + 1)) :
    regionOf t lvl (va + BitVec.ofNat 64 j) = regionOf t lvl va := by
  have hlt := vaIdxHi_lt h
  have hle := vaIdxHi_mono (t := t) (Nat.le_refl _) h.2
  obtain ⟨d, hd⟩ : ∃ d, hptVaIdxHi t (hptTypeMaxLvl t) + 1 = hptVaIdxHi t (lvl - 1) + 1 + d :=
    ⟨hptVaIdxHi t (hptTypeMaxLvl t) - hptVaIdxHi t (lvl - 1), by omega⟩
  rw [regionOf, regionOf, translated, translated, hd, Nat.pow_add, Nat.mod_mul_right_div_self,
    Nat.mod_mul_right_div_self, toNat_add_of_lt (by omega) hj]
  congr 1
  generalize 2 ^ (hptVaIdxHi t (lvl - 1) + 1) = s at hj
  have hs : 0 < s := by omega
  calc (va.toNat + j) / s = (s * (va.toNat / s) + (va.toNat % s + j)) / s := by
        rw [← Nat.add_assoc, Nat.div_add_mod]
    _ = va.toNat / s := by
        rw [Nat.mul_add_div hs, Nat.div_eq_of_lt hj, Nat.add_zero]

/-! ## One chunk -/

def HptwCtx.pageSize (ctx : HptwCtx) (x : Nat × BitVec (8 * ctx.radix.width)) : Nat :=
  2 ^ (hptVaIdxHi ctx.t (x.1 - 1) + 1)

variable (m va) in
theorem HptwCtx.pageSize_le (W : ctx.Walkable) :
    ∃ s, ctx.pageSize (ctx.radix.stop m va) = 2 ^ s ∧
      s = hptVaIdxHi ctx.t ((ctx.radix.stop m va).1 - 1) + 1 ∧ s ≤ 64 := by
  refine ⟨_, rfl, rfl, ?_⟩
  have := vaIdxHi_lt (W.lvlOk_stop m va)
  omega

theorem LargeAligned.base_mod (hal : LargeAligned ctx m) (W : ctx.Walkable)
    (hmap : ctx.maps (ctx.radix.stop m va) = true) :
    (pmeAddr ctx.t (ctx.radix.stop m va).1 ((ctx.radix.stop m va).2.setWidth 64)).toNat %
      ctx.pageSize (ctx.radix.stop m va) = 0 := by
  have hl := W.lvlOk_stop m va
  rcases Nat.eq_or_lt_of_le hl.1 with h1 | hlt
  · obtain ⟨q, -, he, -⟩ := Radix.stop_spec W.top_pos m va
    have hz : hptVaIdxHi ctx.t 0 = 11 := by
      have ht := W.valid
      cases hc : ctx.t <;> first | rfl | exact absurd hc ht
    rw [HptwCtx.pageSize, ← h1, show 1 - 1 = 0 from rfl, hz, ← he]
    exact pmeAddr_mod (by rw [h1]; exact hl) fun ht => ctx.pme_norm ht
  · exact hal va hlt hmap

/-- Translation through the page of a mapped address: it is linear in the offset, and
`hpt_remaining_on_page` is what is left of the page after `va`. -/
theorem vaToPa_linear (W : ctx.Walkable) (hal : LargeAligned ctx m)
    (hmap : ctx.maps (ctx.radix.stop m va) = true) :
    ∃ pa, (ctx.pmeo (ctx.radix.stop m va)).vaToPa va = some pa ∧
      (ctx.pmeo (ctx.radix.stop m va)).remainingOnPage pa =
        ctx.pageSize (ctx.radix.stop m va) - va.toNat % ctx.pageSize (ctx.radix.stop m va) ∧
      pa.toNat + (ctx.pageSize (ctx.radix.stop m va) -
        va.toNat % ctx.pageSize (ctx.radix.stop m va)) ≤ 2 ^ 64 ∧
      ∀ j, va.toNat % ctx.pageSize (ctx.radix.stop m va) + j <
          ctx.pageSize (ctx.radix.stop m va) →
        (ctx.pmeo (ctx.radix.stop m va)).vaToPa (va + BitVec.ofNat 64 j) =
          some (pa + BitVec.ofNat 64 j) := by
  have hl := W.lvlOk_stop m va
  have hbase := hal.base_mod W hmap
  have hpg : ctx.on pmePage (ctx.radix.stop m va) = true := (Bool.and_eq_true_iff.mp hmap).2
  have htr := fun va' => (HptwCtx.vaToPa_pmeo va' hl).trans (if_pos hpg)
  obtain ⟨s, hs, hsdef, hs64⟩ := HptwCtx.pageSize_le m va W
  have hspos : 1 ≤ s := by omega
  rw [hs] at hbase ⊢
  have hoff : ∀ x : BitVec 64, (x &&& maskrange64 (hptVaIdxHi ctx.t
      ((ctx.radix.stop m va).1 - 1)) 0) = BitVec.ofNat 64 (x.toNat % 2 ^ s) := by
    intro x
    apply BitVec.eq_of_toNat_eq
    have hfit : x.toNat % 2 ^ s < 2 ^ 64 := Nat.lt_of_le_of_lt (Nat.mod_le _ _) x.isLt
    rw [toNat_and_maskrange64 x (by omega), ← hsdef, BitVec.toNat_ofNat, Nat.mod_eq_of_lt hfit]
  simp only [hoff] at htr
  revert hbase htr
  generalize pmeAddr ctx.t (ctx.radix.stop m va).1
    ((ctx.radix.stop m va).2.setWidth 64) = base
  intro hbase htr
  have hlt : va.toNat % 2 ^ s < 2 ^ s := Nat.mod_lt _ (Nat.two_pow_pos s)
  have hpa : (base + BitVec.ofNat 64 (va.toNat % 2 ^ s)).toNat =
      base.toNat + va.toNat % 2 ^ s :=
    toNat_add_of_lt hs64 (by rw [hbase, Nat.zero_add]; exact hlt)
  have hpamod : (base.toNat + va.toNat % 2 ^ s) % 2 ^ s = va.toNat % 2 ^ s := by
    rw [Nat.add_mod, hbase, Nat.zero_add, Nat.mod_mod, Nat.mod_mod]
  refine ⟨_, htr va, ?_, ?_, fun j hj => ?_⟩
  · -- the offset is recomputed from the physical address
    have hlog : (ctx.pmeo (ctx.radix.stop m va)).pageSizeLog2 = s := hsdef.symm
    rw [HptPmeo.remainingOnPage, hlog, Nat.shiftLeft_eq, Nat.one_mul,
      toNat_and_maskrange64 _ (by omega), Nat.sub_add_cancel hspos, hpa, hpamod]
  · rw [hpa]
    have htop : base.toNat + (2 ^ s - 1) < 2 ^ 64 := by
      have hend : (base + BitVec.ofNat 64 (2 ^ s - 1)).toNat = base.toNat + (2 ^ s - 1) :=
        toNat_add_of_lt hs64 (by rw [hbase]; omega)
      rw [← hend]
      exact BitVec.isLt _
    omega
  · rw [htr, toNat_add_of_lt hs64 hj]
    have hmod : (va.toNat + j) % 2 ^ s = va.toNat % 2 ^ s + j := by
      rw [← Nat.mod_add_mod, Nat.mod_eq_of_lt hj]
    rw [hmod, BitVec.ofNat_add, BitVec.add_assoc]

theorem checked_same_page (W : ctx.Walkable) {j : Nat}
    (hj : va.toNat % ctx.pageSize (ctx.radix.stop m va) + j < ctx.pageSize (ctx.radix.stop m va)) :
    hptwCheckedGetPmeo ctx m prot cpl (va + BitVec.ofNat 64 j) =
      hptwCheckedGetPmeo ctx m prot cpl va := by
  have hl := W.lvlOk_stop m va
  obtain ⟨q, hq, he, hc⟩ := Radix.stop_spec W.top_pos m va
  have hreg := regionOf_add hl hj
  have ha : ctx.radix.Agree (ctx.radix.stop m va).1 va (va + BitVec.ofNat 64 j) :=
    (agree_iff_regionOf ctx hl).mpr hreg.symm
  have hw := hq.walk_congr (by rw [he]; exact hc) ha
  rw [hptwCheckedGetPmeo_eq _ _ _ _ W, hptwCheckedGetPmeo_eq _ _ _ _ W, Radix.stop, Radix.stop, hw]

/-- `hptw_checked_get_pmeo` returns 0. -/
def Granted (ctx : HptwCtx) (m : ByteMem) (prot : BitVec 64) (cpl : HptwCpl) (va : BitVec 64) :
    Prop :=
  ∃ pmeo, hptwCheckedGetPmeo ctx m prot cpl va = some (some pmeo)

theorem Granted.of_bytePtr {p : Nat} (h : bytePtr ctx m prot cpl va = some p) :
    Granted ctx m prot cpl va := by
  rw [bytePtr] at h
  split at h
  · exact ⟨_, ‹_›⟩
  · cases h

theorem Granted.maps (W : ctx.Walkable) (h : Granted ctx m prot cpl va) :
    hptwCheckedGetPmeo ctx m prot cpl va = some (some (ctx.pmeo (ctx.radix.stop m va))) ∧
      ctx.maps (ctx.radix.stop m va) = true := by
  obtain ⟨pmeo, hg⟩ := h
  have hchk := hptwCheckedGetPmeo_eq m va prot cpl W
  by_cases hok : ((ctx.radix.walk m va ctx.radix.top ctx.radix.root).all (ctx.grants prot cpl) &&
      ctx.maps (ctx.radix.stop m va)) = true
  · rw [if_pos hok] at hchk
    exact ⟨hchk, (Bool.and_eq_true_iff.mp hok).2⟩
  · rw [if_neg hok, hg] at hchk
    cases hchk

/-- What the bulk operations ask of a context and the tables in memory: a walk they can make, and
large pages that are aligned. -/
structure BulkCtx (ctx : HptwCtx) (m : ByteMem) : Prop where
  walkable : ctx.Walkable
  aligned : LargeAligned ctx m

/-- The pointer to the byte behind `va`, for an access that is granted. -/
def bytePtrD (ctx : HptwCtx) (m : ByteMem) (prot : BitVec 64) (cpl : HptwCpl) (va : BitVec 64) :
    Nat :=
  (bytePtr ctx m prot cpl va).getD 0

theorem BulkCtx.bytePtr_some (B : BulkCtx ctx m) (h : Granted ctx m prot cpl va) :
    bytePtr ctx m prot cpl va = some (bytePtrD ctx m prot cpl va) := by
  obtain ⟨hchk, hmap⟩ := h.maps B.walkable
  obtain ⟨pa, hpa, -⟩ := vaToPa_linear B.walkable B.aligned hmap
  rw [bytePtrD, bytePtr, hchk]
  simp only [hpa, Option.map_some, Option.getD_some]

/-- `hptw_checked_access_va` fails exactly where `hptw_checked_get_pmeo` does; otherwise it
returns a non-empty chunk that is, byte by byte, what the addresses from `va` on translate to. -/
theorem hptwCheckedAccessVa_cases (B : BulkCtx ctx m) {req : Nat} (hreq : 0 < req)
    (hchunk : ChunkAt ctx m prot cpl va req) :
    (¬ Granted ctx m prot cpl va ∧ hptwCheckedAccessVa ctx m prot cpl va req = some (0, 0)) ∨
    ∃ ptr c, ptr ≠ 0 ∧ 1 ≤ c ∧ c ≤ req ∧
      hptwCheckedAccessVa ctx m prot cpl va req = some (ptr, c) ∧
      ∀ j, j < c → bytePtr ctx m prot cpl (va + BitVec.ofNat 64 j) = some (ptr + j) := by
  by_cases hg : Granted ctx m prot cpl va
  · right
    obtain ⟨hchk, hmap⟩ := hg.maps B.walkable
    obtain ⟨pa, hpa, hrem, hfit, hlin⟩ := vaToPa_linear B.walkable B.aligned hmap
    have hlt := Nat.mod_lt va.toNat (show 0 < ctx.pageSize (ctx.radix.stop m va) from
      Nat.two_pow_pos _)
    have hpos : 0 < min req ((ctx.pmeo (ctx.radix.stop m va)).remainingOnPage pa) := by
      rw [hrem]
      omega
    obtain ⟨hnull, hbytes⟩ := hchunk _ _ pa hpos (Nat.min_le_left _ _) hchk hpa
      (Nat.min_le_right _ _)
    refine ⟨_, min req ((ctx.pmeo (ctx.radix.stop m va)).remainingOnPage pa), hnull, hpos,
      Nat.min_le_left _ _, ?_, ?_⟩
    · simp only [hptwCheckedAccessVa, hchk, hpa, Option.bind_eq_bind, Option.bind_some]
      exact congrArg some (Prod.ext rfl (B.walkable.sized _ _ _ _))
    · intro j hj
      have hin : va.toNat % ctx.pageSize (ctx.radix.stop m va) + j <
          ctx.pageSize (ctx.radix.stop m va) := by
        rw [hrem] at hj
        omega
      rw [bytePtr, checked_same_page B.walkable hin, hchk]
      simp only [hlin j hin, Option.map_some]
      rw [hbytes j hj]
  · left
    refine ⟨hg, ?_⟩
    have hchk : hptwCheckedGetPmeo ctx m prot cpl va = some none := by
      cases hc : hptwCheckedGetPmeo ctx m prot cpl va with
      | none =>
          rw [hptwCheckedGetPmeo_eq m va prot cpl B.walkable] at hc
          cases hc
      | some r =>
          cases r with
          | none => rfl
          | some pmeo => exact absurd ⟨pmeo, hc⟩ hg
    simp only [hptwCheckedAccessVa, hchk, Option.bind_eq_bind, Option.bind_some]
    rfl

/-! ## The loops -/

/-- The address of the `i`-th byte, modulo `2 ^ 64`. -/
def vaAt (base : BitVec 64) (i : Nat) : BitVec 64 := base + BitVec.ofNat 64 i

theorem vaAt_add (base : BitVec 64) (n j : Nat) :
    vaAt base n + BitVec.ofNat 64 j = vaAt base (n + j) := by
  rw [vaAt, vaAt, BitVec.ofNat_add, BitVec.add_assoc]

/-- `ChunkAt` for every chunk of an operation on the `len` bytes from `base` on. -/
def Chunks (ctx : HptwCtx) (m : ByteMem) (prot : BitVec 64) (cpl : HptwCpl) (base : BitVec 64)
    (len : Nat) : Prop :=
  ∀ i, i < len → ChunkAt ctx m prot cpl (vaAt base i) (len - i)

theorem ChunkAt.mono {len len' : Nat} (h : ChunkAt ctx m prot cpl va len) (hle : len' ≤ len) :
    ChunkAt ctx m prot cpl va len' :=
  fun sz pmeo pa hpos hsz => h sz pmeo pa hpos (hsz.trans hle)

theorem BulkCtx.access (B : BulkCtx ctx m) (m' : ByteMem) (hf : ∀ x ∈ tableBytes ctx m, m' x = m x)
    {req : Nat} (hreq : 0 < req) (hchunk : ChunkAt ctx m prot cpl va req) :
    (¬ Granted ctx m prot cpl va ∧ hptwCheckedAccessVa ctx m' prot cpl va req = some (0, 0)) ∨
    ∃ ptr c, ptr ≠ 0 ∧ 1 ≤ c ∧ c ≤ req ∧
      hptwCheckedAccessVa ctx m' prot cpl va req = some (ptr, c) ∧
      ∀ j, j < c → bytePtr ctx m prot cpl (va + BitVec.ofNat 64 j) = some (ptr + j) := by
  have W := B.walkable
  have hframe : ctx.radix.Frame m m' := fun k l p x hn hx => hf x ⟨k, l, p, hn, hx⟩
  have hsame : hptwCheckedGetPmeo ctx m' prot cpl va = hptwCheckedGetPmeo ctx m prot cpl va :=
    hptwCheckedGetPmeo_alike W (Or.inl ((hframe.same W.top_pos va).walk_eq .root)) prot cpl
  have hacc : hptwCheckedAccessVa ctx m' prot cpl va req =
      hptwCheckedAccessVa ctx m prot cpl va req := by
    rw [hptwCheckedAccessVa, hptwCheckedAccessVa, hsame]
  rw [hacc]
  exact hptwCheckedAccessVa_cases B hreq hchunk

/-- A transfer whose destinations avoid the tables leaves them as they are. -/
theorem pokes_tables {d : Nat → Nat} {v : Nat → BitVec 8} {n : Nat}
    (h : ∀ i, i < n → d i ∉ tableBytes ctx m) :
    ∀ x ∈ tableBytes ctx m, pokes m d v n x = m x :=
  fun _ hx => pokes_of_ne fun i hi he => h i hi (he ▸ hx)

/-! ### Copying out -/

/-- The first `n` bytes from `base` on, copied to `dst` one by one. -/
def copiedFromVa (ctx : HptwCtx) (m : ByteMem) (cpl : HptwCpl) (dst : Nat) (base : BitVec 64) :
    Nat → ByteMem :=
  pokes m (fun i => dst + i) fun i => m (bytePtrD ctx m hptProtsR cpl (vaAt base i))

theorem hptwCheckedCopyFromVaLoop_succ {m' : ByteMem} {dst len n ptr c fuel : Nat}
    {base : BitVec 64} (hn : n < len)
    (h : hptwCheckedAccessVa ctx m' hptProtsR cpl (vaAt base n) (len - n) = some (ptr, c)) :
    hptwCheckedCopyFromVaLoop ctx cpl dst base len (fuel + 1) m' n =
      if ptr = 0 then some (1, m')
      else hptwCheckedCopyFromVaLoop ctx cpl dst base len fuel (m'.copy (dst + n) ptr c)
        (n + c) := by
  rw [vaAt] at h
  rw [hptwCheckedCopyFromVaLoop, if_pos hn]
  simp only [h, Option.bind_eq_bind, Option.bind_some]
  rfl

theorem hptwCheckedCopyFromVa_bytewise (B : BulkCtx ctx m) {dst len : Nat} {base : BitVec 64}
    (hc : Chunks ctx m hptProtsR cpl base len)
    (htab : ∀ i, i < len → dst + i ∉ tableBytes ctx m)
    (hdis : ∀ i j p, i < len → j < len →
      bytePtr ctx m hptProtsR cpl (vaAt base i) = some p → p ≠ dst + j) :
    Transfers (fun i => Granted ctx m hptProtsR cpl (vaAt base i))
      (copiedFromVa ctx m cpl dst base) len (hptwCheckedCopyFromVa ctx m cpl dst base len) := by
  have hacc := fun n (hn : n < len) =>
    B.access (copiedFromVa ctx m cpl dst base n)
      (pokes_tables fun i hi => htab i (Nat.lt_trans hi hn))
      (Nat.sub_pos_of_lt hn) (hc n hn)
  refine transfers_of_chunks (hptwCheckedCopyFromVaLoop ctx cpl dst base len)
    ?_ ?_ ?_ (len + 1) 0 (Nat.zero_le _) (by omega) (fun _ h => absurd h (Nat.not_lt_zero _))
  · exact fun fuel => if_neg (Nat.lt_irrefl _)
  · intro fuel n hn _ hbad
    rcases hacc n hn with ⟨-, h⟩ | ⟨ptr, c, -, hc, -, -, hb⟩
    · exact hptwCheckedCopyFromVaLoop_succ hn h
    · exact absurd (Granted.of_bytePtr (hb 0 hc)) (by rwa [vaAt_add])
  · intro fuel n hn _ hgood
    rcases hacc n hn with ⟨h, -⟩ | ⟨ptr, c, hne, hc, hle, h, hb⟩
    · exact absurd hgood h
    · simp only [vaAt_add] at hb
      refine ⟨c, hc, by omega, fun j hj => .of_bytePtr (hb j hj), ?_⟩
      rw [hptwCheckedCopyFromVaLoop_succ hn h, if_neg hne]
      -- the bytes of this chunk were not overwritten by the earlier ones
      have hcopy : (copiedFromVa ctx m cpl dst base n).copy (dst + n) ptr c =
          copiedFromVa ctx m cpl dst base (n + c) := by
        refine copy_pokes (fun j _ => (Nat.add_assoc dst n j).symm) fun j hj => ?_
        rw [bytePtrD, hb j hj, Option.getD_some]
        exact (pokes_of_ne fun i hi => hdis (n + j) i _ (by omega) (by omega) (hb j hj)).symm
      rw [hcopy]

/-! ### Copying in -/

/-- The first `n` bytes at `src`, copied to the addresses from `base` on one by one. -/
def copiedToVa (ctx : HptwCtx) (m : ByteMem) (cpl : HptwCpl) (base : BitVec 64) (src : Nat) :
    Nat → ByteMem :=
  pokes m (fun i => bytePtrD ctx m hptProtsW cpl (vaAt base i)) fun i => m (src + i)

theorem hptwCheckedCopyToVaLoop_succ {m' : ByteMem} {src len n ptr c fuel : Nat}
    {base : BitVec 64} (hn : n < len)
    (h : hptwCheckedAccessVa ctx m' hptProtsW cpl (vaAt base n) (len - n) = some (ptr, c)) :
    hptwCheckedCopyToVaLoop ctx cpl base src len (fuel + 1) m' n =
      if ptr = 0 then some (1, m')
      else hptwCheckedCopyToVaLoop ctx cpl base src len fuel (m'.copy ptr (src + n) c)
        (n + c) := by
  rw [vaAt] at h
  rw [hptwCheckedCopyToVaLoop, if_pos hn]
  simp only [h, Option.bind_eq_bind, Option.bind_some]
  rfl

theorem hptwCheckedCopyToVa_bytewise (B : BulkCtx ctx m) {src len : Nat} {base : BitVec 64}
    (hc : Chunks ctx m hptProtsW cpl base len)
    (htab : ∀ i p, i < len → bytePtr ctx m hptProtsW cpl (vaAt base i) = some p →
      p ∉ tableBytes ctx m)
    (hdis : ∀ i j p, i < len → j < len →
      bytePtr ctx m hptProtsW cpl (vaAt base i) = some p → src + j ≠ p) :
    Transfers (fun i => Granted ctx m hptProtsW cpl (vaAt base i))
      (copiedToVa ctx m cpl base src) len (hptwCheckedCopyToVa ctx m cpl base src len) := by
  have hacc := fun n (hn : n < len)
      (hg : ∀ i, i < n → Granted ctx m hptProtsW cpl (vaAt base i)) =>
    B.access (copiedToVa ctx m cpl base src n)
      (pokes_tables fun i hi => htab i _ (Nat.lt_trans hi hn) (B.bytePtr_some (hg i hi)))
      (Nat.sub_pos_of_lt hn) (hc n hn)
  refine transfers_of_chunks (hptwCheckedCopyToVaLoop ctx cpl base src len)
    ?_ ?_ ?_ (len + 1) 0 (Nat.zero_le _) (by omega) (fun _ h => absurd h (Nat.not_lt_zero _))
  · exact fun fuel => if_neg (Nat.lt_irrefl _)
  · intro fuel n hn hg hbad
    rcases hacc n hn hg with ⟨-, h⟩ | ⟨ptr, c, -, hc, -, -, hb⟩
    · exact hptwCheckedCopyToVaLoop_succ hn h
    · exact absurd (Granted.of_bytePtr (hb 0 hc)) (by rwa [vaAt_add])
  · intro fuel n hn hg hgood
    rcases hacc n hn hg with ⟨h, -⟩ | ⟨ptr, c, hne, hc, hle, h, hb⟩
    · exact absurd hgood h
    · simp only [vaAt_add] at hb
      refine ⟨c, hc, by omega, fun j hj => .of_bytePtr (hb j hj), ?_⟩
      rw [hptwCheckedCopyToVaLoop_succ hn h, if_neg hne]
      have hcopy : (copiedToVa ctx m cpl base src n).copy ptr (src + n) c =
          copiedToVa ctx m cpl base src (n + c) := by
        refine copy_pokes (fun j hj => ?_) fun j hj => ?_
        · rw [bytePtrD, hb j hj, Option.getD_some]
        · rw [Nat.add_assoc]
          exact (pokes_of_ne fun i hi => hdis i (n + j) _ (by omega) (by omega)
            (B.bytePtr_some (hg i hi))).symm
      rw [hcopy]

/-! ### Filling -/

/-- The first `n` bytes from `base` on, set to `c` one by one. -/
def filledVa (ctx : HptwCtx) (m : ByteMem) (cpl : HptwCpl) (base : BitVec 64) (c : BitVec 8) :
    Nat → ByteMem :=
  pokes m (fun i => bytePtrD ctx m hptProtsW cpl (vaAt base i)) fun _ => c

theorem hptwCheckedMemsetVaLoop_succ {m' : ByteMem} {len n ptr k fuel : Nat} {b : BitVec 8}
    {base : BitVec 64} (hn : n < len)
    (h : hptwCheckedAccessVa ctx m' hptProtsW cpl (vaAt base n) (len - n) = some (ptr, k)) :
    hptwCheckedMemsetVaLoop ctx cpl base b len (fuel + 1) m' n =
      if ptr = 0 then some (1, m')
      else hptwCheckedMemsetVaLoop ctx cpl base b len fuel (m'.fill ptr k b) (n + k) := by
  rw [vaAt] at h
  rw [hptwCheckedMemsetVaLoop, if_pos hn]
  simp only [h, Option.bind_eq_bind, Option.bind_some]
  rfl

theorem hptwCheckedMemsetVa_bytewise (B : BulkCtx ctx m) {len : Nat} {base : BitVec 64}
    {c : BitVec 32} (hc : Chunks ctx m hptProtsW cpl base len)
    (htab : ∀ i p, i < len → bytePtr ctx m hptProtsW cpl (vaAt base i) = some p →
      p ∉ tableBytes ctx m) :
    Transfers (fun i => Granted ctx m hptProtsW cpl (vaAt base i))
      (filledVa ctx m cpl base (c.setWidth 8)) len (hptwCheckedMemsetVa ctx m cpl base c len) := by
  have hacc := fun n (hn : n < len)
      (hg : ∀ i, i < n → Granted ctx m hptProtsW cpl (vaAt base i)) =>
    B.access (filledVa ctx m cpl base (c.setWidth 8) n)
      (pokes_tables fun i hi => htab i _ (Nat.lt_trans hi hn) (B.bytePtr_some (hg i hi)))
      (Nat.sub_pos_of_lt hn) (hc n hn)
  refine transfers_of_chunks (hptwCheckedMemsetVaLoop ctx cpl base (c.setWidth 8) len)
    ?_ ?_ ?_ (len + 1) 0 (Nat.zero_le _) (by omega) (fun _ h => absurd h (Nat.not_lt_zero _))
  · exact fun fuel => if_neg (Nat.lt_irrefl _)
  · intro fuel n hn hg hbad
    rcases hacc n hn hg with ⟨-, h⟩ | ⟨ptr, k, -, hk, -, -, hb⟩
    · exact hptwCheckedMemsetVaLoop_succ hn h
    · exact absurd (Granted.of_bytePtr (hb 0 hk)) (by rwa [vaAt_add])
  · intro fuel n hn hg hgood
    rcases hacc n hn hg with ⟨h, -⟩ | ⟨ptr, k, hne, hk, hle, h, hb⟩
    · exact absurd hgood h
    · simp only [vaAt_add] at hb
      refine ⟨k, hk, by omega, fun j hj => .of_bytePtr (hb j hj), ?_⟩
      rw [hptwCheckedMemsetVaLoop_succ hn h, if_neg hne]
      have hfill : (filledVa ctx m cpl base (c.setWidth 8) n).fill ptr k (c.setWidth 8) =
          filledVa ctx m cpl base (c.setWidth 8) (n + k) := by
        refine fill_pokes fun j hj => ?_
        rw [bytePtrD, hb j hj, Option.getD_some]
      rw [hfill]

/-! ### Copying between address spaces -/

section VaToVa

variable {dstCtx srcCtx : HptwCtx} {dstCpl srcCpl : HptwCpl} {dstBase srcBase : BitVec 64}

/-- The first `n` bytes from `srcBase` on, copied to the addresses from `dstBase` on one by
one. -/
def copiedVaToVa (dstCtx : HptwCtx) (m : ByteMem) (dstCpl : HptwCpl) (dstBase : BitVec 64)
    (srcCtx : HptwCtx) (srcCpl : HptwCpl) (srcBase : BitVec 64) : Nat → ByteMem :=
  pokes m (fun i => bytePtrD dstCtx m hptProtsW dstCpl (vaAt dstBase i))
    fun i => m (bytePtrD srcCtx m hptProtsR srcCpl (vaAt srcBase i))

/-- Byte `i` may be written at the destination and read at the source. -/
def GrantedVaToVa (dstCtx : HptwCtx) (m : ByteMem) (dstCpl : HptwCpl) (dstBase : BitVec 64)
    (srcCtx : HptwCtx) (srcCpl : HptwCpl) (srcBase : BitVec 64) (i : Nat) : Prop :=
  Granted dstCtx m hptProtsW dstCpl (vaAt dstBase i) ∧
    Granted srcCtx m hptProtsR srcCpl (vaAt srcBase i)

theorem hptwCheckedCopyVaToVaLoop_dst {m' : ByteMem} {len n c fuel : Nat} (hn : n < len)
    (h : hptwCheckedAccessVa dstCtx m' hptProtsW dstCpl (vaAt dstBase n) (len - n) =
      some (0, c)) :
    hptwCheckedCopyVaToVaLoop dstCtx dstCpl dstBase srcCtx srcCpl srcBase len (fuel + 1) m' n =
      some (1, m') := by
  rw [vaAt] at h
  rw [hptwCheckedCopyVaToVaLoop, if_pos hn]
  simp only [h, Option.bind_eq_bind, Option.bind_some]
  rfl

theorem hptwCheckedCopyVaToVaLoop_src {m' : ByteMem} {len n dst c src c' fuel : Nat} (hn : n < len)
    (h : hptwCheckedAccessVa dstCtx m' hptProtsW dstCpl (vaAt dstBase n) (len - n) =
      some (dst, c)) (hne : dst ≠ 0)
    (h' : hptwCheckedAccessVa srcCtx m' hptProtsR srcCpl (vaAt srcBase n) c = some (src, c')) :
    hptwCheckedCopyVaToVaLoop dstCtx dstCpl dstBase srcCtx srcCpl srcBase len (fuel + 1) m' n =
      if src = 0 then some (1, m')
      else hptwCheckedCopyVaToVaLoop dstCtx dstCpl dstBase srcCtx srcCpl srcBase len fuel
        (m'.copy dst src c') (n + c') := by
  rw [vaAt] at h h'
  rw [hptwCheckedCopyVaToVaLoop, if_pos hn]
  simp only [h, hne, h', Option.bind_eq_bind, Option.bind_some, if_false]
  rfl

theorem hptwCheckedCopyVaToVa_bytewise (B : BulkCtx dstCtx m) (B' : BulkCtx srcCtx m) {len : Nat}
    (hc : Chunks dstCtx m hptProtsW dstCpl dstBase len)
    (hc' : Chunks srcCtx m hptProtsR srcCpl srcBase len)
    (htab : ∀ i p, i < len → bytePtr dstCtx m hptProtsW dstCpl (vaAt dstBase i) = some p →
      p ∉ tableBytes dstCtx m ∧ p ∉ tableBytes srcCtx m)
    (hdis : ∀ i j p q, i < len → j < len →
      bytePtr dstCtx m hptProtsW dstCpl (vaAt dstBase i) = some p →
      bytePtr srcCtx m hptProtsR srcCpl (vaAt srcBase j) = some q → q ≠ p) :
    Transfers (GrantedVaToVa dstCtx m dstCpl dstBase srcCtx srcCpl srcBase)
      (copiedVaToVa dstCtx m dstCpl dstBase srcCtx srcCpl srcBase) len
      (hptwCheckedCopyVaToVa dstCtx m dstCpl dstBase srcCtx srcCpl srcBase len) := by
  have hdst := fun n (hn : n < len)
      (hg : ∀ i, i < n → GrantedVaToVa dstCtx m dstCpl dstBase srcCtx srcCpl srcBase i) =>
    B.access (copiedVaToVa dstCtx m dstCpl dstBase srcCtx srcCpl srcBase n)
      (pokes_tables fun i hi =>
        (htab i _ (Nat.lt_trans hi hn) (B.bytePtr_some (hg i hi).1)).1)
      (Nat.sub_pos_of_lt hn) (hc n hn)
  have hsrc := fun n (hn : n < len)
      (hg : ∀ i, i < n → GrantedVaToVa dstCtx m dstCpl dstBase srcCtx srcCpl srcBase i)
      (c : Nat) (hpos : 0 < c) (hle : c ≤ len - n) =>
    B'.access (copiedVaToVa dstCtx m dstCpl dstBase srcCtx srcCpl srcBase n)
      (pokes_tables fun i hi =>
        (htab i _ (Nat.lt_trans hi hn) (B.bytePtr_some (hg i hi).1)).2) hpos
      ((hc' n hn).mono hle)
  refine transfers_of_chunks
    (hptwCheckedCopyVaToVaLoop dstCtx dstCpl dstBase srcCtx srcCpl srcBase len)
    ?_ ?_ ?_ (len + 1) 0 (Nat.zero_le _) (by omega) (fun _ h => absurd h (Nat.not_lt_zero _))
  · exact fun fuel => if_neg (Nat.lt_irrefl _)
  · intro fuel n hn hg hbad
    rcases hdst n hn hg with ⟨-, h⟩ | ⟨dst, c, hne, hc, hle, h, hb⟩
    · exact hptwCheckedCopyVaToVaLoop_dst hn h
    · rcases hsrc n hn hg c hc hle with ⟨-, h'⟩ | ⟨src, c', -, hc', -, -, hb'⟩
      · exact hptwCheckedCopyVaToVaLoop_src hn h hne h'
      · have h₁ := Granted.of_bytePtr (hb 0 hc)
        have h₂ := Granted.of_bytePtr (hb' 0 hc')
        rw [vaAt_add] at h₁ h₂
        exact absurd ⟨h₁, h₂⟩ hbad
  · intro fuel n hn hg hgood
    rcases hdst n hn hg with ⟨h, -⟩ | ⟨dst, c, hne, hc, hle, h, hb⟩
    · exact absurd hgood.1 h
    · rcases hsrc n hn hg c hc hle with ⟨h', -⟩ | ⟨src, c', hne', hc', hle', h', hb'⟩
      · exact absurd hgood.2 h'
      · simp only [vaAt_add] at hb hb'
        refine ⟨c', hc', by omega, fun j hj =>
          ⟨.of_bytePtr (hb j (by omega)), .of_bytePtr (hb' j hj)⟩, ?_⟩
        rw [hptwCheckedCopyVaToVaLoop_src hn h hne h', if_neg hne']
        have hcopy :
            (copiedVaToVa dstCtx m dstCpl dstBase srcCtx srcCpl srcBase n).copy dst src c' =
              copiedVaToVa dstCtx m dstCpl dstBase srcCtx srcCpl srcBase (n + c') := by
          refine copy_pokes (fun j hj => ?_) fun j hj => ?_
          · rw [bytePtrD, hb j (by omega), Option.getD_some]
          · rw [bytePtrD, hb' j hj, Option.getD_some]
            exact (pokes_of_ne fun i hi => hdis i (n + j) _ _ (by omega) (by omega)
              (B.bytePtr_some (hg i hi).1) (hb' j hj)).symm
        rw [hcopy]

end VaToVa

/-- **The checked bulk operations are byte-by-byte translated accesses.**  For any two contexts over
the same memory, whose pointers are good for the chunks of the operation, each of the four functions
returns; with `k` the first byte that `hptw_checked_get_pmeo` refuses, it has transferred exactly
the bytes before `k` and returns 1, and with no such byte it has transferred all of them and returns
0.  Nothing else in memory changes: the memory returned is the one after so many single bytes. -/
theorem checked_bulk_bytewise {srcCtx : HptwCtx} (B : BulkCtx ctx m) (B' : BulkCtx srcCtx m) :
    (∀ cpl dst base len, Chunks ctx m hptProtsR cpl base len →
      (∀ i, i < len → dst + i ∉ tableBytes ctx m) →
      (∀ i j p, i < len → j < len →
        bytePtr ctx m hptProtsR cpl (vaAt base i) = some p → p ≠ dst + j) →
      Transfers (fun i => Granted ctx m hptProtsR cpl (vaAt base i))
        (copiedFromVa ctx m cpl dst base) len (hptwCheckedCopyFromVa ctx m cpl dst base len)) ∧
    (∀ cpl base src len, Chunks ctx m hptProtsW cpl base len →
      (∀ i p, i < len → bytePtr ctx m hptProtsW cpl (vaAt base i) = some p →
        p ∉ tableBytes ctx m) →
      (∀ i j p, i < len → j < len →
        bytePtr ctx m hptProtsW cpl (vaAt base i) = some p → src + j ≠ p) →
      Transfers (fun i => Granted ctx m hptProtsW cpl (vaAt base i))
        (copiedToVa ctx m cpl base src) len (hptwCheckedCopyToVa ctx m cpl base src len)) ∧
    (∀ dstCpl dstBase srcCpl srcBase len, Chunks ctx m hptProtsW dstCpl dstBase len →
      Chunks srcCtx m hptProtsR srcCpl srcBase len →
      (∀ i p, i < len → bytePtr ctx m hptProtsW dstCpl (vaAt dstBase i) = some p →
        p ∉ tableBytes ctx m ∧ p ∉ tableBytes srcCtx m) →
      (∀ i j p q, i < len → j < len →
        bytePtr ctx m hptProtsW dstCpl (vaAt dstBase i) = some p →
        bytePtr srcCtx m hptProtsR srcCpl (vaAt srcBase j) = some q → q ≠ p) →
      Transfers (GrantedVaToVa ctx m dstCpl dstBase srcCtx srcCpl srcBase)
        (copiedVaToVa ctx m dstCpl dstBase srcCtx srcCpl srcBase) len
        (hptwCheckedCopyVaToVa ctx m dstCpl dstBase srcCtx srcCpl srcBase len)) ∧
    (∀ cpl base (c : BitVec 32) len, Chunks ctx m hptProtsW cpl base len →
      (∀ i p, i < len → bytePtr ctx m hptProtsW cpl (vaAt base i) = some p →
        p ∉ tableBytes ctx m) →
      Transfers (fun i => Granted ctx m hptProtsW cpl (vaAt base i))
        (filledVa ctx m cpl base (c.setWidth 8)) len (hptwCheckedMemsetVa ctx m cpl base c len)) :=
  ⟨fun _ _ _ _ hc h₁ h₂ => hptwCheckedCopyFromVa_bytewise B hc h₁ h₂,
    fun _ _ _ _ hc h₁ h₂ => hptwCheckedCopyToVa_bytewise B hc h₁ h₂,
    fun _ _ _ _ _ hc hc' h₁ h₂ => hptwCheckedCopyVaToVa_bytewise B B' hc hc' h₁ h₂,
    fun _ _ _ _ hc h => hptwCheckedMemsetVa_bytewise B hc h⟩

/-! ### A 4 MB page and what follows it -/

/-- A context in which physical addresses are the pointers; the root table is at `0x2000`. -/
def flatCtx (t : HptType) : HptwCtx where
  gzp m _ _ := some (0, m)
  pa2ptr pa sz _ _ := (pa.toNat, sz)
  ptr2pa p := BitVec.ofNat 64 p
  rootPa := 0x2000#64
  t := t

/-- Directory entry 0 of the 32-bit table at `0x2000` maps the 4 MB page at physical `0x400000`;
the rest of the directory is empty. -/
def largePageMem : ByteMem := ByteMem.store (fun _ => 0) 0x2000 4 0x400087#32

theorem largePage_entry (va : BitVec 64) :
    (flatCtx .norm).radix.entry largePageMem 2 0x2000 va = 0x400087#32 ∨
      (flatCtx .norm).radix.entry largePageMem 2 0x2000 va = 0#32 := by
  by_cases h : pmIdx .norm 2 va = 0
  · left
    have hs : (flatCtx .norm).radix.slot 2 0x2000 va = 0x2000 := by
      show 0x2000 + 4 * pmIdx .norm 2 va = 0x2000
      omega
    rw [Radix.entry, hs]
    exact load_store_self (fun _ => 0) 0x2000 4 0x400087#32
  · right
    have hap : Apart 0x2000 4 ((flatCtx .norm).radix.slot 2 0x2000 va) 4 := by
      left
      show 0x2000 + 4 ≤ 0x2000 + 4 * pmIdx .norm 2 va
      omega
    exact (load_store_of_apart hap).trans (load_zero fun _ _ => rfl)

theorem largePage_child (va : BitVec 64) :
    (flatCtx .norm).radix.child 2 ((flatCtx .norm).radix.entry largePageMem 2 0x2000 va) =
      none := by
  rcases largePage_entry va with h | h <;> rw [h] <;> decide

theorem largePage_node {p : Nat} (h : (flatCtx .norm).radix.Node largePageMem va lvl p) :
    lvl = 2 ∧ p = 0x2000 := by
  induction h with
  | root => exact ⟨rfl, rfl⟩
  | @down l p q _ hc ih =>
      obtain ⟨hl, rfl⟩ := ih
      obtain rfl : l = 1 := Nat.succ.inj hl
      rw [largePage_child] at hc
      cases hc

theorem largePage_bulk : BulkCtx (flatCtx .norm) largePageMem where
  walkable := ⟨fun _ _ _ _ => rfl, by decide, by decide⟩
  aligned := by
    intro va _ hmap
    have hstop := Radix.Node.stop_eq_of_child_none (m := largePageMem) (k := va) (by decide)
      (.root (R := (flatCtx .norm).radix)) (largePage_child va)
    rw [hstop] at hmap ⊢
    rcases largePage_entry va with h | h
    · have h' : (flatCtx .norm).radix.entry largePageMem (flatCtx .norm).radix.top
        (flatCtx .norm).radix.root va = 0x400087#32 := h
      rw [h']
      decide
    · have h' : (flatCtx .norm).radix.entry largePageMem (flatCtx .norm).radix.top
        (flatCtx .norm).radix.root va = 0#32 := h
      rw [h'] at hmap
      exact absurd hmap (by decide)

/-- The entry that maps the page. -/
def largePmeo : HptPmeo := { pme := 0x400087#64, t := .norm, lvl := 2 }

theorem largePage_chunks : Chunks (flatCtx .norm) largePageMem hptProtsW .cpl0 0x3ffffe#64 3 := by
  intro i hi sz pmeo pa hpos hsz hchk hpa hrem
  have hget : ∀ i, i < 2 → hptwCheckedGetPmeo (flatCtx .norm) largePageMem hptProtsW .cpl0
      (vaAt 0x3ffffe#64 i) = some (some largePmeo) := by decide
  have hend : hptwCheckedGetPmeo (flatCtx .norm) largePageMem hptProtsW .cpl0
      (vaAt 0x3ffffe#64 2) = some none := by decide
  rcases Nat.lt_or_ge i 2 with hlt | hge
  · obtain rfl := Option.some.inj (Option.some.inj ((hget i hlt).symm.trans hchk))
    have hat : ∀ i, i < 2 → largePmeo.vaToPa (vaAt 0x3ffffe#64 i) =
        some (0x7ffffe#64 + BitVec.ofNat 64 i) := by decide
    obtain rfl := Option.some.inj ((hat i hlt).symm.trans hpa)
    refine ⟨?_, fun j hj => ?_⟩
    · show (0x7ffffe#64 + BitVec.ofNat 64 i).toNat ≠ 0
      interval_cases i <;> decide
    · show (0x7ffffe#64 + BitVec.ofNat 64 i + BitVec.ofNat 64 j).toNat =
        (0x7ffffe#64 + BitVec.ofNat 64 i).toNat + j
      have hj3 : j < 3 := by omega
      interval_cases i <;> interval_cases j <;> rfl
  · obtain rfl : i = 2 := by omega
    rw [hend] at hchk
    cases hchk

/-- `memset` of three bytes across the end of that page sets two bytes and fails. -/
theorem checked_bulk_bytewise_largePage :
    hptwCheckedMemsetVa (flatCtx .norm) largePageMem .cpl0 0x3ffffe#64 0x41#32 3 =
      some (1, filledVa (flatCtx .norm) largePageMem .cpl0 0x3ffffe#64 0x41#8 2) := by
  have hend : hptwCheckedGetPmeo (flatCtx .norm) largePageMem hptProtsW .cpl0
      (vaAt 0x3ffffe#64 2) = some none := by decide
  have hbytes : ∀ i p, i < 3 →
      bytePtr (flatCtx .norm) largePageMem hptProtsW .cpl0 (vaAt 0x3ffffe#64 i) = some p →
      p ∉ tableBytes (flatCtx .norm) largePageMem := by
    rintro i p hi hp ⟨va, lvl, q, hn, hx⟩
    obtain ⟨rfl, rfl⟩ := largePage_node hn
    have hx' : 0x2000 ≤ p ∧ p < 0x2000 + 4096 := hx
    have hv : ∀ i, i < 2 → bytePtr (flatCtx .norm) largePageMem hptProtsW .cpl0
        (vaAt 0x3ffffe#64 i) = some (0x7ffffe + i) := by decide
    rcases Nat.lt_or_ge i 2 with hlt | hge
    · rw [hv i hlt] at hp
      obtain rfl := Option.some.inj hp
      omega
    · obtain rfl : i = 2 := by omega
      rw [bytePtr, hend] at hp
      cases hp
  rcases (checked_bulk_bytewise largePage_bulk largePage_bulk).2.2.2 .cpl0 0x3ffffe#64 0x41#32 3
    largePage_chunks hbytes with ⟨hall, -⟩ | ⟨k, hk, hbefore, hat, hr⟩
  · obtain ⟨pmeo, hg⟩ := hall 2 (by decide)
    rw [hend] at hg
    cases hg
  · have hgood : ∀ i, i < 2 → hptwCheckedGetPmeo (flatCtx .norm) largePageMem hptProtsW .cpl0
        (vaAt 0x3ffffe#64 i) = some (some largePmeo) := by decide
    rcases Nat.lt_or_ge k 2 with hlt | hge
    · exact absurd ⟨_, hgood k hlt⟩ hat
    · obtain rfl : k = 2 := by omega
      exact hr

end Shv
