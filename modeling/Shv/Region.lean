/-
# `Shv.Region` — the addresses an entry covers

A level-`lvl` entry covers the addresses that agree in the translated bits above
its page offset.  As a number that is `regionOf`; in the radix tree it is `Agree`,
equality of the indices from that level up.  `agree_iff_regionOf` says they are the
same thing, for the index tables of all four formats.
-/
import Shv.Walk

namespace Shv

variable {ctx : HptwCtx} {lvl : Nat} {va va' : BitVec 64}

/-- The translated part of an address: bits 47:0 for LONG and EPT, 31:0 for NORM and PAE. -/
def translated (t : HptType) (va : BitVec 64) : Nat :=
  va.toNat % 2 ^ (hptVaIdxHi t (hptTypeMaxLvl t) + 1)

/-- The region of the level-`lvl` entry that covers `va`, as its number among all of them. -/
def regionOf (t : HptType) (lvl : Nat) (va : BitVec 64) : Nat :=
  translated t va / 2 ^ (hptVaIdxHi t (lvl - 1) + 1)

theorem regionOf_eq_iff {t : HptType} :
    regionOf t lvl va = regionOf t lvl va' ↔
      ∀ i, hptVaIdxHi t (lvl - 1) < i → i ≤ hptVaIdxHi t (hptTypeMaxLvl t) →
        va.getLsbD i = va'.getLsbD i := by
  have hbit : ∀ (x : BitVec 64) i, (regionOf t lvl x).testBit i =
      (decide (i + (hptVaIdxHi t (lvl - 1) + 1) < hptVaIdxHi t (hptTypeMaxLvl t) + 1) &&
        x.getLsbD (i + (hptVaIdxHi t (lvl - 1) + 1))) := by
    intro x i
    rw [regionOf, translated, Nat.testBit_div_two_pow, Nat.testBit_mod_two_pow,
      BitVec.testBit_toNat]
  constructor
  · intro h i hlo hhi
    obtain ⟨j, rfl⟩ : ∃ j, i = j + (hptVaIdxHi t (lvl - 1) + 1) :=
      ⟨i - (hptVaIdxHi t (lvl - 1) + 1), by omega⟩
    have hj := hbit va j
    rw [h, hbit va' j, decide_eq_true (by omega), Bool.true_and, Bool.true_and] at hj
    exact hj.symm
  · intro h
    apply Nat.eq_of_testBit_eq
    intro i
    rw [hbit, hbit]
    by_cases hi : i + (hptVaIdxHi t (lvl - 1) + 1) < hptVaIdxHi t (hptTypeMaxLvl t) + 1
    · rw [h _ (by omega) (by omega)]
    · rw [decide_eq_false hi, Bool.false_and, Bool.false_and]

/-- The bit positions of an index, inside the word and above those of the level below. -/
theorem vaIdxHi_lt {t : HptType} (h : LvlOk t lvl) :
    hptVaIdxHi t (lvl - 1) < hptVaIdxHi t lvl ∧ hptVaIdxHi t lvl < 64 := by
  apply h.elim (P := fun t lvl => hptVaIdxHi t (lvl - 1) < hptVaIdxHi t lvl ∧
    hptVaIdxHi t lvl < 64) <;> decide

theorem vaIdxHi_mono {t : HptType} {j : Nat} (hj : j ≤ hptTypeMaxLvl t) (hl : lvl ≤ j) :
    hptVaIdxHi t lvl ≤ hptVaIdxHi t j := by
  induction j with
  | zero => rw [Nat.le_zero.mp hl]
  | succ j ih =>
      rcases Nat.eq_or_lt_of_le hl with rfl | hlt
      · exact Nat.le_refl _
      · have h₁ := ih (by omega) (by omega)
        have hok : LvlOk t (j + 1) := ⟨by omega, hj⟩
        have h₂ := (vaIdxHi_lt hok).1
        rw [Nat.add_sub_cancel] at h₂
        omega

/-- Two addresses have the same index iff they have the same bits there. -/
theorem pmIdx_eq_iff {t : HptType} (h : LvlOk t lvl) :
    pmIdx t lvl va = pmIdx t lvl va' ↔
      ∀ i, hptVaIdxHi t (lvl - 1) < i → i ≤ hptVaIdxHi t lvl → va.getLsbD i = va'.getLsbD i := by
  obtain ⟨hlt, h64⟩ := vaIdxHi_lt h
  rw [pmIdx, pmIdx, BitVec.toNat_inj]
  constructor
  · intro heq i hlo hhi
    have hb := congrArg (·.getLsbD (i - (hptVaIdxHi t (lvl - 1) + 1))) heq
    simp only [getLsbD_br64GetHl _ h64] at hb
    rw [show hptVaIdxHi t (lvl - 1) + 1 + (i - (hptVaIdxHi t (lvl - 1) + 1)) = i by omega,
      decide_eq_true hhi, Bool.true_and, Bool.true_and] at hb
    exact hb
  · intro hb
    apply BitVec.eq_of_getLsbD_eq
    intro i _
    rw [getLsbD_br64GetHl _ h64, getLsbD_br64GetHl _ h64]
    by_cases hi : hptVaIdxHi t (lvl - 1) + 1 + i ≤ hptVaIdxHi t lvl
    · rw [hb _ (by omega) hi]
    · rw [decide_eq_false hi, Bool.false_and, Bool.false_and]

/-- Every translated bit above a page offset belongs to the index of some level. -/
theorem exists_level {hi : Nat → Nat} {i : Nat} (hlo : hi (lvl - 1) < i) :
    ∀ n, lvl - 1 ≤ n → i ≤ hi n → ∃ j, lvl - 1 < j ∧ j ≤ n ∧ hi (j - 1) < i ∧ i ≤ hi j
  | 0, hn, hle => by
      rw [Nat.le_zero.mp hn] at hlo
      omega
  | n + 1, hn, hle => by
      by_cases h : lvl - 1 ≤ n ∧ i ≤ hi n
      · obtain ⟨j, h₁, h₂, h₃, h₄⟩ := exists_level hlo n h.1 h.2
        exact ⟨j, h₁, by omega, h₃, h₄⟩
      · by_cases hl : lvl - 1 = n + 1
        · rw [hl] at hlo
          omega
        · exact ⟨n + 1, by omega, Nat.le_refl _, by rw [Nat.add_sub_cancel]; omega, hle⟩

variable (ctx) in
/-- **Addresses agree down to a level iff they lie in the same region of it.** -/
theorem agree_iff_regionOf (h : LvlOk ctx.t lvl) :
    ctx.radix.Agree lvl va va' ↔ regionOf ctx.t lvl va = regionOf ctx.t lvl va' := by
  rw [regionOf_eq_iff]
  constructor
  · intro ha i hlo hhi
    have hmax : lvl - 1 ≤ hptTypeMaxLvl ctx.t := Nat.le_trans (Nat.sub_le _ _) h.2
    obtain ⟨j, h₁, h₂, h₃, h₄⟩ := exists_level hlo _ hmax hhi
    have hidx : pmIdx ctx.t j va = pmIdx ctx.t j va' := ha j (by omega) h₂
    exact (pmIdx_eq_iff ⟨by omega, h₂⟩).mp hidx i h₃ h₄
  · intro hb j hj hjt
    have hjt' : j ≤ hptTypeMaxLvl ctx.t := hjt
    refine (pmIdx_eq_iff ⟨Nat.le_trans h.1 hj, hjt'⟩).mpr fun i hlo hhi => hb i ?_ ?_
    · exact Nat.lt_of_le_of_lt (vaIdxHi_mono (Nat.le_trans (Nat.sub_le _ _) hjt') (by omega)) hlo
    · exact Nat.le_trans hhi (vaIdxHi_mono (Nat.le_refl _) hjt')

/-! ## Indexing loses nothing -/

/-- The addresses that differ from `va` in their offset into `S` bytes only. -/
def samePage (S : Nat) (va : BitVec 64) : Set (BitVec 64) := {x | x.toNat / S = va.toNat / S}

/-- The offsets of the addresses of a page are the numbers below its size, each once. -/
theorem bijOn_offset {S k : Nat} (hS : S = 2 ^ k) (hk : k ≤ 64) (base : Nat) (va : BitVec 64) :
    Set.BijOn (fun x : BitVec 64 => base + x.toNat % S) (samePage S va)
      (Set.Ico base (base + S)) := by
  have hpos : 0 < S := by rw [hS]; exact Nat.two_pow_pos k
  refine ⟨?_, ?_, ?_⟩
  · intro x _
    exact ⟨Nat.le_add_right .., Nat.add_lt_add_left (Nat.mod_lt _ hpos) base⟩
  · intro x hx y hy heq
    have hdiv : x.toNat / S = y.toNat / S := hx.trans hy.symm
    have hmod : x.toNat % S = y.toNat % S := Nat.add_left_cancel heq
    apply BitVec.eq_of_toNat_eq
    rw [← Nat.div_add_mod x.toNat S, hdiv, hmod, Nat.div_add_mod]
  · rintro b ⟨hlo, hhi⟩
    -- the page does not run past the end of the word
    have hend : S * (va.toNat / S) + S ≤ 2 ^ 64 := by
      have hdvd : 2 ^ 64 = S * 2 ^ (64 - k) := by rw [hS, ← Nat.pow_add]; congr 1; omega
      have hlt : va.toNat / S < 2 ^ (64 - k) := by
        rw [Nat.div_lt_iff_lt_mul hpos, Nat.mul_comm, ← hdvd]
        exact va.isLt
      rw [hdvd, ← Nat.mul_succ]
      exact Nat.mul_le_mul_left S hlt
    have hto : (BitVec.ofNat 64 (S * (va.toNat / S) + (b - base))).toNat =
        S * (va.toNat / S) + (b - base) := by
      rw [BitVec.toNat_ofNat]
      exact Nat.mod_eq_of_lt (by omega)
    refine ⟨BitVec.ofNat 64 (S * (va.toNat / S) + (b - base)), ?_, ?_⟩
    · show _ / S = _
      rw [hto, Nat.mul_add_div hpos, Nat.div_eq_of_lt (show b - base < S by omega), Nat.add_zero]
    · show base + _ % S = b
      rw [hto, Nat.mul_add_mod, Nat.mod_eq_of_lt (by omega)]
      omega

/-- `hpt_pmeo_va_to_pa` of an entry that maps a page: the address it holds, plus the offset. -/
theorem vaToPa_toNat {pmeo : HptPmeo} (h : LvlOk pmeo.t pmeo.lvl) {base : BitVec 64}
    (hpg : pmeo.isPage = some true) (hbase : pmeo.getAddress = some base) (va : BitVec 64) :
    ∃ pa, pmeo.vaToPa va = some pa ∧
      pa.toNat = base.toNat + va.toNat % 2 ^ pmeo.pageSizeLog2 := by
  have hlt : base.toNat < 2 ^ 59 := by
    obtain ⟨a, ha, hlt⟩ := hptPmeGetAddress_lt h pmeo.pme
    rw [HptPmeo.getAddress, ha, Option.some.injEq] at hbase
    rwa [← hbase]
  have hhi : hptVaIdxHi pmeo.t (pmeo.lvl - 1) < 48 := by
    apply h.elim (P := fun t lvl => hptVaIdxHi t (lvl - 1) < 48) <;> decide
  have hoff : va.toNat % 2 ^ (hptVaIdxHi pmeo.t (pmeo.lvl - 1) + 1) < 2 ^ 48 :=
    Nat.lt_of_lt_of_le (Nat.mod_lt _ (Nat.two_pow_pos _))
      (Nat.pow_le_pow_right (by decide) (by omega))
  rw [HptPmeo.isPage] at hpg
  refine ⟨base + (va &&& maskrange64 (hptVaIdxHi pmeo.t (pmeo.lvl - 1)) 0), ?_, ?_⟩
  · simp only [HptPmeo.vaToPa, hpg, hbase, cAssert_true, Option.bind_eq_bind, Option.bind_some]
    rfl
  · rw [BitVec.toNat_add, toNat_and_maskrange64 va (by omega), Nat.mod_eq_of_lt (by omega),
      HptPmeo.pageSizeLog2]

theorem pmIdx_all_eq_iff {t : HptType} (ht : t ≠ .invalid) :
    ((∀ lvl, LvlOk t lvl → hptGetPmIdx t lvl va = hptGetPmIdx t lvl va') ∧
        va &&& maskrange64 11 0 = va' &&& maskrange64 11 0) ↔
      ∀ i, i ≤ hptVaIdxHi t (hptTypeMaxLvl t) → va.getLsbD i = va'.getLsbD i := by
  have hzero : hptVaIdxHi t 0 = 11 := by cases t <;> first | rfl | exact absurd rfl ht
  have hoff : va &&& maskrange64 11 0 = va' &&& maskrange64 11 0 ↔
      ∀ i, i ≤ 11 → va.getLsbD i = va'.getLsbD i := by
    constructor
    · intro heq i hi
      have hb := congrArg (·.getLsbD i) heq
      simpa [getLsbD_maskrange64, hi] using hb
    · intro hb
      apply BitVec.eq_of_getLsbD_eq
      intro i _
      rw [BitVec.getLsbD_and, BitVec.getLsbD_and, getLsbD_maskrange64 (by decide)]
      by_cases hi : i ≤ 11
      · rw [hb i hi]
      · simp [hi]
  rw [hoff]
  constructor
  · rintro ⟨hidx, hlow⟩ i hi
    by_cases hle : i ≤ 11
    · exact hlow i hle
    · have hlo : hptVaIdxHi t (1 - 1) < i := by
        rw [hzero]
        omega
      obtain ⟨j, h₁, h₂, h₃, h₄⟩ := exists_level hlo _ (Nat.zero_le _) hi
      have hok : LvlOk t j := ⟨h₁, h₂⟩
      have heq := hidx j hok
      rw [hptGetPmIdx_eq hok, hptGetPmIdx_eq hok, Option.some.injEq] at heq
      exact (pmIdx_eq_iff hok).mp heq i h₃ h₄
  · intro hb
    refine ⟨fun lvl hok => ?_, fun i hi => hb i ?_⟩
    · rw [hptGetPmIdx_eq hok, hptGetPmIdx_eq hok, Option.some.injEq]
      exact (pmIdx_eq_iff hok).mpr fun i _ hi =>
        hb i (Nat.le_trans hi (vaIdxHi_mono (Nat.le_refl _) hok.2))
    · have := vaIdxHi_mono (t := t) (Nat.le_refl _) (Nat.zero_le _)
      omega

/-- The index tables of the four formats: an index stays inside the table it is for, the indices
and the page offset are the translated bits and no others, and the bytes of a page are what its
virtual addresses are translated to, each from one of them. -/
theorem pm_index_exact {t : HptType} (ht : t ≠ .invalid) :
    (∀ lvl, LvlOk t lvl → ∀ va, ∃ idx sz, hptGetPmIdx t lvl va = some idx ∧
      hptPmSize t lvl = some sz ∧ idx * pmeBytes t < sz) ∧
    (∀ va va' : BitVec 64, ((∀ lvl, LvlOk t lvl → hptGetPmIdx t lvl va = hptGetPmIdx t lvl va') ∧
        va &&& maskrange64 11 0 = va' &&& maskrange64 11 0) ↔
      ∀ i, i ≤ (if t = .norm ∨ t = .pae then 31 else 47) → va.getLsbD i = va'.getLsbD i) ∧
    (∀ pmeo : HptPmeo, pmeo.t = t → LvlOk t pmeo.lvl → pmeo.isPage = some true →
      ∃ (base : BitVec 64) (pa : BitVec 64 → BitVec 64),
        pmeo.getAddress = some base ∧ (∀ va, pmeo.vaToPa va = some (pa va)) ∧
        ∀ va, Set.BijOn (fun x => (pa x).toNat) (samePage (2 ^ pmeo.pageSizeLog2) va)
          (Set.Ico base.toNat (base.toNat + 2 ^ pmeo.pageSizeLog2))) := by
  have hmax : hptVaIdxHi t (hptTypeMaxLvl t) = if t = .norm ∨ t = .pae then 31 else 47 := by
    cases t <;> first | rfl | exact absurd rfl ht
  refine ⟨?_, ?_, ?_⟩
  · intro lvl hok va
    refine ⟨_, _, hptGetPmIdx_eq hok, hptPmSize_eq hok, ?_⟩
    have hlt := pmIdx_lt va hok
    have hpos : 0 < pmeBytes t := by unfold pmeBytes; split <;> decide
    rw [Nat.mul_succ] at hlt
    rw [Nat.mul_comm]
    omega
  · intro va va'
    rw [← hmax]
    exact pmIdx_all_eq_iff ht
  · rintro pmeo rfl hok hpg
    obtain ⟨base, hbase, -⟩ := hptPmeGetAddress_lt hok pmeo.pme
    choose pa hpa hto using vaToPa_toNat hok hpg hbase
    have hlog : pmeo.pageSizeLog2 ≤ 64 := by
      have := vaIdxHi_lt hok
      rw [HptPmeo.pageSizeLog2]
      omega
    refine ⟨base, pa, hbase, hpa, fun va => ?_⟩
    rw [funext hto]
    exact bijOn_offset rfl hlog base.toNat va

/-- The tables of the LONG format, and one of its 2 MiB pages. -/
theorem pm_index_exact_long :
    (∃ idx sz, hptGetPmIdx .long 4 0xffffffffffff#64 = some idx ∧ hptPmSize .long 4 = some sz ∧
      idx * pmeBytes .long < sz) ∧
    ∃ (base : BitVec 64) (pa : BitVec 64 → BitVec 64),
      HptPmeo.getAddress { pme := 0x40000083#64, t := .long, lvl := 2 } = some base ∧
      (∀ va, HptPmeo.vaToPa { pme := 0x40000083#64, t := .long, lvl := 2 } va = some (pa va)) ∧
      ∀ va, Set.BijOn (fun x => (pa x).toNat) (samePage (2 ^ 21) va)
        (Set.Ico base.toNat (base.toNat + 2 ^ 21)) :=
  have h := pm_index_exact (t := .long) (by decide)
  ⟨h.1 4 (by decide) _, h.2.2 { pme := 0x40000083#64, t := .long, lvl := 2 } rfl (by decide)
    (by decide)⟩

end Shv
