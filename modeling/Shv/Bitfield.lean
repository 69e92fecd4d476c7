/-
# `Shv.Bitfield` — `include/bitfield.h`

The 64-bit field primitives every page-table entry is read and written with.
A word is a `BitVec 64`, a bit position a `Nat`; the only one of them that can
fail is `BR64_SET_HL`, which asserts that the value fits the field, so it and
what is built on it live in `Halting`.

Each primitive gets one lemma that says what bit `i` of its result is.  Nothing
later unfolds them.
-/
import Mathlib.Tactic.IntervalCases

namespace Shv

/-- A C computation that may end in `cpu_halt` (a failed `ASSERT`, `assert`,
`EU_VERIFY` or `HALT`): `none` is the halted CPU. -/
abbrev Halting (α : Type) := Option α

/-- `ASSERT(expr)`. -/
def cAssert (b : Bool) : Halting Unit := if b then some () else none

@[simp] theorem cAssert_true : cAssert true = some () := rfl
@[simp] theorem cAssert_false : cAssert false = none := rfl

theorem cAssert_eq_some {b : Bool} {u : Unit} : cAssert b = some u ↔ b = true := by
  cases b <;> simp

def zeroHi64 (x : BitVec 64) (bits : Nat) : BitVec 64 := x <<< bits >>> bits

def zeroLo64 (x : BitVec 64) (bits : Nat) : BitVec 64 := x >>> bits <<< bits

def maskrange64 (hi lo : Nat) : BitVec 64 :=
  zeroLo64 (zeroHi64 0xffffffffffffffff#64 (64 - hi - 1)) lo

def maskbit64 (bit : Nat) : BitVec 64 := 1#64 <<< bit

def br64GetHl (x64 : BitVec 64) (hi lo : Nat) : BitVec 64 := zeroHi64 x64 (63 - hi) >>> lo

/-- `BR64_SET_HL`.  The positions are C `int`s: `hpt_pme_set_address` reaches a negative
`lo`, where the shifts are undefined but the assertion is not. -/
def br64SetHl (x64 : BitVec 64) (hi lo : Int) (val : BitVec 64) : Halting (BitVec 64) := do
  cAssert (zeroHi64 val (63 - (hi - lo)).toNat == val)
  return (x64 &&& ~~~(maskrange64 hi.toNat lo.toNat)) ||| (val <<< lo.toNat)

def br64GetBit (x64 : BitVec 64) (pos : Nat) : BitVec 64 := (x64 &&& maskrange64 pos pos) >>> pos

def br64SetBit (x64 : BitVec 64) (pos : Nat) (val : Bool) : BitVec 64 :=
  (x64 &&& ~~~(1#64 <<< pos)) ||| ((if val then 1#64 else 0#64) <<< pos)

/-- `BR64_COPY_BITS_HL`; `offset` may be negative. -/
def br64CopyBitsHl (dst src : BitVec 64) (srcHi srcLo : Nat) (offset : Int) :
    Halting (BitVec 64) :=
  br64SetHl dst (srcHi + offset) (srcLo + offset) (br64GetHl src srcHi srcLo)

/-! ## Bit by bit -/

theorem lt_two_pow_iff_getLsbD {n w : Nat} (x : BitVec n) :
    x.toNat < 2 ^ w ↔ ∀ i, w ≤ i → x.getLsbD i = false := by
  constructor
  · intro h i hi
    exact Nat.testBit_lt_two_pow (lt_of_lt_of_le h (Nat.pow_le_pow_right (by decide) hi))
  · exact Nat.lt_pow_two_of_testBit x.toNat

theorem getLsbD_zeroHi64 (x : BitVec 64) {bits : Nat} (h : bits ≤ 64) (i : Nat) :
    (zeroHi64 x bits).getLsbD i = (decide (i < 64 - bits) && x.getLsbD i) := by
  simp only [zeroHi64, BitVec.getLsbD_ushiftRight, BitVec.getLsbD_shiftLeft]
  have hs : bits + i - bits = i := by omega
  by_cases hi : i < 64 - bits
  · have h₁ : bits + i < 64 := by omega
    have h₂ : ¬ bits + i < bits := by omega
    simp [hi, h₁]
  · have h₁ : ¬ bits + i < 64 := by omega
    simp [hi, h₁]

theorem getLsbD_zeroLo64 (x : BitVec 64) (bits i : Nat) :
    (zeroLo64 x bits).getLsbD i = (decide (bits ≤ i) && x.getLsbD i) := by
  simp only [zeroLo64, BitVec.getLsbD_shiftLeft, BitVec.getLsbD_ushiftRight]
  by_cases hi : bits ≤ i
  · have h₁ : ¬ i < bits := by omega
    have h₂ : bits + (i - bits) = i := by omega
    by_cases h₃ : i < 64
    · simp [hi, h₁, h₂, h₃]
    · simp [h₃, BitVec.getLsbD_of_ge x i (by omega)]
  · have h₁ : i < bits := by omega
    simp [hi, h₁]

theorem getLsbD_maskrange64 {hi : Nat} (h : hi < 64) (lo i : Nat) :
    (maskrange64 hi lo).getLsbD i = decide (lo ≤ i ∧ i ≤ hi) := by
  rw [maskrange64, getLsbD_zeroLo64, getLsbD_zeroHi64 _ (by omega)]
  have hones : (0xffffffffffffffff#64).getLsbD i = decide (i < 64) := by
    rw [show (0xffffffffffffffff#64) = BitVec.allOnes 64 from rfl, BitVec.getLsbD_allOnes]
  rw [hones, ← Bool.decide_and, ← Bool.decide_and]
  congr 1
  exact propext ⟨fun h' => ⟨h'.1, by omega⟩, fun h' => ⟨h'.1, by omega, by omega⟩⟩

theorem getLsbD_br64GetHl (x : BitVec 64) {hi : Nat} (h : hi < 64) (lo i : Nat) :
    (br64GetHl x hi lo).getLsbD i = (decide (lo + i ≤ hi) && x.getLsbD (lo + i)) := by
  rw [br64GetHl, BitVec.getLsbD_ushiftRight, getLsbD_zeroHi64 _ (by omega)]
  congr 2
  exact propext ⟨fun _ => by omega, fun _ => by omega⟩

theorem toNat_br64GetHl (x : BitVec 64) {hi lo : Nat} (h : hi < 64) (hl : lo ≤ hi) :
    (br64GetHl x hi lo).toNat = x.toNat / 2 ^ lo % 2 ^ (hi - lo + 1) := by
  apply Nat.eq_of_testBit_eq
  intro i
  rw [Nat.testBit_mod_two_pow, Nat.testBit_div_two_pow, BitVec.testBit_toNat,
    BitVec.testBit_toNat, getLsbD_br64GetHl x h, Nat.add_comm i lo]
  congr 2
  exact propext ⟨fun _ => by omega, fun _ => by omega⟩

theorem toNat_and_maskrange64 (x : BitVec 64) {hi : Nat} (h : hi < 64) :
    (x &&& maskrange64 hi 0).toNat = x.toNat % 2 ^ (hi + 1) := by
  apply Nat.eq_of_testBit_eq
  intro i
  rw [BitVec.testBit_toNat, BitVec.getLsbD_and, getLsbD_maskrange64 h, Nat.testBit_mod_two_pow,
    BitVec.testBit_toNat, Bool.and_comm]
  congr 2
  exact propext ⟨fun _ => by omega, fun _ => by omega⟩

theorem br64SetHl_eq {x val : BitVec 64} {hi lo : Int}
    (hv : ∀ i : Nat, hi - lo < i → val.getLsbD i = false) :
    br64SetHl x hi lo val =
      some ((x &&& ~~~(maskrange64 hi.toNat lo.toNat)) ||| (val <<< lo.toNat)) := by
  have hfit : zeroHi64 val (63 - (hi - lo)).toNat = val := by
    by_cases hbig : 64 < (63 - (hi - lo)).toNat
    · -- an empty field: the value is zero
      have h0 : val = 0 := by
        apply BitVec.eq_of_getLsbD_eq
        intro i _
        rw [hv i (by omega)]
        simp
      subst h0
      simp [zeroHi64]
    · apply BitVec.eq_of_getLsbD_eq
      intro i hi'
      rw [getLsbD_zeroHi64 _ (by omega)]
      by_cases hlt : i < 64 - (63 - (hi - lo)).toNat
      · simp [hlt]
      · simp [hlt, hv i (by omega)]
  simp [br64SetHl, hfit]

theorem br64SetHl_eq_none (e : BitVec 64) {val : BitVec 64} {hi lo : Int} {i : Nat}
    (h₀ : 0 ≤ hi - lo) (h₁ : hi - lo < i) (hv : val.getLsbD i = true) :
    br64SetHl e hi lo val = none := by
  have hne : zeroHi64 val (63 - (hi - lo)).toNat ≠ val := by
    intro heq
    have hbit := getLsbD_zeroHi64 val (show (63 - (hi - lo)).toNat ≤ 64 by omega) i
    have hi64 : i < 64 := by
      by_contra hge
      rw [BitVec.getLsbD_of_ge _ _ (Nat.le_of_not_lt hge)] at hv
      exact Bool.false_ne_true hv
    rw [heq, hv, decide_eq_false (by omega), Bool.false_and] at hbit
    exact Bool.false_ne_true hbit.symm
  rw [br64SetHl, beq_eq_false_iff_ne.mpr hne]
  rfl

theorem getLsbD_put (x val : BitVec 64) (hi lo : Nat) (h : hi < 64) (hl : lo ≤ hi)
    (hv : ∀ i, hi - lo < i → val.getLsbD i = false) (i : Nat) :
    ((x &&& ~~~(maskrange64 hi lo)) ||| (val <<< lo)).getLsbD i =
      if lo ≤ i ∧ i ≤ hi then val.getLsbD (i - lo) else x.getLsbD i := by
  rw [BitVec.getLsbD_or, BitVec.getLsbD_and, BitVec.getLsbD_not, BitVec.getLsbD_shiftLeft,
    getLsbD_maskrange64 h]
  by_cases hin : lo ≤ i ∧ i ≤ hi
  · have h₁ : i < 64 := by omega
    have h₂ : ¬ i < lo := by omega
    simp [hin, h₁, h₂]
  · simp only [hin, decide_false, Bool.not_false, Bool.and_true, if_false]
    by_cases hlt : i < lo
    · by_cases h₁ : i < 64
      · simp [hlt, h₁]
      · simp [h₁, BitVec.getLsbD_of_ge x i (by omega)]
    · have h₂ : val.getLsbD (i - lo) = false := hv _ (by omega)
      by_cases h₁ : i < 64
      · simp [h₁, h₂]
      · simp [h₁, BitVec.getLsbD_of_ge x i (by omega)]

/-- Copying a field never asserts: what `BR64_GET_HL` reads always fits. -/
theorem br64CopyBitsHl_spec (dst src : BitVec 64) (srcHi srcLo : Nat) (offset : Int)
    (h : srcHi < 64) (hl : srcLo ≤ srcHi) (h₀ : 0 ≤ srcLo + offset) (h₁ : srcHi + offset < 64) :
    ∃ r, br64CopyBitsHl dst src srcHi srcLo offset = some r ∧
      ∀ i, r.getLsbD i =
        if srcLo + offset ≤ (i : Int) ∧ (i : Int) ≤ srcHi + offset
        then src.getLsbD (i - offset).toNat else dst.getLsbD i := by
  have hv : ∀ i, srcHi - srcLo < i → (br64GetHl src srcHi srcLo).getLsbD i = false := by
    intro i hi
    rw [getLsbD_br64GetHl src h]
    have : ¬ srcLo + i ≤ srcHi := by omega
    simp [this]
  refine ⟨_, br64SetHl_eq fun i hi => hv i (by omega), fun i => ?_⟩
  rw [getLsbD_put _ _ _ _ (by omega) (by omega) fun i hi => hv i (by omega)]
  by_cases hin : srcLo + offset ≤ (i : Int) ∧ (i : Int) ≤ srcHi + offset
  · rw [if_pos hin, if_pos (by omega), getLsbD_br64GetHl src h]
    have h₂ : srcLo + (i - (srcLo + offset).toNat) ≤ srcHi := by omega
    have h₃ : srcLo + (i - (srcLo + offset).toNat) = (i - offset).toNat := by omega
    rw [decide_eq_true h₂, Bool.true_and, h₃]
  · rw [if_neg hin, if_neg (by omega)]

/-- `BR64_COPY_BITS_HL` in place (`offset == 0`), as every address field uses it. -/
theorem br64CopyBitsHl_zero (dst src : BitVec 64) (hi lo : Nat) (h : hi < 64) (hl : lo ≤ hi) :
    ∃ r, br64CopyBitsHl dst src hi lo 0 = some r ∧
      ∀ i, r.getLsbD i = if lo ≤ i ∧ i ≤ hi then src.getLsbD i else dst.getLsbD i := by
  obtain ⟨r, hr, hb⟩ := br64CopyBitsHl_spec dst src hi lo 0 h hl (by omega) (by omega)
  refine ⟨r, hr, fun i => ?_⟩
  rw [hb i]
  by_cases hin : lo ≤ i ∧ i ≤ hi
  · rw [if_pos hin, if_pos (by omega)]; congr 1
  · rw [if_neg hin, if_neg (by omega)]

theorem getLsbD_maskbit64 {bit : Nat} (h : bit < 64) (i : Nat) :
    (maskbit64 bit).getLsbD i = decide (i = bit) := by
  rw [maskbit64, BitVec.getLsbD_shiftLeft]
  by_cases hi : i = bit
  · subst hi; simp [h]
  · by_cases hlt : i < bit
    · simp [hi, hlt]
    · have : i - bit ≠ 0 := by omega
      simp [hi, BitVec.getLsbD_one, this]

theorem and_maskbit64_ne_zero (x : BitVec 64) (bit : Nat) (h : bit < 64) :
    (x &&& maskbit64 bit != 0#64) = x.getLsbD bit := by
  by_cases hb : x.getLsbD bit = true
  · rw [hb, bne_iff_ne]
    intro h0
    have := congrArg (·.getLsbD bit) h0
    simp [getLsbD_maskbit64 h, hb] at this
  · have h0 : x &&& maskbit64 bit = 0 := by
      apply BitVec.eq_of_getLsbD_eq
      intro i _
      rw [BitVec.getLsbD_and, getLsbD_maskbit64 h]
      by_cases hi : i = bit
      · subst hi; simp [hb]
      · simp [hi]
    simp [h0, hb]

theorem br64GetBit_ne_zero (x : BitVec 64) (pos : Nat) (h : pos < 64) :
    (br64GetBit x pos != 0#64) = x.getLsbD pos := by
  have hbit : ∀ i, (br64GetBit x pos).getLsbD i = (decide (i = 0) && x.getLsbD pos) := by
    intro i
    rw [br64GetBit, BitVec.getLsbD_ushiftRight, BitVec.getLsbD_and, getLsbD_maskrange64 h]
    by_cases hi : i = 0
    · subst hi; simp
    · have hout : ¬ (pos ≤ pos + i ∧ pos + i ≤ pos) := by omega
      rw [decide_eq_false hout, decide_eq_false hi, Bool.and_false, Bool.false_and]
  by_cases hb : x.getLsbD pos = true
  · rw [hb, bne_iff_ne]
    intro h0
    have h₁ := hbit 0
    rw [h0] at h₁
    simp [hb] at h₁
  · have h0 : br64GetBit x pos = 0 := by
      apply BitVec.eq_of_getLsbD_eq
      intro i _
      simp [hbit, hb]
    simp [h0, hb]

theorem getLsbD_br64SetBit (x : BitVec 64) (pos : Nat) (h : pos < 64) (val : Bool) (i : Nat) :
    (br64SetBit x pos val).getLsbD i = if i = pos then val else x.getLsbD i := by
  have hm : (1#64 <<< pos).getLsbD i = decide (i = pos) := getLsbD_maskbit64 h i
  rw [br64SetBit, BitVec.getLsbD_or, BitVec.getLsbD_and, BitVec.getLsbD_not, hm]
  by_cases hi : i = pos
  · subst hi
    cases val <;> simp [h]
  · -- past bit 63 there is nothing to keep
    have hkeep : (x.getLsbD i && decide (i < 64)) = x.getLsbD i := by
      by_cases h64 : i < 64
      · rw [decide_eq_true h64, Bool.and_true]
      · rw [BitVec.getLsbD_of_ge x i (Nat.le_of_not_lt h64), Bool.false_and]
    cases val with
    | true => simpa [hi, hm] using hkeep
    | false => simpa [hi] using hkeep

/-! ## The primitives together -/

/-- What a caller relies on: `BR64_GET_HL` reads the field as a number, `BR64_SET_HL` stores every
value that fits and touches nothing else, and `BR64_COPY_BITS_HL` moves the field by `offset`. -/
theorem br64_primitives (x dst src v : BitVec 64) (hi lo : Nat) (offset : Int) (hl : lo ≤ hi)
    (hh : hi ≤ 63) :
    (br64GetHl x hi lo).toNat = x.toNat / 2 ^ lo % 2 ^ (hi - lo + 1) ∧
    (v.toNat < 2 ^ (hi - lo + 1) →
      ∃ r, br64SetHl x hi lo v = some r ∧ br64GetHl r hi lo = v ∧
        ∀ i, ¬ (lo ≤ i ∧ i ≤ hi) → r.getLsbD i = x.getLsbD i) ∧
    (0 ≤ lo + offset → hi + offset ≤ 63 →
      ∃ r, br64CopyBitsHl dst src hi lo offset = some r ∧
        ∀ j : Nat, r.getLsbD j =
          if lo + offset ≤ (j : Int) ∧ (j : Int) ≤ hi + offset
          then src.getLsbD (j - offset).toNat else dst.getLsbD j) := by
  have hlt : hi < 64 := Nat.lt_succ_of_le hh
  refine ⟨toNat_br64GetHl x hlt hl, ?_, ?_⟩
  · intro hv
    have hout : ∀ i, hi - lo < i → v.getLsbD i = false := (lt_two_pow_iff_getLsbD v).mp hv
    have hput := getLsbD_put x v hi lo hlt hl hout
    refine ⟨_, br64SetHl_eq fun i hi' => hout i (by omega), ?_, ?_⟩
    · apply BitVec.eq_of_getLsbD_eq
      intro i _
      rw [getLsbD_br64GetHl _ hlt, Int.toNat_natCast, Int.toNat_natCast, hput]
      by_cases hin : lo + i ≤ hi
      · simp [hin]
      · simp [hin, hout i (by omega)]
    · intro i hi'
      rw [Int.toNat_natCast, Int.toNat_natCast, hput, if_neg hi']
  · intro h₀ h₁
    exact br64CopyBitsHl_spec dst src hi lo offset hlt hl h₀ (by omega)

/-- Byte 1 of a word, and the same byte moved down to byte 0. -/
theorem br64_primitives_byte :
    (br64GetHl 0xab12#64 15 8).toNat = 0xab12 / 2 ^ 8 % 2 ^ 8 ∧
    (∃ r, br64SetHl 0xab12#64 15 8 0xcd#64 = some r ∧ br64GetHl r 15 8 = 0xcd#64 ∧
      ∀ i, ¬ (8 ≤ i ∧ i ≤ 15) → r.getLsbD i = (0xab12#64).getLsbD i) ∧
    ∃ r, br64CopyBitsHl 0#64 0xab12#64 15 8 (-8) = some r ∧
      ∀ j : Nat, r.getLsbD j =
        if ((8 : Nat) : Int) + -8 ≤ (j : Int) ∧ (j : Int) ≤ ((15 : Nat) : Int) + -8
        then (0xab12#64).getLsbD ((j : Int) - -8).toNat else (0#64).getLsbD j :=
  have h := br64_primitives 0xab12#64 0#64 0xab12#64 0xcd#64 15 8 (-8) (by decide) (by decide)
  ⟨h.1, h.2.1 (by decide), h.2.2 (by decide) (by decide)⟩

end Shv
