/-
# `Shv.Bitfield32` — the 32-bit half of `include/bitfield.h`

The 32-bit primitives are written like the 64-bit ones of `Shv.Bitfield`, but two of them still
call `ZERO_HI64`, with a shift count out of 31.  The operand is widened before it is shifted, so
the shift pair that should cut it at `hi` cuts at bit `hi + 32` instead, which is nothing: the
getter does not mask, and the setter's assertion always holds.  `br32_agree_iff` says for which
arguments that shows.
-/
import Shv.Bitfield

namespace Shv

def zeroHi32 (x : BitVec 32) (bits : Nat) : BitVec 32 := x <<< bits >>> bits

def zeroLo32 (x : BitVec 32) (bits : Nat) : BitVec 32 := x >>> bits <<< bits

def maskrange32 (hi lo : Nat) : BitVec 32 :=
  zeroLo32 (zeroHi32 0xffffffff#32 (32 - hi - 1)) lo

/-- `BR32_GET_HL`.  The shifts are those of `ZERO_HI64`, and so is the width of the result. -/
def br32GetHl (x32 : BitVec 32) (hi lo : Nat) : BitVec 64 :=
  zeroHi64 (x32.setWidth 64) (31 - hi) >>> lo

/-- `BR32_SET_HL`.  The assertion is about the value widened to 64 bits. -/
def br32SetHl (x32 : BitVec 32) (hi lo : Int) (val : BitVec 32) : Halting (BitVec 32) := do
  cAssert (zeroHi64 (val.setWidth 64) (31 - (hi - lo)).toNat == val.setWidth 64)
  return (x32 &&& ~~~(maskrange32 hi.toNat lo.toNat)) ||| (val <<< lo.toNat)

/-- `BR32_COPY_BITS_HL`: what the getter returns is narrowed to the setter's parameter. -/
def br32CopyBitsHl (dst src : BitVec 32) (srcHi srcLo : Nat) (offset : Int) :
    Halting (BitVec 32) :=
  br32SetHl dst (srcHi + offset) (srcLo + offset) ((br32GetHl src srcHi srcLo).setWidth 32)

/-! ## Bit by bit -/

/-- A 32-bit value is not changed by clearing fewer than 33 of the bits above it. -/
theorem zeroHi64_setWidth (x : BitVec 32) {bits : Nat} (h : bits ≤ 32) :
    zeroHi64 (x.setWidth 64) bits = x.setWidth 64 := by
  apply BitVec.eq_of_getLsbD_eq
  intro i _
  rw [getLsbD_zeroHi64 _ (by omega)]
  by_cases hi : i < 64 - bits
  · simp [hi]
  · simp [hi, BitVec.getLsbD_of_ge x i (by omega)]

theorem br32GetHl_eq (x : BitVec 32) (hi lo : Nat) : br32GetHl x hi lo = x.setWidth 64 >>> lo := by
  rw [br32GetHl, zeroHi64_setWidth x (by omega)]

theorem br32SetHl_eq (x val : BitVec 32) {hi lo : Int} (h : lo ≤ hi + 1) :
    br32SetHl x hi lo val =
      some ((x &&& ~~~(maskrange32 hi.toNat lo.toNat)) ||| (val <<< lo.toNat)) := by
  rw [br32SetHl, zeroHi64_setWidth val (by omega)]
  simp

theorem getLsbD_maskrange32 {hi : Nat} (h : hi < 32) (lo i : Nat) :
    (maskrange32 hi lo).getLsbD i = decide (lo ≤ i ∧ i ≤ hi) := by
  have hones : (0xffffffff#32).getLsbD = fun i => decide (i < 32) := by
    funext i
    rw [show (0xffffffff#32) = BitVec.allOnes 32 from rfl, BitVec.getLsbD_allOnes]
  simp only [maskrange32, zeroLo32, zeroHi32, BitVec.getLsbD_shiftLeft, BitVec.getLsbD_ushiftRight,
    hones]
  grind

/-- What the setter's right-hand side holds: the value from `lo` up, over what stays of `x`. -/
theorem getLsbD_br32Put (x val : BitVec 32) {hi : Nat} (h : hi < 32) (lo i : Nat) :
    ((x &&& ~~~(maskrange32 hi lo)) ||| (val <<< lo)).getLsbD i =
      (x.getLsbD i && !decide (lo ≤ i ∧ i ≤ hi) ||
        decide (lo ≤ i ∧ i < 32) && val.getLsbD (i - lo)) := by
  rw [BitVec.getLsbD_or, BitVec.getLsbD_and, BitVec.getLsbD_not, BitVec.getLsbD_shiftLeft,
    getLsbD_maskrange32 h]
  have hlo : (!decide (i < lo)) = decide (lo ≤ i) := by rw [← decide_not]; simp
  by_cases hi32 : i < 32
  · simp [hi32, hlo]
  · simp [hi32, BitVec.getLsbD_of_ge x i (by omega)]

/-! ## Against the 64-bit primitives -/

theorem br32GetHl_agree_iff (x : BitVec 32) {hi lo : Nat} (hl : lo ≤ hi) (hh : hi ≤ 31) :
    br32GetHl x hi lo = br64GetHl (x.setWidth 64) hi lo ↔ x.toNat < 2 ^ (hi + 1) := by
  have hpow : 2 ^ (hi + 1) = 2 ^ (hi - lo + 1) * 2 ^ lo := by
    rw [← Nat.pow_add]
    congr 1
    omega
  have hx : (x.setWidth 64).toNat = x.toNat := by
    rw [BitVec.toNat_setWidth]
    exact Nat.mod_eq_of_lt (lt_trans x.isLt (by decide))
  rw [← BitVec.toNat_inj, toNat_br64GetHl _ (by omega) hl, br32GetHl_eq, BitVec.toNat_ushiftRight,
    Nat.shiftRight_eq_div_pow, hx, hpow, ← Nat.div_lt_iff_lt_mul (Nat.two_pow_pos lo)]
  constructor
  · intro h
    rw [h]
    exact Nat.mod_lt _ (Nat.two_pow_pos _)
  · intro h
    exact (Nat.mod_eq_of_lt h).symm

/-- The setters agree on values that fit: the 64-bit one refuses the others. -/
theorem br32SetHl_agree_iff (x v : BitVec 32) {hi lo : Nat} (hl : lo ≤ hi) (hh : hi ≤ 31) :
    (br32SetHl x hi lo v).map (·.setWidth 64) = br64SetHl (x.setWidth 64) hi lo (v.setWidth 64) ↔
      v.toNat < 2 ^ (hi - lo + 1) := by
  rw [br32SetHl_eq x v (by omega), Option.map_some, Int.toNat_natCast, Int.toNat_natCast]
  constructor
  · intro h
    by_contra hbig
    -- a bit past the field makes the 64-bit assertion fail
    rw [lt_two_pow_iff_getLsbD] at hbig
    push Not at hbig
    obtain ⟨i, hi, hbit⟩ := hbig
    have hbit64 : (v.setWidth 64).getLsbD i = true := by
      have : i < 32 := BitVec.lt_of_getLsbD (by simpa using hbit)
      rw [BitVec.getLsbD_setWidth, decide_eq_true (by omega), Bool.true_and]
      simpa using hbit
    rw [br64SetHl_eq_none _ (by omega) (by omega) hbit64] at h
    exact Option.some_ne_none _ h
  · intro hv
    have hout : ∀ i, hi - lo < i → v.getLsbD i = false := (lt_two_pow_iff_getLsbD v).mp hv
    have hout64 : ∀ i, hi - lo < i → (v.setWidth 64).getLsbD i = false := by
      intro i hi'
      rw [BitVec.getLsbD_setWidth, hout i hi', Bool.and_false]
    rw [br64SetHl_eq fun i hi' => hout64 i (by omega), Option.some.injEq, Int.toNat_natCast,
      Int.toNat_natCast]
    apply BitVec.eq_of_getLsbD_eq
    intro i hi64
    rw [BitVec.getLsbD_setWidth, getLsbD_br32Put x v (by omega),
      getLsbD_put _ _ hi lo (by omega) hl hout64, BitVec.getLsbD_setWidth, BitVec.getLsbD_setWidth]
    by_cases hin : lo ≤ i ∧ i ≤ hi
    · have hi32 : i < 32 := by omega
      have hd : i - lo < 64 := by omega
      simp [hin, hi32, hd, hi64]
    · have hrest : (decide (lo ≤ i ∧ i < 32) && v.getLsbD (i - lo)) = false := by
        by_cases hlo : lo ≤ i
        · rw [hout (i - lo) (by omega), Bool.and_false]
        · simp [hlo]
      rw [hrest, if_neg hin, decide_eq_false hin]
      simp

/-- The 32-bit copy ors everything of the source above the range into the destination. -/
theorem br32CopyBitsHl_spec (dst src : BitVec 32) {hi lo : Nat} {offset : Int} (hl : lo ≤ hi)
    (h₀ : 0 ≤ lo + offset) (h₁ : hi + offset ≤ 31) :
    ∃ r, br32CopyBitsHl dst src hi lo offset = some r ∧
      ∀ i : Nat, i < 32 → r.getLsbD i =
        if lo + offset ≤ (i : Int) ∧ (i : Int) ≤ hi + offset
        then src.getLsbD (i - offset).toNat
        else (dst.getLsbD i ||
          decide (hi + offset < (i : Int)) && src.getLsbD (i - offset).toNat) := by
  refine ⟨_, br32SetHl_eq dst _ (by omega), fun i hi32 => ?_⟩
  have hsrc : lo + offset ≤ (i : Int) →
      ((br32GetHl src hi lo).setWidth 32).getLsbD (i - (lo + offset).toNat) =
        src.getLsbD (i - offset).toNat := by
    intro hlo
    have hpos : lo + (i - (lo + offset).toNat) = (i - offset).toNat := by omega
    have hin : i - (lo + offset).toNat < 32 := by omega
    rw [br32GetHl_eq, BitVec.getLsbD_setWidth, BitVec.getLsbD_ushiftRight,
      BitVec.getLsbD_setWidth, hpos, decide_eq_true hin, Bool.true_and]
    by_cases h64 : (i - offset).toNat < 64
    · simp [h64]
    · rw [BitVec.getLsbD_of_ge src _ (by omega), Bool.and_false]
  rw [getLsbD_br32Put _ _ (by omega)]
  by_cases hlo : lo + offset ≤ (i : Int)
  · rw [hsrc hlo]
    have hlo' : (lo + offset).toNat ≤ i := by omega
    by_cases hhi : (i : Int) ≤ hi + offset
    · have hhi' : i ≤ (hi + offset).toNat := by omega
      simp [hlo, hlo', hhi, hhi', hi32]
    · have hhi' : ¬ i ≤ (hi + offset).toNat := by omega
      have hgt : hi + offset < (i : Int) := by omega
      simp [hlo', hhi, hhi', hi32, hgt]
  · have hlo' : ¬ (lo + offset).toNat ≤ i := by omega
    have hgt : ¬ hi + offset < (i : Int) := by omega
    simp [hlo, hlo', hgt]

/-- The copies agree where the source has no bit past the range that the destination lacks. -/
theorem br32CopyBitsHl_agree_iff (dst src : BitVec 32) {hi lo : Nat} {offset : Int} (hl : lo ≤ hi)
    (hh : hi ≤ 31) (h₀ : 0 ≤ lo + offset) (h₁ : hi + offset ≤ 31) :
    (br32CopyBitsHl dst src hi lo offset).map (·.setWidth 64) =
        br64CopyBitsHl (dst.setWidth 64) (src.setWidth 64) hi lo offset ↔
      ∀ j : Nat, hi + offset < (j : Int) → j ≤ 31 → src.getLsbD (j - offset).toNat = true →
        dst.getLsbD j = true := by
  obtain ⟨r, hr, hbits⟩ := br64CopyBitsHl_spec (dst.setWidth 64) (src.setWidth 64) hi lo offset
    (by omega) hl h₀ (by omega)
  obtain ⟨r₃₂, hr₃₂, hbits₃₂⟩ := br32CopyBitsHl_spec dst src hl h₀ h₁
  rw [hr, hr₃₂, Option.map_some, Option.some.injEq]
  constructor
  · intro heq j hgt hj hsrc
    have h32 := hbits₃₂ j (by omega)
    have h64 := hbits j
    have hout : ¬ (lo + offset ≤ (j : Int) ∧ (j : Int) ≤ hi + offset) := by omega
    rw [if_neg hout, decide_eq_true hgt, hsrc, Bool.and_true, Bool.or_true] at h32
    rw [if_neg hout, ← heq, BitVec.getLsbD_setWidth, BitVec.getLsbD_setWidth, h32] at h64
    have hj64 : j < 64 := by omega
    simpa [hj64] using h64.symm
  · intro h
    apply BitVec.eq_of_getLsbD_eq
    intro j hj64
    rw [BitVec.getLsbD_setWidth, hbits, BitVec.getLsbD_setWidth, BitVec.getLsbD_setWidth,
      decide_eq_true hj64, Bool.true_and, Bool.true_and]
    by_cases hj : j < 32
    · rw [hbits₃₂ j hj]
      by_cases hin : lo + offset ≤ (j : Int) ∧ (j : Int) ≤ hi + offset
      · have hpos : (j - offset).toNat < 64 := by omega
        rw [if_pos hin, if_pos hin, decide_eq_true hpos, Bool.true_and]
      · rw [if_neg hin, if_neg hin]
        by_cases hgt : hi + offset < (j : Int)
        · cases hsrc : src.getLsbD (j - offset).toNat with
          | false => simp
          | true => simp [h j hgt (by omega) hsrc]
        · simp [hgt]
    · have hout : ¬ (lo + offset ≤ (j : Int) ∧ (j : Int) ≤ hi + offset) := by omega
      rw [if_neg hout, BitVec.getLsbD_of_ge _ _ (by omega), BitVec.getLsbD_of_ge _ _ (by omega)]

/-- The 32-bit primitives return what the 64-bit ones return on the widened arguments, and halt
when they do, exactly for a value to read that ends at `hi`, a value to store that fits, and a
source without bits past the range that the destination lacks. -/
theorem br32_agree_iff (x dst src v : BitVec 32) (hi lo : Nat) (offset : Int) (hl : lo ≤ hi)
    (hh : hi ≤ 31) (h₀ : 0 ≤ lo + offset) (h₁ : hi + offset ≤ 31) :
    (br32GetHl x hi lo = br64GetHl (x.setWidth 64) hi lo ↔ x.toNat < 2 ^ (hi + 1)) ∧
    ((br32SetHl x hi lo v).map (·.setWidth 64) =
        br64SetHl (x.setWidth 64) hi lo (v.setWidth 64) ↔ v.toNat < 2 ^ (hi - lo + 1)) ∧
    ((br32CopyBitsHl dst src hi lo offset).map (·.setWidth 64) =
        br64CopyBitsHl (dst.setWidth 64) (src.setWidth 64) hi lo offset ↔
      ∀ j : Nat, hi + offset < (j : Int) → j ≤ 31 → src.getLsbD (j - offset).toNat = true →
        dst.getLsbD j = true) :=
  ⟨br32GetHl_agree_iff x hl hh, br32SetHl_agree_iff x v hl hh,
    br32CopyBitsHl_agree_iff dst src hl hh h₀ h₁⟩

/-- Bits 1:0 of 4: the getter returns the 4 where the 64-bit one returns 0, and the 64-bit setter
refuses what the 32-bit one stores. -/
theorem br32_agree_iff_low_bits :
    (br32GetHl 4#32 1 0 = br64GetHl ((4#32).setWidth 64) 1 0 ↔ (4#32).toNat < 2 ^ (1 + 1)) ∧
    ((br32SetHl 4#32 (1 : Nat) (0 : Nat) 4#32).map (·.setWidth 64) =
        br64SetHl ((4#32).setWidth 64) (1 : Nat) (0 : Nat) ((4#32).setWidth 64) ↔
      (4#32).toNat < 2 ^ (1 - 0 + 1)) :=
  have h := br32_agree_iff 4#32 0#32 4#32 4#32 1 0 0 (by decide) (by decide) (by decide) (by decide)
  ⟨h.1, h.2.1⟩

/-- All three 32-bit primitives disagree with the 64-bit ones on bits 1:0 of 4: the getter and the
copy let bit 2 through, and the setter does not assert. -/
theorem br32_disagrees :
    br32GetHl 4#32 1 0 ≠ br64GetHl ((4#32).setWidth 64) 1 0 ∧
    (br32SetHl 0#32 1 0 4#32).map (·.setWidth 64) ≠
      br64SetHl ((0#32).setWidth 64) 1 0 ((4#32).setWidth 64) ∧
    (br32CopyBitsHl 0#32 4#32 1 0 0).map (·.setWidth 64) ≠
      br64CopyBitsHl ((0#32).setWidth 64) ((4#32).setWidth 64) 1 0 0 := by
  decide

end Shv
