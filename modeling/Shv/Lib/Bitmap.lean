/-
# `Bitmap` — sets of numbers as bits of a byte memory

Bit `k` of the bitmap at `a` is bit `k % 8` of byte `a + k / 8`.  `bit_put` and
`bit_clear` say what setting and clearing a bit does to every bit; `put_of_notMem` and
`clear_of_notMem` that both stay within the bitmap; `eq_of_bits` that the bits of a
bitmap determine its bytes.
-/
import Shv.Lib.ByteMem

namespace Bitmap

open ByteMem

variable {m m' : ByteMem} {a k n x : Nat}

def mask (k : Nat) : BitVec 8 := 1#8 <<< (k % 8)

def bit (m : ByteMem) (a k : Nat) : Bool := (m (a + k / 8)).getLsbD (k % 8)

def put (m : ByteMem) (a k : Nat) : ByteMem :=
  Function.update m (a + k / 8) (m (a + k / 8) ||| mask k)

def clear (m : ByteMem) (a k : Nat) : ByteMem :=
  Function.update m (a + k / 8) (m (a + k / 8) &&& ~~~mask k)

theorem getLsbD_mask (k i : Nat) : (mask k).getLsbD i = decide (i = k % 8) := by
  have hk : k % 8 < 8 := Nat.mod_lt k (by decide)
  rw [mask, ← BitVec.twoPow_eq, BitVec.getLsbD_twoPow, decide_eq_true hk, Bool.true_and]
  exact decide_eq_decide.mpr eq_comm

theorem and_mask_eq_zero : m (a + k / 8) &&& mask k = 0#8 ↔ bit m a k = false := by
  have hk : k % 8 < 8 := Nat.mod_lt k (by decide)
  constructor
  · intro h
    have hbit := congrArg (fun v : BitVec 8 => v.getLsbD (k % 8)) h
    simpa [getLsbD_mask, bit] using hbit
  · intro h
    apply BitVec.eq_of_getLsbD_eq
    intro i _
    rw [BitVec.getLsbD_and, getLsbD_mask, BitVec.getLsbD_zero]
    by_cases hi : i = k % 8
    · rw [hi, show (m (a + k / 8)).getLsbD (k % 8) = false from h, Bool.false_and]
    · rw [decide_eq_false hi, Bool.and_false]

theorem bit_update {v : BitVec 8} {b : Bool}
    (hv : ∀ i, i < 8 → v.getLsbD i = if i = k % 8 then b else (m (a + k / 8)).getLsbD i)
    (j : Nat) : bit (Function.update m (a + k / 8) v) a j = if j = k then b else bit m a j := by
  have hj : j % 8 < 8 := Nat.mod_lt j (by decide)
  rw [bit]
  by_cases hbyte : j / 8 = k / 8
  · rw [hbyte, Function.update_self, hv _ hj]
    by_cases h : j = k
    · rw [if_pos (congrArg (· % 8) h), if_pos h]
    · rw [if_neg (by omega), if_neg h, bit, hbyte]
  · rw [Function.update_of_ne (by omega), if_neg (fun h => hbyte (congrArg (· / 8) h)), bit]

theorem bit_put (m : ByteMem) (a k j : Nat) :
    bit (put m a k) a j = if j = k then true else bit m a j := by
  refine bit_update (fun i _ => ?_) j
  rw [BitVec.getLsbD_or, getLsbD_mask]
  by_cases hi : i = k % 8
  · rw [if_pos hi, decide_eq_true hi, Bool.or_true]
  · rw [if_neg hi, decide_eq_false hi, Bool.or_false]

theorem bit_clear (m : ByteMem) (a k j : Nat) :
    bit (clear m a k) a j = if j = k then false else bit m a j := by
  refine bit_update (fun i hi8 => ?_) j
  rw [BitVec.getLsbD_and, BitVec.getLsbD_not, getLsbD_mask, decide_eq_true hi8, Bool.true_and]
  by_cases hi : i = k % 8
  · rw [if_pos hi, decide_eq_true hi, Bool.not_true, Bool.and_false]
  · rw [if_neg hi, decide_eq_false hi, Bool.not_false, Bool.and_true]

theorem ne_of_notMem (hk : k < 8 * n) (hx : x ∉ span a n) : x ≠ a + k / 8 := by
  rintro rfl
  rw [mem_span] at hx
  omega

theorem put_of_notMem (hk : k < 8 * n) (hx : x ∉ span a n) : put m a k x = m x :=
  Function.update_of_ne (ne_of_notMem hk hx) ..

theorem clear_of_notMem (hk : k < 8 * n) (hx : x ∉ span a n) : clear m a k x = m x :=
  Function.update_of_ne (ne_of_notMem hk hx) ..

theorem eq_of_bits (h : ∀ k, k < 8 * n → bit m a k = bit m' a k) (hx : x ∈ span a n) :
    m x = m' x := by
  obtain ⟨hlo, hhi⟩ := mem_span.mp hx
  apply BitVec.eq_of_getLsbD_eq
  intro i hi
  have hbit := h (8 * (x - a) + i) (by omega)
  have hdiv : (8 * (x - a) + i) / 8 = x - a := by omega
  have hmod : (8 * (x - a) + i) % 8 = i := by omega
  rwa [bit, bit, hdiv, hmod, Nat.add_sub_cancel' hlo] at hbit

theorem eq_zero_of_bits (h : ∀ k, k < 8 * n → bit m a k = false) (hx : x ∈ span a n) :
    m x = 0#8 := by
  exact @eq_of_bits m (fun _ => 0#8) a n x (fun k hk => by rw [h k hk, bit, BitVec.getLsbD_zero]) hx

end Bitmap
