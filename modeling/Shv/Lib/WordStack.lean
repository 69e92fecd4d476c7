/-
# `Shv.Lib.WordStack` — words on a stack

The memory of a machine whose addresses and words are both `w` bits wide.  Addresses wrap, so there
is no end for a stack to run over.  `slot b k` is the address `k` words above `b`, or below it for
a negative `k`: pushes, pops and displacements are sums of slot numbers (`slot_slot`).

A store is seen by the load of its own slot only (`load_store_slot`), and a store between two slots
leaves every byte outside alone (`store_slot_of_outside`).
-/
import Shv.Lib.ByteMem
import Mathlib.Data.BitVec

namespace Shv

/-- A byte for every address of `w` bits. -/
abbrev RingMem (w : Nat) := BitVec w → BitVec 8

namespace RingMem

variable {w : Nat}

def load (m : RingMem w) (a : BitVec w) : BitVec w :=
  (ByteMem.load (fun i => m (a + BitVec.ofNat w i)) 0 (w / 8)).setWidth w

def store (m : RingMem w) (a v : BitVec w) : RingMem w :=
  fun x => if (x - a).toNat < w / 8 then v.extractLsb' (8 * (x - a).toNat) 8 else m x

/-- The address `k` words above `b`. -/
def slot (b : BitVec w) (k : Int) : BitVec w := b + BitVec.ofInt w (k * (w / 8 : Nat))

/-- Words of whole bytes, wide enough for sixteen of them to fit in the memory. -/
structure WordSize (w : Nat) : Prop where
  dvd : 8 ∣ w
  ge : 16 ≤ w

/-! ## Slots -/

@[simp] theorem slot_zero (b : BitVec w) : slot b 0 = b := by
  rw [slot, Int.zero_mul]
  exact BitVec.add_zero b

@[simp] theorem slot_slot (b : BitVec w) (j k : Int) : slot (slot b j) k = slot b (j + k) := by
  rw [slot, slot, slot, Int.add_mul, BitVec.ofInt_add, BitVec.add_assoc]

theorem slot_sub_slot (b : BitVec w) (j k : Int) :
    slot b k - slot b j = BitVec.ofInt w ((k - j) * (w / 8 : Nat)) := by
  rw [slot, slot, add_sub_add_left_eq_sub, Int.sub_mul, Int.sub_eq_add_neg, BitVec.ofInt_add,
    BitVec.ofInt_neg, sub_eq_add_neg]

variable (hw : WordSize w)
include hw

theorem WordSize.bytes : 0 < w / 8 ∧ 8 * (w / 8) = w ∧ 16 * (w / 8) ≤ 2 ^ w := by
  have hge := hw.ge
  have h8 := Nat.mul_div_cancel' hw.dvd
  have hpow : w - 1 < 2 ^ (w - 1) := Nat.lt_two_pow_self
  have htwo : 2 ^ w = 2 * 2 ^ (w - 1) := by
    rw [← Nat.pow_succ']
    congr 1
    omega
  omega

/-! ## Bytes of a word -/

theorem getLsbD_load (m : RingMem w) (a : BitVec w) {i : Nat} (hi : i < w) :
    (load m a).getLsbD i = (m (a + BitVec.ofNat w (i / 8))).getLsbD (i % 8) := by
  have h8 := hw.bytes.2.1
  rw [load, BitVec.getLsbD_setWidth, decide_eq_true hi, Bool.true_and,
    ByteMem.getLsbD_load _ _ _ _ (by omega), Nat.zero_add]

theorem load_congr {m m' : RingMem w} {a : BitVec w}
    (h : ∀ i, i < w / 8 → m' (a + BitVec.ofNat w i) = m (a + BitVec.ofNat w i)) :
    load m' a = load m a := by
  have h8 := hw.bytes.2.1
  apply BitVec.eq_of_getLsbD_eq
  intro i hi
  rw [getLsbD_load hw _ _ hi, getLsbD_load hw _ _ hi, h _ (by omega)]

theorem toNat_ofNat_byte {i : Nat} (hi : i < 16 * (w / 8)) : (BitVec.ofNat w i).toNat = i := by
  rw [BitVec.toNat_ofNat]
  exact Nat.mod_eq_of_lt (by have := hw.bytes; omega)

theorem load_store_self (m : RingMem w) (a v : BitVec w) : load (store m a v) a = v := by
  have h8 := hw.bytes.2.1
  apply BitVec.eq_of_getLsbD_eq
  intro i hi
  have hoff : (a + BitVec.ofNat w (i / 8) - a).toNat = i / 8 := by
    rw [BitVec.add_comm, BitVec.add_sub_cancel, toNat_ofNat_byte hw (by omega)]
  have hlt : i / 8 < w / 8 := by omega
  have hpos : 8 * (i / 8) + i % 8 = i := by omega
  rw [getLsbD_load hw _ _ hi, store, hoff, if_pos hlt, BitVec.getLsbD_extractLsb', hpos,
    decide_eq_true (Nat.mod_lt i (by decide)), Bool.true_and]

theorem le_toNat_slot_sub (b : BitVec w) {j k : Int} (hne : k ≠ j) (h : (k - j).natAbs < 15)
    {i : Nat} (hi : i < w / 8) :
    w / 8 ≤ (slot b k + BitVec.ofNat w i - slot b j).toNat := by
  obtain ⟨hpos, -, hroom⟩ := hw.bytes
  have hdist : slot b k + BitVec.ofNat w i - slot b j =
      BitVec.ofInt w ((k - j) * (w / 8 : Nat) + i) := by
    rw [BitVec.ofInt_add, ← slot_sub_slot b j k, BitVec.ofInt_natCast, add_sub_right_comm]
  have hne' : k - j ≠ 0 := fun h0 => hne (Int.sub_eq_zero.mp h0)
  rw [hdist, BitVec.toNat_ofInt]
  generalize k - j = d at h hne'
  generalize w / 8 = n at *
  rcases Int.lt_or_gt_of_ne hne' with hneg | hgt
  · -- below: around the memory
    have h₁ : d * n ≤ -1 * n := Int.mul_le_mul_of_nonneg_right (by omega) (by omega)
    have h₂ : -14 * n ≤ d * n := Int.mul_le_mul_of_nonneg_right (by omega) (by omega)
    have hmod : (d * n + i) % ((2 ^ w : Nat) : Int) = d * n + i + (2 ^ w : Nat) := by
      rw [← Int.add_emod_right, Int.emod_eq_of_lt] <;> omega
    omega
  · have h₁ : 1 * n ≤ d * n := Int.mul_le_mul_of_nonneg_right (by omega) (by omega)
    have h₂ : d * n ≤ 14 * n := Int.mul_le_mul_of_nonneg_right (by omega) (by omega)
    have hmod : (d * n + i) % ((2 ^ w : Nat) : Int) = d * n + i := by
      apply Int.emod_eq_of_lt <;> omega
    omega

/-- **A load sees the store to its own slot, and no other.** -/
theorem load_store_slot (m : RingMem w) (b v : BitVec w) {j k : Int} (h : (k - j).natAbs < 15) :
    load (store m (slot b j) v) (slot b k) = if k = j then v else load m (slot b k) := by
  split
  next heq => rw [heq, load_store_self hw]
  next hne =>
      apply load_congr hw
      intro i hi
      exact if_neg (Nat.not_lt.mpr (le_toNat_slot_sub hw b hne h hi))

theorem toNat_slot_sub (b : BitVec w) {lo hi : Int} (hle : lo ≤ hi) (h : hi - lo < 16) :
    ((slot b hi - slot b lo).toNat : Int) = (hi - lo) * (w / 8 : Nat) := by
  obtain ⟨hpos, -, hroom⟩ := hw.bytes
  have h₀ : 0 ≤ hi - lo := by omega
  rw [slot_sub_slot, BitVec.toNat_ofInt]
  generalize hi - lo = d at h h₀
  generalize w / 8 = n at *
  have h₁ : 0 * n ≤ d * n := Int.mul_le_mul_of_nonneg_right (by omega) (by omega)
  have h₂ : d * n ≤ 15 * n := Int.mul_le_mul_of_nonneg_right (by omega) (by omega)
  have hmod : (d * n) % ((2 ^ w : Nat) : Int) = d * n := by
    apply Int.emod_eq_of_lt <;> omega
  omega

theorem store_slot_of_outside (m : RingMem w) (b v : BitVec w) {lo j hi : Int} (hlo : lo ≤ j)
    (hhi : j < hi) (h : hi - lo < 16) {a : BitVec w}
    (ha : (slot b hi - slot b lo).toNat ≤ (a - slot b lo).toNat) :
    store m (slot b j) v a = m a := by
  have hj := toNat_slot_sub hw b hlo (by omega)
  have hend := toNat_slot_sub hw b (Int.le_of_lt (Int.lt_of_le_of_lt hlo hhi)) h
  have hdist : a - slot b j = (a - slot b lo) - (slot b j - slot b lo) :=
    (sub_sub_sub_cancel_right ..).symm
  have hstep : (j - lo) * (w / 8 : Nat) + (w / 8 : Nat) ≤ (hi - lo) * ((w / 8 : Nat) : Int) := by
    have := Int.mul_le_mul_of_nonneg_right (show j - lo + 1 ≤ hi - lo by omega)
      (Int.natCast_nonneg (w / 8))
    rwa [Int.add_mul, Int.one_mul] at this
  apply if_neg
  rw [hdist, BitVec.toNat_sub_of_le (by rw [BitVec.le_def]; omega)]
  omega

end RingMem

end Shv
