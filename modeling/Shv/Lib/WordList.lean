/-
# `Shv.Lib.WordList` — a stack as a list of words

What lies on a stack is a list of words, the top one first.  `WordsAt` says that a memory holds such
a list from an address up; a push puts a word in front of it, a pop takes one off, and a store to a
slot replaces one (`Pushed.push`, `WordsAt.tail`, `Pushed.set`).

`Pushed` also says where memory was written: in the words below the first stack pointer only.
-/
import Shv.Lib.WordStack

namespace Shv

namespace RingMem

variable {w : Nat}

/-- The words from `b` up are those of the list. -/
def WordsAt (m : RingMem w) (b : BitVec w) (ws : List (BitVec w)) : Prop :=
  ∀ i (h : i < ws.length), load m (slot b i) = ws[i]

namespace WordsAt

variable {m : RingMem w} {b v : BitVec w} {ws ws' : List (BitVec w)}

theorem nil : WordsAt m b [] := fun _ h => absurd h (Nat.not_lt_zero _)

theorem head (h : WordsAt m b (v :: ws)) : load m b = v := by
  have h₀ := h 0 (Nat.zero_lt_succ _)
  rwa [Int.natCast_zero, slot_zero] at h₀

theorem tail (h : WordsAt m b (v :: ws)) : WordsAt m (slot b 1) ws := by
  intro i hi
  have hi' := h (i + 1) (Nat.succ_lt_succ hi)
  rw [slot_slot]
  rw [Int.natCast_succ, Int.add_comm] at hi'
  exact hi'

theorem drop (h : WordsAt m b (ws ++ ws')) : WordsAt m (slot b ws.length) ws' := by
  induction ws generalizing b with
  | nil => rwa [List.length_nil, Int.natCast_zero, slot_zero]
  | cons u us ih =>
      have hus := ih h.tail
      rw [slot_slot] at hus
      rwa [List.length_cons, Int.natCast_succ, Int.add_comm]

theorem take (h : WordsAt m b (ws ++ ws')) : WordsAt m b ws := by
  intro i hi
  rw [h i (by rw [List.length_append]; omega), List.getElem_append_left hi]

theorem get (h : WordsAt m b ws) {d : Nat} {u : BitVec w} (hd : ws[d]? = some u) :
    load m (slot b d) = u := by
  obtain ⟨hlt, rfl⟩ := List.getElem?_eq_some_iff.mp hd
  exact h d hlt

end WordsAt

/-- Two slots have no byte in common if all the words from one to the other fit into the memory. -/
theorem le_toNat_slot_sub_of_fits (b : BitVec w) {j k : Int} (hne : k ≠ j)
    (h : ((k - j).natAbs + 1) * (w / 8) ≤ 2 ^ w) {i : Nat} (hi : i < w / 8) :
    w / 8 ≤ (slot b k + BitVec.ofNat w i - slot b j).toNat := by
  have hdist : slot b k + BitVec.ofNat w i - slot b j =
      BitVec.ofInt w ((k - j) * (w / 8 : Nat) + i) := by
    rw [BitVec.ofInt_add, ← slot_sub_slot b j k, BitVec.ofInt_natCast, add_sub_right_comm]
  rw [hdist, BitVec.toNat_ofInt]
  have hne' : k - j ≠ 0 := fun h0 => hne (Int.sub_eq_zero.mp h0)
  generalize k - j = d at h hne'
  generalize w / 8 = n at *
  rw [Nat.add_mul, Nat.one_mul] at h
  rcases Int.natAbs_eq d with hd | hd
  · rw [hd]
    have hpos : 0 < d.natAbs := by omega
    have hge : 1 * n ≤ d.natAbs * n := Nat.mul_le_mul_right n hpos
    have hcast : ((d.natAbs : Int)) * (n : Int) = ((d.natAbs * n : Nat) : Int) := by
      rw [Int.natCast_mul]
    rw [hcast]
    generalize d.natAbs * n = p at *
    have hmod : ((p : Int) + i) % ((2 ^ w : Nat) : Int) = p + i := by
      apply Int.emod_eq_of_lt <;> omega
    omega
  · rw [hd]
    have hpos : 0 < d.natAbs := by omega
    have hge : 1 * n ≤ d.natAbs * n := Nat.mul_le_mul_right n hpos
    have hcast : -((d.natAbs : Int)) * (n : Int) = -((d.natAbs * n : Nat) : Int) := by
      rw [Int.natCast_mul, Int.neg_mul]
    rw [hcast]
    generalize d.natAbs * n = p at *
    have hmod : (-(p : Int) + i) % ((2 ^ w : Nat) : Int) = -p + i + (2 ^ w : Nat) := by
      rw [← Int.add_emod_right, Int.emod_eq_of_lt] <;> omega
    omega

theorem load_store_of_fits (hw : WordSize w) (m : RingMem w) (b v : BitVec w) {j k : Int}
    (h : ((k - j).natAbs + 1) * (w / 8) ≤ 2 ^ w) :
    load (store m (slot b j) v) (slot b k) = if k = j then v else load m (slot b k) := by
  split
  next heq => rw [heq, load_store_self hw]
  next hne =>
      apply load_congr hw
      intro i hi
      exact if_neg (Nat.not_lt.mpr (le_toNat_slot_sub_of_fits b hne h hi))

theorem WordsAt.set (hw : WordSize w) {m : RingMem w} {b : BitVec w} {ws : List (BitVec w)}
    (h : WordsAt m b ws) (hfit : ws.length * (w / 8) ≤ 2 ^ w) {d : Nat} (hd : d < ws.length)
    (v : BitVec w) : WordsAt (store m (slot b d) v) b (ws.set d v) := by
  intro i hi
  rw [List.length_set] at hi
  rw [load_store_of_fits hw, List.getElem_set]
  · by_cases hid : d = i
    · subst hid
      rw [if_pos rfl, if_pos rfl]
    · rw [if_neg (by omega), if_neg hid, h i hi]
  · have hlt : (((i : Int) - d).natAbs + 1) ≤ ws.length := by omega
    exact Nat.le_trans (Nat.mul_le_mul_right _ hlt) hfit

/-- From the memory `m₀` and the stack pointer `b` the words `ws` have been put on the stack; memory
has been written in the `n` words below `b` at most. -/
structure Pushed (n : Nat) (m₀ : RingMem w) (b : BitVec w) (ws : List (BitVec w)) (m : RingMem w)
    (sp : BitVec w) : Prop where
  room : ws.length ≤ n
  sp_eq : sp = slot b (-(ws.length : Int))
  holds : WordsAt m sp ws
  outside : ∀ a, n * (w / 8) ≤ (a - slot b (-(n : Int))).toNat → m a = m₀ a

namespace Pushed

variable {n : Nat} {m₀ m : RingMem w} {b sp v : BitVec w} {ws : List (BitVec w)}

theorem nil (n : Nat) (m : RingMem w) (b : BitVec w) : Pushed n m b [] m b where
  room := Nat.zero_le n
  sp_eq := (slot_zero b).symm
  holds := .nil
  outside _ _ := rfl

theorem outside_store (hfit : n * (w / 8) ≤ 2 ^ w)
    (h : ∀ a, n * (w / 8) ≤ (a - slot b (-(n : Int))).toNat → m a = m₀ a)
    {j : Int} (hj : -(n : Int) ≤ j ∧ j < 0) (v : BitVec w) :
    ∀ a, n * (w / 8) ≤ (a - slot b (-(n : Int))).toNat → store m (slot b j) v a = m₀ a := by
  intro a ha
  rw [← h a ha]
  refine if_neg fun hlt => ?_
  have hdist : a - slot b (-(n : Int)) =
      (a - slot b j) + BitVec.ofNat w ((j + n).toNat * (w / 8)) := by
    have hslot : slot b j - slot b (-(n : Int)) = BitVec.ofNat w ((j + n).toNat * (w / 8)) := by
      rw [slot_sub_slot, ← BitVec.ofInt_natCast, Int.natCast_mul, Int.toNat_of_nonneg (by omega),
        Int.sub_neg]
    rw [← hslot, sub_add_sub_cancel]
  have hmul : (j + n).toNat * (w / 8) + w / 8 ≤ n * (w / 8) := by
    rw [← Nat.succ_mul]
    exact Nat.mul_le_mul_right _ (by omega)
  rw [hdist, BitVec.toNat_add, BitVec.toNat_ofNat, @Nat.mod_eq_of_lt ((j + n).toNat * _) _
    (Nat.lt_of_lt_of_le (by omega) hfit),
    Nat.mod_eq_of_lt (Nat.lt_of_lt_of_le (by omega) hfit)] at ha
  omega

variable (hw : WordSize w) (hfit : n * (w / 8) ≤ 2 ^ w)
include hw hfit

theorem push (h : Pushed n m₀ b ws m sp) (hroom : ws.length < n) (v : BitVec w) :
    Pushed n m₀ b (v :: ws) (store m (slot sp (-1)) v) (slot sp (-1)) where
  room := hroom
  sp_eq := by
    rw [h.sp_eq, slot_slot, List.length_cons]
    congr 1
    omega
  holds := by
    intro i hi
    rw [slot_slot, load_store_of_fits hw]
    · cases i with
      | zero => rfl
      | succ i =>
          rw [if_neg (by omega), List.getElem_cons_succ, ← h.holds i (Nat.lt_of_succ_lt_succ hi)]
          congr 2
          omega
    · have hlt : ((-1 + i - -1 : Int).natAbs + 1) ≤ n := by
        rw [List.length_cons] at hi
        omega
      exact Nat.le_trans (Nat.mul_le_mul_right _ hlt) hfit
  outside := by
    have hout := outside_store hfit h.outside (j := -(ws.length : Int) - 1) (by omega) v
    rwa [h.sp_eq, slot_slot, ← Int.sub_eq_add_neg]

theorem set (h : Pushed n m₀ b ws m sp) {d : Nat} (hd : d < ws.length) (v : BitVec w) :
    Pushed n m₀ b (ws.set d v) (store m (slot sp d) v) sp where
  room := by
    rw [List.length_set]
    exact h.room
  sp_eq := by rw [List.length_set, h.sp_eq]
  holds := h.holds.set hw (Nat.le_trans (Nat.mul_le_mul_right _ h.room) hfit) hd v
  outside := by
    have hroom := h.room
    have hout := outside_store hfit h.outside (j := -(ws.length : Int) + d) (by omega) v
    rwa [h.sp_eq, slot_slot]

end Pushed

end RingMem

end Shv
