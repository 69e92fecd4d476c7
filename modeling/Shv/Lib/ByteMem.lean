/-
# `ByteMem` — a byte-addressed memory with little-endian words

A memory is a total function from addresses to bytes.  Words of `w` bytes are
read and written little-endian, so the theory of a word access is the theory
of the `w` bytes it covers: `getLsbD_load` reads a word bit by bit, and
`store_of_notMem` says which bytes a store leaves alone.

Everything later about tables in memory is a frame argument, and the two forms
it takes are here: `load_congr` (a word depends on its own bytes only) and
`load_store_of_apart` (a store outside those bytes is invisible).  `fill_succ`,
`copy_succ` and `copy_succ_last` are for loops that do a byte at a time.
-/
import Mathlib.Data.Set.Basic
import Mathlib.Logic.Function.Basic
import Mathlib.Tactic.Common

/-- Memory: every address holds a byte. -/
abbrev ByteMem := Nat → BitVec 8

namespace ByteMem

/-- The bytes `[a, a + n)`. -/
def span (a n : Nat) : Set Nat := {x | a ≤ x ∧ x < a + n}

@[simp] theorem mem_span {a n x : Nat} : x ∈ span a n ↔ a ≤ x ∧ x < a + n := Iff.rfl

/-- Two spans without a common byte. -/
def Apart (a n b k : Nat) : Prop := a + n ≤ b ∨ b + k ≤ a

theorem Apart.symm {a n b k : Nat} (h : Apart a n b k) : Apart b k a n := Or.symm h

theorem Apart.notMem {a n b k x : Nat} (h : Apart a n b k) (hx : x ∈ span a n) :
    x ∉ span b k := by
  simp only [mem_span] at hx ⊢
  rcases h with h | h <;> omega

theorem Apart.mono {a n b k a' n' b' k' : Nat} (h : Apart a n b k)
    (ha : a ≤ a') (hn : a' + n' ≤ a + n) (hb : b ≤ b') (hk : b' + k' ≤ b + k) :
    Apart a' n' b' k' := by
  rcases h with h | h
  · exact Or.inl (by omega)
  · exact Or.inr (by omega)

/-- Little-endian read of `w` bytes. -/
def load (m : ByteMem) (a : Nat) : (w : Nat) → BitVec (8 * w)
  | 0 => 0#0
  | w + 1 => (load m (a + 1) w ++ m a : BitVec (8 * w + 8))

/-- Little-endian write of `w` bytes. -/
def store (m : ByteMem) (a w : Nat) (v : BitVec (8 * w)) : ByteMem :=
  fun x => if a ≤ x ∧ x < a + w then v.extractLsb' (8 * (x - a)) 8 else m x

/-- `memset`: `n` bytes all equal to `c`. -/
def fill (m : ByteMem) (a n : Nat) (c : BitVec 8) : ByteMem :=
  fun x => if a ≤ x ∧ x < a + n then c else m x

/-- `memcpy`: `n` bytes from `src` to `dst`, all read before any is written. -/
def copy (m : ByteMem) (dst src n : Nat) : ByteMem :=
  fun x => if dst ≤ x ∧ x < dst + n then m (src + (x - dst)) else m x

theorem getLsbD_load (m : ByteMem) :
    ∀ (w a i : Nat), i < 8 * w → (load m a w).getLsbD i = (m (a + i / 8)).getLsbD (i % 8)
  | 0, _, _, h => absurd h (by omega)
  | w + 1, a, i, h => by
      show (load m (a + 1) w ++ m a : BitVec (8 * w + 8)).getLsbD i = _
      rw [BitVec.getLsbD_append]
      by_cases hi : i < 8
      · simp only [hi, if_true]
        rw [Nat.div_eq_of_lt hi, Nat.mod_eq_of_lt hi, Nat.add_zero]
      · simp only [hi, if_false]
        rw [getLsbD_load m w (a + 1) (i - 8) (by omega)]
        have hq : a + 1 + (i - 8) / 8 = a + i / 8 := by omega
        have hr : (i - 8) % 8 = i % 8 := by omega
        rw [hq, hr]

theorem load_congr {m m' : ByteMem} {a w : Nat} (h : ∀ x ∈ span a w, m' x = m x) :
    load m' a w = load m a w := by
  apply BitVec.eq_of_getLsbD_eq
  intro i hi
  rw [getLsbD_load m' w a i hi, getLsbD_load m w a i hi]
  rw [h (a + i / 8) ⟨by omega, by omega⟩]

theorem load_zero {m : ByteMem} {a w : Nat} (h : ∀ x ∈ span a w, m x = 0) :
    load m a w = 0 := by
  apply BitVec.eq_of_getLsbD_eq
  intro i hi
  rw [getLsbD_load m w a i hi, h (a + i / 8) ⟨by omega, by omega⟩]
  simp

theorem store_of_notMem {m : ByteMem} {a w x : Nat} {v : BitVec (8 * w)}
    (h : x ∉ span a w) : store m a w v x = m x := if_neg h

theorem fill_of_notMem {m : ByteMem} {a n x : Nat} {c : BitVec 8}
    (h : x ∉ span a n) : fill m a n c x = m x := if_neg h

theorem fill_of_mem {m : ByteMem} {a n x : Nat} {c : BitVec 8}
    (h : x ∈ span a n) : fill m a n c x = c := if_pos h

theorem copy_of_notMem {m : ByteMem} {dst src n x : Nat}
    (h : x ∉ span dst n) : copy m dst src n x = m x := if_neg h

theorem copy_of_mem {m : ByteMem} {dst src n x : Nat}
    (h : x ∈ span dst n) : copy m dst src n x = m (src + (x - dst)) := if_pos h

@[simp] theorem fill_zero (m : ByteMem) (a : Nat) (c : BitVec 8) : fill m a 0 c = m := by
  funext x
  exact fill_of_notMem (by rw [mem_span]; omega)

theorem fill_succ (m : ByteMem) (a n : Nat) (c : BitVec 8) :
    fill m a (n + 1) c = fill (Function.update m a c) (a + 1) n c := by
  funext x
  rw [fill, fill, Function.update_apply]
  grind

@[simp] theorem copy_zero (m : ByteMem) (dst src : Nat) : copy m dst src 0 = m := by
  funext x
  exact copy_of_notMem (by rw [mem_span]; omega)

/-- A copy may start with the first byte unless that is still to be read. -/
theorem copy_succ {m : ByteMem} {dst src n : Nat} (h : ¬ (src < dst ∧ dst < src + (n + 1))) :
    copy m dst src (n + 1) = copy (Function.update m dst (m src)) (dst + 1) (src + 1) n := by
  funext x
  rw [copy, copy, Function.update_apply, Function.update_apply]
  rcases lt_trichotomy x dst with hlt | rfl | hgt
  · rw [if_neg (by omega), if_neg (by omega), if_neg (by omega)]
  · rw [if_pos (by omega), if_neg (by omega), if_pos rfl, Nat.sub_self, Nat.add_zero]
  · have hpos : src + 1 + (x - (dst + 1)) = src + (x - dst) := by omega
    by_cases hin : x < dst + (n + 1)
    · rw [if_pos (by omega), if_pos (by omega), if_neg (by omega), hpos]
    · rw [if_neg (by omega), if_neg (by omega), if_neg (by omega)]

theorem copy_succ_last {m : ByteMem} {dst src n : Nat} (h : src ≤ dst) :
    copy m dst src (n + 1) = copy (Function.update m (dst + n) (m (src + n))) dst src n := by
  funext x
  rw [copy, copy, Function.update_apply, Function.update_apply]
  rcases lt_trichotomy x (dst + n) with hlt | rfl | hgt
  · by_cases hin : dst ≤ x
    · rw [if_pos (by omega), if_pos (by omega), if_neg (by omega)]
    · rw [if_neg (by omega), if_neg (by omega), if_neg (by omega)]
  · rw [if_pos (by omega), if_neg (by omega), if_pos rfl, Nat.add_sub_cancel_left]
  · rw [if_neg (by omega), if_neg (by omega), if_neg (by omega)]

theorem load_store_self (m : ByteMem) (a w : Nat) (v : BitVec (8 * w)) :
    load (store m a w v) a w = v := by
  apply BitVec.eq_of_getLsbD_eq
  intro i hi
  rw [getLsbD_load _ w a i hi]
  have hin : a ≤ a + i / 8 ∧ a + i / 8 < a + w := ⟨by omega, by omega⟩
  have hb : store m a w v (a + i / 8) = v.extractLsb' (8 * (a + i / 8 - a)) 8 := if_pos hin
  rw [hb, BitVec.getLsbD_extractLsb']
  have hr : i % 8 < 8 := Nat.mod_lt _ (by omega)
  have hq : 8 * (a + i / 8 - a) + i % 8 = i := by omega
  rw [hq, decide_eq_true hr, Bool.true_and]

theorem load_store_of_apart {m : ByteMem} {a w b k : Nat} {v : BitVec (8 * w)}
    (h : Apart a w b k) : load (store m a w v) b k = load m b k :=
  load_congr fun _ hx => store_of_notMem (h.symm.notMem hx)

theorem byte_eq_zero_of_load {m : ByteMem} {a w x : Nat} (h : load m a w = 0)
    (hx : x ∈ span a w) : m x = 0 := by
  obtain ⟨hax, hxw⟩ := hx
  apply BitVec.eq_of_getLsbD_eq
  intro i hi
  have hbit := getLsbD_load m w a (8 * (x - a) + i) (by omega)
  have hq : a + (8 * (x - a) + i) / 8 = x := by omega
  have hr : (8 * (x - a) + i) % 8 = i := by omega
  rw [hq, hr, h, BitVec.ofNat_eq_ofNat, BitVec.getLsbD_zero] at hbit
  rw [← hbit, BitVec.ofNat_eq_ofNat, BitVec.getLsbD_zero]

theorem store_setWidth {m : ByteMem} {a w k : Nat} (v : BitVec (8 * w))
    (h : load m a (w + k) = 0) :
    store m a (w + k) (v.setWidth (8 * (w + k))) = store m a w v := by
  funext x
  by_cases hlow : a ≤ x ∧ x < a + w
  · rw [store, store, if_pos hlow, if_pos ⟨hlow.1, by omega⟩]
    apply BitVec.eq_of_getLsbD_eq
    intro i hi
    have hlt : 8 * (x - a) + i < 8 * (w + k) := by omega
    rw [BitVec.getLsbD_extractLsb', BitVec.getLsbD_extractLsb', BitVec.getLsbD_setWidth,
      decide_eq_true hlt, Bool.true_and]
  · rw [store, store, if_neg hlow]
    split
    next hin =>
      rw [byte_eq_zero_of_load h hin]
      apply BitVec.eq_of_getLsbD_eq
      intro i hi
      have hge : 8 * w ≤ 8 * (x - a) + i := by omega
      rw [BitVec.getLsbD_extractLsb', BitVec.getLsbD_setWidth, BitVec.getLsbD_of_ge _ _ hge,
        Bool.and_false, Bool.and_false, BitVec.ofNat_eq_ofNat, BitVec.getLsbD_zero]
    next => rfl

end ByteMem
