/-
# `Smp` — threads on shared memory, one atomic step at a time

A system is a shared state and one local state per thread; in a step one thread
makes an atomic move and the others stay where they are.  Runs are `Trace`s of
`Smp.Step`, and an invariant is proved by `Trace.invariant`.

Three kinds of invariant recur.  How many threads are in some phase: `Smp.count`
changes by one when a thread enters or leaves the phase (`count_update`).  At most
one thread is in a phase, none while a word in memory is 0: `Locked`, which a
test-and-set keeps.  And no thread is beyond a point that not all have come to:
`Barrier`, which threads keep that count themselves in and wait for the others.
-/
import Mathlib.Data.Fintype.Card
import Mathlib.Algebra.BigOperators.Group.Finset.Piecewise
import Shv.Lib.Trace

/-- The state of a system of threads. -/
structure Smp (ι S T : Type) where
  shared : S
  thread : ι → T

namespace Smp

variable {ι S T A : Type}

/-- Thread `i` makes a move `a` that `move` allows. -/
inductive Step [DecidableEq ι] (move : ι → S → T → A → S → T → Prop) :
    Smp ι S T → ι × A → Smp ι S T → Prop
  | mk {c : Smp ι S T} {i : ι} {a : A} {s' : S} {t' : T} :
      move i c.shared (c.thread i) a s' t' →
      Step move c (i, a) ⟨s', Function.update c.thread i t'⟩

/-! ## Counting threads -/

section Count

variable [Fintype ι]

def count (P : T → Prop) [DecidablePred P] (f : ι → T) : Nat :=
  (Finset.univ.filter fun i => P (f i)).card

variable {P : T → Prop} [DecidablePred P] {f : ι → T}

theorem count_eq_sum : count P f = ∑ i, if P (f i) then 1 else 0 :=
  Finset.card_filter _ _

theorem count_update [DecidableEq ι] (i : ι) (t : T) :
    count P (Function.update f i t) + (if P (f i) then 1 else 0) =
      count P f + (if P t then 1 else 0) := by
  rw [count_eq_sum, count_eq_sum, ← Finset.add_sum_erase _ _ (Finset.mem_univ i),
    ← Finset.add_sum_erase Finset.univ (fun j => if P (f j) then 1 else 0) (Finset.mem_univ i)]
  have hrest : ∑ j ∈ Finset.univ.erase i, (if P (Function.update f i t j) then 1 else 0) =
      ∑ j ∈ Finset.univ.erase i, if P (f j) then 1 else 0 :=
    Finset.sum_congr rfl fun j hj => by
      rw [Function.update_of_ne (Finset.ne_of_mem_erase hj)]
  rw [hrest, Function.update_self]
  omega

theorem count_zero (h : ∀ i, ¬ P (f i)) : count P f = 0 :=
  Finset.card_eq_zero.mpr (Finset.filter_eq_empty_iff.mpr fun i _ => h i)

theorem count_mono {Q : T → Prop} [DecidablePred Q] (h : ∀ t, P t → Q t) :
    count P f ≤ count Q f :=
  Finset.card_le_card (Finset.monotone_filter_right _ fun i _ => h (f i))

theorem count_le : count P f ≤ Fintype.card ι := Finset.card_filter_le _ _

/-- All threads are in a phase that as many are in as there are threads. -/
theorem all_of_count (h : Fintype.card ι ≤ count P f) (i : ι) : P (f i) := by
  have huniv := Finset.eq_univ_of_card _ (Nat.le_antisymm count_le h)
  have hi : i ∈ Finset.univ.filter fun j => P (f j) := by
    rw [huniv]
    exact Finset.mem_univ i
  exact (Finset.mem_filter.mp hi).2

end Count

/-! ## A word that locks -/

/-- At most one thread is in phase `H`, and none while the word is 0. -/
structure Locked {W : Type} [Zero W] (word : W) (H : T → Prop) (f : ι → T) : Prop where
  free : word = 0 → ∀ i, ¬ H (f i)
  unique : ∀ {i j}, H (f i) → H (f j) → i = j

namespace Locked

variable {W : Type} [Zero W] {word word' : W} {H : T → Prop} {f : ι → T} {i : ι} {t : T}

theorem start (h : ∀ i, ¬ H (f i)) : Locked word H f :=
  ⟨fun _ => h, fun hi => absurd hi (h _)⟩

variable [DecidableEq ι]

/-- A thread moves without entering the phase; the word does not become 0. -/
theorem stay (h : Locked word H f) (ht : H t → H (f i)) (hw : word' = 0 → word = 0) :
    Locked word' H (Function.update f i t) := by
  have hold : ∀ {j}, H (Function.update f i t j) → H (f j) := by
    intro j hj
    by_cases hji : j = i
    · subst hji
      rw [Function.update_self] at hj
      exact ht hj
    · rwa [Function.update_of_ne hji] at hj
  exact ⟨fun h0 j hj => h.free (hw h0) j (hold hj), fun hj hk => h.unique (hold hj) (hold hk)⟩

/-- A thread finds the word 0 and makes it something else: it may enter. -/
theorem take (h : Locked word H f) (h0 : word = 0) (hw : word' ≠ 0) :
    Locked word' H (Function.update f i t) := by
  have honly : ∀ {j}, H (Function.update f i t j) → j = i := by
    intro j hj
    by_contra hji
    rw [Function.update_of_ne hji] at hj
    exact h.free h0 j hj
  exact ⟨fun h0' => absurd h0' hw, fun hj hk => (honly hj).trans (honly hk).symm⟩

theorem release (h : Locked word H f) (hi : H (f i)) (ht : ¬ H t) :
    Locked word' H (Function.update f i t) := by
  refine start fun j hj => ?_
  by_cases hji : j = i
  · subst hji
    rw [Function.update_self] at hj
    exact ht hj
  · rw [Function.update_of_ne hji] at hj
    exact hji (h.unique hj hi)

end Locked

/-! ## Barriers -/

/-- A number counts the threads that have arrived; a thread that has left knows that all have. -/
structure Barrier [Fintype ι] (n : Nat) (arrived left : T → Prop) [DecidablePred arrived]
    (f : ι → T) : Prop where
  count : n = count arrived f
  all : ∀ {i}, left (f i) → ∀ j, arrived (f j)

namespace Barrier

variable [Fintype ι] {n n' : Nat} {arrived left : T → Prop} [DecidablePred arrived] {f : ι → T}
  {i : ι} {t : T}

theorem start (ha : ∀ i, ¬ arrived (f i)) (hl : ∀ i, ¬ left (f i)) : Barrier 0 arrived left f :=
  ⟨(count_zero ha).symm, fun h => absurd h (hl _)⟩

theorem le (h : Barrier n arrived left f) : n ≤ Fintype.card ι := by
  rw [h.count]
  exact count_le

theorem all_of_le (h : Barrier n arrived left f) (hn : Fintype.card ι ≤ n) (j : ι) :
    arrived (f j) := by
  rw [h.count] at hn
  exact all_of_count hn j

theorem lt_of_not (h : Barrier n arrived left f) (hi : ¬ arrived (f i)) :
    n < Fintype.card ι := by
  by_contra hn
  exact hi (h.all_of_le (Nat.le_of_not_lt hn) i)

variable [DecidableEq ι]

/-- A thread moves.  It does not go back behind the point of arrival, it counts itself in when it
arrives, and it does not leave before all have arrived. -/
theorem move (h : Barrier n arrived left f) (ha : arrived (f i) → arrived t)
    (hn : n' + (if arrived (f i) then 1 else 0) = n + if arrived t then 1 else 0)
    (hl : left t → ∀ j, arrived (f j)) : Barrier n' arrived left (Function.update f i t) := by
  have hall : ∀ j, arrived (f j) → arrived (Function.update f i t j) := by
    intro j hj
    by_cases hji : j = i
    · subst hji
      rw [Function.update_self]
      exact ha hj
    · rwa [Function.update_of_ne hji]
  refine ⟨?_, fun {k} hk j => hall j ?_⟩
  · have hc := count_update (P := arrived) (f := f) i t
    have hcount := h.count
    omega
  · by_cases hki : k = i
    · subst hki
      rw [Function.update_self] at hk
      exact hl hk j
    · rw [Function.update_of_ne hki] at hk
      exact h.all hk j

theorem stay (h : Barrier n arrived left f) (ha : arrived t ↔ arrived (f i))
    (hl : left t → left (f i)) : Barrier n arrived left (Function.update f i t) :=
  h.move ha.mpr (by rw [if_congr ha rfl rfl]) fun ht => h.all (hl ht)

end Barrier

end Smp
