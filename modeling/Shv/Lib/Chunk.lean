/-
# `Chunk` — bulk transfers in chunks

A bulk operation that works chunk by chunk is correct when it cannot be told
from one that works byte by byte.  The byte-by-byte transfer is `pokes`: byte `i`
goes to address `d i`, in order, so that later bytes win where destinations
coincide.  A `memcpy` or `memset` of one chunk advances it by the length of the
chunk (`copy_pokes`, `fill_pokes`).

`Transfers` is the specification of a transfer that stops at the first byte it
may not touch, and `transfers_of_chunks` is the rule for loops: an iteration that
either stops at a byte that fails, or moves on by a chunk of bytes that are all
good, makes the loop meet it.
-/
import Shv.Lib.ByteMem

namespace ByteMem

variable {m : ByteMem} {d : Nat → Nat} {v : Nat → BitVec 8}

/-- The first `n` bytes of a transfer, done one after another: byte `i` is `v i` and goes to
address `d i`. -/
def pokes (m : ByteMem) (d : Nat → Nat) (v : Nat → BitVec 8) : Nat → ByteMem
  | 0 => m
  | n + 1 => fun x => if x = d n then v n else pokes m d v n x

theorem pokes_of_ne {x : Nat} : ∀ {n : Nat}, (∀ i, i < n → x ≠ d i) → pokes m d v n x = m x
  | 0, _ => rfl
  | n + 1, h => by
      show (if x = d n then v n else pokes m d v n x) = m x
      rw [if_neg (h n (Nat.lt_succ_self n)), pokes_of_ne fun i hi => h i (Nat.lt_succ_of_lt hi)]

theorem pokes_add {n D : Nat} : ∀ {c : Nat}, (∀ j, j < c → d (n + j) = D + j) → ∀ x,
    pokes m d v (n + c) x =
      if D ≤ x ∧ x < D + c then v (n + (x - D)) else pokes m d v n x
  | 0, _, x => by
      rw [if_neg (by omega)]
      rfl
  | c + 1, h, x => by
      show (if x = d (n + c) then v (n + c) else pokes m d v (n + c) x) = _
      rw [h c (Nat.lt_succ_self c), pokes_add (fun j hj => h j (Nat.lt_succ_of_lt hj)) x]
      by_cases hx : x = D + c
      · subst hx
        rw [if_pos rfl, if_pos (by omega), Nat.add_sub_cancel_left]
      · rw [if_neg hx]
        by_cases hin : D ≤ x ∧ x < D + c
        · rw [if_pos hin, if_pos (by omega)]
        · rw [if_neg hin, if_neg (by omega)]

theorem copy_pokes {n c D S : Nat} (hd : ∀ j, j < c → d (n + j) = D + j)
    (hv : ∀ j, j < c → v (n + j) = pokes m d v n (S + j)) :
    copy (pokes m d v n) D S c = pokes m d v (n + c) := by
  funext x
  rw [pokes_add hd x]
  by_cases hin : D ≤ x ∧ x < D + c
  · rw [copy_of_mem hin, if_pos hin, hv (x - D) (by omega)]
  · rw [copy_of_notMem hin, if_neg hin]

theorem fill_pokes {n c D : Nat} {b : BitVec 8} (hd : ∀ j, j < c → d (n + j) = D + j) :
    fill (pokes m d (fun _ => b) n) D c b = pokes m d (fun _ => b) (n + c) := by
  funext x
  rw [pokes_add hd x]
  by_cases hin : D ≤ x ∧ x < D + c
  · rw [fill_of_mem hin, if_pos hin]
  · rw [fill_of_notMem hin, if_neg hin]

/-- A transfer of `len` units that ends with code 0 when all are good, and else with code 1 just
before the first bad one; `done n` is the state after `n` units. -/
def Transfers {S : Type} (good : Nat → Prop) (done : Nat → S) (len : Nat)
    (r : Option (Nat × S)) : Prop :=
  ((∀ i, i < len → good i) ∧ r = some (0, done len)) ∨
    ∃ k, k < len ∧ (∀ i, i < k → good i) ∧ ¬ good k ∧ r = some (1, done k)

/-- The rule for chunked loops; the fuel bounds the number of iterations. -/
theorem transfers_of_chunks {S : Type} {good : Nat → Prop} {done : Nat → S} {len : Nat}
    (loop : Nat → S → Nat → Option (Nat × S))
    (hend : ∀ fuel, loop (fuel + 1) (done len) len = some (0, done len))
    (hbad : ∀ fuel n, n < len → (∀ i, i < n → good i) → ¬ good n →
      loop (fuel + 1) (done n) n = some (1, done n))
    (hgood : ∀ fuel n, n < len → (∀ i, i < n → good i) → good n →
      ∃ c, 1 ≤ c ∧ n + c ≤ len ∧ (∀ j, j < c → good (n + j)) ∧
        loop (fuel + 1) (done n) n = loop fuel (done (n + c)) (n + c)) :
    ∀ fuel n, n ≤ len → len - n < fuel → (∀ i, i < n → good i) →
      Transfers good done len (loop fuel (done n) n) := by
  intro fuel
  induction fuel with
  | zero => intro n _ hf _; omega
  | succ fuel ih =>
      intro n hn hf hg
      rcases Nat.eq_or_lt_of_le hn with rfl | hlt
      · exact Or.inl ⟨hg, hend fuel⟩
      · by_cases hgn : good n
        · obtain ⟨c, hc, hle, hgc, hstep⟩ := hgood fuel n hlt hg hgn
          rw [hstep]
          refine ih (n + c) hle (by omega) fun i hi => ?_
          by_cases hin : i < n
          · exact hg i hin
          · have := hgc (i - n) (by omega)
            rwa [show n + (i - n) = i by omega] at this
        · exact Or.inr ⟨n, hlt, hg, hgn, hbad fuel n hlt hg hgn⟩

end ByteMem
