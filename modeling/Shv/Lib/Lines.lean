/-
# `Shv.Lib.Lines` — a text broken into lines

A text is broken at every newline and after every line of `w` characters.  The last line is the one
being written; it may be empty, and the others may not change any more.  `breakLines` says it of a
whole text, `feed` of one more character, and `breakLines_eq_foldl` that these are the same.

`rtake_concat` is the step of a window onto the last `n` lines.
-/
import Mathlib.Data.List.DropRight

namespace Shv

namespace Lines

variable {α : Type} [DecidableEq α] (nl : α) (w : Nat)

/-- The lines of a text whose first line begins with `cur`. -/
def breakFrom (cur : List α) : List α → List (List α)
  | [] => [cur]
  | c :: cs =>
      if c = nl then cur :: breakFrom [] cs
      else if cur.length + 1 = w then (cur ++ [c]) :: breakFrom [] cs
      else breakFrom (cur ++ [c]) cs

def breakLines (t : List α) : List (List α) := breakFrom nl w [] t

/-- One more character: the lines that are done, and the one being written. -/
def feed (page : List (List α) × List α) (c : α) : List (List α) × List α :=
  if c = nl then (page.1 ++ [page.2], [])
  else if page.2.length + 1 = w then (page.1 ++ [page.2 ++ [c]], [])
  else (page.1, page.2 ++ [c])

theorem breakFrom_eq_foldl (t : List α) : ∀ (done : List (List α)) (cur : List α),
    done ++ breakFrom nl w cur t =
      (t.foldl (feed nl w) (done, cur)).1 ++ [(t.foldl (feed nl w) (done, cur)).2] := by
  induction t with
  | nil =>
      intro done cur
      rfl
  | cons c cs ih =>
      intro done cur
      rw [breakFrom, List.foldl_cons, feed]
      split
      · rw [List.append_cons, ih]
      · split
        · rw [List.append_cons, ih]
        · rw [ih]

/-- The lines of a text are what its characters leave when fed one by one. -/
theorem breakLines_eq_foldl (t : List α) :
    breakLines nl w t =
      (t.foldl (feed nl w) ([], [])).1 ++ [(t.foldl (feed nl w) ([], [])).2] :=
  breakFrom_eq_foldl nl w t [] []

-- A full line followed by a newline leaves an empty line.
example : breakLines 0 2 [1, 2, 0, 3] = [[1, 2], [], [3]] := by decide

variable {β : Type}

theorem rtake_concat {n : Nat} (hn : 0 < n) (l : List β) (a : β) :
    (l ++ [a]).rtake n =
      (if (l.rtake n).length < n then l.rtake n else (l.rtake n).tail) ++ [a] := by
  have hlen : (l.rtake n).length = min n l.length := by
    rw [List.rtake, List.length_drop]
    omega
  rw [hlen, List.rtake, List.rtake, List.length_append, List.length_singleton]
  by_cases hlt : l.length < n
  · rw [if_pos (by omega), show l.length + 1 - n = 0 by omega, show l.length - n = 0 by omega,
      List.drop_zero, List.drop_zero]
  · rw [if_neg (by omega), List.tail_drop, List.drop_append_of_le_length (by omega)]
    congr 2
    omega

end Lines

end Shv
