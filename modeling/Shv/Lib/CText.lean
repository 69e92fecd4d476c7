/-
# `Shv.Lib.CText` — reading a NUL-terminated text

A text is the list of its characters; the NUL is what follows them.  A pointer into it is an
offset, and reading beyond the NUL is an error of its own, as is a loop that would not end, so that
a result shows that neither happened.

`skipWhile` is the C loop `while (p(*s)) s++;`, and `skipWhile_eq` says where it stops.
-/
import Mathlib.Data.List.Basic

namespace Shv

/-- Why a run does not return. -/
inductive Stop where
  /-- the program halted the CPU -/
  | halt
  /-- a character past the NUL was read -/
  | overread
  /-- a loop did not end within the bound it was given -/
  | fuel
  deriving DecidableEq, Repr

/-- A computation that reads texts. -/
abbrev CRun (α : Type) := Except Stop α

@[simp] theorem CRun.ok_bind {α β : Type} (a : α) (f : α → CRun β) :
    ((Except.ok a : CRun α) >>= f) = f a := rfl

@[simp] theorem CRun.error_bind {α β : Type} (e : Stop) (f : α → CRun β) :
    ((Except.error e : CRun α) >>= f) = Except.error e := rfl

@[simp] theorem CRun.pure_eq {α : Type} (a : α) : (pure a : CRun α) = .ok a := rfl

namespace CText

def read (t : List Nat) (i : Nat) : CRun Nat :=
  if i ≤ t.length then .ok (t.getD i 0) else .error .overread

/-- `while (p(*s)) s++;` from offset `i`. -/
def skipWhile (p : Nat → Bool) (t : List Nat) : Nat → Nat → CRun Nat
  | 0, _ => .error .fuel
  | fuel + 1, i => do
      let c ← read t i
      if p c then skipWhile p t fuel (i + 1) else return i

variable {t : List Nat} {i fuel : Nat} {p : Nat → Bool}

theorem read_eq (h : i ≤ t.length) : read t i = .ok ((t.drop i).headD 0) := by
  rw [read, if_pos h, List.headD_eq_head?_getD, List.head?_drop, List.getD_eq_getElem?_getD]

theorem read_cons {c : Nat} {cs : List Nat} (h : t.drop i = c :: cs) :
    read t i = .ok c ∧ t.drop (i + 1) = cs ∧ i + 1 ≤ t.length := by
  have hlt : i < t.length := by
    by_contra hge
    rw [List.drop_eq_nil_of_le (Nat.le_of_not_lt hge)] at h
    cases h
  refine ⟨?_, ?_, hlt⟩
  · rw [read_eq (Nat.le_of_lt hlt), h]
    rfl
  · rw [← List.drop_drop, h]
    rfl

theorem read_nil (h : t.drop i = []) (hi : i ≤ t.length) : read t i = .ok 0 := by
  rw [read_eq hi, h]
  rfl

/-- The loop stops after the characters that satisfy `p`, at the NUL at the latest. -/
theorem skipWhile_eq (hp : p 0 = false) (hi : i ≤ t.length) (hf : t.length - i < fuel) :
    skipWhile p t fuel i = .ok (i + ((t.drop i).takeWhile p).length) := by
  induction fuel generalizing i with
  | zero => omega
  | succ fuel ih =>
      rw [skipWhile]
      cases h : t.drop i with
      | nil =>
          rw [read_nil h hi]
          simp [hp]
      | cons c cs =>
          obtain ⟨hread, hdrop, hlt⟩ := read_cons h
          rw [hread, CRun.ok_bind]
          cases hc : p c with
          | false => simp [hc]
          | true =>
              have hrec := ih hlt (by omega)
              rw [hdrop] at hrec
              rw [if_pos rfl, hrec, List.takeWhile_cons_of_pos hc, List.length_cons]
              congr 1
              omega

theorem drop_skip (p : Nat → Bool) (t : List Nat) (i : Nat) :
    t.drop (i + ((t.drop i).takeWhile p).length) = (t.drop i).dropWhile p := by
  rw [← List.drop_drop]
  generalize t.drop i = w
  calc w.drop (w.takeWhile p).length
      = (w.takeWhile p ++ w.dropWhile p).drop (w.takeWhile p).length := by
        rw [List.takeWhile_append_dropWhile]
    _ = w.dropWhile p := List.drop_left ..

theorem skip_le (p : Nat → Bool) (hi : i ≤ t.length) :
    i + ((t.drop i).takeWhile p).length ≤ t.length := by
  have h := (List.takeWhile_sublist p (l := t.drop i)).length_le
  rw [List.length_drop] at h
  omega

end CText

end Shv
