/-
# `Reader` — programs that read a text one character at a time

A reader has a state and a step for each character, which may fail.  `run_append` says
how a text is read in two parts; `run_map` is the simulation rule for two readers of
which one sees a function of the other's state; `run_abstract` relates a reader that
gets to the end to an automaton that says where it is; `run_error` says what errors there are.
-/
import Mathlib.Data.List.Basic

namespace Reader

variable {S S' C E A : Type} {step : S → C → Except E S} {step' : S' → C → Except E S'}

/-- The state after a text. -/
def run (step : S → C → Except E S) (s : S) (t : List C) : Except E S := t.foldlM step s

@[simp] theorem run_nil (step : S → C → Except E S) (s : S) : run step s [] = .ok s := rfl

@[simp] theorem run_cons (step : S → C → Except E S) (s : S) (c : C) (t : List C) :
    run step s (c :: t) = (step s c).bind fun s => run step s t := rfl

theorem run_append (step : S → C → Except E S) (s : S) (t u : List C) :
    run step s (t ++ u) = (run step s t).bind fun s => run step s u :=
  List.foldlM_append

theorem map_eq_ok {B : Type} {f : A → B} {x : Except E A} {b : B} :
    x.map f = .ok b ↔ ∃ a, x = .ok a ∧ f a = b := by
  cases x <;> simp [Except.map]

theorem map_eq_error {B : Type} {f : A → B} {x : Except E A} {e : E} :
    x.map f = .error e ↔ x = .error e := by
  cases x <;> simp [Except.map]

theorem bind_eq_ok {B : Type} {f : A → Except E B} {x : Except E A} {b : B} :
    x.bind f = .ok b ↔ ∃ a, x = .ok a ∧ f a = .ok b := by
  cases x <;> simp [Except.bind]

theorem run_error {P : E → Prop} (hstep : ∀ {s c e}, step s c = .error e → P e) {s : S} {e : E}
    {t : List C} (h : run step s t = .error e) : P e := by
  induction t generalizing s with
  | nil => cases h
  | cons c t ih =>
      rw [run_cons] at h
      cases hc : step s c with
      | error e' =>
          rw [hc] at h
          cases h
          exact hstep hc
      | ok u =>
          rw [hc] at h
          exact ih h

/-- The simulation rule. -/
theorem run_map (f : S → S') (hstep : ∀ s c, step' (f s) c = (step s c).map f) (s : S)
    (t : List C) : run step' (f s) t = (run step s t).map f := by
  induction t generalizing s with
  | nil => rfl
  | cons c t ih =>
      rw [run_cons, run_cons, hstep]
      cases step s c with
      | error e => rfl
      | ok s => exact ih s

theorem run_abstract (R : A → S → Prop) (next : A → C → A)
    (hstep : ∀ {a s c s'}, R a s → step s c = .ok s' → R (next a c) s') {a : A} {s s' : S}
    {t : List C} (hs : R a s) (h : run step s t = .ok s') : R (t.foldl next a) s' := by
  induction t generalizing a s with
  | nil =>
      cases h
      exact hs
  | cons c t ih =>
      rw [run_cons] at h
      cases hc : step s c with
      | error e =>
          rw [hc] at h
          cases h
      | ok u =>
          rw [hc] at h
          exact ih (hstep hs hc) h

theorem run_invariant {P : S → Prop} (hstep : ∀ {s c s'}, P s → step s c = .ok s' → P s') {s s' : S}
    {t : List C} (hs : P s) (h : run step s t = .ok s') : P s' :=
  @run_abstract S C E Unit step (fun _ s => P s) (fun _ _ => ()) (fun hs hc => hstep hs hc) ()
    s s' t hs h

end Reader
