/-
# `Trace` — runs of a labelled transition relation

A run is a list of labelled steps from one state to another.  The rules about runs
are `Trace.invariant`: what holds at the start and survives every step holds at the
end; `Trace.history`: so does what speaks of the steps made; and `Trace.simulate`: a
machine whose steps are runs of another one has no runs the other one does not have.
-/

/-- The steps `ls` lead from the first state to the second. -/
inductive Trace {S L : Type} (step : S → L → S → Prop) : S → List L → S → Prop
  | nil {s : S} : Trace step s [] s
  | snoc {s t u : S} {ls : List L} {l : L} :
      Trace step s ls t → step t l u → Trace step s (ls ++ [l]) u

namespace Trace

variable {S L : Type} {step : S → L → S → Prop} {s t u : S} {ls : List L} {l : L}

/-- The invariant rule. -/
theorem invariant {I : S → Prop} (hstep : ∀ {t l u}, I t → step t l u → I u)
    (h : Trace step s ls t) (hs : I s) : I t := by
  induction h with
  | nil => exact hs
  | snoc _ h ih => exact hstep ih h

/-- The invariant rule for what also depends on the steps made so far. -/
theorem history {P : List L → S → Prop}
    (hstep : ∀ {ls t l u}, P ls t → step t l u → P (ls ++ [l]) u)
    (h : Trace step s ls t) (hs : P [] s) : P ls t := by
  induction h with
  | nil => exact hs
  | snoc _ h ih => exact hstep ih h

theorem cons (h : step s l t) (ht : Trace step t ls u) : Trace step s (l :: ls) u := by
  induction ht with
  | nil => exact snoc nil h
  | snoc _ hl ih => exact snoc ih hl

theorem append {ls' : List L} (h : Trace step s ls t) (h' : Trace step t ls' u) :
    Trace step s (ls ++ ls') u := by
  induction h' with
  | nil => rwa [List.append_nil]
  | snoc _ hl ih =>
      rw [← List.append_assoc]
      exact snoc ih hl

/-- The simulation rule: where every step of one machine is a run of another, every run is. -/
theorem simulate {S' L' : Type} {step' : S' → L' → S' → Prop} {f : S → S'}
    (hstep : ∀ {t l u}, step t l u → ∃ ls', Trace step' (f t) ls' (f u))
    (h : Trace step s ls t) : ∃ ls', Trace step' (f s) ls' (f t) := by
  induction h with
  | nil => exact ⟨[], nil⟩
  | snoc _ hl ih =>
      obtain ⟨ls₁, h₁⟩ := ih
      obtain ⟨ls₂, h₂⟩ := hstep hl
      exact ⟨ls₁ ++ ls₂, h₁.append h₂⟩

end Trace
