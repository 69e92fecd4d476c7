/-
# `Leads` — total correctness of scripts that may fail

A script is a computation with a state that may fail.  `Leads c s Q` says that `c`,
run from `s`, does not fail and ends with `Q`.  The rules follow the script: `step`
passes a command whose run is known, `last` ends a script, and `forM` is the
invariant rule for a loop over a list.
-/
import Mathlib.Logic.Basic

/-- From the state `s`, the script ends in a value and a state with `Q`. -/
def Leads {S α : Type} (c : StateT S Option α) (s : S) (Q : α → S → Prop) : Prop :=
  ∃ a s', c s = some (a, s') ∧ Q a s'

namespace Leads

variable {S α β : Type} {c : StateT S Option α} {f : α → StateT S Option β} {s s' : S} {a : α}
  {P : α → S → Prop} {Q : β → S → Prop}

theorem run_bind (h : c s = some (a, s')) : (c >>= f) s = f a s' := by
  show (c s).bind _ = _
  rw [h]
  rfl

theorem step (h : c s = some (a, s')) (h' : Leads (f a) s' Q) : Leads (c >>= f) s Q := by
  obtain ⟨b, t, hrun, hq⟩ := h'
  exact ⟨b, t, (run_bind h).trans hrun, hq⟩

theorem last (h : c s = some (a, s')) (hp : P a s') : Leads c s P := ⟨a, s', h, hp⟩

theorem seq (h : Leads c s fun a s' => Leads (f a) s' Q) : Leads (c >>= f) s Q := by
  obtain ⟨a, s', hrun, h'⟩ := h
  exact step hrun h'

theorem mono {P' : α → S → Prop} (h : Leads c s P) (hp : ∀ a s', P a s' → P' a s') :
    Leads c s P' := by
  obtain ⟨a, s', hrun, h'⟩ := h
  exact ⟨a, s', hrun, hp a s' h'⟩

theorem forM {ι : Type} {I : S → Prop} {body : ι → StateT S Option Unit} {l : List ι}
    (hbody : ∀ i ∈ l, ∀ s, I s → Leads (body i) s fun _ => I) (hs : I s) :
    Leads (l.forM body) s fun _ => I := by
  induction l generalizing s with
  | nil => exact last rfl hs
  | cons i l ih =>
      refine seq ((hbody i (List.mem_cons_self ..) s hs).mono fun _ s' hs' => ?_)
      exact ih (fun j hj => hbody j (List.mem_cons_of_mem _ hj)) hs'

end Leads
