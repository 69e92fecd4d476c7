/-
# `Shv.Lib.Assign` — a sequence of assignments

Variables of type `K` are assigned one after another; what is assigned is computed from a source of
type `T` and may fail.  A run that succeeds leaves in each variable the value of its last assignment
(`run_ok`), so two ways to compute the values give the same result exactly when they agree on the
last assignments and neither fails, or both fail (`run_eq_iff`).
-/
import Mathlib.Logic.Function.Basic
import Mathlib.Data.List.Induction

namespace Shv

namespace Assign

variable {K T V ε : Type} [DecidableEq K]

/-- Assign the values of a list of sources to their variables. -/
def run (f : T → Except ε V) (o : K → V) (E : List (K × T)) : Except ε (K → V) :=
  E.foldlM (fun o a => (f a.2).map (Function.update o a.1)) o

/-- The source of the last assignment to a variable. -/
def last (k : K) (E : List (K × T)) : Option T :=
  ((E.filter (·.1 = k)).getLast?).map Prod.snd

variable {f g : T → Except ε V} {o : K → V} {E : List (K × T)}

theorem last_append (k : K) (E : List (K × T)) (a : K × T) :
    last k (E ++ [a]) = if a.1 = k then some a.2 else last k E := by
  unfold last
  by_cases h : a.1 = k <;> simp [List.filter_append, h]

theorem run_append (f : T → Except ε V) (o : K → V) (E E' : List (K × T)) :
    run f o (E ++ E') = run f o E >>= fun o' => run f o' E' :=
  List.foldlM_append

theorem run_singleton (f : T → Except ε V) (o : K → V) (a : K × T) :
    run f o [a] = (f a.2).map (Function.update o a.1) := by
  rw [run, List.foldlM_cons]
  simp only [List.foldlM_nil, bind_pure]

/-- Without a failure each variable holds the value last assigned to it. -/
theorem run_ok (h : ∀ a ∈ E, ∃ v, f a.2 = .ok v) :
    ∃ o', run f o E = .ok o' ∧ ∀ k, match last k E with
      | none => o' k = o k
      | some t => f t = .ok (o' k) := by
  induction E using List.reverseRecOn with
  | nil => exact ⟨o, rfl, fun _ => rfl⟩
  | append_singleton E a ih =>
      obtain ⟨o', hrun, hlast⟩ := ih fun b hb => h b (List.mem_append_left _ hb)
      obtain ⟨v, hv⟩ := h a (List.mem_append_right _ List.mem_cons_self)
      refine ⟨Function.update o' a.1 v, ?_, fun k => ?_⟩
      · rw [run_append, hrun]
        refine (run_singleton f o' a).trans ?_
        rw [hv]
        rfl
      · rw [last_append]
        by_cases hk : a.1 = k
        · subst hk
          simp [hv]
        · rw [if_neg hk, Function.update_of_ne (Ne.symm hk)]
          exact hlast k

theorem run_error {e : ε} (hone : ∀ t e', f t = .error e' → e' = e)
    (h : ∃ a ∈ E, f a.2 = .error e) : run f o E = .error e := by
  induction E generalizing o with
  | nil =>
      obtain ⟨a, ha, -⟩ := h
      cases ha
  | cons b E ih =>
      rw [run, List.foldlM_cons]
      cases hb : f b.2 with
      | error e' =>
          rw [hone _ _ hb]
          rfl
      | ok v =>
          obtain ⟨a, ha, hfa⟩ := h
          rcases List.mem_cons.mp ha with rfl | ha
          · rw [hb] at hfa
            cases hfa
          · exact ih ⟨a, ha, hfa⟩

/-- **When two ways to compute the values make no difference.**  `g` fails only where `f` does. -/
theorem run_eq_iff {e : ε} (hf : ∀ t e', f t = .error e' → e' = e)
    (hg : ∀ t e', g t = .error e' → e' = e) (hfg : ∀ t, g t = .error e → f t = .error e) :
    run f o E = run g o E ↔ (∃ a ∈ E, g a.2 = .error e) ∨
      ((∀ a ∈ E, f a.2 ≠ .error e) ∧ ∀ k t, last k E = some t → f t = g t) := by
  have hok : ∀ {f : T → Except ε V}, (∀ t e', f t = .error e' → e' = e) →
      (∀ a ∈ E, f a.2 ≠ .error e) → ∀ a ∈ E, ∃ v, f a.2 = .ok v := by
    intro f hone hne a ha
    cases hfa : f a.2 with
    | ok v => exact ⟨v, rfl⟩
    | error e' => exact absurd (by rw [hfa, hone _ _ hfa]) (hne a ha)
  by_cases hgerr : ∃ a ∈ E, g a.2 = .error e
  · refine iff_of_true ?_ (Or.inl hgerr)
    obtain ⟨a, ha, hga⟩ := hgerr
    rw [run_error hf ⟨a, ha, hfg _ hga⟩, run_error hg ⟨a, ha, hga⟩]
  · have hgok : ∀ a ∈ E, g a.2 ≠ .error e := fun a ha h => hgerr ⟨a, ha, h⟩
    obtain ⟨o₂, hrun₂, hlast₂⟩ := run_ok (o := o) (hok hg hgok)
    rw [or_iff_right hgerr, hrun₂]
    constructor
    · intro heq
      have hfok : ∀ a ∈ E, f a.2 ≠ .error e := by
        intro a ha hfa
        rw [run_error hf ⟨a, ha, hfa⟩] at heq
        cases heq
      obtain ⟨o₁, hrun₁, hlast₁⟩ := run_ok (o := o) (hok hf hfok)
      rw [hrun₁, Except.ok.injEq] at heq
      subst heq
      refine ⟨hfok, fun k t hk => ?_⟩
      have h₁ := hlast₁ k
      have h₂ := hlast₂ k
      rw [hk] at h₁ h₂
      exact h₁.trans h₂.symm
    · rintro ⟨hfok, hlast⟩
      obtain ⟨o₁, hrun₁, hlast₁⟩ := run_ok (o := o) (hok hf hfok)
      rw [hrun₁, Except.ok.injEq]
      funext k
      have h₁ := hlast₁ k
      have h₂ := hlast₂ k
      cases hk : last k E with
      | none =>
          rw [hk] at h₁ h₂
          exact h₁.trans h₂.symm
      | some t =>
          simp only [hk] at h₁ h₂
          rw [hlast k t hk] at h₁
          exact Except.ok.inj (h₁.symm.trans h₂)

end Assign

end Shv
