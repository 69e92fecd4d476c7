/-
# `Shv.Lib.Loop` — a loop that need not end

One pass through the body of a loop goes round again or leaves.  `Leaves` is a run that ends,
`run` counts its passes, and a loop that leaves has one result (`Leaves.unique`).

A loop that could go on for ever is judged by the states it reaches.  If these are finitely many,
told apart by a key, the loop ends exactly if no state it reaches comes back to itself
(`leaves_iff_no_return`).
-/
import Mathlib.Logic.Relation
import Mathlib.Data.Fintype.Pigeonhole

namespace Shv

/-- What a pass through the body of a loop ends with. -/
inductive Pass (σ ρ : Type) where
  | again (s : σ)
  | leave (r : ρ)
  deriving DecidableEq, Repr

namespace Loop

open Relation

variable {σ ρ κ : Type} (body : σ → Pass σ ρ)

/-- From `s` the loop ends with `r`. -/
inductive Leaves : σ → ρ → Prop
  | leave {s : σ} {r : ρ} (h : body s = .leave r) : Leaves s r
  | again {s s' : σ} {r : ρ} (h : body s = .again s') (hl : Leaves s' r) : Leaves s r

/-- One pass that goes round again. -/
def Follows (s s' : σ) : Prop := body s = .again s'

/-- The result after at most `fuel` passes. -/
def run : Nat → σ → Option ρ
  | 0, _ => none
  | fuel + 1, s =>
      match body s with
      | .again s' => run fuel s'
      | .leave r => some r

variable {body} {s t u : σ} {r r' : ρ}

/-! ## Runs that end -/

theorem Leaves.unique (h : Leaves body s r) (h' : Leaves body s r') : r = r' := by
  induction h with
  | leave hb =>
      cases h' with
      | leave hb' => exact Pass.leave.inj (hb.symm.trans hb')
      | again hb' _ => cases hb.symm.trans hb'
  | again hb _ ih =>
      cases h' with
      | leave hb' => cases hb.symm.trans hb'
      | again hb' hl' =>
          obtain rfl := Pass.again.inj (hb.symm.trans hb')
          exact ih hl'

/-- A loop that leaves does so within some number of passes, and no more fuel changes that. -/
theorem Leaves.run (h : Leaves body s r) :
    ∃ fuel, ∀ fuel', fuel ≤ fuel' → Loop.run body fuel' s = some r := by
  induction h with
  | leave hb =>
      refine ⟨1, fun fuel' hle => ?_⟩
      obtain ⟨k, rfl⟩ := Nat.exists_eq_add_of_le' hle
      rw [Loop.run, hb]
  | again hb _ ih =>
      obtain ⟨fuel, hrun⟩ := ih
      refine ⟨fuel + 1, fun fuel' hle => ?_⟩
      obtain ⟨k, rfl⟩ := Nat.exists_eq_add_of_le' hle
      rw [← Nat.add_assoc, Loop.run, hb]
      exact hrun _ (Nat.le_add_left ..)

theorem Leaves.of_follows (h : Leaves body s r) (hf : Follows body s t) : Leaves body t r := by
  cases h with
  | leave hb => cases hb.symm.trans hf
  | again hb hl =>
      obtain rfl := Pass.again.inj (hb.symm.trans hf)
      exact hl

/-! ## Loops that go on for ever -/

theorem Leaves.of_reaches (h : Leaves body s r) (hr : ReflTransGen (Follows body) s t) :
    Leaves body t r := by
  induction hr with
  | refl => exact h
  | tail _ hf ih => exact ih.of_follows hf

theorem Leaves.to_reaches (h : Leaves body t r) (hr : ReflTransGen (Follows body) s t) :
    Leaves body s r := by
  induction hr using ReflTransGen.head_induction_on with
  | refl => exact h
  | head hf _ ih => exact .again hf ih

theorem Leaves.no_return (h : Leaves body s r) : ¬ TransGen (Follows body) s s := by
  induction h with
  | leave hb =>
      intro hret
      obtain ⟨t, hf, -⟩ := TransGen.head'_iff.mp hret
      cases hb.symm.trans hf
  | again hb _ ih =>
      intro hret
      obtain ⟨t, hf, hback⟩ := TransGen.head'_iff.mp hret
      obtain rfl := Pass.again.inj (hb.symm.trans hf)
      exact ih (TransGen.tail' hback hf)

/-- The state after one more pass; a loop that leaves stays where it is. -/
def next (body : σ → Pass σ ρ) (s : σ) : σ :=
  match body s with
  | .again s' => s'
  | .leave _ => s

theorem follows_next (h : ¬ ∃ r, Leaves body s r) : Follows body s (next body s) := by
  unfold Follows next
  cases hb : body s with
  | again s' => rfl
  | leave r => exact absurd ⟨r, .leave hb⟩ h

theorem reaches_iterate (h : ¬ ∃ r, Leaves body s r) (k : Nat) :
    ReflTransGen (Follows body) s ((next body)^[k] s) := by
  induction k with
  | zero => exact .refl
  | succ k ih =>
      rw [Function.iterate_succ_apply']
      exact ih.tail (follows_next fun ⟨r, hr⟩ => h ⟨r, hr.to_reaches ih⟩)

theorem transGen_iterate (h : ¬ ∃ r, Leaves body s r) {i j : Nat} (hij : i < j) :
    TransGen (Follows body) ((next body)^[i] s) ((next body)^[j] s) := by
  have hi := reaches_iterate h i
  have hstay : ¬ ∃ r, Leaves body ((next body)^[i] s) r := fun ⟨r, hr⟩ => h ⟨r, hr.to_reaches hi⟩
  obtain ⟨k, rfl⟩ := Nat.exists_eq_add_of_lt hij
  rw [show i + k + 1 = k + (i + 1) by omega, Function.iterate_add_apply,
    Function.iterate_succ_apply']
  have hnext := follows_next hstay
  exact TransGen.head' hnext (reaches_iterate (fun ⟨r, hr⟩ => hstay ⟨r, .again hnext hr⟩) k)

/-- **A loop ends exactly if no state it reaches comes back to itself**, as long as a state that
comes up later under the same key is the same state, and there are finitely many keys. -/
theorem leaves_iff_no_return [Finite κ] (key : σ → κ)
    (hkey : ∀ t u, ReflTransGen (Follows body) s t → TransGen (Follows body) t u →
      key t = key u → t = u) :
    (∃ r, Leaves body s r) ↔
      ∀ t, ReflTransGen (Follows body) s t → ¬ TransGen (Follows body) t t := by
  constructor
  · rintro ⟨r, h⟩ t ht
    exact (h.of_reaches ht).no_return
  · intro hno
    by_contra hrun
    obtain ⟨i, j, hne, heq⟩ :=
      Finite.exists_ne_map_eq_of_infinite fun k => key ((next body)^[k] s)
    wlog hlt : i < j generalizing i j
    · exact this j i hne.symm heq.symm (by omega)
    have hij := transGen_iterate hrun hlt
    have hi := reaches_iterate hrun i
    have hsame := hkey _ _ hi hij heq
    rw [← hsame] at hij
    exact hno _ hi hij

/-! ## Runs seen through a map -/

/-- If every step from the image of a state is the image of a step, so is every run. -/
theorem exists_reaches {α β : Type} {R : α → α → Prop} {S : β → β → Prop} {f : α → β}
    (hstep : ∀ a b', S (f a) b' → ∃ b, R a b ∧ f b = b') {a : α} {b' : β}
    (h : ReflTransGen S (f a) b') : ∃ b, ReflTransGen R a b ∧ f b = b' := by
  induction h with
  | refl => exact ⟨a, .refl, rfl⟩
  | tail _ hs ih =>
      obtain ⟨b, hr, rfl⟩ := ih
      obtain ⟨c, hbc, hc⟩ := hstep b _ hs
      exact ⟨c, hr.tail hbc, hc⟩

theorem exists_transGen {α β : Type} {R : α → α → Prop} {S : β → β → Prop} {f : α → β}
    (hstep : ∀ a b', S (f a) b' → ∃ b, R a b ∧ f b = b') {a : α} {b' : β}
    (h : TransGen S (f a) b') : ∃ b, TransGen R a b ∧ f b = b' := by
  obtain ⟨c', hs, hr⟩ := TransGen.head'_iff.mp h
  obtain ⟨c, hac, rfl⟩ := hstep a c' hs
  obtain ⟨b, hcb, hb⟩ := exists_reaches hstep hr
  exact ⟨b, TransGen.head' hac hcb, hb⟩

end Loop

end Shv
