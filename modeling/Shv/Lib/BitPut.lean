/-
# `Shv.Lib.BitPut` — writing some bits of a word

`Puts F v e e'` says that `e'` is `e` with the bits in `F` set as `v` has them.  Writes compose
(`Puts.trans`), those to different bits commute (`Puts.comm`), and what a reader sees of a word
depends on the bits it looks at only (`Puts.of_ne`, `Puts.of_mem`).
-/
import Mathlib.Data.BitVec

namespace Shv

variable {n : Nat}

/-- `e'` is `e` with the bits in `F` set as in `v`. -/
def Puts (F v : Nat → Bool) (e e' : BitVec n) : Prop :=
  ∀ i, i < n → e'.getLsbD i = if F i then v i else e.getLsbD i

namespace Puts

variable {F G v w : Nat → Bool} {e e₁ e₂ e₁₂ e₂₁ : BitVec n}

theorem refl (v : Nat → Bool) (e : BitVec n) : Puts (fun _ => false) v e e := by
  intro i _
  exact (if_neg (by simp)).symm

theorem of_ne (h : Puts F v e e₁) {i : Nat} (hF : F i = false) : e₁.getLsbD i = e.getLsbD i := by
  by_cases hi : i < n
  · rw [h i hi, hF]
    rfl
  · have hge := Nat.le_of_not_lt hi
    rw [BitVec.getLsbD_of_ge _ _ hge, BitVec.getLsbD_of_ge _ _ hge]

theorem of_mem (h : Puts F v e e₁) {i : Nat} (hi : i < n) (hF : F i = true) :
    e₁.getLsbD i = v i := by
  rw [h i hi, hF]
  rfl

theorem trans (h₁ : Puts F v e e₁) (h₂ : Puts G w e₁ e₂) :
    Puts (fun i => F i || G i) (fun i => if G i then w i else v i) e e₂ := by
  intro i hi
  rw [h₂ i hi, h₁ i hi]
  cases hF : F i <;> cases hG : G i <;> simp [hF, hG]

theorem congr (h : Puts F v e e₁) (hF : ∀ i, i < n → G i = F i)
    (hv : ∀ i, i < n → F i = true → w i = v i) : Puts G w e e₁ := by
  intro i hi
  rw [h i hi, hF i hi]
  cases hFi : F i with
  | false => rfl
  | true => rw [hv i hi hFi]

theorem unique (h₁ : Puts F v e e₁) (h₂ : Puts F v e e₂) : e₁ = e₂ := by
  apply BitVec.eq_of_getLsbD_eq
  intro i hi
  rw [h₁ i hi, h₂ i hi]

theorem comm (hdisj : ∀ i, i < n → F i = true → G i = false) (h₁ : Puts F v e e₁)
    (h₁₂ : Puts G w e₁ e₁₂) (h₂ : Puts G w e e₂) (h₂₁ : Puts F v e₂ e₂₁) : e₁₂ = e₂₁ := by
  refine (h₁.trans h₁₂).unique ((h₂.trans h₂₁).congr ?_ ?_)
  · intro i _
    exact Bool.or_comm ..
  · intro i hi hFG
    cases hF : F i with
    | false => simp_all
    | true => simp [hdisj i hi hF]

end Puts

end Shv
