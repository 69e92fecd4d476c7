/-
# `Shv.PagingAgree` — kernel and user mode see the same addresses

The result for the three builds (`page_tables_agree_iff`), and layouts of their
arrays.
-/
import Shv.PagingAmd64
import Shv.PagingI386

namespace Shv

open ByteMem

/-- **Kernel and user page tables translate alike**, in i386 always and in amd64 exactly when
`AMD64_MAX_ADDR` is above 4 GB - 2 MB. -/
theorem page_tables_agree_iff {maxAddr : BitVec 64} (hpos : 0 < maxAddr.toNat)
    (hle : maxAddr.toNat ≤ 2 ^ 48) (L : P4lLayout maxAddr) {m₀ : ByteMem} (h0 : Zeroed L m₀)
    (L' : PaeLayout) {m₁ : ByteMem} (h1 : Zeroed L' m₁) (L'' : P32Layout) {m₂ : ByteMem}
    (h2 : Zeroed L'' m₂) :
    (P4lAgree L m₀ ↔ 2 ^ 32 - 2 ^ 21 < maxAddr.toNat) ∧ PaeAgree L' m₁ ∧ P32Agree L'' m₂ :=
  ⟨amd64_agree_iff hpos hle h0, pae_agree h1, p32_agree h2⟩

/-! ## Layouts -/

theorem zeroed_zero {T : Type} {P : Paging} {entries alignment limit : T → Nat}
    (L : Layout P entries alignment limit) : Zeroed L fun _ => 0 :=
  fun _ _ _ => load_zero fun _ _ => rfl

def lowBase : P4lTable → Nat
  | .shvPml4t => 0x100000
  | .shvPdpt => 0x200000
  | .shvPdt => 0x300000
  | .userPml4t => 0x400000
  | .userPdpt => 0x500000
  | .userPdt => 0x600000
  | .userPt => 0x1000000

/-- How long the arrays get for limits up to 4 GB. -/
def lowEntries : P4lTable → Nat
  | .shvPml4t | .userPml4t | .shvPdpt | .userPdpt => 512
  | .shvPdt | .userPdt => 2048
  | .userPt => 1048576

theorem p4lEntries_le {maxAddr : BitVec 64} (h : maxAddr.toNat ≤ 2 ^ 32) (t : P4lTable) :
    p4lEntries maxAddr t ≤ lowEntries t := by
  have h48 : maxAddr.toNat ≤ 2 ^ 48 := Nat.le_trans h (by decide)
  cases t <;>
    simp only [p4lEntries, lowEntries, p4lNplm4t, p4lNpdpt, p4lNpdt, p4lNpt,
      paPages_eq h48 (by decide : 42 ≤ 42), paPages_eq h48 (by decide : 39 ≤ 42),
      paPages_eq h48 (by decide : 30 ≤ 42), paPages_eq h48 (by decide : 21 ≤ 42)] <;>
    omega

theorem low_apart {t u : P4lTable} (h : t ≠ u) :
    Apart (lowBase t) (8 * lowEntries t) (lowBase u) (8 * lowEntries u) := by
  cases t <;> cases u <;>
    first | exact absurd rfl h | exact Or.inl (by decide) | exact Or.inr (by decide)

/-- A layout of the amd64 arrays, for limits up to 4 GB. -/
def lowLayout (maxAddr : BitVec 64) (h : maxAddr.toNat ≤ 2 ^ 32) : P4lLayout maxAddr where
  base := lowBase
  aligned t := by cases t <;> decide
  apart {t u} hne := (low_apart hne).mono (Nat.le_refl _)
    (Nat.add_le_add_left (Nat.mul_le_mul_left _ (p4lEntries_le h t)) _) (Nat.le_refl _)
    (Nat.add_le_add_left (Nat.mul_le_mul_left _ (p4lEntries_le h u)) _)
  below t := by
    refine Nat.le_trans (Nat.add_le_add_left (Nat.mul_le_mul_left _ (p4lEntries_le h t)) _) ?_
    cases t <;> decide

def paeLayout : PaeLayout where
  base
    | .shvPdpt => 0x100000
    | .shvPdt => 0x200000
    | .userPdpt => 0x300000
    | .userPdt => 0x400000
    | .userPt => 0x1000000
  aligned t := by cases t <;> decide
  apart {t u} hne := by
    cases t <;> cases u <;>
      first | exact absurd rfl hne | exact Or.inl (by decide) | exact Or.inr (by decide)
  below t := by cases t <;> decide

def p32Layout : P32Layout where
  base
    | .shvPdt => 0x100000
    | .userPdt => 0x200000
    | .userPt => 0x1000000
  aligned t := by cases t <;> decide
  apart {t u} hne := by
    cases t <;> cases u <;>
      first | exact absurd rfl hne | exact Or.inl (by decide) | exact Or.inr (by decide)
  below t := by cases t <;> decide

/-- The default limit, 4 GB. -/
theorem page_tables_agree_iff_default :
    P4lAgree (lowLayout 0x100000000 (by decide)) (fun _ => 0) ∧
      PaeAgree paeLayout (fun _ => 0) ∧ P32Agree p32Layout fun _ => 0 := by
  have h := page_tables_agree_iff (by decide) (by decide)
    (lowLayout 0x100000000 (by decide)) (zeroed_zero _) paeLayout (zeroed_zero _)
    p32Layout (zeroed_zero _)
  exact ⟨h.1.mpr (by decide), h.2⟩

/-- With a limit of 2 GB `boot.S` writes outside `shv_pdt`. -/
theorem page_tables_outside_two_gigabytes :
    ¬ P4lAgree (lowLayout 0x80000000 (by decide)) fun _ => 0 := by
  refine not_agree_of_npdt ?_
  rw [p4lNpdt, paPages_eq (by decide) (by decide)]
  decide

end Shv
