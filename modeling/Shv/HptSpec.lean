/-
# `Shv.HptSpec` — what a page-table entry means

The getters of `Shv.Hpt` assert that type and level fit; the walker only ever
applies them at a level the type has (`LvlOk`), where no assertion fires.  Here
each getter is given the value it then returns, as a plain function of the
entry's bits, together with the few facts about those values the walk proofs
use:

* an entry whose word is zero is not present, and above level 1 not a page;
* a level-1 entry is always a page;
* the entry `hptw_get_pmo_alloc` writes for a fresh table is present, not a
  page, readable, writable, executable, user, and points at the table
  (`link_entry`).

Nothing below this module's statements depends on the four formats.
-/
import Shv.Hpt
import Mathlib.Tactic.IntervalCases

namespace Shv

/-- A level that page maps of type `t` have. -/
def LvlOk (t : HptType) (lvl : Nat) : Prop := 1 ≤ lvl ∧ lvl ≤ hptTypeMaxLvl t

instance (t : HptType) (lvl : Nat) : Decidable (LvlOk t lvl) := inferInstanceAs (Decidable (_ ∧ _))

theorem LvlOk.elim {P : HptType → Nat → Prop} {t : HptType} {lvl : Nat} (h : LvlOk t lvl)
    (n₁ : P .norm 1) (n₂ : P .norm 2) (p₁ : P .pae 1) (p₂ : P .pae 2) (p₃ : P .pae 3)
    (l₁ : P .long 1) (l₂ : P .long 2) (l₃ : P .long 3) (l₄ : P .long 4)
    (e₁ : P .ept 1) (e₂ : P .ept 2) (e₃ : P .ept 3) (e₄ : P .ept 4) : P t lvl := by
  obtain ⟨h₁, h₂⟩ := h
  cases t <;> simp only [hptTypeMaxLvl] at h₂ <;> interval_cases lvl <;> assumption

theorem LvlOk.type_ne {t : HptType} {lvl : Nat} (h : LvlOk t lvl) : t ≠ .invalid := by
  rintro rfl
  have h₂ : lvl ≤ 0 := h.2
  have h₁ := h.1
  omega

theorem LvlOk.le_four {t : HptType} {lvl : Nat} (h : LvlOk t lvl) : lvl ≤ 4 := by
  apply h.elim (P := fun _ lvl => lvl ≤ 4) <;> decide

theorem LvlOk.pred {t : HptType} {lvl : Nat} (h : LvlOk t (lvl + 1)) (h₀ : 1 ≤ lvl) :
    LvlOk t lvl := ⟨h₀, by have := h.2; omega⟩

/-! ## Protections -/

def pmeR (_t : HptType) (_lvl : Nat) (e : BitVec 64) : Bool := e.getLsbD 0

/-- The write permission; a PAE level-3 entry grants what it reads. -/
def pmeW (t : HptType) (lvl : Nat) (e : BitVec 64) : Bool :=
  if t = .pae ∧ lvl = 3 then e.getLsbD 0 else e.getLsbD 1

/-- The execute permission: implied, an inverted NX bit, or a bit of its own. -/
def pmeX (t : HptType) (lvl : Nat) (e : BitVec 64) : Bool :=
  match t with
  | .norm => e.getLsbD 0
  | .pae => if lvl = 3 then e.getLsbD 0 else !e.getLsbD 63
  | .long => !e.getLsbD 63
  | .ept => e.getLsbD 2
  | .invalid => false

def pmeProt (t : HptType) (lvl : Nat) (e : BitVec 64) : BitVec 64 :=
  hptProtOf (pmeR t lvl e) (pmeW t lvl e) (pmeX t lvl e)

def pmeUser (t : HptType) (lvl : Nat) (e : BitVec 64) : Bool :=
  decide (t = .ept) || decide (t = .pae ∧ lvl = 3) || e.getLsbD 2

/-- Whether an entry is present: any of R, W, X for EPT, the P bit otherwise. -/
def pmePresent (t : HptType) (lvl : Nat) (e : BitVec 64) : Bool :=
  if t = .ept then pmeR t lvl e || pmeW t lvl e || pmeX t lvl e else pmeR t lvl e

/-- The levels above 1 that may map a page. -/
def LargeLvl (t : HptType) (lvl : Nat) : Prop := lvl = 2 ∨ (lvl = 3 ∧ (t = .long ∨ t = .ept))

instance (t : HptType) (lvl : Nat) : Decidable (LargeLvl t lvl) :=
  inferInstanceAs (Decidable (_ ∨ _))

def pmePage (t : HptType) (lvl : Nat) (e : BitVec 64) : Bool :=
  decide (lvl = 1) || (decide (LargeLvl t lvl) && e.getLsbD 7)

/-- The address an entry holds, defined where the getter returns. -/
def pmeAddr (t : HptType) (lvl : Nat) (e : BitVec 64) : BitVec 64 :=
  (hptPmeGetAddress t lvl e).getD 0

variable {t : HptType} {lvl : Nat} {e : BitVec 64}

theorem hptPmeGetprot_eq (h : LvlOk t lvl) : hptPmeGetprot t lvl e = some (pmeProt t lvl e) := by
  have h₀ := and_maskbit64_ne_zero e 0 (by decide)
  have h₁ := and_maskbit64_ne_zero e 1 (by decide)
  have h₂ := and_maskbit64_ne_zero e 2 (by decide)
  have h₆₃ := and_maskbit64_ne_zero e 63 (by decide)
  apply h.elim (P := fun t lvl => hptPmeGetprot t lvl e = some (pmeProt t lvl e)) <;>
    simp [hptPmeGetprot, hptLvlIsValid, hptTypeMaxLvl, h₀, h₁, h₂, h₆₃, pmeProt, pmeR, pmeW,
      pmeX]

theorem hptPmeGetuser_eq (h : LvlOk t lvl) : hptPmeGetuser t lvl e = some (pmeUser t lvl e) := by
  have hb := br64GetBit_ne_zero e 2 (by decide)
  apply h.elim (P := fun t lvl => hptPmeGetuser t lvl e = some (pmeUser t lvl e)) <;>
    simp [hptPmeGetuser, pmeUser, hb]

theorem hptProtOf_and_read (r w x : Bool) : (hptProtOf r w x &&& hptProtReadMask != 0) = r := by
  revert r w x; decide

theorem hptProtOf_and_rwx (r w x : Bool) :
    (hptProtOf r w x &&& hptProtsRwx != 0) = (r || w || x) := by
  revert r w x; decide

theorem hptPmeIsPresent_eq (h : LvlOk t lvl) :
    hptPmeIsPresent t lvl e = some (pmePresent t lvl e) := by
  rw [hptPmeIsPresent, hptPmeGetprot_eq h]
  simp only [Option.bind_eq_bind, Option.bind_some, pmePresent, pmeProt]
  by_cases ht : t = .ept
  · simp only [ht, if_true, hptProtOf_and_rwx]
    rfl
  · simp only [ht, if_false, hptProtOf_and_read]
    rfl

theorem hptPmeIsPage_eq (h : LvlOk t lvl) : hptPmeIsPage t lvl e = some (pmePage t lvl e) := by
  have hb := br64GetBit_ne_zero e 7 (by decide)
  apply h.elim (P := fun t lvl => hptPmeIsPage t lvl e = some (pmePage t lvl e)) <;>
    simp [hptPmeIsPage, pmePage, LargeLvl, hb]

/-! ## Addresses -/

/-- The top bit of the address field of a table entry. -/
def addrHi (t : HptType) : Nat := if t = .norm then 31 else 51

/-- The low bit of the address field: bit 12 of a large PAE or LONG page is its PAT bit. -/
def addrLo (t : HptType) (lvl : Nat) (page : Bool) : Nat :=
  if page ∧ lvl ≠ 1 ∧ t = .norm then 22
  else if page ∧ lvl ≠ 1 ∧ (t = .pae ∨ t = .long) then 13 else 12

theorem addrLo_le (t : HptType) (lvl : Nat) (page : Bool) :
    12 ≤ addrLo t lvl page ∧ addrLo t lvl page ≤ addrHi t := by
  cases t <;> cases page <;> simp only [addrLo, addrHi] <;> split_ifs <;> simp

theorem hptPmeGetAddress_eq_copy (h : LvlOk t lvl)
    (hn : ¬ (t = .norm ∧ lvl = 2 ∧ pmePage t lvl e = true)) :
    hptPmeGetAddress t lvl e =
      br64CopyBitsHl 0#64 e (addrHi t) (addrLo t lvl (pmePage t lvl e)) 0 := by
  have hpage := hptPmeIsPage_eq (e := e) h
  have hlarge : pmePage t lvl e = true → lvl = 1 ∨ LargeLvl t lvl := by
    simp only [pmePage, Bool.or_eq_true, Bool.and_eq_true, decide_eq_true_eq]
    exact Or.imp_right And.left
  revert hn hpage hlarge
  generalize pmePage t lvl e = b
  apply h.elim (P := fun t lvl => ¬ (t = .norm ∧ lvl = 2 ∧ b = true) →
    hptPmeIsPage t lvl e = some b → (b = true → lvl = 1 ∨ LargeLvl t lvl) →
    hptPmeGetAddress t lvl e = br64CopyBitsHl 0#64 e (addrHi t) (addrLo t lvl b) 0) <;>
    intro hn hp hl <;> cases b <;> simp_all [hptPmeGetAddress, addrLo, addrHi, LargeLvl]

/-- The 4 MB page of a `u32` table: the PSE-36 copy moves bits 39:32, which a 32-bit entry
does not have, so only bits 31:22 remain. -/
theorem hptPmeGetAddress_eq_copy_4m (hp : pmePage .norm 2 e = true)
    (hn : ∀ i, 32 ≤ i → e.getLsbD i = false) :
    hptPmeGetAddress .norm 2 e = br64CopyBitsHl 0#64 e 31 22 0 := by
  obtain ⟨a, ha, hb⟩ := br64CopyBitsHl_spec 0#64 e 39 32 19
    (by decide) (by decide) (by decide) (by decide)
  have h0 : a = 0#64 := by
    apply BitVec.eq_of_getLsbD_eq
    intro i _
    rw [hb i]
    split
    · rw [hn _ (by omega)]; simp
    · rfl
  subst h0
  have hpage : hptPmeIsPage .norm 2 e = some true := by
    rw [hptPmeIsPage_eq (by decide), hp]
  simp only [hptPmeGetAddress, hpage, Option.bind_eq_bind, Option.bind_some, if_true]
  show Option.bind (br64CopyBitsHl 0#64 e 39 32 19) _ = _
  rw [ha]
  rfl

/-- The getter never asserts on any word, and leaves the top bits of an address clear: PSE-36 puts
bits 39:32 of the word at 58:51, everything else ends at bit 51. -/
theorem hptPmeGetAddress_lt (h : LvlOk t lvl) (e : BitVec 64) :
    ∃ a, hptPmeGetAddress t lvl e = some a ∧ a.toNat < 2 ^ 59 := by
  by_cases h4m : t = .norm ∧ lvl = 2 ∧ pmePage t lvl e = true
  · obtain ⟨rfl, rfl, hp⟩ := h4m
    obtain ⟨a, ha, hab⟩ := br64CopyBitsHl_spec 0#64 e 39 32 (32 - 13)
      (by decide) (by decide) (by decide) (by decide)
    obtain ⟨b, hb, hbb⟩ := br64CopyBitsHl_spec a e 31 22 (22 - 22)
      (by decide) (by decide) (by decide) (by decide)
    refine ⟨b, ?_, (lt_two_pow_iff_getLsbD b).mpr fun i hi => ?_⟩
    · simp only [hptPmeGetAddress, hptPmeIsPage_eq h, hp, if_true, Option.bind_eq_bind,
        Option.bind_some, ha, hb]
      rfl
    · rw [hbb, if_neg (by omega), hab, if_neg (by omega), BitVec.getLsbD_zero]
  · have hlo := addrLo_le t lvl (pmePage t lvl e)
    have hhi : addrHi t < 59 := by unfold addrHi; split <;> decide
    obtain ⟨a, ha, hb⟩ := br64CopyBitsHl_zero 0#64 e _ _ (by omega) hlo.2
    refine ⟨a, by rw [hptPmeGetAddress_eq_copy h h4m, ha], ?_⟩
    refine (lt_two_pow_iff_getLsbD a).mpr fun i hi => ?_
    rw [hb, if_neg (by omega), BitVec.getLsbD_zero]

theorem hptPmeGetAddress_spec (h : LvlOk t lvl)
    (hn : t = .norm → ∀ i, 32 ≤ i → e.getLsbD i = false) :
    ∃ a, hptPmeGetAddress t lvl e = some a ∧ ∀ i, a.getLsbD i =
      (decide (addrLo t lvl (pmePage t lvl e) ≤ i ∧ i ≤ addrHi t) && e.getLsbD i) := by
  have hlo := addrLo_le t lvl (pmePage t lvl e)
  have hhi : addrHi t < 64 := by unfold addrHi; split <;> decide
  obtain ⟨a, ha, hb⟩ := br64CopyBitsHl_zero 0#64 e _ _ hhi hlo.2
  refine ⟨a, ?_, fun i => ?_⟩
  · by_cases h4m : t = .norm ∧ lvl = 2 ∧ pmePage t lvl e = true
    · obtain ⟨rfl, rfl, hp⟩ := h4m
      rw [hptPmeGetAddress_eq_copy_4m hp (hn rfl), ← ha, hp]
      rfl
    · rw [hptPmeGetAddress_eq_copy h h4m, ha]
  · rw [hb i]
    by_cases hin : addrLo t lvl (pmePage t lvl e) ≤ i ∧ i ≤ addrHi t <;> simp [hin]

theorem hptPmeGetAddress_eq (h : LvlOk t lvl)
    (hn : t = .norm → ∀ i, 32 ≤ i → e.getLsbD i = false) :
    hptPmeGetAddress t lvl e = some (pmeAddr t lvl e) := by
  obtain ⟨a, ha, -⟩ := hptPmeGetAddress_spec h hn
  rw [pmeAddr, ha, Option.getD_some]

/-- An address a table entry of type `t` can hold: page-aligned and inside the field. -/
def Representable (t : HptType) (a : BitVec 64) : Prop :=
  ∀ i, i < 12 ∨ addrHi t < i → a.getLsbD i = false

theorem representable_of_toNat {a : BitVec 64} (h₁ : a.toNat % 4096 = 0)
    (h₂ : a.toNat < 2 ^ (addrHi t + 1)) : Representable t a := by
  intro i hi
  rcases hi with hi | hi
  · have hm := Nat.testBit_mod_two_pow a.toNat 12 i
    rw [show 2 ^ 12 = 4096 from rfl, h₁, BitVec.testBit_toNat] at hm
    simpa [hi] using hm.symm
  · exact (lt_two_pow_iff_getLsbD a).mp h₂ i hi

/-! ## Special entries -/

theorem pmePresent_zero : pmePresent t lvl 0 = false := by
  cases t <;> simp [pmePresent, pmeR, pmeW, pmeX]

theorem pmePage_one : pmePage t 1 e = true := by simp [pmePage]

theorem pmePage_congr {e' : BitVec 64} (h : e'.getLsbD 7 = e.getLsbD 7) :
    pmePage t lvl e' = pmePage t lvl e := by rw [pmePage, pmePage, h]

theorem hptPmeSetAddress_eq_copy {a : BitVec 64} (h : LvlOk t lvl)
    (hp : pmePage t lvl e = false) :
    hptPmeSetAddress t lvl e a = br64CopyBitsHl e a (addrHi t) 12 0 := by
  have hpage := hptPmeIsPage_eq (e := e) h
  rw [hp] at hpage
  revert hpage
  apply h.elim (P := fun t lvl => hptPmeIsPage t lvl e = some false →
    hptPmeSetAddress t lvl e a = br64CopyBitsHl e a (addrHi t) 12 0) <;>
    intro hp <;> simp [hptPmeSetAddress, hp, addrHi]

theorem pmeProt_eq_rwx (hr : pmeR t lvl e = true) (hw : pmeW t lvl e = true)
    (hx : pmeX t lvl e = true) : pmeProt t lvl e = hptProtsRwx := by
  rw [pmeProt, hr, hw, hx]
  rfl

theorem br64SetHl_rwx (e : BitVec 64) :
    ∃ r, br64SetHl e 2 0 hptProtsRwx = some r ∧
      ∀ i, r.getLsbD i = if i ≤ 2 then true else e.getLsbD i := by
  have hbits : ∀ i : Nat, hptProtsRwx.getLsbD i = decide (i ≤ 2) := by
    intro i
    rw [show hptProtsRwx = BitVec.setWidth 64 (BitVec.allOnes 3) from rfl,
      BitVec.getLsbD_setWidth, BitVec.getLsbD_allOnes]
    by_cases hi : i ≤ 2
    · simp [show i < 64 by omega, show i < 3 by omega, hi]
    · simp [show ¬ i < 3 by omega, hi]
  have hfit : ∀ i : Nat, (2 : Int) - 0 < i → hptProtsRwx.getLsbD i = false := by
    intro i hi
    rw [hbits, decide_eq_false (by omega)]
  refine ⟨_, br64SetHl_eq hfit, fun i => ?_⟩
  have hput := getLsbD_put e hptProtsRwx 2 0 (by decide)
    (by decide) (fun i hi => hfit i (by omega)) i
  refine hput.trans ?_
  rw [Nat.sub_zero, hbits]
  by_cases hi : i ≤ 2
  · rw [if_pos hi, if_pos ⟨Nat.zero_le i, hi⟩, decide_eq_true hi]
  · rw [if_neg hi, if_neg (by omega)]

/-- Granting everything sets all three permissions and touches no bit from 3 to 62. -/
theorem hptPmeSetprot_rwx (h : LvlOk t lvl) :
    ∃ r, hptPmeSetprot t lvl e hptProtsRwx = some r ∧
      pmeProt t lvl r = hptProtsRwx ∧
      (∀ i, 2 < i → i < 63 → r.getLsbD i = e.getLsbD i) ∧
      (t = .norm → r.getLsbD 63 = e.getLsbD 63) := by
  have h₀ := getLsbD_br64SetBit e 0 (by decide) true
  have h₁ := getLsbD_br64SetBit (br64SetBit e 0 true) 1 (by decide) true
  have h₆₃ := getLsbD_br64SetBit (br64SetBit (br64SetBit e 0 true) 1 true) 63
    (by decide) false
  obtain ⟨re, hre, hbe⟩ := br64SetHl_rwx e
  apply h.elim (P := fun t lvl => ∃ r, hptPmeSetprot t lvl e hptProtsRwx = some r ∧
    pmeProt t lvl r = hptProtsRwx ∧ (∀ i, 2 < i → i < 63 → r.getLsbD i = e.getLsbD i) ∧
    (t = .norm → r.getLsbD 63 = e.getLsbD 63))
  case n₁ | n₂ =>
    refine ⟨br64SetBit (br64SetBit e 0 true) 1 true, rfl, ?_, ?_, ?_⟩
    · apply pmeProt_eq_rwx <;> simp only [pmeR, pmeW, pmeX, h₀, h₁] <;> rfl
    · intro i hi _; rw [h₁, h₀, if_neg (by omega), if_neg (by omega)]
    · intro _; rw [h₁, h₀, if_neg (by omega), if_neg (by omega)]
  case p₃ =>
    refine ⟨br64SetBit e 0 true, rfl, ?_, ?_, ?_⟩
    · apply pmeProt_eq_rwx <;> simp only [pmeR, pmeW, pmeX, h₀] <;> rfl
    · intro i hi _; rw [h₀, if_neg (by omega)]
    · intro h; cases h
  case e₁ | e₂ | e₃ | e₄ =>
    refine ⟨re, hre, ?_, ?_, ?_⟩
    · apply pmeProt_eq_rwx <;> simp only [pmeR, pmeW, pmeX, hbe] <;> rfl
    · intro i hi _; rw [hbe, if_neg (by omega)]
    · intro h; cases h
  all_goals
    refine ⟨br64SetBit (br64SetBit (br64SetBit e 0 true) 1 true) 63 false, rfl, ?_, ?_, ?_⟩
    · apply pmeProt_eq_rwx <;> simp only [pmeR, pmeW, pmeX, h₀, h₁, h₆₃] <;> rfl
    · intro i hi _; rw [h₆₃, h₁, h₀, if_neg (by omega), if_neg (by omega), if_neg (by omega)]
    · intro h; cases h

/-- Allowing user access touches bit 2 only, and not even that one in EPT. -/
theorem hptPmeSetuser_true (h : LvlOk t lvl) :
    ∃ r, hptPmeSetuser t lvl e true = some r ∧ pmeUser t lvl r = true ∧
      (∀ i, i ≠ 2 → r.getLsbD i = e.getLsbD i) ∧ (t = .ept → r = e) := by
  have h₂ := getLsbD_br64SetBit e 2 (by decide) true
  have hset : ∀ t lvl, t ≠ .ept → ∃ r, some (br64SetBit e 2 true) = some r ∧
      pmeUser t lvl r = true ∧ (∀ i, i ≠ 2 → r.getLsbD i = e.getLsbD i) ∧
      (t = .ept → r = e) := by
    intro t lvl ht
    refine ⟨_, rfl, ?_, ?_, fun h => absurd h ht⟩
    · rw [pmeUser, h₂, if_pos rfl, Bool.or_true]
    · intro i hi
      rw [h₂, if_neg hi]
  have hsame : ∀ t lvl, t = .ept ∨ (t = .pae ∧ lvl = 3) → ∃ r, some e = some r ∧
      pmeUser t lvl r = true ∧ (∀ i, i ≠ 2 → r.getLsbD i = e.getLsbD i) ∧
      (t = .ept → r = e) := by
    intro t lvl ht
    refine ⟨e, rfl, ?_, fun _ _ => rfl, fun _ => rfl⟩
    rcases ht with ht | ht <;> simp [pmeUser, ht]
  apply h.elim (P := fun t lvl => ∃ r, hptPmeSetuser t lvl e true = some r ∧
    pmeUser t lvl r = true ∧ (∀ i, i ≠ 2 → r.getLsbD i = e.getLsbD i) ∧ (t = .ept → r = e))
  case p₃ => exact hsame .pae 3 (.inr ⟨rfl, rfl⟩)
  case e₁ | e₂ | e₃ | e₄ => exact hsame .ept _ (.inl rfl)
  case n₁ | n₂ => exact hset .norm _ (by decide)
  case p₁ | p₂ => exact hset .pae _ (by decide)
  all_goals exact hset .long _ (by decide)

theorem pmeProt_congr {e' : BitVec 64} (h : ∀ i, i ≠ 2 → e'.getLsbD i = e.getLsbD i)
    (hept : t = .ept → e' = e) : pmeProt t lvl e' = pmeProt t lvl e := by
  by_cases ht : t = .ept
  · rw [hept ht]
  · have h₀ := h 0 (by decide)
    have h₁ := h 1 (by decide)
    have h₆₃ := h 63 (by decide)
    cases t <;> simp only [pmeProt, pmeR, pmeW, pmeX, h₀, h₁, h₆₃]
    exact absurd rfl ht

theorem pmePresent_of_rwx (h : pmeProt t lvl e = hptProtsRwx) : pmePresent t lvl e = true := by
  have hr := hptProtOf_and_read (pmeR t lvl e) (pmeW t lvl e) (pmeX t lvl e)
  rw [← pmeProt, h] at hr
  have hr' : pmeR t lvl e = true := hr.symm.trans (by decide)
  rw [pmePresent, hr', Bool.true_or, Bool.true_or, ite_self]

/-- The entry `hptw_get_pmo_alloc` builds from an absent one: none of the three setters
asserts, and the result is a table entry for `a` that restricts nothing. -/
theorem link_entry {a : BitVec 64} (h : LvlOk t lvl) (hp : pmePage t lvl e = false)
    (hn : t = .norm → ∀ i, 32 ≤ i → e.getLsbD i = false) (ha : Representable t a) :
    ∃ e₁ e₂ e₃, hptPmeSetAddress t lvl e a = some e₁ ∧
      hptPmeSetprot t lvl e₁ hptProtsRwx = some e₂ ∧ hptPmeSetuser t lvl e₂ true = some e₃ ∧
      pmeProt t lvl e₃ = hptProtsRwx ∧ pmePresent t lvl e₃ = true ∧
      pmePage t lvl e₃ = false ∧ pmeAddr t lvl e₃ = a ∧
      (t = .norm → ∀ i, 32 ≤ i → e₃.getLsbD i = false) := by
  have hhi : 31 ≤ addrHi t ∧ addrHi t < 63 := by unfold addrHi; split <;> decide
  obtain ⟨e₁, h₁, b₁⟩ := br64CopyBitsHl_zero e a _ 12 (by omega : addrHi t < 64) (by omega)
  obtain ⟨e₂, h₂, prot₂, b₂, n₂⟩ := hptPmeSetprot_rwx (e := e₁) h
  obtain ⟨e₃, h₃, -, b₃, ept₃⟩ := hptPmeSetuser_true (e := e₂) h
  have prot₃ : pmeProt t lvl e₃ = hptProtsRwx := (pmeProt_congr b₃ ept₃).trans prot₂
  -- away from the protection bits the address is the only change
  have bits : ∀ i, 2 < i → i < 63 →
      e₃.getLsbD i = if 12 ≤ i ∧ i ≤ addrHi t then a.getLsbD i else e.getLsbD i := by
    intro i hlo hhi
    rw [b₃ i (by omega), b₂ i hlo hhi, b₁ i]
  have page₃ : pmePage t lvl e₃ = false := by
    rw [← hp]
    apply pmePage_congr
    rw [bits 7 (by decide) (by decide), if_neg (by omega)]
  have norm₃ : t = .norm → ∀ i, 32 ≤ i → e₃.getLsbD i = false := by
    intro ht i hi
    have hhi' : addrHi t = 31 := by rw [ht]; rfl
    by_cases h63 : i < 63
    · rw [bits i (by omega) h63, if_neg (by omega), hn ht i hi]
    · by_cases hi' : i = 63
      · subst hi'
        rw [b₃ 63 (by decide), n₂ ht, b₁ 63, if_neg (by omega), hn ht 63 hi]
      · exact BitVec.getLsbD_of_ge e₃ i (by omega)
  obtain ⟨a', ha', hb'⟩ := hptPmeGetAddress_spec (e := e₃) h norm₃
  have hlo : addrLo t lvl false = 12 := by simp [addrLo]
  have haddr : pmeAddr t lvl e₃ = a := by
    rw [pmeAddr, ha', Option.getD_some]
    apply BitVec.eq_of_getLsbD_eq
    intro i _
    rw [hb' i, page₃, hlo]
    by_cases hin : 12 ≤ i ∧ i ≤ addrHi t
    · rw [decide_eq_true hin, Bool.true_and, bits i (by omega) (by omega), if_pos hin]
    · rw [decide_eq_false hin, Bool.false_and]
      exact (ha i (by omega)).symm
  refine ⟨e₁, e₂, e₃, ?_, h₂, h₃, prot₃, pmePresent_of_rwx prot₃, page₃, haddr, norm₃⟩
  rw [hptPmeSetAddress_eq_copy h hp, h₁]

end Shv
