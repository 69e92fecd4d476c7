/-
# `PageWalk` — what a processor makes of its page tables

The walk starts in the table of the highest level and reads one entry a level.  An
entry that is not present ends it without a translation, an entry that maps a page
ends it with one, any other entry names a table of the next level.  Levels count
from 0, where every present entry maps a page of 4 KB.

`IsEntry p f e` is how a table is described: the entry `e` holds the address `p`
and the flags `f`, up to the bits 5 and 6, which the processor sets by itself.

The tables that a program fills in order are linear: those of one level are an
array, and entry `i` of that array names table `i` of the level below
(`LinearMap`).  Such tables map exactly an initial range of the addresses, each to
itself (`LinearMap.walk_eq`).
-/
import Shv.Lib.ByteMem
import Mathlib.Data.Nat.Bitwise

/-- The shape of the tables: the size of an entry in bytes, and how many bits of an address
select the entry of a table.  A table is a page. -/
structure Paging where
  width : Nat
  bits : Nat
  page : width * 2 ^ bits = 2 ^ 12

namespace Paging

variable (P : Paging)

/-- The size of what one entry of level `l` covers is `2 ^ shift l`. -/
def shift (l : Nat) : Nat := 12 + P.bits * l

/-- The index of an address in the tables of level `l`. -/
def index (l va : Nat) : Nat := va / 2 ^ P.shift l % 2 ^ P.bits

/-- The address an entry holds, aligned to `2 ^ s`. -/
def address {n : Nat} (s : Nat) (e : BitVec n) : Nat := e.toNat % 2 ^ 52 / 2 ^ s * 2 ^ s

/-- The translation of `va` by the table of level `l` at `table`. -/
def walk (m : ByteMem) (va : Nat) : (l table : Nat) → Option Nat
  | 0, table =>
      let e := m.load (table + P.width * P.index 0 va) P.width
      if e.getLsbD 0 then some (address (P.shift 0) e + va % 2 ^ P.shift 0) else none
  | l + 1, table =>
      let e := m.load (table + P.width * P.index (l + 1) va) P.width
      if e.getLsbD 0 then
        if e.getLsbD 7 then some (address (P.shift (l + 1)) e + va % 2 ^ P.shift (l + 1))
        else walk m va l (address 12 e)
      else none

/-! ## Entries -/

/-- The entry `e` is the address `p` with the flags `f`; bits 5 and 6 may be set. -/
def IsEntry {n : Nat} (p f : Nat) (e : BitVec n) : Prop :=
  ∃ f', f' < 2 ^ 12 ∧ e.toNat = p + f' ∧ f' ||| 0x60 = f ||| 0x60

section Entry

variable {n p f s : Nat} {e : BitVec n}

theorem IsEntry.getLsbD (h : IsEntry p f e) (hp : 2 ^ 12 ∣ p) {k : Nat} (hk : k < 5 ∨ k = 7) :
    e.getLsbD k = f.testBit k := by
  obtain ⟨f', hlt, he, hf⟩ := h
  obtain ⟨q, rfl⟩ := hp
  have h60 : Nat.testBit 0x60 k = false :=
    (by decide : ∀ k < 8, k < 5 ∨ k = 7 → Nat.testBit 0x60 k = false) k (by omega) hk
  have hbit : f'.testBit k = f.testBit k := by
    have := congrArg (Nat.testBit · k) hf
    simpa only [Nat.testBit_or, h60, Bool.or_false] using this
  rw [BitVec.getLsbD, he, Nat.two_pow_add_eq_or_of_lt hlt, Nat.testBit_or, hbit,
    Nat.testBit_two_pow_mul, decide_eq_false (by omega), Bool.false_and, Bool.false_or]

theorem IsEntry.address_eq (h : IsEntry p f e) (hs : 12 ≤ s) (hp : 2 ^ s ∣ p) (hlt : p < 2 ^ 52)
    (hs' : s ≤ 52) : address s e = p := by
  obtain ⟨f', hf', he, -⟩ := h
  obtain ⟨q, rfl⟩ := hp
  have hf : f' < 2 ^ s := Nat.lt_of_lt_of_le hf' (Nat.pow_le_pow_right (by decide) hs)
  have hq : q < 2 ^ (52 - s) := by
    refine Nat.lt_of_mul_lt_mul_left (a := 2 ^ s) ?_
    rwa [← Nat.pow_add, Nat.add_sub_cancel' hs']
  have hsum : 2 ^ s * q + f' < 2 ^ 52 := by
    calc 2 ^ s * q + f' < 2 ^ s * q + 2 ^ s := Nat.add_lt_add_left hf _
      _ = 2 ^ s * (q + 1) := (Nat.mul_succ _ _).symm
      _ ≤ 2 ^ s * 2 ^ (52 - s) := Nat.mul_le_mul_left _ hq
      _ = 2 ^ 52 := by rw [← Nat.pow_add, Nat.add_sub_cancel' hs']
  rw [address, he, Nat.mod_eq_of_lt hsum, Nat.mul_add_div (Nat.two_pow_pos s),
    Nat.div_eq_of_lt hf, Nat.add_zero, Nat.mul_comm]

theorem IsEntry.or (h : IsEntry p f e) (hp : 2 ^ 12 ∣ p) (hn : 0x60 < 2 ^ n) (x : BitVec n) :
    IsEntry p f (e ||| x &&& BitVec.ofNat n 0x60) := by
  obtain ⟨f', hlt, he, hf⟩ := h
  obtain ⟨q, rfl⟩ := hp
  have hg : x.toNat &&& 0x60 < 2 ^ 12 := Nat.lt_of_le_of_lt Nat.and_le_right (by decide)
  refine ⟨f' ||| x.toNat &&& 0x60, Nat.or_lt_two_pow hlt hg, ?_, ?_⟩
  · rw [BitVec.toNat_or, BitVec.toNat_and, BitVec.toNat_ofNat, Nat.mod_eq_of_lt hn, he,
      Nat.two_pow_add_eq_or_of_lt hlt, Nat.two_pow_add_eq_or_of_lt (Nat.or_lt_two_pow hlt hg),
      Nat.or_assoc]
  · rw [← hf, Nat.or_assoc]
    refine congrArg _ (Nat.eq_of_testBit_eq fun k => ?_)
    rw [Nat.testBit_or, Nat.testBit_and]
    cases x.toNat.testBit k <;> cases Nat.testBit 0x60 k <;> rfl

end Entry

/-! ## One level -/

section Level

variable {P} {m : ByteMem} {va l table p f : Nat}

theorem walk_absent
    (h : IsEntry 0 0 (m.load (table + P.width * P.index l va) P.width)) :
    P.walk m va l table = none := by
  have hp : (m.load (table + P.width * P.index l va) P.width).getLsbD 0 = false :=
    h.getLsbD (Nat.dvd_zero _) (Or.inl (by decide))
  cases l with
  | zero => rw [walk, hp]; rfl
  | succ l => rw [walk, hp]; rfl

theorem walk_leaf (hs : P.shift l ≤ 52)
    (h : IsEntry (va / 2 ^ P.shift l * 2 ^ P.shift l) f
      (m.load (table + P.width * P.index l va) P.width))
    (hva : va < 2 ^ 52) (hf : f.testBit 0 = true) (hps : l = 0 ∨ f.testBit 7 = true) :
    P.walk m va l table = some va := by
  have hs12 : 12 ≤ P.shift l := Nat.le_add_right _ _
  have hdvd : 2 ^ P.shift l ∣ va / 2 ^ P.shift l * 2 ^ P.shift l := Nat.dvd_mul_left _ _
  have hdvd12 := (Nat.pow_dvd_pow 2 hs12).trans hdvd
  have hlt := Nat.lt_of_le_of_lt (Nat.div_mul_le_self va (2 ^ P.shift l)) hva
  have hp := (h.getLsbD hdvd12 (Or.inl (by decide : 0 < 5))).trans hf
  have haddr := h.address_eq hs12 hdvd hlt hs
  have hsum : va / 2 ^ P.shift l * 2 ^ P.shift l + va % 2 ^ P.shift l = va := by
    rw [Nat.mul_comm]
    exact Nat.div_add_mod _ _
  cases l with
  | zero => rw [walk, if_pos hp, haddr, hsum]
  | succ l =>
      have hps' := (h.getLsbD hdvd12 (Or.inr rfl)).trans (hps.resolve_left (Nat.succ_ne_zero l))
      rw [walk, if_pos hp, if_pos hps', haddr, hsum]

theorem walk_dir (h : IsEntry p f (m.load (table + P.width * P.index (l + 1) va) P.width))
    (hdvd : 2 ^ 12 ∣ p) (hlt : p < 2 ^ 52) (hf : f.testBit 0 = true) (hps : f.testBit 7 = false) :
    P.walk m va (l + 1) table = P.walk m va l p := by
  have hp := (h.getLsbD hdvd (Or.inl (by decide : 0 < 5))).trans hf
  have hps' := (h.getLsbD hdvd (Or.inr rfl)).trans hps
  rw [walk, if_pos hp, if_neg (Bool.eq_false_iff.mp hps'),
    h.address_eq (Nat.le_refl 12) hdvd hlt (by decide)]

end Level

/-! ## Linear tables -/

/-- The tables of the levels `leaf` to `top`: level `l` is an array of `size l` entries at
`base l`, of which the first `n l` are present.  Those of level `leaf` map pages, each to itself;
those of a level above name the tables of the level below in turn. -/
structure LinearMap (m : ByteMem) (leaf top : Nat) (base n size f : Nat → Nat) : Prop where
  map : ∀ i < n leaf, IsEntry (i * 2 ^ P.shift leaf) (f leaf)
    (m.load (base leaf + P.width * i) P.width)
  dir : ∀ l, leaf ≤ l → l < top → ∀ i < n (l + 1), IsEntry (base l + i * 2 ^ 12) (f (l + 1))
    (m.load (base (l + 1) + P.width * i) P.width)
  absent : ∀ l, leaf ≤ l → l ≤ top → ∀ i, n l ≤ i → i < size l →
    IsEntry 0 0 (m.load (base l + P.width * i) P.width)
  /-- the tables a level names are there -/
  room : ∀ l, leaf ≤ l → l < top → n (l + 1) * 2 ^ P.bits ≤ size l
  /-- and they hold all that is present below -/
  reached : ∀ l, leaf ≤ l → l < top → n l ≤ n (l + 1) * 2 ^ P.bits
  aligned : ∀ l, leaf ≤ l → l < top → 2 ^ 12 ∣ base l
  below : ∀ l, leaf ≤ l → l < top → base l + 2 ^ 12 * n (l + 1) ≤ 2 ^ 52
  present : ∀ l, leaf ≤ l → l ≤ top → (f l).testBit 0 = true
  names : ∀ l, leaf < l → l ≤ top → (f l).testBit 7 = false
  maps : leaf = 0 ∨ (f leaf).testBit 7 = true

section Linear

variable {P} {m : ByteMem} {va leaf top : Nat} {base n size f : Nat → Nat}

theorem div_shift_succ (l va : Nat) :
    va / 2 ^ P.shift (l + 1) = va / 2 ^ P.shift l / 2 ^ P.bits := by
  rw [Nat.div_div_eq_div_mul, ← Nat.pow_add, shift, shift, Nat.mul_succ, Nat.add_assoc]

/-- The entry of table `i` that a walk reads, as an entry of the array. -/
theorem linear_index (b l va : Nat) :
    b + 2 ^ 12 * (va / 2 ^ P.shift (l + 1)) + P.width * P.index l va =
      b + P.width * (va / 2 ^ P.shift l) := by
  rw [div_shift_succ, index, ← P.page, Nat.add_assoc, Nat.mul_assoc, ← Nat.mul_add,
    Nat.div_add_mod]

namespace LinearMap

theorem lt_of_leaf (h : P.LinearMap m leaf top base n size f)
    (hva : va / 2 ^ P.shift leaf < n leaf) {l : Nat} (hl : leaf ≤ l) (ht : l ≤ top) :
    va / 2 ^ P.shift l < n l := by
  induction l, hl using Nat.le_induction with
  | base => exact hva
  | succ l hl ih =>
      rw [div_shift_succ]
      refine Nat.div_lt_of_lt_mul ?_
      rw [Nat.mul_comm]
      exact Nat.lt_of_lt_of_le (ih (Nat.le_of_succ_le ht)) (h.reached l hl ht)

theorem walk_level (h : P.LinearMap m leaf top base n size f) (hs : P.shift leaf ≤ 52)
    (hva : va < 2 ^ 52) {l : Nat} (hl : leaf ≤ l) (ht : l ≤ top)
    (hroom : va / 2 ^ P.shift l < size l) :
    P.walk m va l (base l + 2 ^ 12 * (va / 2 ^ P.shift (l + 1))) =
      if va / 2 ^ P.shift leaf < n leaf then some va else none := by
  induction l, hl using Nat.le_induction with
  | base =>
      split
      next hlt =>
        refine walk_leaf hs ?_ hva (h.present leaf (Nat.le_refl _) ht) h.maps
        rw [linear_index]
        exact h.map _ hlt
      next hge =>
        refine walk_absent ?_
        rw [linear_index]
        exact h.absent leaf (Nat.le_refl _) ht _ (Nat.le_of_not_lt hge) hroom
  | succ l hl ih =>
      by_cases hlt : va / 2 ^ P.shift (l + 1) < n (l + 1)
      · have hbelow : base l + 2 ^ 12 * (va / 2 ^ P.shift (l + 1)) < 2 ^ 52 :=
          Nat.lt_of_lt_of_le (Nat.add_lt_add_left (Nat.mul_lt_mul_of_pos_left hlt (by decide)) _)
            (h.below l hl ht)
        have hdvd := Nat.dvd_add (h.aligned l hl ht)
          (Nat.dvd_mul_right (2 ^ 12) (va / 2 ^ P.shift (l + 1)))
        rw [walk_dir (p := base l + 2 ^ 12 * (va / 2 ^ P.shift (l + 1))) (f := f (l + 1)) ?_ hdvd
          hbelow (h.present _ (Nat.le_succ_of_le hl) ht) (h.names _ (Nat.lt_succ_of_le hl) ht)]
        · refine ih (Nat.le_of_succ_le ht) (Nat.lt_of_lt_of_le ?_ (h.room l hl ht))
          rw [div_shift_succ] at hlt
          exact (Nat.div_lt_iff_lt_mul (Nat.two_pow_pos _)).mp hlt
        · rw [linear_index, Nat.mul_comm (2 ^ 12)]
          exact h.dir l hl ht _ hlt
      · rw [if_neg fun hleaf => hlt (h.lt_of_leaf hleaf (Nat.le_succ_of_le hl) ht)]
        refine walk_absent ?_
        rw [linear_index]
        exact h.absent (l + 1) (Nat.le_succ_of_le hl) ht _ (Nat.le_of_not_lt hlt) hroom

/-- The addresses that linear tables map are those below the last page, each to itself. -/
theorem walk_eq (h : P.LinearMap m leaf top base n size f) (hlt : leaf ≤ top)
    (hs : P.shift leaf ≤ 52) (hva : va < 2 ^ 52) (htop : va < 2 ^ P.shift (top + 1))
    (hroom : va / 2 ^ P.shift top < size top) :
    P.walk m va top (base top) = if va / 2 ^ P.shift leaf < n leaf then some va else none := by
  have hw := h.walk_level hs hva hlt (Nat.le_refl top) hroom
  rwa [Nat.div_eq_of_lt htop, Nat.mul_zero, Nat.add_zero] at hw

end LinearMap

end Linear

end Paging
