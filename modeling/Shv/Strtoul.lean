/-
# `Shv.Strtoul` — `strtoul.c`

`tb_strtoull` reads a number from a text: blanks, a sign, a base prefix, digits.  The code runs over
offsets, checks each digit against a cutoff so as not to overflow, and returns through `unsigned
long`.  What it computes is `numberAt`, a function of the text that knows nothing of offsets or
overflow (`tbStrtoull_eq`): it halts if the number takes more than 64 bits, and otherwise returns
the low bits its return type has.
-/
import Shv.Hptw
import Shv.Lib.CText
import Mathlib.Data.Nat.Digits.Defs

namespace Shv

open CText

/-! ## Characters -/

/-- `_isspace`: `' '`, or `'\\t'` to `'\\r'`. -/
def isspace (c : Nat) : Bool := c == 32 || (9 ≤ c && c ≤ 13)

def isupper (c : Nat) : Bool := 65 ≤ c && c ≤ 90

def islower (c : Nat) : Bool := 97 ≤ c && c ≤ 122

def isalpha (c : Nat) : Bool := isupper c || islower c

def isdigit (c : Nat) : Bool := 48 ≤ c && c ≤ 57

/-- The digit a character stands for, in the largest base there is. -/
def digitOf (c : Nat) : Option Nat :=
  if isdigit c then some (c - 48)                          -- `c -= '0'`
  else if isalpha c then some (c - if isupper c then 65 - 10 else 97 - 10)
  else none

/-! ## `tb_strtoull` -/

def ulonglongMax : Nat := 0xFFFFFFFFFFFFFFFF

/-- The digit loop: `c` is the character before `s`.  The result is `acc`, `any` and `s`. -/
def strtoullLoop (t : List Nat) (base : Nat) : Nat → Nat → Nat → Nat → Int → CRun (Nat × Int × Nat)
  | 0, _, _, _, _ => .error .fuel
  | fuel + 1, c, s, acc, any =>
      match digitOf c with
      | none => return (acc, any, s)
      | some d =>
          if base ≤ d then return (acc, any, s)
          else
            let cutoff := ulonglongMax / base
            let cutlim := ulonglongMax % base
            let (acc, any) :=
              if any < 0 || acc > cutoff || (acc == cutoff && d > cutlim) then (acc, -1)
              else ((acc * base + d) % 2 ^ 64, (1 : Int))
            do
              let c ← read t s
              strtoullLoop t base fuel c (s + 1) acc any

/-- The sign: `neg`, the next character and the offset after it. -/
def strtoullSign (t : List Nat) (c s : Nat) : CRun (Bool × Nat × Nat) :=
  if c = 45 then do                                        -- '-'
    let c ← read t s
    return (true, c, s + 1)
  else if c = 43 then do                                   -- '+'
    let c ← read t s
    return (false, c, s + 1)
  else return (false, c, s)

/-- The base prefix: the base, the next character and the offset after it. -/
def strtoullBase (t : List Nat) (base c s : Nat) : CRun (Nat × Nat × Nat) := do
  let (base, c, s) ←
    if (base = 0 ∨ base = 16) ∧ c = 48 then do             -- '0'
      let x ← read t s
      if x = 120 ∨ x = 88 then do                          -- 'x', 'X'
        let c ← read t (s + 1)
        pure (16, c, s + 2)
      else pure (base, c, s)
    else pure (base, c, s)
  if base = 0 then return (if c = 48 then 8 else 10, c, s)
  else return (base, c, s)

/-- `tb_strtoull`: the number and `*endptr`, both as the caller receives them. -/
def tbStrtoull (arch : Arch) (t : List Nat) (nptr base : Nat) : CRun (Nat × Nat) := do
  let s ← skipWhile isspace t (t.length + 1) nptr
  let c ← read t s
  let (neg, c, s) ← strtoullSign t c (s + 1)
  let (base, c, s) ← strtoullBase t base c s
  let (acc, any, s) ← strtoullLoop t base (t.length + 1) c s 0 0
  if any < 0 then .error .halt
  else
    let acc := if neg then (2 ^ 64 - acc) % 2 ^ 64 else acc
    return (acc % 2 ^ arch.ptrBits, if any = 0 then nptr else s - 1)

/-! ## The number in a text -/

/-- The digits a text starts with, in a base. -/
def digitsAt (base : Nat) : List Nat → List Nat
  | [] => []
  | c :: cs =>
      match digitOf c with
      | none => []
      | some d => if base ≤ d then [] else d :: digitsAt base cs

/-- Digits, the most significant first, as a number. -/
def numOf (base : Nat) (acc : Nat) (ds : List Nat) : Nat := ds.foldl (fun a d => a * base + d) acc

def signAt : List Nat → Bool × List Nat
  | c :: cs => if c = 45 then (true, cs) else if c = 43 then (false, cs) else (false, c :: cs)
  | [] => (false, [])

def baseAt : List Nat → Nat × List Nat
  | c :: x :: cs =>
      if c = 48 then if x = 120 ∨ x = 88 then (16, cs) else (8, c :: x :: cs)
      else (10, c :: x :: cs)
  | [c] => (if c = 48 then 8 else 10, [c])
  | [] => (10, [])

/-- The number a text starts with: its sign and its magnitude. -/
def numberAt (w : List Nat) : Bool × Nat :=
  let (neg, w) := signAt (w.dropWhile isspace)
  let (base, w) := baseAt w
  (neg, numOf base 0 (digitsAt base w))

/-- A number as `tb_strtoull` returns it: it halts on more than 64 bits, negates in 64, and keeps
those of `unsigned long`. -/
def strtoullValue (arch : Arch) (n : Bool × Nat) : CRun Nat :=
  if n.2 < 2 ^ 64 then
    .ok ((if n.1 then (2 ^ 64 - n.2) % 2 ^ 64 else n.2) % 2 ^ arch.ptrBits)
  else .error .halt

/-! ## The loop -/

variable {t : List Nat} {base s acc : Nat}

theorem digitsAt_cons {c d : Nat} {cs : List Nat} (hd : digitOf c = some d) (hb : d < base) :
    digitsAt base (c :: cs) = d :: digitsAt base cs := by
  simp only [digitsAt, hd, Nat.not_le.mpr hb, if_false]

theorem digitsAt_stop {c : Nat} {cs : List Nat} (h : ∀ d, digitOf c = some d → base ≤ d) :
    digitsAt base (c :: cs) = [] := by
  cases hd : digitOf c with
  | none => simp only [digitsAt, hd]
  | some d => simp only [digitsAt, hd, if_pos (h d hd)]

theorem numOf_cons (base acc d : Nat) (ds : List Nat) :
    numOf base acc (d :: ds) = numOf base (acc * base + d) ds := rfl

theorem le_numOf (hb : 1 ≤ base) (ds : List Nat) : ∀ acc, acc ≤ numOf base acc ds := by
  induction ds with
  | nil => exact fun acc => Nat.le_refl acc
  | cons d ds ih =>
      intro acc
      refine Nat.le_trans ?_ (ih (acc * base + d))
      exact Nat.le_trans (Nat.le_mul_of_pos_right acc hb) (Nat.le_add_right _ _)

theorem cutoff_iff (hb : 1 ≤ base) {d : Nat} (hd : d < base) :
    (acc > ulonglongMax / base ∨ acc = ulonglongMax / base ∧ d > ulonglongMax % base) ↔
      2 ^ 64 ≤ acc * base + d := by
  have hdiv := Nat.div_add_mod ulonglongMax base
  have hmod := Nat.mod_lt ulonglongMax (show base > 0 from hb)
  have hmax : ulonglongMax + 1 = 2 ^ 64 := rfl
  rw [← hmax]
  generalize ulonglongMax / base = q at hdiv ⊢
  generalize ulonglongMax % base = r at hdiv hmod ⊢
  rw [← hdiv]
  rcases Nat.lt_trichotomy acc q with hlt | rfl | hgt
  · have hmul : (acc + 1) * base ≤ q * base := Nat.mul_le_mul_right base hlt
    rw [Nat.add_mul, Nat.one_mul, Nat.mul_comm q base] at hmul
    constructor
    · rintro (h | ⟨h, -⟩) <;> omega
    · intro h
      omega
  · rw [Nat.mul_comm base acc]
    constructor
    · rintro (h | ⟨-, h⟩) <;> omega
    · intro h
      exact Or.inr ⟨rfl, by omega⟩
  · have hmul : (q + 1) * base ≤ acc * base := Nat.mul_le_mul_right base hgt
    rw [Nat.add_mul, Nat.one_mul, Nat.mul_comm q base] at hmul
    exact iff_of_true (Or.inl hgt) (by omega)

/-- What the digit loop leaves in `acc` and `any`: the digits read, or a negative `any`, which is
kept to the end. -/
def LoopResult (base acc : Nat) (any : Int) (ds : List Nat) (acc' : Nat) (any' : Int) : Prop :=
  if any < 0 ∨ 2 ^ 64 ≤ numOf base acc ds then any' < 0
  else acc' = numOf base acc ds ∧ any' = if ds = [] then any else 1

theorem LoopResult.stop {any : Int} (hacc : acc < 2 ^ 64) : LoopResult base acc any [] acc any := by
  rw [LoopResult]
  split
  next h => exact h.resolve_right (Nat.not_le.mpr hacc)
  next => exact ⟨rfl, (if_pos rfl).symm⟩

/-- A digit that is not taken: no later one will be, and the number is past 64 bits, too. -/
theorem LoopResult.over {d acc' : Nat} {any any' : Int} {ds : List Nat} (hb : 1 ≤ base)
    (hover : any < 0 ∨ 2 ^ 64 ≤ acc * base + d) (h : LoopResult base acc (-1) ds acc' any') :
    LoopResult base acc any (d :: ds) acc' any' := by
  rw [LoopResult, if_pos (Or.inl (by decide))] at h
  rw [LoopResult, numOf_cons, if_pos]
  · exact h
  · exact hover.imp_right fun h => Nat.le_trans h (le_numOf hb _ _)

theorem LoopResult.digit {d acc' : Nat} {any any' : Int} {ds : List Nat} (hany : ¬ any < 0)
    (h : LoopResult base (acc * base + d) 1 ds acc' any') :
    LoopResult base acc any (d :: ds) acc' any' := by
  rw [LoopResult] at h ⊢
  simpa [hany, numOf_cons] using h

theorem cutoff_test (hb : 1 ≤ base) {d : Nat} (hd : d < base) (acc : Nat) (any : Int) :
    (decide (any < 0) || decide (acc > ulonglongMax / base) ||
        (acc == ulonglongMax / base && decide (d > ulonglongMax % base))) = true ↔
      any < 0 ∨ 2 ^ 64 ≤ acc * base + d := by
  rw [← cutoff_iff hb hd]
  simp [or_assoc]

/-- The loop reads the digits of the text at `p` and stops at the NUL at the latest. -/
theorem strtoullLoop_eq (hb : 1 ≤ base) : ∀ (fuel p acc : Nat) (any : Int), p ≤ t.length →
    t.length - p < fuel → acc < 2 ^ 64 →
    ∃ acc' any', LoopResult base acc any (digitsAt base (t.drop p)) acc' any' ∧
      strtoullLoop t base fuel ((t.drop p).headD 0) (p + 1) acc any =
        .ok (acc', any', p + (digitsAt base (t.drop p)).length + 1) := by
  intro fuel
  induction fuel with
  | zero => intro p acc any _ hf; omega
  | succ fuel ih =>
      intro p acc any hp hf hacc
      cases hdrop : t.drop p with
      | nil => exact ⟨acc, any, .stop hacc, rfl⟩
      | cons c cs =>
          obtain ⟨-, hdrop', hlt⟩ := read_cons hdrop
          rcases hd : digitOf c with _ | d
          · rw [digitsAt_stop (by simp [hd])]
            refine ⟨acc, any, .stop hacc, ?_⟩
            simp only [strtoullLoop, List.headD_cons, hd]
            rfl
          by_cases hbd : base ≤ d
          · rw [digitsAt_stop (by simp [hd, hbd])]
            refine ⟨acc, any, .stop hacc, ?_⟩
            simp only [strtoullLoop, List.headD_cons, hd, if_pos hbd]
            rfl
          have htest := cutoff_test hb (Nat.lt_of_not_le hbd) acc any
          rw [digitsAt_cons hd (Nat.lt_of_not_le hbd), List.length_cons, ← Nat.add_right_comm]
          simp only [strtoullLoop, List.headD_cons, hd, if_neg hbd]
          rw [read_eq hlt, CRun.ok_bind, ← hdrop', ← Nat.add_assoc, Nat.add_right_comm p]
          by_cases hover : any < 0 ∨ 2 ^ 64 ≤ acc * base + d
          · obtain ⟨acc', any', hres, hrun⟩ := ih (p + 1) acc (-1) hlt (by omega) hacc
            refine ⟨acc', any', hres.over hb hover, ?_⟩
            rw [if_pos (htest.mpr hover)]
            exact hrun
          · obtain ⟨hany, hfit⟩ := not_or.mp hover
            obtain ⟨acc', any', hres, hrun⟩ := ih (p + 1) (acc * base + d) 1 hlt (by omega)
              (Nat.lt_of_not_le hfit)
            refine ⟨acc', any', hres.digit hany, ?_⟩
            rw [if_neg (fun h => hover (htest.mp h)), Nat.mod_eq_of_lt (Nat.lt_of_not_le hfit)]
            exact hrun

/-! ## The whole function -/

/-- The sign, read at offset `s`: the text after it starts at some offset, too. -/
theorem strtoullSign_eq (h : s ≤ t.length) :
    ∃ s', s' ≤ t.length ∧ t.drop s' = (signAt (t.drop s)).2 ∧
      strtoullSign t ((t.drop s).headD 0) (s + 1) =
        .ok ((signAt (t.drop s)).1, (t.drop s').headD 0, s' + 1) := by
  cases hdrop : t.drop s with
  | nil => exact ⟨s, h, hdrop, by rw [hdrop]; rfl⟩
  | cons c cs =>
      obtain ⟨-, hdrop', hlt⟩ := read_cons hdrop
      rw [List.headD_cons, strtoullSign, signAt]
      split
      next => exact ⟨s + 1, hlt, hdrop', by rw [read_eq hlt, CRun.ok_bind, CRun.pure_eq]⟩
      next =>
          split
          next => exact ⟨s + 1, hlt, hdrop', by rw [read_eq hlt, CRun.ok_bind, CRun.pure_eq]⟩
          next => exact ⟨s, h, hdrop, by rw [hdrop]; rfl⟩

theorem strtoullBase_eq (h : s ≤ t.length) :
    ∃ s', s' ≤ t.length ∧ t.drop s' = (baseAt (t.drop s)).2 ∧
      strtoullBase t 0 ((t.drop s).headD 0) (s + 1) =
        .ok ((baseAt (t.drop s)).1, (t.drop s').headD 0, s' + 1) := by
  cases hdrop : t.drop s with
  | nil => exact ⟨s, h, hdrop, by rw [hdrop]; rfl⟩
  | cons c cs =>
      obtain ⟨-, hdrop', hlt⟩ := read_cons hdrop
      have hread := read_eq hlt
      rw [hdrop'] at hread
      rw [List.headD_cons, strtoullBase]
      by_cases hc : c = 48
      · rw [if_pos ⟨Or.inl rfl, hc⟩, hread, CRun.ok_bind]
        cases cs with
        | nil =>
            refine ⟨s, h, by rw [hdrop]; rfl, ?_⟩
            rw [hdrop]
            simp [baseAt, hc]
        | cons x cs =>
            obtain ⟨-, hdrop₂, hlt₂⟩ := read_cons hdrop'
            by_cases hx : x = 120 ∨ x = 88
            · refine ⟨s + 2, hlt₂, by simp [baseAt, hc, hx, hdrop₂], ?_⟩
              rw [List.headD_cons, if_pos hx, read_eq hlt₂]
              simp [baseAt, hc, hx]
            · refine ⟨s, h, by rw [hdrop]; simp [baseAt, hc, hx], ?_⟩
              rw [List.headD_cons, if_neg hx, hdrop]
              simp [baseAt, hc, hx]
      · refine ⟨s, h, ?_, ?_⟩
        · rw [hdrop]
          cases cs <;> simp [baseAt, hc]
        · rw [if_neg (fun h => hc h.2), hdrop]
          cases cs <;> simp [baseAt, hc]

theorem baseAt_pos (w : List Nat) : 1 ≤ (baseAt w).1 := by
  unfold baseAt
  split
  · split_ifs <;> simp
  · split_ifs <;> simp
  · simp

/-- **`tb_strtoull` returns the number the text starts with**, or halts on more than 64 bits.  It
reads nothing past the NUL. -/
theorem tbStrtoull_eq (arch : Arch) {nptr : Nat} (h : nptr ≤ t.length) :
    (tbStrtoull arch t nptr 0).map Prod.fst = strtoullValue arch (numberAt (t.drop nptr)) := by
  have hle := skip_le isspace h
  have hskip : skipWhile isspace t (t.length + 1) nptr = .ok _ := skipWhile_eq rfl h (by omega)
  have hdrop := drop_skip isspace t nptr
  generalize nptr + ((t.drop nptr).takeWhile isspace).length = s₀ at hle hskip hdrop
  obtain ⟨s₁, hle₁, hdrop₁, hsign⟩ := strtoullSign_eq hle
  obtain ⟨s₂, hle₂, hdrop₂, hbase⟩ := strtoullBase_eq hle₁
  obtain ⟨acc, any, hres, hloop⟩ := strtoullLoop_eq (baseAt_pos (t.drop s₁)) (t.length + 1) s₂ 0 0
    hle₂ (by omega) (by decide)
  have hnum : numberAt (t.drop nptr) = ((signAt (t.drop s₀)).1,
      numOf (baseAt (t.drop s₁)).1 0 (digitsAt (baseAt (t.drop s₁)).1 (t.drop s₂))) := by
    rw [numberAt, ← hdrop, hdrop₂, hdrop₁]
  rw [tbStrtoull, hskip, CRun.ok_bind, read_eq hle, CRun.ok_bind, hsign, CRun.ok_bind]
  dsimp only
  rw [hbase, CRun.ok_bind]
  dsimp only
  rw [hloop, CRun.ok_bind, hnum, strtoullValue]
  dsimp only
  rw [LoopResult] at hres
  by_cases hfit : numOf (baseAt (t.drop s₁)).1 0
      (digitsAt (baseAt (t.drop s₁)).1 (t.drop s₂)) < 2 ^ 64
  · rw [if_neg (not_or.mpr ⟨lt_irrefl 0, Nat.not_le.mpr hfit⟩)] at hres
    obtain ⟨rfl, rfl⟩ := hres
    have hany : ¬ (if digitsAt (baseAt (t.drop s₁)).1 (t.drop s₂) = [] then (0 : Int) else 1) <
        0 := by
      split <;> decide
    rw [if_neg hany, if_pos hfit]
    rfl
  · rw [if_pos (Or.inr (Nat.le_of_not_lt hfit))] at hres
    rw [if_pos hres, if_neg hfit]
    rfl

/-! ## Where a number ends -/

def nonspace (c : Nat) : Bool := !isspace c

theorem isspace_cases {c : Nat} (h : isspace c = true) : c = 32 ∨ 9 ≤ c ∧ c ≤ 13 := by
  simpa [isspace] using h

theorem digitOf_isspace {c : Nat} (h : isspace c = true) : digitOf c = none := by
  have hc := isspace_cases h
  have h₁ : isdigit c = false := by
    simp only [isdigit, Bool.and_eq_false_iff, decide_eq_false_iff_not]
    omega
  have h₂ : isalpha c = false := by
    simp only [isalpha, isupper, islower, Bool.or_eq_false_iff, Bool.and_eq_false_iff,
      decide_eq_false_iff_not]
    omega
  simp [digitOf, h₁, h₂]

theorem digitsAt_takeWhile (w : List Nat) :
    digitsAt base (w.takeWhile nonspace) = digitsAt base w := by
  induction w with
  | nil => rfl
  | cons c cs ih =>
      cases hc : isspace c with
      | true =>
          rw [List.takeWhile_cons_of_neg (by simp [nonspace, hc]),
            digitsAt_stop (by simp [digitOf_isspace hc])]
          rfl
      | false =>
          rw [List.takeWhile_cons_of_pos (by simp [nonspace, hc]), digitsAt, digitsAt, ih]

theorem signAt_takeWhile (w : List Nat) :
    signAt (w.takeWhile nonspace) = ((signAt w).1, (signAt w).2.takeWhile nonspace) := by
  cases w with
  | nil => rfl
  | cons c cs =>
      cases hc : isspace c with
      | true =>
          have hcases := isspace_cases hc
          have hns : nonspace c = false := by simp [nonspace, hc]
          simp [signAt, hns, show c ≠ 45 ∧ c ≠ 43 by omega]
      | false =>
          have hns : nonspace c = true := by simp [nonspace, hc]
          rw [List.takeWhile_cons_of_pos hns, signAt, signAt]
          split_ifs
          · rfl
          · rfl
          · rw [List.takeWhile_cons_of_pos hns]

theorem baseAt_takeWhile (w : List Nat) :
    baseAt (w.takeWhile nonspace) = ((baseAt w).1, (baseAt w).2.takeWhile nonspace) := by
  match w with
  | [] => rfl
  | [c] =>
      cases hc : isspace c with
      | true =>
          have hcases := isspace_cases hc
          have hns : nonspace c = false := by simp [nonspace, hc]
          simp [baseAt, hns, show c ≠ 48 by omega]
      | false =>
          have hns : nonspace c = true := by simp [nonspace, hc]
          simp [baseAt, hns]
  | c :: x :: cs =>
      cases hc : isspace c with
      | true =>
          have hcases := isspace_cases hc
          have hns : nonspace c = false := by simp [nonspace, hc]
          simp [baseAt, hns, show c ≠ 48 by omega]
      | false =>
          have hns : nonspace c = true := by simp [nonspace, hc]
          cases hx : isspace x with
          | true =>
              have hcases := isspace_cases hx
              have hnx : nonspace x = false := by simp [nonspace, hx]
              by_cases h48 : c = 48 <;>
                simp_all [baseAt, show x ≠ 120 ∧ x ≠ 88 by omega]
          | false =>
              have hnx : nonspace x = true := by simp [nonspace, hx]
              by_cases h48 : c = 48 <;> by_cases hX : x = 120 ∨ x = 88 <;> simp_all [baseAt]

/-- The number at the start of a word ends with the word; only a text that starts with a blank is
read beyond it. -/
theorem numberAt_takeWhile {w : List Nat} (h : w.takeWhile nonspace ≠ []) :
    numberAt (w.takeWhile nonspace) = numberAt w := by
  cases w with
  | nil => exact absurd rfl h
  | cons c cs =>
      have hc : isspace c = false := by
        by_contra hc
        rw [Bool.not_eq_false] at hc
        exact h (List.takeWhile_cons_of_neg (by simp [nonspace, hc]))
      have hns : nonspace c = true := by simp [nonspace, hc]
      have hdrop : ∀ l : List Nat, (c :: l).dropWhile isspace = c :: l :=
        fun l => List.dropWhile_cons_of_neg (by simp [hc])
      rw [numberAt, numberAt, hdrop]
      rw [List.takeWhile_cons_of_pos hns, hdrop, ← List.takeWhile_cons_of_pos hns, signAt_takeWhile]
      dsimp only
      rw [baseAt_takeWhile]
      dsimp only
      rw [digitsAt_takeWhile]

/-! ## Numerals -/

/-- The characters `cs` are the digits `ds`, all below the base. -/
def DigitsOf (base : Nat) (cs ds : List Nat) : Prop :=
  List.Forall₂ (fun c d => digitOf c = some d ∧ d < base) cs ds

/-- A numeral as C writes it, and its value. -/
inductive Numeral : List Nat → Nat → Prop
  | decimal {cs ds : List Nat} : DigitsOf 10 cs ds → cs ≠ [] → cs.head? ≠ some 48 →
      Numeral cs (Nat.ofDigits 10 ds.reverse)
  | octal {cs ds : List Nat} : DigitsOf 8 cs ds → Numeral (48 :: cs) (Nat.ofDigits 8 ds.reverse)
  | hex {x : Nat} {cs ds : List Nat} : x = 120 ∨ x = 88 → DigitsOf 16 cs ds → cs ≠ [] →
      Numeral (48 :: x :: cs) (Nat.ofDigits 16 ds.reverse)

theorem numOf_eq_ofDigits (base : Nat) (ds : List Nat) :
    numOf base 0 ds = Nat.ofDigits base ds.reverse := by
  rw [Nat.ofDigits_eq_foldr, List.foldr_reverse, numOf]
  congr 1
  funext a d
  rw [Nat.mul_comm, Nat.add_comm]
  rfl

theorem DigitsOf.digitsAt_eq {cs ds : List Nat} (h : DigitsOf base cs ds) :
    digitsAt base cs = ds := by
  induction h with
  | nil => rfl
  | cons hd _ ih => rw [digitsAt_cons hd.1 hd.2, ih]

theorem DigitsOf.head {c : Nat} {cs ds : List Nat} (h : DigitsOf base (c :: cs) ds) :
    ∃ d, digitOf c = some d ∧ d < base := by
  cases h with
  | cons hd _ => exact ⟨_, hd⟩

theorem digitOf_some {c d : Nat} (h : digitOf c = some d) :
    isspace c = false ∧ c ≠ 45 ∧ c ≠ 43 := by
  refine ⟨?_, ?_, ?_⟩
  · by_contra hc
    rw [Bool.not_eq_false] at hc
    rw [digitOf_isspace hc] at h
    cases h
  · rintro rfl
    cases h
  · rintro rfl
    cases h

theorem not_x_of_octal {x d : Nat} (h : digitOf x = some d) (hd : d < 8) :
    ¬ (x = 120 ∨ x = 88) := by
  rintro (rfl | rfl) <;> cases h <;> revert hd <;> decide

theorem numberAt_of_sign {c : Nat} {cs : List Nat} (hc : isspace c = false ∧ c ≠ 45 ∧ c ≠ 43) :
    numberAt (c :: cs) = (false, numOf (baseAt (c :: cs)).1 0
      (digitsAt (baseAt (c :: cs)).1 (baseAt (c :: cs)).2)) := by
  rw [numberAt, List.dropWhile_cons_of_neg (by simp [hc.1]), signAt, if_neg hc.2.1, if_neg hc.2.2]

theorem Numeral.numberAt_eq {cs : List Nat} {n : Nat} (h : Numeral cs n) :
    numberAt cs = (false, n) := by
  cases h with
  | @decimal cs ds hds hne h0 =>
      cases cs with
      | nil => exact absurd rfl hne
      | cons c cs =>
          obtain ⟨d, hd, -⟩ := hds.head
          have h48 : c ≠ 48 := fun h => h0 (by rw [h]; rfl)
          have hbase : baseAt (c :: cs) = (10, c :: cs) := by
            cases cs <;> simp [baseAt, h48]
          rw [numberAt_of_sign (digitOf_some hd), hbase]
          dsimp only
          rw [hds.digitsAt_eq, numOf_eq_ofDigits]
  | @octal cs ds hds =>
      have hbase : baseAt (48 :: cs) = (8, 48 :: cs) := by
        cases cs with
        | nil => rfl
        | cons x cs =>
            obtain ⟨d, hd, hd8⟩ := hds.head
            simp [baseAt, not_or.mp (not_x_of_octal hd hd8)]
      rw [numberAt_of_sign (by decide), hbase]
      dsimp only
      rw [digitsAt_cons (d := 0) (by decide) (by decide), hds.digitsAt_eq, numOf_cons,
        numOf_eq_ofDigits]
  | @hex x cs ds hx hds hne =>
      have hbase : baseAt (48 :: x :: cs) = (16, cs) := by simp [baseAt, hx]
      rw [numberAt_of_sign (by decide), hbase]
      dsimp only
      rw [hds.digitsAt_eq, numOf_eq_ofDigits]

theorem Numeral.nonspace {cs : List Nat} {n : Nat} (h : Numeral cs n) :
    cs ≠ [] ∧ ∀ c ∈ cs, nonspace c = true := by
  have hdigits : ∀ {base : Nat} {cs ds : List Nat}, DigitsOf base cs ds →
      ∀ c ∈ cs, Shv.nonspace c = true := by
    intro base cs ds h
    induction h with
    | nil => exact fun c hc => nomatch hc
    | cons hd _ ih =>
        intro c hc
        rcases List.mem_cons.mp hc with rfl | hc
        · simp [Shv.nonspace, (digitOf_some hd.1).1]
        · exact ih c hc
  cases h with
  | decimal hds hne _ => exact ⟨hne, hdigits hds⟩
  | octal hds =>
      refine ⟨List.cons_ne_nil _ _, fun c hc => ?_⟩
      rcases List.mem_cons.mp hc with rfl | hc
      · rfl
      · exact hdigits hds c hc
  | hex hx hds _ =>
      refine ⟨List.cons_ne_nil _ _, fun c hc => ?_⟩
      rcases List.mem_cons.mp hc with rfl | hc
      · rfl
      · rcases List.mem_cons.mp hc with rfl | hc
        · rcases hx with rfl | rfl <;> rfl
        · exact hdigits hds c hc

end Shv
