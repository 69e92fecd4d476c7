/-
# `Shv.StdioNumber` — the numbers `kvprintf` prints

A number is printed as its digits in some base, filled with zeros and blanks to the precision
and the width asked for.  `number_text` says what characters these are, `number_layout` what they
come to: the width, and the digits of the number.  Both are about numbers and widths for which the
`int`s of `kvprintf` do not overflow (`NumberFits`), which is so for all but the largest.

`tb_strtoull` of the command line reads such numbers, and `printf_strtoull` says that it reads
what has been printed, whatever the width.
-/
import Shv.Stdio
import Mathlib.Data.Nat.Digits.Lemmas

namespace Shv.Stdio

/-! ## Digits -/

def digitChar (upper : Bool) (d : Nat) : Nat := if upper then toupper (hex2ascii d) else hex2ascii d

/-- The digits of a number, the most significant first. -/
def numeral (base : Nat) (upper : Bool) (n : Nat) : List Nat :=
  (if n = 0 then [digitChar upper 0] else (Nat.digits base n).map (digitChar upper)).reverse

variable {base n : Nat} {upper : Bool}

theorem digitOf_digitChar (upper : Bool) {d : Nat} (hd : d < 36) :
    digitOf (digitChar upper d) = some d := by
  revert d
  cases upper <;> decide

theorem digitChar_ne_zero {d : Nat} (hd : d < 36) : digitChar upper d ≠ 0 := by
  intro h
  have hzero := digitOf_digitChar upper hd
  rw [h] at hzero
  cases hzero

theorem ksprintnLoop_eq (hbase : 2 ≤ base) {fuel : Nat} (hn : n < base ^ (fuel + 1))
    (nbuf : List Nat) :
    ksprintnLoop base upper (fuel + 1) n nbuf = nbuf ++ (numeral base upper n).reverse := by
  induction fuel generalizing n nbuf with
  | zero =>
      have hlt : n < base := by simpa using hn
      rw [ksprintnLoop, Nat.div_eq_of_lt hlt, Nat.mod_eq_of_lt hlt, numeral, List.reverse_reverse]
      by_cases h0 : n = 0
      · simp [h0, digitChar]
      · simp [h0, Nat.digits_of_lt base n h0 hlt, digitChar]
  | succ fuel ih =>
      rw [ksprintnLoop, numeral, List.reverse_reverse]
      have hdiv : n / base < base ^ (fuel + 1) :=
        Nat.div_lt_of_lt_mul (by rwa [Nat.pow_succ, Nat.mul_comm] at hn)
      by_cases h0 : n = 0
      · simp [h0, digitChar]
      · rw [if_neg h0, Nat.digits_def' (by omega) (Nat.pos_of_ne_zero h0)]
        by_cases hq : n / base = 0
        · simp [hq, digitChar]
        · rw [if_pos hq, ih hdiv, numeral, List.reverse_reverse, if_neg hq]
          simp [digitChar]

theorem ksprintn_eq (hbase : 2 ≤ base) (v : BitVec 64) :
    ksprintn v.toNat base upper = 0 :: (numeral base upper v.toNat).reverse := by
  have hlt : v.toNat < base ^ (63 + 1) :=
    Nat.lt_of_lt_of_le v.isLt (Nat.pow_le_pow_left hbase 64)
  exact ksprintnLoop_eq hbase hlt [0]

/-! ## Layout -/

def Text.append (o : Text) (t : List Nat) : Text := { o with text := o.text ++ t }

@[simp] theorem Text.append_nil (o : Text) : o.append [] = o := by simp [Text.append]

@[simp] theorem Text.append_append (o : Text) (t u : List Nat) :
    (o.append t).append u = o.append (t ++ u) := by simp [Text.append]

theorem put_text (o : Text) (c : Nat) : Sink.text.put o c = o.append [c] := rfl

theorem padding_text (c n : Nat) (o : Text) :
    padding Sink.text c n o = o.append (List.replicate n c) := by
  induction n generalizing o with
  | zero => simp [padding]
  | succ n ih => rw [padding, ih, put_text, Text.append_append, List.replicate_succ,
      List.singleton_append]

theorem putText_text (t : List Nat) (o : Text) : putText Sink.text t o = o.append t := by
  induction t generalizing o with
  | nil => simp [putText]
  | cons c t ih => rw [putText, ih, put_text, Text.append_append, List.singleton_append]

theorem putBack_text {ds : List Nat} (hds : ∀ c ∈ ds, c ≠ 0) {p : Nat} (hp : p ≤ ds.length)
    (o : Text) : putBack Sink.text (0 :: ds) p o = o.append (ds.take p).reverse := by
  induction p generalizing o with
  | zero => simp [putBack]
  | succ p ih =>
      have hlt : p < ds.length := hp
      have hget : (0 :: ds).getD (p + 1) 0 = ds[p] := by
        rw [List.getD_cons_succ, List.getD_eq_getElem _ _ hlt]
      rw [putBack, hget, if_neg (hds _ (List.getElem_mem hlt)), ih (Nat.le_of_lt hlt), put_text,
        Text.append_append, List.take_succ_eq_append_getElem hlt, List.reverse_append]
      rfl

theorem numeral_ne_zero (hbase : 2 ≤ base ∧ base ≤ 36) : ∀ c ∈ numeral base upper n, c ≠ 0 := by
  intro c hc
  rw [numeral, List.mem_reverse] at hc
  split at hc
  · rw [List.mem_singleton] at hc
    rw [hc]
    exact digitChar_ne_zero (by decide)
  · obtain ⟨d, hd, rfl⟩ := List.mem_map.mp hc
    have hlt : d < base := Nat.digits_lt_base (by omega) hd
    exact digitChar_ne_zero (by omega)

/-- The sign and the prefix of a number. -/
def signText (fl : Flags) (num : BitVec 64) : List Nat := if fl.sign && num.msb then [45] else []

/-- The number without its sign. -/
def magnitude (fl : Flags) (num : BitVec 64) : BitVec 64 := if fl.sign && num.msb then -num else num

def prefixText (fl : Flags) (num : BitVec 64) (base : Nat) : List Nat :=
  if fl.sharpflag ∧ magnitude fl num ≠ 0 then sharpText base else []

/-- The number of digits asked for: with zeros in place of blanks, those that fill the width. -/
def precision (fl : Flags) (num : BitVec 64) (base : Nat) : Int :=
  if !fl.ladjust && fl.padc == 48 then
    fl.width.toInt - ((prefixText fl num base).length + (signText fl num).length)
  else fl.dwidth.toInt

def bodyText (fl : Flags) (num : BitVec 64) (base : Nat) : List Nat :=
  let ds := numeral base fl.upper (magnitude fl num).toNat
  signText fl num ++ prefixText fl num base ++
    List.replicate (precision fl num base - ds.length).toNat 48 ++ ds

/-- The blanks around it. -/
def fillText (fl : Flags) (num : BitVec 64) (base : Nat) : List Nat :=
  List.replicate (fl.width.toInt - (bodyText fl num base).length).toNat 32

/-- What is printed for a number. -/
def numberText (fl : Flags) (num : BitVec 64) (base : Nat) : List Nat :=
  if fl.ladjust then bodyText fl num base ++ fillText fl num base
  else fillText fl num base ++ bodyText fl num base

theorem putNumber_text {ladjust neg : Bool} {pre ds : List Nat} {width dwidth : Int}
    (hds : ∀ c ∈ ds, c ≠ 0) (o : Text) :
    putNumber Sink.text ladjust neg pre width dwidth (0 :: ds.reverse) o =
      o.append ((if ladjust then [] else List.replicate width.toNat 32) ++
        (if neg then [45] else []) ++ pre ++ List.replicate dwidth.toNat 48 ++ ds ++
        if ladjust then List.replicate width.toNat 32 else []) := by
  have hback : ∀ o : Text, putBack Sink.text (0 :: ds.reverse)
      ((0 :: ds.reverse).length - 1) o = o.append ds := by
    intro o
    rw [List.length_cons, Nat.add_sub_cancel, putBack_text (by simpa using hds) (le_refl _),
      List.take_length, List.reverse_reverse]
  simp only [putNumber, hback, padding_text, putText_text, put_text]
  cases ladjust <;> cases neg <;> simp

theorem length_signText (fl : Flags) (num : BitVec 64) :
    ((signText fl num).length : Int) = if fl.sign && num.msb then 1 else 0 := by
  rw [signText]
  split <;> rfl

theorem length_bodyText (fl : Flags) (num : BitVec 64) (base : Nat) :
    ((bodyText fl num base).length : Int) =
      (prefixText fl num base).length + (signText fl num).length +
        max (precision fl num base) (numeral base fl.upper (magnitude fl num).toNat).length := by
  simp only [bodyText, List.length_append, List.length_replicate]
  omega

theorem length_numberText (fl : Flags) (num : BitVec 64) (base : Nat) :
    ((numberText fl num base).length : Int) =
      max fl.width.toInt (bodyText fl num base).length := by
  rw [numberText, fillText]
  split <;> rw [List.length_append, List.length_replicate] <;> omega

/-- What `kvprintf` computes for a number can be computed with `int`s: the number of digits asked
for, the length of the number without the blanks, and what is left to fill of either width, and one
less. -/
structure NumberFits (fl : Flags) (num : BitVec 64) (base : Nat) : Prop where
  neg : fl.sign = true → num ≠ BitVec.intMin 64
  digits : InInt (precision fl num base)
  body : InInt (bodyText fl num base).length
  blanks : InInt (fl.width.toInt - (bodyText fl num base).length - 1)
  zeros : InInt (precision fl num base -
    (numeral base fl.upper (magnitude fl num).toNat).length - 1)

theorem numberFits_iff {fl : Flags} {num : BitVec 64} : NumberFits fl num base ↔
    (fl.sign = true → num ≠ BitVec.intMin 64) ∧ InInt (precision fl num base) ∧
      InInt (bodyText fl num base).length ∧
      InInt (fl.width.toInt - (bodyText fl num base).length - 1) ∧
      InInt (precision fl num base - (numeral base fl.upper (magnitude fl num).toNat).length - 1) :=
  ⟨fun ⟨h₁, h₂, h₃, h₄, h₅⟩ => ⟨h₁, h₂, h₃, h₄, h₅⟩,
    fun ⟨h₁, h₂, h₃, h₄, h₅⟩ => ⟨h₁, h₂, h₃, h₄, h₅⟩⟩

instance (fl : Flags) (num : BitVec 64) (base : Nat) : Decidable (NumberFits fl num base) :=
  decidable_of_iff _ numberFits_iff.symm

theorem cInt_bind {A : Type} (x : Int) (g : Int → Except KvStop A) :
    (cInt x >>= g) = if InInt x then g x else .error .overflow := by
  rw [cInt]
  split <;> rfl

/-- The computations of `numberRoom` for a precision `p` and a number of `b` characters. -/
theorem numberRoom_eq {fl : Flags} {neg : Bool} {pre : List Nat} {n : Nat} {p b : Int}
    (hp : (if !fl.ladjust && fl.padc == 48 then fl.width.toInt - (pre.length + if neg then 1 else 0)
      else fl.dwidth.toInt) = p)
    (hb : (pre.length + if neg then 1 else 0) + max p n = b) :
    numberRoom fl neg pre n =
      if InInt p ∧ InInt b ∧ InInt (fl.width.toInt - b - 1) ∧ InInt (p - n - 1) then
        .ok (fl.width.toInt - b, p - n)
      else .error .overflow := by
  have hwidth : fl.width.toInt < 2 ^ 31 := BitVec.toInt_lt
  have hb0 : 0 ≤ b := by
    rw [← hb]
    split <;> omega
  have hmax : p ≤ b := by
    rw [← hb]
    split <;> omega
  have hn : (n : Int) ≤ b := by
    rw [← hb]
    split <;> omega
  simp only [numberRoom, hp, hb, cInt_bind]
  clear hp hb
  split_ifs <;> first | rfl | (simp only [InInt] at *; omega)

/-- **What is printed for a number.** -/
theorem number_text (fl : Flags) (num : BitVec 64) (hbase : 2 ≤ base ∧ base ≤ 36) (o : Text) :
    number Sink.text fl num base o =
      if NumberFits fl num base then .ok (o.append (numberText fl num base))
      else .error .overflow := by
  have hnbuf : ksprintn (magnitude fl num).toNat base fl.upper =
      0 :: (numeral base fl.upper (magnitude fl num).toNat).reverse := ksprintn_eq hbase.1 _
  have hn : (ksprintn (magnitude fl num).toNat base fl.upper).length - 1 =
      (numeral base fl.upper (magnitude fl num).toNat).length := by simp [hnbuf]
  have hprec : (if !fl.ladjust && fl.padc == 48 then fl.width.toInt -
      ((prefixText fl num base).length + if fl.sign && num.msb then 1 else 0)
      else fl.dwidth.toInt) = precision fl num base := by
    rw [precision, length_signText]
  have hbody : ((prefixText fl num base).length + if fl.sign && num.msb then 1 else 0) +
      max (precision fl num base) (numeral base fl.upper (magnitude fl num).toNat).length =
      (bodyText fl num base).length := by
    rw [length_bodyText, length_signText]
  have hneg : (fl.sign && num.msb && num == BitVec.intMin 64) = true ↔
      ¬ (fl.sign = true → num ≠ BitVec.intMin 64) := by
    rw [Classical.not_imp, not_not, Bool.and_eq_true, Bool.and_eq_true, beq_iff_eq]
    constructor
    · exact fun h => ⟨h.1.1, h.2⟩
    · rintro ⟨hsign, rfl⟩
      exact ⟨⟨hsign, by decide⟩, rfl⟩
  have hnumber : number Sink.text fl num base o =
      if fl.sign && num.msb && num == BitVec.intMin 64 then .error .overflow
      else (numberRoom fl (fl.sign && num.msb) (prefixText fl num base)
          (numeral base fl.upper (magnitude fl num).toNat).length).map fun r =>
        putNumber Sink.text fl.ladjust (fl.sign && num.msb) (prefixText fl num base) r.1 r.2
          (0 :: (numeral base fl.upper (magnitude fl num).toNat).reverse) o := by
    rw [← hn, ← hnbuf]
    rfl
  rw [hnumber, if_congr hneg rfl rfl, numberRoom_eq hprec hbody, if_congr numberFits_iff rfl rfl]
  by_cases hmin : fl.sign = true → num ≠ BitVec.intMin 64
  · rw [if_neg (not_not_intro hmin)]
    split
    next hfits =>
        rw [if_pos ⟨hmin, hfits⟩]
        refine congrArg Except.ok ?_
        dsimp only
        rw [putNumber_text (numeral_ne_zero hbase)]
        congr 1
        rw [numberText, fillText, bodyText, signText]
        cases fl.ladjust <;> simp
    next hfits => exact (if_neg fun h => hfits h.2).symm
  · rw [if_pos hmin, if_neg fun h => hmin h.1]

theorem numeral_digitsOf (hbase : 2 ≤ base ∧ base ≤ 36) (upper : Bool) (n : Nat) :
    ∃ ds, DigitsOf base (numeral base upper n) ds ∧ Nat.ofDigits base ds.reverse = n := by
  have hmap : ∀ l : List Nat, (∀ d ∈ l, d < base) → DigitsOf base (l.map (digitChar upper)) l := by
    intro l hl
    rw [DigitsOf, List.forall₂_map_left_iff, List.forall₂_same]
    intro d hd
    exact ⟨digitOf_digitChar upper (Nat.lt_of_lt_of_le (hl d hd) hbase.2), hl d hd⟩
  by_cases h0 : n = 0
  · refine ⟨[0], ?_, by simp [h0]⟩
    rw [numeral, if_pos h0]
    exact hmap [0] (by simp; omega)
  · refine ⟨(Nat.digits base n).reverse, ?_, by simp [Nat.ofDigits_digits]⟩
    rw [numeral, if_neg h0, ← List.map_reverse]
    refine hmap _ fun d hd => ?_
    exact Nat.digits_lt_base (by omega) (List.mem_reverse.mp hd)

theorem numeral_head (hbase : 2 ≤ base ∧ base ≤ 36) (upper : Bool) (h0 : n ≠ 0) :
    (numeral base upper n).head? ≠ some 48 := by
  rw [numeral, if_neg h0, List.head?_reverse, List.getLast?_map]
  have hne : Nat.digits base n ≠ [] := Nat.digits_ne_nil_iff_ne_zero.mpr h0
  rw [List.getLast?_eq_some_getLast hne, Option.map_some, ne_eq, Option.some.injEq]
  intro h48
  have hlt : (Nat.digits base n).getLast hne < 36 :=
    Nat.lt_of_lt_of_le (Nat.digits_lt_base (by omega) (List.getLast_mem hne)) hbase.2
  have hdigit := digitOf_digitChar upper hlt
  rw [h48] at hdigit
  exact Nat.getLast_digit_ne_zero base h0 (Option.some.inj hdigit).symm

theorem numeral_ne_nil (base : Nat) (upper : Bool) (n : Nat) : numeral base upper n ≠ [] := by
  rw [numeral, ne_eq, List.reverse_eq_nil_iff]
  split
  · exact List.cons_ne_nil _ _
  · next h0 => simpa [Nat.digits_eq_nil_iff_eq_zero] using h0

theorem toNat_magnitude (fl : Flags) (num : BitVec 64) :
    (magnitude fl num).toNat = if fl.sign then num.toInt.natAbs else num.toNat := by
  rw [magnitude]
  cases fl.sign with
  | false => rfl
  | true =>
      rw [Bool.true_and, if_pos rfl, BitVec.toInt_eq_msb_cond]
      cases hmsb : num.msb with
      | false => rfl
      | true =>
          have hlt := num.isLt
          have hge : 2 ^ 63 ≤ num.toNat := by simpa [BitVec.msb_eq_decide] using hmsb
          rw [if_pos rfl, if_pos rfl, BitVec.toNat_neg]
          omega

/-- The parts of a number as it is printed: blanks on one side, a sign, a prefix, zeros, and digits
that denote the number and start with a zero only if it is zero.  The digits with their zeros are
as long as the precision, the whole is as long as the width, and neither is longer than it has to
be. -/
structure Layout (fl : Flags) (num : BitVec 64) (base left zeros : Nat) (cs : List Nat)
    (right : Nat) : Prop where
  digits : ∃ ds, DigitsOf base cs ds ∧
    Nat.ofDigits base ds.reverse = if fl.sign then num.toInt.natAbs else num.toNat
  leading : num ≠ 0 → cs.head? ≠ some 48
  precise : ((zeros + cs.length : Nat) : Int) = max (precision fl num base) cs.length
  side : if fl.ladjust then left = 0 else right = 0
  wide : ((left + (signText fl num).length + (prefixText fl num base).length + zeros + cs.length +
    right : Nat) : Int) = max fl.width.toInt
      ((signText fl num).length + (prefixText fl num base).length + zeros + cs.length)

theorem length_ksprintn_le (hbase : 2 ≤ base) (v : BitVec 64) (upper : Bool) :
    (ksprintn v.toNat base upper).length ≤ 65 := by
  have hlt : v.toNat < base ^ 64 :=
    Nat.lt_of_lt_of_le v.isLt (Nat.pow_le_pow_left hbase 64)
  rw [ksprintn_eq hbase, List.length_cons, List.length_reverse, numeral, List.length_reverse]
  split
  · simp
  · rw [List.length_map]
    exact Nat.succ_le_succ ((Nat.digits_length_le_iff (by omega) _).mpr hlt)

theorem magnitude_ne_zero {fl : Flags} {num : BitVec 64} (h : num ≠ 0) :
    (magnitude fl num).toNat ≠ 0 := by
  have hnat : num.toNat ≠ 0 := fun h0 => h (BitVec.eq_of_toNat_eq h0)
  rw [toNat_magnitude]
  split
  · rw [Int.natAbs_ne_zero]
    exact fun h0 => h (BitVec.eq_of_toInt_eq h0)
  · exact hnat

/-- Only a width or a precision near the ends of what an `int` holds, and the lowest number, are a
problem. -/
theorem numberFits_of_small {fl : Flags} {num : BitVec 64} (hbase : 2 ≤ base ∧ base ≤ 36)
    (hneg : fl.sign = true → num ≠ BitVec.intMin 64) (hwidth : 0 ≤ fl.width.toInt)
    (hdwidth : -2147483500 ≤ fl.dwidth.toInt ∧ fl.dwidth.toInt ≤ 2147483500) :
    NumberFits fl num base := by
  have hw : fl.width.toInt < 2 ^ 31 := BitVec.toInt_lt
  have hds := length_ksprintn_le hbase.1 (magnitude fl num) fl.upper
  rw [ksprintn_eq hbase.1, List.length_cons, List.length_reverse] at hds
  have hsign : (signText fl num).length ≤ 1 := by
    rw [signText]
    split <;> decide
  have hpre : (prefixText fl num base).length ≤ 2 := by
    rw [prefixText, sharpText]
    split_ifs <;> decide
  have hbody := length_bodyText fl num base
  have hprec : precision fl num base =
      if !fl.ladjust && fl.padc == 48 then
        fl.width.toInt - ((prefixText fl num base).length + (signText fl num).length)
      else fl.dwidth.toInt := rfl
  refine ⟨hneg, ?_, ?_, ?_, ?_⟩ <;> simp only [InInt] <;> split at hprec <;> omega

/-- **How a number is laid out**, for any flags, if what is computed for it fits an `int`; otherwise
one overflows.  The digits fit into the buffer of `MAXNBUF` bytes with the NUL. -/
theorem number_layout (fl : Flags) (num : BitVec 64) (hbase : 2 ≤ base ∧ base ≤ 36) (o : Text) :
    (NumberFits fl num base →
      ∃ left zeros cs right, Layout fl num base left zeros cs right ∧
        number Sink.text fl num base o = .ok { o with text := o.text ++ (List.replicate left 32 ++
          signText fl num ++ prefixText fl num base ++ List.replicate zeros 48 ++ cs ++
          List.replicate right 32) }) ∧
      (¬ NumberFits fl num base → number Sink.text fl num base o = .error .overflow) ∧
      (ksprintn (magnitude fl num).toNat base fl.upper).length ≤ 65 := by
  refine ⟨fun hfits => ?_, fun hfits => ?_, length_ksprintn_le hbase.1 _ _⟩
  · obtain ⟨ds, hds, hvalue⟩ := numeral_digitsOf hbase fl.upper (magnitude fl num).toNat
    rw [toNat_magnitude] at hvalue
    have hlead : num ≠ 0 → (numeral base fl.upper (magnitude fl num).toNat).head? ≠ some 48 :=
      fun h => numeral_head hbase _ (magnitude_ne_zero h)
    have hbody := length_bodyText fl num base
    rw [number_text fl num hbase, if_pos hfits, Text.append, numberText]
    clear hfits
    generalize hcs : numeral base fl.upper (magnitude fl num).toNat = cs at *
    have hparts : bodyText fl num base = signText fl num ++ prefixText fl num base ++
        List.replicate (precision fl num base - cs.length).toNat 48 ++ cs := by
      rw [← hcs]
      rfl
    have hprecise : (((precision fl num base - cs.length).toNat + cs.length : Nat) : Int) =
        max (precision fl num base) cs.length := by omega
    cases hadjust : fl.ladjust with
    | false =>
        refine ⟨(fl.width.toInt - (bodyText fl num base).length).toNat, _, cs, 0,
          ⟨⟨ds, hds, hvalue⟩, hlead, hprecise, by rw [hadjust]; rfl, ?_⟩, ?_⟩
        · omega
        · rw [fillText, hparts]
          simp
    | true =>
        refine ⟨0, _, cs, (fl.width.toInt - (bodyText fl num base).length).toNat,
          ⟨⟨ds, hds, hvalue⟩, hlead, hprecise, by rw [hadjust]; rfl, ?_⟩, ?_⟩
        · omega
        · rw [fillText, hparts]
          simp
  · rw [number_text fl num hbase, if_neg hfits]

theorem number_layout_sample :
    ∃ left zeros cs right, Layout { width := 8, padc := 48 } 0x2a 16 left zeros cs right ∧
      number Sink.text { width := 8, padc := 48 } 0x2a 16 {} = .ok { ({} : Text) with
        text := ({} : Text).text ++ (List.replicate left 32 ++
          signText { width := 8, padc := 48 } 0x2a ++
          prefixText { width := 8, padc := 48 } 0x2a 16 ++ List.replicate zeros 48 ++ cs ++
          List.replicate right 32) } :=
  (number_layout { width := 8, padc := 48 } 0x2a (by decide) {}).1
    (numberFits_of_small (by decide) (by decide) (by decide) (by decide))

/-! ## Numbers read back -/

/-- The 64-bit formats `tb_strtoull` can tell apart, with the width as an argument: `%*lld`,
`%*llu`, `%#*llo`, `%#*llx` and `%#*llX`. -/
inductive ReadBack where
  | d | u | o | x | X
  deriving DecidableEq, Repr

namespace ReadBack

def fmt : ReadBack → List Nat
  | .d => [37, 42, 108, 108, 100]
  | .u => [37, 42, 108, 108, 117]
  | .o => [37, 35, 42, 108, 108, 111]
  | .x => [37, 35, 42, 108, 108, 120]
  | .X => [37, 35, 42, 108, 108, 88]

def radix : ReadBack → Nat
  | .d | .u => 10
  | .o => 8
  | .x | .X => 16

/-- What comes before the `*`. -/
def lead : ReadBack → List Nat
  | .d | .u => [37]
  | .o | .x | .X => [37, 35]

def conv : ReadBack → Conv
  | .d => .d
  | .u => .u
  | .o => .o
  | .x => .x
  | .X => .X

def leadFlags (r : ReadBack) : Flags := { sharpflag := r != .d && r != .u }

def flags (r : ReadBack) (w : BitVec 32) : Flags :=
  { r.leadFlags with
    width := w.abs, ladjust := w.msb, qflag := true, sign := r = .d, upper := r = .X }

end ReadBack

section Steps

variable {arch : Arch} {O : Type} {k : Sink O} {radix : Nat} {s : KvState arch O} {ch : Nat}

theorem step_of_next {s' : KvState arch O} (h : s.next k radix ch = .ok s')
    (hret : InInt (k.retval s'.out)) : s.step k radix ch = .ok s' := by
  show (s.next k radix ch).bind _ = _
  rw [h]
  show (cInt _).bind _ = _
  rw [cInt, if_pos hret]
  rfl

theorem step_star {v : BitVec 32} {ap : List (VaArg arch)} {fl : Flags} (hpc : s.pc = .reswitch)
    (hap : s.ap = .int v :: ap) (hfl : s.fl.star v = .ok fl) (hret : InInt (k.retval s.out)) :
    s.step k radix 42 =
      .ok { s with ap := ap, pc := .reswitch, percent := s.percent ++ [42], fl := fl } := by
  refine step_of_next ?_ hret
  rw [KvState.next, hpc]
  show (orArgument (vaInt s.ap)).bind (fun v => (s.fl.star v.1).bind _) = _
  rw [hap]
  show (s.fl.star v).bind _ = _
  rw [hfl]
  rfl

theorem step_flag {flag : Flag} (hpc : s.pc = .reswitch) (hch : caseOf ch = .flag flag)
    (hret : InInt (k.retval s.out)) :
    s.step k radix ch =
      .ok { s with pc := .reswitch, percent := s.percent ++ [ch], fl := s.fl.set flag } := by
  refine step_of_next ?_ hret
  rw [KvState.next, hpc]
  dsimp only
  rw [KvState.reswitch, hch]

theorem step_conv {conv : Conv} {o : O} {ap : List (VaArg arch)} (hpc : s.pc = .reswitch)
    (hch : caseOf ch = .conv conv) (hconv : convert k radix s.fl s.out s.ap conv = .ok (o, ap))
    (hret : InInt (k.retval o)) :
    s.step k radix ch = .ok { out := o, ap := ap, stop := s.stop } := by
  refine step_of_next ?_ hret
  rw [KvState.next, hpc]
  dsimp only
  rw [KvState.reswitch, hch]
  dsimp only
  rw [hconv]
  rfl

end Steps

variable {arch : Arch}

theorem star_eq {fl : Flags} {w : BitVec 32} (hdot : fl.dot = false) (hadj : fl.ladjust = false)
    (hw : w ≠ BitVec.intMin 32) :
    fl.star w = .ok { fl with width := w.abs, ladjust := w.msb } := by
  have hmin : w.toInt ≠ -2 ^ 31 := fun h => hw (BitVec.eq_of_toInt_eq (h.trans (by decide)))
  have hle := BitVec.le_toInt w
  rw [Flags.star, if_neg (by simp [hdot]), BitVec.abs, BitVec.msb_eq_toInt]
  by_cases hneg : w.toInt < 0
  · have hint : InInt (-w.toInt) := by
      simp only [InInt]
      omega
    have hneg' : BitVec.ofInt 32 (-w.toInt) = w.neg := by
      rw [BitVec.ofInt_neg, BitVec.ofInt_toInt]
      rfl
    rw [if_pos hneg, cInt, if_pos hint, decide_eq_true hneg]
    show Except.ok _ = _
    dsimp only
    rw [hneg', hadj]
    rfl
  · rw [if_neg hneg, decide_eq_false hneg, if_neg Bool.false_ne_true, ← hadj]

theorem formatted_readBack (r : ReadBack) {w : BitVec 32} {v : BitVec 64} {o : Text}
    (hw : w ≠ BitVec.intMin 32) (hnum : number Sink.text (r.flags w) v r.radix {} = .ok o)
    (ho : InInt o.text.length) :
    formatted 10 (some r.fmt) [(.int w : VaArg arch), .wide v] = .ok o.text := by
  have hzero : InInt (0 : Nat) := by decide
  have hlead : Reader.run (KvState.step Sink.text 10) (KvState.start {} [.int w, .wide v]) r.lead =
      .ok { (KvState.start {} [.int w, .wide v] : KvState arch Text) with
        pc := .reswitch, percent := r.lead, fl := r.leadFlags } := by
    cases r <;> rfl
  have hstar : r.leadFlags.star w = _ :=
    star_eq (by cases r <;> rfl) (by cases r <;> rfl) hw
  have hconv : convert Sink.text 10 { r.leadFlags with
      width := w.abs, ladjust := w.msb, qflag := true } {} [(.wide v : VaArg arch)] r.conv =
      .ok (o, []) := by
    cases r <;> exact congrArg (Except.bind · fun o => .ok (o, [])) hnum
  have hfmt : r.fmt = r.lead ++ [42, 108, 108, r.fmt.getLastD 0] := by cases r <;> rfl
  have hcase : caseOf (r.fmt.getLastD 0) = .conv r.conv := by cases r <;> rfl
  have hrun : Reader.run (KvState.step Sink.text 10) (KvState.start {} [.int w, .wide v]) r.fmt =
      .ok ({ out := o, ap := [], stop := false } : KvState arch Text) := by
    rw [hfmt, Reader.run_append, hlead]
    simp only [Except.bind, Reader.run_cons, Reader.run_nil]
    rw [step_star rfl rfl hstar hzero]
    dsimp only
    rw [@step_flag _ _ _ _ _ 108 .l rfl rfl hzero]
    dsimp only
    rw [@step_flag _ _ _ _ _ 108 .l rfl rfl hzero]
    dsimp only
    rw [step_conv rfl hcase hconv ho]
    rfl
  rw [formatted, kvprintf, Option.getD_some, show clampRadix 10 = 10 from rfl, hrun]
  rfl

theorem numeral_zero (base : Nat) (upper : Bool) : numeral base upper 0 = [48] := by
  cases upper <;> rfl

theorem numeral_decimal (upper : Bool) (n : Nat) : Numeral (numeral 10 upper n) n := by
  by_cases h0 : n = 0
  · rw [h0, numeral_zero]
    exact @Numeral.octal [] [] .nil
  · obtain ⟨ds, hds, hvalue⟩ := @numeral_digitsOf 10 (by decide) upper n
    have hnum := Numeral.decimal hds (numeral_ne_nil _ _ _) (numeral_head (by decide) upper h0)
    rwa [hvalue] at hnum

theorem numeral_octal (upper : Bool) (n : Nat) :
    Numeral ((if n ≠ 0 then sharpText 8 else []) ++ numeral 8 upper n) n := by
  by_cases h0 : n = 0
  · rw [h0, numeral_zero]
    exact @Numeral.octal [] [] .nil
  · obtain ⟨ds, hds, hvalue⟩ := @numeral_digitsOf 8 (by decide) upper n
    have hnum := Numeral.octal hds
    rw [hvalue] at hnum
    rw [if_pos h0]
    exact hnum

theorem numeral_hex (upper : Bool) (n : Nat) :
    Numeral ((if n ≠ 0 then sharpText 16 else []) ++ numeral 16 upper n) n := by
  by_cases h0 : n = 0
  · rw [h0, numeral_zero]
    exact @Numeral.octal [] [] .nil
  · obtain ⟨ds, hds, hvalue⟩ := @numeral_digitsOf 16 (by decide) upper n
    have hnum := Numeral.hex (Or.inl rfl) hds (numeral_ne_nil _ _ _)
    rw [hvalue] at hnum
    rw [if_pos h0]
    exact hnum

theorem numberAt_neg {cs : List Nat} (h : Numeral cs n) :
    numberAt (45 :: cs) = (true, n) := by
  have hpos := h.numberAt_eq
  have hsign : signAt (cs.dropWhile isspace) = (false, cs) := by
    obtain ⟨hne, hspace⟩ := h.nonspace
    cases cs with
    | nil => exact absurd rfl hne
    | cons c cs =>
        have hc : isspace c = false := by simpa [nonspace] using hspace c List.mem_cons_self
        rw [List.dropWhile_cons_of_neg (by simp [hc]), signAt]
        have hdigit : ∃ d, digitOf c = some d := by
          cases h with
          | decimal hds _ _ => exact hds.head.imp fun d hd => hd.1
          | octal _ => exact ⟨0, rfl⟩
          | hex _ _ _ => exact ⟨0, rfl⟩
        obtain ⟨d, hd⟩ := hdigit
        rw [if_neg (digitOf_some hd).2.1, if_neg (digitOf_some hd).2.2]
  rw [numberAt, hsign] at hpos
  rw [numberAt, List.dropWhile_cons_of_neg (by decide)]
  exact congrArg (fun r : Bool × Nat => (true, r.2)) hpos

theorem numberAt_blanks {w : List Nat} (hne : w ≠ []) (hw : ∀ c ∈ w, nonspace c = true)
    (left right : Nat) :
    numberAt (List.replicate left 32 ++ w ++ List.replicate right 32) = numberAt w := by
  have hleft : ∀ w : List Nat, numberAt (List.replicate left 32 ++ w) = numberAt w := by
    intro w
    rw [numberAt, numberAt]
    induction left with
    | zero => rfl
    | succ left ih =>
        rw [List.replicate_succ, List.cons_append, List.dropWhile_cons_of_pos (by decide), ih]
  have htake : (w ++ List.replicate right 32).takeWhile nonspace = w := by
    rw [List.takeWhile_append_of_pos hw]
    cases right <;> simp [List.replicate_succ, nonspace, isspace]
  rw [List.append_assoc, hleft, ← numberAt_takeWhile (by rwa [htake]), htake]

theorem precision_readBack (r : ReadBack) (w : BitVec 32) (v : BitVec 64) :
    precision (r.flags w) v r.radix = 0 := by
  have hpadc : (r.flags w).padc = 32 := by cases r <;> rfl
  have hdwidth : (r.flags w).dwidth = 0 := by cases r <;> rfl
  rw [precision, hpadc, hdwidth, if_neg (by simp)]
  rfl

theorem bodyText_readBack (r : ReadBack) (w : BitVec 32) (v : BitVec 64) :
    bodyText (r.flags w) v r.radix = signText (r.flags w) v ++ prefixText (r.flags w) v r.radix ++
      numeral r.radix (r.flags w).upper (magnitude (r.flags w) v).toNat := by
  rw [bodyText, precision_readBack]
  simp

theorem prefixText_sharp {fl : Flags} {v : BitVec 64} (h : fl.sharpflag = true) :
    prefixText fl v base = if (magnitude fl v).toNat ≠ 0 then sharpText base else [] := by
  have hzero : magnitude fl v ≠ 0 ↔ (magnitude fl v).toNat ≠ 0 :=
    not_congr BitVec.toNat_eq
  rw [prefixText, h]
  simp only [true_and, hzero]

theorem numberAt_readBack (r : ReadBack) (w : BitVec 32) (v : BitVec 64) :
    bodyText (r.flags w) v r.radix ≠ [] ∧
      (∀ c ∈ bodyText (r.flags w) v r.radix, nonspace c = true) ∧
      numberAt (bodyText (r.flags w) v r.radix) =
        ((r.flags w).sign && v.msb, (magnitude (r.flags w) v).toNat) := by
  have hof : ∀ {cs : List Nat} {n : Nat}, Numeral cs n →
      cs ≠ [] ∧ (∀ c ∈ cs, nonspace c = true) ∧ numberAt cs = (false, n) :=
    fun h => ⟨h.nonspace.1, h.nonspace.2, h.numberAt_eq⟩
  rw [bodyText_readBack]
  cases r with
  | u => exact hof (numeral_decimal false v.toNat)
  | o =>
      rw [prefixText_sharp rfl]
      exact hof (numeral_octal false v.toNat)
  | x =>
      rw [prefixText_sharp rfl]
      exact hof (numeral_hex false v.toNat)
  | X =>
      rw [prefixText_sharp rfl]
      exact hof (numeral_hex true v.toNat)
  | d =>
      have hnum := numeral_decimal false (magnitude (ReadBack.d.flags w) v).toNat
      have hpre : prefixText (ReadBack.d.flags w) v ReadBack.d.radix = [] := rfl
      rw [hpre, List.append_nil, signText]
      cases hneg : (ReadBack.d.flags w).sign && v.msb with
      | false => exact hof hnum
      | true =>
          refine ⟨List.cons_ne_nil _ _, fun c hc => ?_, numberAt_neg hnum⟩
          rcases List.mem_cons.mp hc with rfl | hc
          · rfl
          · exact hnum.nonspace.2 c hc

theorem toInt_abs {w : BitVec 32} (hw : w ≠ BitVec.intMin 32) : 0 ≤ w.abs.toInt := by
  rw [BitVec.toInt_abs_eq_natAbs_of_ne_intMin hw]
  exact Int.natCast_nonneg _

/-- **Numbers are read back**: what `printf` prints for a 64-bit number in decimal, or in octal or
hexadecimal with a prefix, `tb_strtoull` reads as that number, as far as `unsigned long` holds it,
whatever the width and the side of the blanks.  The lowest width and the lowest signed number are
left out, which have no negative. -/
theorem printf_strtoull (arch : Arch) (r : ReadBack) {w : BitVec 32} {v : BitVec 64}
    (hw : w ≠ BitVec.intMin 32) (hv : r = .d → v ≠ BitVec.intMin 64) :
    ∃ t, formatted 10 (some r.fmt) [(.int w : VaArg arch), .wide v] = .ok t ∧
      (tbStrtoull arch t 0 0).map Prod.fst = .ok (v.toNat % 2 ^ arch.ptrBits) := by
  have hradix : 2 ≤ r.radix ∧ r.radix ≤ 36 := by cases r <;> decide
  have hsign : (r.flags w).sign = true → v ≠ BitVec.intMin 64 := fun h => hv (by
    cases r <;> first | rfl | cases h)
  have hdwidth : (r.flags w).dwidth = 0 := by cases r <;> rfl
  have hfits : NumberFits (r.flags w) v r.radix :=
    numberFits_of_small hradix hsign (toInt_abs hw) (by rw [hdwidth]; decide)
  have hnum := number_text (r.flags w) v hradix {}
  rw [if_pos hfits] at hnum
  have hlen : InInt (({} : Text).append (numberText (r.flags w) v r.radix)).text.length := by
    have hwidth : (r.flags w).width.toInt < 2 ^ 31 := BitVec.toInt_lt
    have hbody := hfits.body
    show InInt ([] ++ numberText (r.flags w) v r.radix).length
    rw [List.nil_append, length_numberText]
    simp only [InInt] at hbody ⊢
    omega
  refine ⟨_, formatted_readBack r hw hnum hlen, ?_⟩
  obtain ⟨hne, hspace, hbody⟩ := numberAt_readBack r w v
  rw [tbStrtoull_eq arch (Nat.zero_le _), List.drop_zero]
  have hnumber : numberAt (numberText (r.flags w) v r.radix) =
      numberAt (bodyText (r.flags w) v r.radix) := by
    rw [numberText, fillText]
    split
    · exact numberAt_blanks hne hspace 0 _
    · have h := numberAt_blanks hne hspace
        ((r.flags w).width.toInt - (bodyText (r.flags w) v r.radix).length).toNat 0
      rwa [List.replicate_zero, List.append_nil] at h
  show strtoullValue arch (numberAt ([] ++ numberText (r.flags w) v r.radix)) = _
  rw [List.nil_append, hnumber, hbody, strtoullValue, if_pos (magnitude _ v).isLt, magnitude]
  cases (r.flags w).sign && v.msb with
  | false => rfl
  | true =>
      have hlt := v.isLt
      rw [if_pos rfl, if_pos rfl, BitVec.toNat_neg]
      congr 2
      omega

theorem printf_strtoull_sample :
    ∃ t, formatted 10 (some ReadBack.d.fmt) [(.int (-12) : VaArg .i386), .wide (-42)] = .ok t ∧
      (tbStrtoull .i386 t 0 0).map Prod.fst = .ok 4294967254 :=
  printf_strtoull .i386 .d (by decide) fun _ => by decide

end Shv.Stdio
