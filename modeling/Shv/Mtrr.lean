/-
# `Shv.Mtrr` — `ept_get_mem_type` against the MTRRs

Two halves, as in the source.

**Fixed ranges.**  The loop finds the range that contains the address, but the
index into it is computed as `(start - addr) / step`, with the operands the wrong
way round.  At the first address of a range both are 0.  Anywhere else the
difference wraps, and the shift count is `2^32 - 8 * c`, where `c` is the distance
from the start in steps, rounded up (`shift_eq`).  C gives no meaning
to such a shift; an x86 takes the count modulo 64 and finds byte `8 - c`, modulo 8.

**Variable ranges.**  The loop folds `mtrrCombine` over the types of the pairs that
match, in order (`eptVarMemType_eq`), and the fold stops at the first conflict.
UC therefore wins over a conflict before it and not over one after it.
-/
import Shv.EptPool

namespace Shv

variable {img : Image} {cpu : CpuInfo} {v vcpu : Vcpu} {addr : BitVec 64}

/-! ## Fixed ranges -/

/-- Byte `k` of a fixed MTRR, counted from the least significant: sub-range `k` in the SDM. -/
def mtrrByte (msrval : BitVec 64) (k : Nat) : BitVec 8 := (msrval >>> (8 * k)).setWidth 8

/-- Entry `i` of `fixed_mtrr_prop` is the range that contains `addr`. -/
structure FixedRange (i : Nat) (start step stop addr : BitVec 64) : Prop where
  entry : fixedMtrrProp[i]? = some (start, step, stop)
  start_le : start ≤ addr
  lt_stop : addr < stop

/-- How far into its range an address lies, in sub-ranges: rounded down, as the SDM counts them,
and rounded up. -/
def subrange (start step addr : BitVec 64) : Nat := (addr.toNat - start.toNat) / step.toNat

def subrangeUp (start step addr : BitVec 64) : Nat :=
  (addr.toNat - start.toNat + (step.toNat - 1)) / step.toNat

/-- The shift count the source computes, a `u32`. -/
def fixedShift (start step addr : BitVec 64) : BitVec 32 :=
  ((start - addr) / step).setWidth 32 * 8

/-- Ranges that follow one another from `lo` on. -/
def Chained : BitVec 64 → List (BitVec 64 × BitVec 64 × BitVec 64) → Prop
  | _, [] => True
  | lo, (start, _, stop) :: props => start = lo ∧ Chained stop props

/-- The search by end addresses finds the range that contains the address, if one does. -/
theorem eptFixedMemType_finds :
    ∀ (props : List (BitVec 64 × BitVec 64 × BitVec 64)) (i : Nat) (lo : BitVec 64),
      Chained lo props → lo ≤ addr → (∃ p ∈ props, addr < p.2.2) →
      ∃ j start step stop, props[j]? = some (start, step, stop) ∧ start ≤ addr ∧ addr < stop ∧
        ∀ oobShr fixMtrrs, eptFixedMemType oobShr fixMtrrs addr props i =
          some ((if (fixedShift start step addr).toNat < 64
            then fixMtrrs (i + j) >>> (fixedShift start step addr).toNat
            else oobShr (fixMtrrs (i + j)) (fixedShift start step addr)).setWidth 8) := by
  intro props
  induction props with
  | nil =>
      intro i lo _ _ hex
      obtain ⟨p, hp, -⟩ := hex
      cases hp
  | cons prop props ih =>
      obtain ⟨start, step, stop⟩ := prop
      intro i lo hc hlo hex
      obtain ⟨rfl, hc⟩ := hc
      by_cases hlt : addr < stop
      · refine ⟨0, start, step, stop, rfl, hlo, hlt, fun oobShr fixMtrrs => ?_⟩
        rw [eptFixedMemType, if_pos hlt]
        rfl
      · have hex' : ∃ p ∈ props, addr < p.2.2 := by
          obtain ⟨p, hp, hpa⟩ := hex
          rcases List.mem_cons.mp hp with rfl | hp
          · exact absurd hpa hlt
          · exact ⟨p, hp, hpa⟩
        obtain ⟨j, start', step', stop', hj, hle, hlt', hrun⟩ :=
          ih (i + 1) stop hc (BitVec.not_lt.mp hlt) hex'
        refine ⟨j + 1, start', step', stop', hj, hle, hlt', fun oobShr fixMtrrs => ?_⟩
        rw [eptFixedMemType, if_neg hlt, hrun, show i + 1 + j = i + (j + 1) by omega]

/-- The ranges of `fixed_mtrr_prop`: eight steps of 4K, 16K or 64K, below 1M. -/
theorem fixedMtrrProp_shape : ∀ p ∈ fixedMtrrProp,
    (p.2.1.toNat = 0x1000 ∨ p.2.1.toNat = 0x4000 ∨ p.2.1.toNat = 0x10000) ∧
      p.2.2.toNat = p.1.toNat + 8 * p.2.1.toNat ∧ p.2.2.toNat ≤ 0x100000 := by
  have hall : fixedMtrrProp.all (fun p => decide
      ((p.2.1.toNat = 0x1000 ∨ p.2.1.toNat = 0x4000 ∨ p.2.1.toNat = 0x10000) ∧
        p.2.2.toNat = p.1.toNat + 8 * p.2.1.toNat ∧ p.2.2.toNat ≤ 0x100000)) = true := by decide
  intro p hp
  exact of_decide_eq_true (List.all_eq_true.mp hall p hp)

namespace FixedRange

variable {i : Nat} {start step stop : BitVec 64} (h : FixedRange i start step stop addr)
include h

theorem shape : (step.toNat = 0x1000 ∨ step.toNat = 0x4000 ∨ step.toNat = 0x10000) ∧
    stop.toNat = start.toNat + 8 * step.toNat ∧ stop.toNat ≤ 0x100000 :=
  fixedMtrrProp_shape _ (List.mem_of_getElem? h.entry)

theorem shift_eq (hne : addr ≠ start) :
    1 ≤ subrangeUp start step addr ∧ subrangeUp start step addr ≤ 8 ∧
      (fixedShift start step addr).toNat = 2 ^ 32 - 8 * subrangeUp start step addr := by
  obtain ⟨hstep, hstop, hle⟩ := h.shape
  have hlo : start.toNat ≤ addr.toNat := h.start_le
  have hhi : addr.toNat < stop.toNat := h.lt_stop
  have hlt : start.toNat < addr.toNat :=
    Nat.lt_of_le_of_ne hlo fun heq => hne (BitVec.eq_of_toNat_eq heq.symm)
  have hsub : (start - addr).toNat = 2 ^ 64 - (addr.toNat - start.toNat) := by
    rw [BitVec.toNat_sub]
    omega
  simp only [fixedShift, subrangeUp, BitVec.toNat_mul, BitVec.toNat_setWidth, BitVec.toNat_udiv,
    hsub]
  rw [show (8 : BitVec 32).toNat = 8 from rfl]
  rcases hstep with hstep | hstep | hstep
  all_goals
    rw [hstep] at hstop ⊢
    omega

/-- At the start of a range the shift is 0 and the byte the first one, as it should be. -/
theorem shift_start (heq : addr = start) :
    fixedShift start step addr = 0 ∧ subrange start step addr = 0 := by
  subst heq
  refine ⟨?_, ?_⟩
  · rw [fixedShift, BitVec.sub_self, BitVec.zero_udiv]
    rfl
  · rw [subrange, Nat.sub_self, Nat.zero_div]

end FixedRange

/-- The fixed MTRRs a CPU has, after `shv_ept_init` has found them enabled. -/
theorem shvEptInit_fixMtrrs (hinit : shvEptInit cpu v = some vcpu)
    (hf : vcpu.vmxEptFixmtrrEnable = true) {i : Nat} {msr : BitVec 32}
    (hmsr : fixedMtrrMsr[i]? = some msr) : vcpu.fixMtrrs i = cpu.rdmsr msr := by
  obtain ⟨-, -, hinit⟩ := Option.bind_eq_some_iff.mp hinit
  obtain ⟨-, -, hinit⟩ := Option.bind_eq_some_iff.mp hinit
  obtain ⟨-, -, hinit⟩ := Option.bind_eq_some_iff.mp hinit
  obtain ⟨_, hsupport, hinit⟩ := Option.bind_eq_some_iff.mp hinit
  obtain rfl := Option.some.inj hinit
  -- enabled implies supported, by the last assertion
  have hsup := cAssert_eq_some.mp hsupport
  simp only at hf
  rw [hf, Bool.not_true, Bool.or_false] at hsup
  simp only [hsup, if_true, hmsr, Option.map_some, Option.getD_some]

theorem eptGetMemType_fixed (hinit : shvEptInit cpu v = some vcpu)
    (hm : vcpu.vmxEptMtrrEnable = true) (hf : vcpu.vmxEptFixmtrrEnable = true)
    (hlt : addr < 0x100000#64) :
    ∃ i start step stop msr, FixedRange i start step stop addr ∧ fixedMtrrMsr[i]? = some msr ∧
      ∀ img, eptGetMemType img vcpu addr = some ((if (fixedShift start step addr).toNat < 64
        then cpu.rdmsr msr >>> (fixedShift start step addr).toNat
        else img.oobShr (cpu.rdmsr msr) (fixedShift start step addr)).setWidth 8) := by
  have hchain : Chained 0 fixedMtrrProp :=
    ⟨rfl, rfl, rfl, rfl, rfl, rfl, rfl, rfl, rfl, rfl, rfl, trivial⟩
  obtain ⟨i, start, step, stop, hi, hle, hlt', hrun⟩ :=
    eptFixedMemType_finds fixedMtrrProp 0 0 hchain (Nat.zero_le _)
      ⟨(0xf8000, 0x1000, 0x100000), by decide, hlt⟩
  have hmsr : ∃ msr, fixedMtrrMsr[i]? = some msr := by
    have hi' : i < fixedMtrrMsr.length := (List.getElem?_eq_some_iff.mp hi).1
    exact ⟨_, List.getElem?_eq_getElem hi'⟩
  obtain ⟨msr, hmsr⟩ := hmsr
  refine ⟨i, start, step, stop, msr, ⟨hi, hle, hlt'⟩, hmsr, fun img => ?_⟩
  rw [eptGetMemType, hm, Bool.not_true, if_neg Bool.false_ne_true, if_pos ⟨hlt, hf⟩, hrun,
    Nat.zero_add, shvEptInit_fixMtrrs hinit hf hmsr]

theorem complement_ne (b : BitVec 8) : ((~~~b).setWidth 64).setWidth 8 ≠ b := by
  intro h
  have hbit := congrArg (BitVec.getLsbD · 0) h
  simp at hbit

/-- **Where the fixed-range lookup is right.**  The address lies in one range of the table, and
the lookup returns the byte of its sub-range, whatever a shift by 64 or more may give, exactly
when it is the first address of the range.  On a CPU that takes shift counts modulo 64 the byte
read is `8 - c` modulo 8, where `c` is the distance from the start rounded up, and the result
is right exactly when that byte holds the same type. -/
theorem fixed_mtrr_lookup_iff (hinit : shvEptInit cpu v = some vcpu)
    (hm : vcpu.vmxEptMtrrEnable = true) (hf : vcpu.vmxEptFixmtrrEnable = true)
    (addr : BitVec 64) (hlt : addr < 0x100000#64) :
    ∃ i start step stop msr, FixedRange i start step stop addr ∧ fixedMtrrMsr[i]? = some msr ∧
      ((∀ img, eptGetMemType img vcpu addr =
          some (mtrrByte (cpu.rdmsr msr) (subrange start step addr))) ↔ addr = start) ∧
      ∀ img : Image, (∀ x k, img.oobShr x k = x >>> (k.toNat % 64)) →
        (eptGetMemType img vcpu addr =
          some (mtrrByte (cpu.rdmsr msr) (subrange start step addr)) ↔
        mtrrByte (cpu.rdmsr msr) ((8 - subrangeUp start step addr) % 8) =
          mtrrByte (cpu.rdmsr msr) (subrange start step addr)) := by
  obtain ⟨i, start, step, stop, msr, hr, hmsr, hrun⟩ := eptGetMemType_fixed hinit hm hf hlt
  refine ⟨i, start, step, stop, msr, hr, hmsr, ⟨fun hall => ?_, fun heq img => ?_⟩,
    fun img hshr => ?_⟩
  · -- a shift that gives the complement of the right byte
    by_contra hne
    obtain ⟨h₁, h₈, hc⟩ := hr.shift_eq hne
    have hbad := hall { sampleImage with oobShr := fun _ _ =>
      (~~~mtrrByte (cpu.rdmsr msr) (subrange start step addr)).setWidth 64 }
    rw [hrun, if_neg (by omega)] at hbad
    exact complement_ne _ (Option.some.inj hbad)
  · obtain ⟨hshift, hsub⟩ := hr.shift_start heq
    rw [hrun, hshift, hsub]
    rfl
  · rw [hrun]
    by_cases heq : addr = start
    · obtain ⟨hshift, hsub⟩ := hr.shift_start heq
      have hup : subrangeUp start step addr = 0 := by
        rw [subrangeUp, heq, Nat.sub_self, Nat.zero_add]
        rcases hr.shape.1 with hs | hs | hs <;> rw [hs]
      rw [hshift, hsub, hup]
      exact iff_of_true rfl rfl
    · obtain ⟨h₁, h₈, hc⟩ := hr.shift_eq heq
      have hcount : (fixedShift start step addr).toNat % 64 =
          8 * ((8 - subrangeUp start step addr) % 8) := by omega
      rw [if_neg (by omega), hshr, hcount]
      exact Option.some_inj

/-- A CPU whose MSR `0x269` makes the first half of `0xc8000`–`0xcffff` write-protected (option
ROMs) and leaves the second half uncacheable. -/
def optionRomCpu : CpuInfo where
  maxExtendedLeaf := 0x80000008#32
  addressSizes := 0x3027#32
  rdmsr msr :=
    if msr = 0xfe#32 then 0x508#64
    else if msr = 0x2ff#32 then 0xc00#64
    else if msr = 0x269#32 then 0x0000000005050505#64
    else 0

def zeroVcpu : Vcpu where
  idx := 0
  vmxEptDefaulttype := 0
  vmxEptMtrrEnable := false
  vmxEptFixmtrrEnable := false
  fixMtrrs _ := 0
  varMtrrs := []

theorem optionRomCpu_init : ∃ vcpu, shvEptInit optionRomCpu zeroVcpu = some vcpu ∧
    vcpu.vmxEptMtrrEnable = true ∧ vcpu.vmxEptFixmtrrEnable = true := by
  refine ⟨_, rfl, ?_, ?_⟩ <;> decide

/-- At `0xc8000`, the start of a range, the lookup is right on every compiler. -/
theorem fixed_mtrr_lookup_iff_start :
    ∃ vcpu, shvEptInit optionRomCpu zeroVcpu = some vcpu ∧
      ∀ img, eptGetMemType img vcpu 0xc8000#64 = some 5#8 := by
  obtain ⟨vcpu, hinit, hm, hf⟩ := optionRomCpu_init
  obtain ⟨i, start, step, stop, msr, hr, hmsr, hstart, -⟩ :=
    fixed_mtrr_lookup_iff hinit hm hf 0xc8000#64 (by decide)
  have honly : ∀ p ∈ fixedMtrrProp.zip fixedMtrrMsr, p.1.1 ≤ 0xc8000#64 → 0xc8000#64 < p.1.2.2 →
      p = ((0xc8000, 0x1000, 0xd0000), 0x269) := by
    have hall : (fixedMtrrProp.zip fixedMtrrMsr).all (fun p => decide
        (p.1.1 ≤ 0xc8000#64 → 0xc8000#64 < p.1.2.2 →
          p = ((0xc8000, 0x1000, 0xd0000), 0x269))) = true := by decide
    intro p hp
    exact of_decide_eq_true (List.all_eq_true.mp hall p hp)
  have hmem : ((start, step, stop), msr) ∈ fixedMtrrProp.zip fixedMtrrMsr :=
    List.mem_of_getElem? (List.getElem?_zip_eq_some.mpr ⟨hr.entry, hmsr⟩)
  have hval := honly _ hmem hr.start_le hr.lt_stop
  simp only [Prod.mk.injEq] at hval
  obtain ⟨⟨rfl, rfl, rfl⟩, rfl⟩ := hval
  exact ⟨vcpu, hinit, fun img => (hstart.mpr rfl img).trans (by decide)⟩

/-- One page further a CPU that takes shift counts modulo 64 answers UC; the SDM says WP. -/
theorem fixed_mtrr_lookup_wrong_byte :
    ∃ vcpu, shvEptInit optionRomCpu zeroVcpu = some vcpu ∧
      vcpu.vmxEptMtrrEnable = true ∧ vcpu.vmxEptFixmtrrEnable = true ∧
      FixedRange 4 0xc8000#64 0x1000#64 0xd0000#64 0xc9000#64 ∧
      fixedMtrrMsr[4]? = some 0x269#32 ∧
      eptGetMemType sampleImage vcpu 0xc9000#64 = some 0#8 ∧
      mtrrByte (optionRomCpu.rdmsr 0x269#32) (subrange 0xc8000#64 0x1000#64 0xc9000#64) = 5#8 := by
  refine ⟨_, rfl, by decide, by decide, ⟨rfl, by decide, by decide⟩, rfl, ?_, ?_⟩ <;> decide

/-! ## Variable ranges -/

def mtrrTypeWc : BitVec 32 := 1#32
def mtrrTypeWp : BitVec 32 := 5#32

def VarMtrr.type (p : VarMtrr) : BitVec 32 := (p.base &&& 0xff#64).setWidth 32

/-- The pair is valid and its range contains the page. -/
def VarMtrr.Matches (addr : BitVec 64) (p : VarMtrr) : Prop :=
  p.mask &&& (1#64 <<< 11) ≠ 0 ∧
    addr &&& (p.mask &&& ~~~0xfff#64) = (p.base &&& ~~~0xfff#64) &&& (p.mask &&& ~~~0xfff#64)

instance (addr : BitVec 64) (p : VarMtrr) : Decidable (p.Matches addr) :=
  inferInstanceAs (Decidable (_ ∧ _))

/-- The types of the pairs that match, in order. -/
def matchingTypes (addr : BitVec 64) (vs : List VarMtrr) : List (BitVec 32) :=
  (vs.filter fun p => p.Matches addr).map VarMtrr.type

theorem eptVarMemType_eq (vs : List VarMtrr) : ∀ prevType,
    eptVarMemType addr vs prevType = (matchingTypes addr vs).foldlM mtrrCombine prevType := by
  induction vs with
  | nil => intro prevType; rfl
  | cons p vs ih =>
      intro prevType
      rw [eptVarMemType, matchingTypes, List.filter_cons]
      by_cases hv : p.mask &&& (1#64 <<< 11) = 0
      · have hm : decide (p.Matches addr) = false := decide_eq_false fun h => h.1 hv
        rw [if_pos hv, hm, ih]
        rfl
      · rw [if_neg hv]
        by_cases ha : addr &&& (p.mask &&& ~~~0xfff#64) =
            (p.base &&& ~~~0xfff#64) &&& (p.mask &&& ~~~0xfff#64)
        · have hm : decide (p.Matches addr) = true := decide_eq_true ⟨hv, ha⟩
          simp only [ha, ne_eq, not_true_eq_false, if_false, hm, if_true, List.map_cons,
            List.foldlM_cons, ih]
          rfl
        · have hm : decide (p.Matches addr) = false := decide_eq_false fun h => ha h.2
          simp only [ha, ne_eq, not_false_eq_true, if_true, hm, Bool.false_eq_true, if_false, ih]
          rfl

/-! ### Combining two types -/

section Combine

variable {p t : BitVec 32} {ts : List (BitVec 32)}

/-- Write-back or write-through. -/
def WbOrWt (t : BitVec 32) : Prop := t = mtrrTypeWb ∨ t = mtrrTypeWt

instance (t : BitVec 32) : Decidable (WbOrWt t) := inferInstanceAs (Decidable (_ ∨ _))

theorem mtrrCombine_resv : mtrrCombine mtrrTypeResv t = some t := if_pos (Or.inl rfl)

theorem mtrrCombine_self : mtrrCombine p p = some p := if_pos (Or.inr rfl)

theorem mtrrCombine_uc_left : mtrrCombine mtrrTypeUc t = some mtrrTypeUc := by
  by_cases ht : mtrrTypeUc = t
  · rw [← ht, mtrrCombine_self]
  · rw [mtrrCombine, if_neg (fun h => h.elim (by decide) ht), if_pos (Or.inl rfl)]
    rfl

theorem mtrrCombine_uc_right (hp : p ≠ mtrrTypeResv) :
    mtrrCombine p mtrrTypeUc = some mtrrTypeUc := by
  by_cases hu : p = mtrrTypeUc
  · rw [hu, mtrrCombine_self]
  · rw [mtrrCombine, if_neg (fun h => h.elim hp hu), if_pos (Or.inr rfl)]
    rfl

theorem mtrrCombine_mixed (hp : WbOrWt p) (ht : WbOrWt t) (hne : p ≠ t) :
    mtrrCombine p t = some mtrrTypeWt := by
  rcases hp with rfl | rfl <;> rcases ht with rfl | rfl
  · exact absurd rfl hne
  · decide
  · decide
  · exact absurd rfl hne

theorem mtrrCombine_conflict (hr : p ≠ mtrrTypeResv) (hp : p ≠ mtrrTypeUc)
    (ht : t ≠ mtrrTypeUc) (hne : p ≠ t) (hmix : ¬ (WbOrWt p ∧ WbOrWt t)) :
    mtrrCombine p t = none := by
  rw [mtrrCombine, if_neg (fun h => h.elim hr hne), if_neg (fun h => h.elim hp ht),
    if_neg (fun h => hmix ⟨Or.inl h.1, Or.inr h.2⟩),
    if_neg (fun h => hmix ⟨Or.inr h.1, Or.inl h.2⟩)]

/-! ### Folding -/

theorem foldlM_uc (ts : List (BitVec 32)) :
    ts.foldlM mtrrCombine mtrrTypeUc = some mtrrTypeUc := by
  induction ts with
  | nil => rfl
  | cons t ts ih => rw [List.foldlM_cons, mtrrCombine_uc_left]; exact ih

/-- What the SDM says of a type `p` that overlaps with types `ts`, none of them UC. -/
def commonType (p : BitVec 32) (ts : List (BitVec 32)) : Halting (BitVec 32) :=
  if ∀ a ∈ ts, a = p then some p
  else if ∀ a ∈ p :: ts, WbOrWt a then some mtrrTypeWt
  else none

theorem foldlM_no_uc (ts : List (BitVec 32)) : ∀ p, p ≠ mtrrTypeResv → p ≠ mtrrTypeUc →
    mtrrTypeUc ∉ ts → ts.foldlM mtrrCombine p = commonType p ts := by
  induction ts with
  | nil => intro p _ _ _; exact (if_pos fun a ha => by cases ha).symm
  | cons t ts ih =>
      intro p hr hp hu
      have htu : t ≠ mtrrTypeUc := fun h => hu (h ▸ List.mem_cons_self ..)
      have hu' : mtrrTypeUc ∉ ts := fun h => hu (List.mem_cons_of_mem _ h)
      rw [List.foldlM_cons]
      by_cases heq : p = t
      · subst heq
        rw [mtrrCombine_self]
        refine (ih p hr hp hu').trans ?_
        simp only [commonType, List.forall_mem_cons, true_and, and_self_left]
      · have hall : ¬ ∀ a ∈ t :: ts, a = p := fun h => heq (h t (List.mem_cons_self ..)).symm
        rw [commonType, if_neg hall]
        by_cases hmix : WbOrWt p ∧ WbOrWt t
        · -- from here on the type is WT, and only WB and WT may follow
          rw [mtrrCombine_mixed hmix.1 hmix.2 heq]
          refine (ih mtrrTypeWt (by decide) (by decide) hu').trans ?_
          have hwt : WbOrWt mtrrTypeWt := Or.inr rfl
          simp only [commonType, List.forall_mem_cons, hmix, hwt, true_and]
          by_cases hsame : ∀ a ∈ ts, a = mtrrTypeWt
          · have hwb : ∀ a ∈ ts, WbOrWt a := fun a ha => Or.inr (hsame a ha)
            rw [if_pos hsame, if_pos hwb]
          · rw [if_neg hsame]
        · rw [mtrrCombine_conflict hr hp htu heq hmix, if_neg]
          · rfl
          · exact fun h => hmix ⟨h p (List.mem_cons_self ..),
              h t (List.mem_cons_of_mem _ (List.mem_cons_self ..))⟩

/-- Types that combine in any order: one type, or WB and WT. -/
def Compatible (ts : List (BitVec 32)) : Prop :=
  (∀ a ∈ ts, ∀ b ∈ ts, a = b) ∨ ∀ a ∈ ts, WbOrWt a

theorem Compatible.mono {ts' : List (BitVec 32)} (h : Compatible ts) (hs : ts' ⊆ ts) :
    Compatible ts' :=
  h.imp (fun h a ha b hb => h a (hs ha) b (hs hb)) fun h a ha => h a (hs ha)

theorem foldlM_reaches_uc (ts : List (BitVec 32)) : ∀ p, p ≠ mtrrTypeResv → p ≠ mtrrTypeUc →
    mtrrTypeUc ∈ ts → Compatible (p :: ts.filter (· ≠ mtrrTypeUc)) →
    ts.foldlM mtrrCombine p = some mtrrTypeUc := by
  induction ts with
  | nil => intro p _ _ hu _; cases hu
  | cons t ts ih =>
      intro p hr hp hu hc
      rw [List.foldlM_cons]
      by_cases htu : t = mtrrTypeUc
      · rw [htu, mtrrCombine_uc_right hr]
        exact foldlM_uc ts
      · have hu' : mtrrTypeUc ∈ ts := (List.mem_cons.mp hu).resolve_left fun h => htu h.symm
        have hdec : decide (t ≠ mtrrTypeUc) = true := decide_eq_true htu
        rw [List.filter_cons, if_pos hdec] at hc
        by_cases heq : p = t
        · rw [heq, mtrrCombine_self]
          exact ih t (heq ▸ hr) htu hu' (hc.mono (List.subset_cons_self _ _))
        · rcases hc with hsame | hmix
          · exact absurd (hsame p (List.mem_cons_self ..) t
              (List.mem_cons_of_mem _ (List.mem_cons_self ..))) heq
          · have hpt := List.forall_mem_cons.mp hmix
            have htt := List.forall_mem_cons.mp hpt.2
            rw [mtrrCombine_mixed hpt.1 htt.1 heq]
            refine ih mtrrTypeWt (by decide) (by decide) hu' (Or.inr ?_)
            exact List.forall_mem_cons.mpr ⟨Or.inr rfl, htt.2⟩

/-! ### Against the SDM -/

/-- The type the SDM gives a page from the types that match it, `none` where it gives none. -/
def sdmVarType (defaultType : BitVec 8) : List (BitVec 32) → Halting (BitVec 8)
  | [] => some defaultType
  | t :: ts =>
      if mtrrTypeUc ∈ t :: ts then some (mtrrTypeUc.setWidth 8)
      else (commonType t ts).map (·.setWidth 8)

theorem sdmVarType_uc (d : BitVec 8) (h : mtrrTypeUc ∈ ts) :
    sdmVarType d ts = some (mtrrTypeUc.setWidth 8) := by
  cases ts with
  | nil => cases h
  | cons t ts => exact if_pos h

theorem commonType_perm {t' : BitVec 32} {ts' : List (BitVec 32)}
    (h : (t :: ts).Perm (t' :: ts')) : commonType t ts = commonType t' ts' := by
  have hmem : ∀ {P : BitVec 32 → Prop}, (∀ a ∈ t :: ts, P a) ↔ ∀ a ∈ t' :: ts', P a :=
    fun {P} => ⟨fun hp a ha => hp a (h.mem_iff.mpr ha), fun hp a ha => hp a (h.mem_iff.mp ha)⟩
  by_cases hs : ∀ a ∈ ts, a = t
  · -- one type only, so the heads are equal too
    have hall : ∀ a ∈ t :: ts, a = t := List.forall_mem_cons.mpr ⟨rfl, hs⟩
    have hall' := hmem.mp hall
    obtain rfl : t' = t := hall' t' (List.mem_cons_self ..)
    rw [commonType, if_pos hs, commonType, if_pos (List.forall_mem_cons.mp hall').2]
  · have hs' : ¬ ∀ a ∈ ts', a = t' := by
      intro hs'
      have hall : ∀ a ∈ t' :: ts', a = t' := List.forall_mem_cons.mpr ⟨rfl, hs'⟩
      have hall' := hmem.mpr hall
      obtain rfl : t = t' := hall' t (List.mem_cons_self ..)
      exact hs (List.forall_mem_cons.mp hall').2
    rw [commonType, if_neg hs, commonType, if_neg hs']
    exact if_congr hmem rfl rfl

theorem sdmVarType_perm (d : BitVec 8) {ts' : List (BitVec 32)} (h : ts.Perm ts') :
    sdmVarType d ts = sdmVarType d ts' := by
  cases ts with
  | nil => rw [h.nil_eq]
  | cons t ts =>
      cases ts' with
      | nil => cases h.eq_nil
      | cons t' ts' =>
          rw [sdmVarType, sdmVarType, commonType_perm h]
          exact if_congr h.mem_iff rfl rfl

/-- What the source makes of the types that match. -/
def foldVarType (defaultType : BitVec 8) (ts : List (BitVec 32)) : Halting (BitVec 8) := do
  let prevType ← ts.foldlM mtrrCombine mtrrTypeResv
  if prevType = mtrrTypeResv then return defaultType else return prevType.setWidth 8

theorem mtrrCombine_ne_resv {r : BitVec 32} (hp : p ≠ mtrrTypeResv)
    (h : mtrrCombine p t = some r) : r ≠ mtrrTypeResv := by
  rw [mtrrCombine] at h
  split at h
  · rename_i hpt
    obtain rfl := Option.some.inj h
    exact hpt.resolve_left hp ▸ hp
  · split at h
    · obtain rfl := Option.some.inj h
      decide
    · split at h
      · obtain rfl := Option.some.inj h
        decide
      · split at h
        · obtain rfl := Option.some.inj h
          decide
        · cases h

theorem foldlM_ne_resv {r : BitVec 32} (ts : List (BitVec 32)) : ∀ p, p ≠ mtrrTypeResv →
    ts.foldlM mtrrCombine p = some r → r ≠ mtrrTypeResv := by
  induction ts with
  | nil => intro p hp h; exact Option.some.inj h ▸ hp
  | cons t ts ih =>
      intro p hp h
      rw [List.foldlM_cons] at h
      obtain ⟨q, hq, h⟩ := Option.bind_eq_some_iff.mp h
      exact ih q (mtrrCombine_ne_resv hp hq) h

theorem foldVarType_cons (d : BitVec 8) (ht : t ≠ mtrrTypeResv) :
    foldVarType d (t :: ts) = (ts.foldlM mtrrCombine t).map (·.setWidth 8) := by
  rw [foldVarType, List.foldlM_cons, mtrrCombine_resv]
  simp only [Option.bind_eq_bind, Option.bind_some]
  cases h : ts.foldlM mtrrCombine t with
  | none => rfl
  | some r => exact if_neg (foldlM_ne_resv ts t ht h)

/-- UC does not match together with other types that conflict among themselves. -/
def UcOverCompatible (ts : List (BitVec 32)) : Prop :=
  mtrrTypeUc ∈ ts → Compatible (ts.filter (· ≠ mtrrTypeUc))

theorem foldVarType_eq_sdm (d : BitVec 8) (hr : mtrrTypeResv ∉ ts) (h : UcOverCompatible ts) :
    foldVarType d ts = sdmVarType d ts := by
  cases ts with
  | nil => rfl
  | cons t ts =>
      have ht : t ≠ mtrrTypeResv := fun heq => hr (heq ▸ List.mem_cons_self ..)
      rw [foldVarType_cons d ht, sdmVarType]
      by_cases hu : mtrrTypeUc ∈ t :: ts
      · rw [if_pos hu]
        by_cases htu : t = mtrrTypeUc
        · rw [htu, foldlM_uc]
          rfl
        · have hu' : mtrrTypeUc ∈ ts := (List.mem_cons.mp hu).resolve_left fun heq => htu heq.symm
          have hdec : decide (t ≠ mtrrTypeUc) = true := decide_eq_true htu
          have hc := h hu
          rw [List.filter_cons, if_pos hdec] at hc
          rw [foldlM_reaches_uc ts t ht htu hu' hc]
          rfl
      · have htu : t ≠ mtrrTypeUc := fun heq => hu (heq ▸ List.mem_cons_self ..)
        have hu' : mtrrTypeUc ∉ ts := fun hin => hu (List.mem_cons_of_mem _ hin)
        rw [if_neg hu, foldlM_no_uc ts t ht htu hu']

theorem foldVarType_conflict (d : BitVec 8) (hr : mtrrTypeResv ∉ ts) (hu : mtrrTypeUc ∉ ts)
    (h : ¬ Compatible ts) (us : List (BitVec 32)) : foldVarType d (ts ++ us) = none := by
  cases ts with
  | nil => exact absurd (Or.inr fun a ha => by cases ha) h
  | cons t ts =>
      have ht : t ≠ mtrrTypeResv := fun heq => hr (heq ▸ List.mem_cons_self ..)
      have htu : t ≠ mtrrTypeUc := fun heq => hu (heq ▸ List.mem_cons_self ..)
      have hu' : mtrrTypeUc ∉ ts := fun hin => hu (List.mem_cons_of_mem _ hin)
      have hnone : commonType t ts = none := by
        rw [commonType, if_neg, if_neg fun hmix => h (Or.inr hmix)]
        intro hs
        have hall : ∀ a ∈ t :: ts, a = t := List.forall_mem_cons.mpr ⟨rfl, hs⟩
        exact h (Or.inl fun a ha b hb => (hall a ha).trans (hall b hb).symm)
      rw [List.cons_append, foldVarType_cons d ht, List.foldlM_append,
        foldlM_no_uc ts t ht htu hu', hnone]
      rfl

end Combine

def mtrrTypes : List (BitVec 32) := [mtrrTypeUc, mtrrTypeWc, mtrrTypeWt, mtrrTypeWp, mtrrTypeWb]

theorem eptGetMemType_var (img : Image) (hm : vcpu.vmxEptMtrrEnable = true)
    (hfix : ¬ (addr < 0x100000#64 ∧ vcpu.vmxEptFixmtrrEnable = true)) (vs : List VarMtrr) :
    eptGetMemType img { vcpu with varMtrrs := vs } addr =
      foldVarType vcpu.vmxEptDefaulttype (matchingTypes addr vs) := by
  rw [eptGetMemType, hm, Bool.not_true, if_neg Bool.false_ne_true, if_neg hfix, eptVarMemType_eq]
  rfl

variable (addr) in
theorem matchingTypes_perm {vs vs' : List VarMtrr} (h : vs.Perm vs') :
    (matchingTypes addr vs).Perm (matchingTypes addr vs') :=
  (h.filter _).map _

variable (addr) in
theorem resv_notMem_matchingTypes {vs : List VarMtrr} (h : ∀ p ∈ vs, p.type ∈ mtrrTypes) :
    mtrrTypeResv ∉ matchingTypes addr vs := by
  intro hin
  obtain ⟨p, hp, heq⟩ := List.mem_map.mp hin
  have ht := h p (List.mem_filter.mp hp).1
  rw [heq] at ht
  exact absurd ht (by decide)

/-- The pairs that are not UC, before those that are. -/
def ucLast (vs : List VarMtrr) : List VarMtrr :=
  vs.filter (·.type ≠ mtrrTypeUc) ++ vs.filter (·.type = mtrrTypeUc)

theorem ucLast_perm (vs : List VarMtrr) : (ucLast vs).Perm vs := by
  have h := List.filter_append_perm (fun p : VarMtrr => decide (p.type ≠ mtrrTypeUc)) vs
  simpa [ucLast] using h

variable (addr) in
theorem matchingTypes_ucLast (vs : List VarMtrr) :
    ∃ us, matchingTypes addr (ucLast vs) =
      (matchingTypes addr vs).filter (· ≠ mtrrTypeUc) ++ us := by
  refine ⟨matchingTypes addr (vs.filter (·.type = mtrrTypeUc)), ?_⟩
  rw [ucLast, matchingTypes, List.filter_append, List.map_append]
  congr 1
  rw [matchingTypes, List.filter_map, List.filter_filter, List.filter_filter]
  congr 2
  funext p
  exact Bool.and_comm _ _

/-- **When the order of the pairs does not matter.**  The outcome is what the SDM says, for the
pairs in every order, exactly when UC does not match together with types that conflict. -/
theorem var_mtrr_resolution_iff (img : Image) (vcpu : Vcpu) (addr : BitVec 64)
    (hm : vcpu.vmxEptMtrrEnable = true)
    (hfix : ¬ (addr < 0x100000#64 ∧ vcpu.vmxEptFixmtrrEnable = true))
    (htypes : ∀ p ∈ vcpu.varMtrrs, p.type ∈ mtrrTypes) :
    (∀ vs, vs.Perm vcpu.varMtrrs →
      eptGetMemType img { vcpu with varMtrrs := vs } addr =
        sdmVarType vcpu.vmxEptDefaulttype (matchingTypes addr vcpu.varMtrrs)) ↔
      UcOverCompatible (matchingTypes addr vcpu.varMtrrs) := by
  have hr := resv_notMem_matchingTypes addr htypes
  constructor
  · intro hall hu
    by_contra hconf
    -- the conflict comes first and halts, where UC should win
    have hlast := hall (ucLast vcpu.varMtrrs) (ucLast_perm _)
    obtain ⟨us, hus⟩ := matchingTypes_ucLast addr vcpu.varMtrrs
    rw [eptGetMemType_var img hm hfix, hus, foldVarType_conflict _ _ _ hconf, sdmVarType_uc _ hu]
      at hlast
    · cases hlast
    · exact fun hin => hr (List.mem_filter.mp hin).1
    · exact fun hin => of_decide_eq_true (List.mem_filter.mp hin).2 rfl
  · intro hc vs hp
    have hts := matchingTypes_perm addr hp
    have hc' : UcOverCompatible (matchingTypes addr vs) := fun hu =>
      (hc (hts.mem_iff.mp hu)).mono (hts.filter _).subset
    rw [eptGetMemType_var img hm hfix,
      foldVarType_eq_sdm _ (fun hin => hr (hts.mem_iff.mp hin)) hc']
    exact sdmVarType_perm _ hts

/-- Write-combining and write-back overlap, and uncacheable covers both. -/
def ucOverConflict : List VarMtrr :=
  [{ base := 0xd0000001#64, mask := 0xf0000800#64 },
    { base := 0xc0000006#64, mask := 0xc0000800#64 },
    { base := 0x80000000#64, mask := 0x80000800#64 }]

/-- A `VCPU` with given pairs, MTRRs enabled and the fixed ones disabled. -/
def varMtrrVcpu (vs : List VarMtrr) : Vcpu where
  idx := 0
  vmxEptDefaulttype := 6
  vmxEptMtrrEnable := true
  vmxEptFixmtrrEnable := false
  fixMtrrs _ := 0
  varMtrrs := vs

/-- Below `0xc0000000` only UC matches, with the MTRRs in the other order too. -/
theorem var_mtrr_resolution_iff_uc :
    eptGetMemType sampleImage (varMtrrVcpu ucOverConflict.reverse) 0x80000000#64 = some 0#8 := by
  have hts : matchingTypes 0x80000000#64 (varMtrrVcpu ucOverConflict).varMtrrs = [mtrrTypeUc] := by
    decide
  have hnone : [mtrrTypeUc].filter (· ≠ mtrrTypeUc) = [] := by decide
  have h := (var_mtrr_resolution_iff sampleImage (varMtrrVcpu ucOverConflict) 0x80000000#64
    rfl (by decide) (by decide)).mpr ?_ _ (List.reverse_perm _)
  · rw [hts] at h
    exact h
  · intro _
    rw [hts, hnone]
    exact Or.inr fun a ha => by cases ha

/-- At `0xd0000000` all three match: in this order the CPU halts, with UC first it does not. -/
theorem var_mtrr_order_matters :
    matchingTypes 0xd0000000#64 ucOverConflict = [mtrrTypeWc, mtrrTypeWb, mtrrTypeUc] ∧
      eptGetMemType sampleImage (varMtrrVcpu ucOverConflict) 0xd0000000#64 = none ∧
      eptGetMemType sampleImage (varMtrrVcpu ucOverConflict.reverse) 0xd0000000#64 = some 0#8 ∧
      sdmVarType 6 [mtrrTypeWc, mtrrTypeWb, mtrrTypeUc] = some 0#8 := by
  decide

end Shv
