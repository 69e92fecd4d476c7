/-
# `Shv.Vmcs` — `shv-vmcs.c`: saving and restoring the VMCS

`vmcs_dump` reads every field the CPU has into `vcpu->vmcs`, `vmcs_load` writes every one of them
back.  The accessors below them assert the class of the encoding, the width of the value and that
the instruction succeeded; on i386 a 64-bit field is two accesses, the second to `encoding + 1`.

What the CPU does: VMREAD succeeds on the fields it has.  VMWRITE succeeds on those of them that
are writable, and a read-only field is writable only if `IA32_VMX_MISC[29]` is set.  A write to a
64-bit field outside 64-bit mode clears its high half, so that on i386 the order of the two writes
matters: the low half goes first.

`vmcs_load` writes the read-only fields too.  The pair is a round trip on the CPUs that allow it,
and on no others (`vmcs_dump_load_iff`).  Printing (`verbose`, `vmcs_print_all`) is left out.
-/
import Shv.VmcsFields

namespace Shv

/-! ## The CPU's VMCS -/

/-- The current VMCS: every field under its encoding, of the width its encoding carries. -/
def Vmcs (arch : Arch) : Type :=
  (encoding : Nat) → BitVec ((encodingWidth encoding).bits arch)

def Vmcs.set {arch : Arch} (hw : Vmcs arch) (encoding : Nat)
    (value : BitVec ((encodingWidth encoding).bits arch)) : Vmcs arch :=
  Function.update hw encoding value

@[simp] theorem Vmcs.set_same {arch : Arch} (hw : Vmcs arch) (encoding : Nat)
    (value : BitVec ((encodingWidth encoding).bits arch)) :
    hw.set encoding value encoding = value := by
  unfold Vmcs.set
  exact Function.update_self _ _ _

theorem Vmcs.set_other {arch : Arch} (hw : Vmcs arch) {encoding e : Nat} (h : e ≠ encoding)
    (value : BitVec ((encodingWidth encoding).bits arch)) : hw.set encoding value e = hw e := by
  unfold Vmcs.set
  exact Function.update_of_ne h _ _

@[simp] theorem Vmcs.set_eq_self {arch : Arch} (hw : Vmcs arch) (encoding : Nat) :
    hw.set encoding (hw encoding) = hw :=
  Function.update_eq_self encoding hw

@[simp] theorem Vmcs.set_set {arch : Arch} (hw : Vmcs arch) (encoding : Nat)
    (value value' : BitVec ((encodingWidth encoding).bits arch)) :
    (hw.set encoding value).set encoding value' = hw.set encoding value' := by
  unfold Vmcs.set
  exact Function.update_idem _ _ _

/-- The encodings VMREAD accepts: those of the fields the CPU has, and those of the high halves
of its 64-bit fields. -/
def vmreadable (cpu : VmxCpu) (encoding : Nat) : Bool :=
  vmcsNames.any fun n => (vmcsField n).exist cpu &&
    ((vmcsField n).encoding == encoding ||
      (vmcsField n).width == .w64 && (vmcsField n).encoding + 1 == encoding)

/-- The encodings VMWRITE accepts. -/
def vmwritable (cpu : VmxCpu) (encoding : Nat) : Bool :=
  vmreadable cpu encoding && (!encodingReadOnly encoding || cpu.vmxMisc.getLsbD 29)

/-- `__vmx_vmread`; `none` is status 0. -/
def vmxVmread (cpu : VmxCpu) (hw : Vmcs cpu.arch) (encoding : Nat) :
    Option (BitVec cpu.arch.ptrBits) :=
  if vmreadable cpu encoding then
    if encoding % 2 = 0 then some ((hw encoding).setWidth _)
    else some ((hw (encoding - 1) >>> 32).setWidth _)
  else none

/-- `__vmx_vmwrite`; `none` is status 0. -/
def vmxVmwrite (cpu : VmxCpu) (encoding : Nat) (value : BitVec cpu.arch.ptrBits)
    (hw : Vmcs cpu.arch) : Option (Vmcs cpu.arch) :=
  if vmwritable cpu encoding then
    if encoding % 2 = 0 then some (hw.set encoding (value.setWidth _))
    else
      some (hw.set (encoding - 1)
        ((value.setWidth 32 ++ (hw (encoding - 1)).setWidth 32).setWidth _))
  else none

/-! ## The accessors -/

/-- The accessors `__vmx_vmread…_safe` of the widths one VMREAD reads. -/
def vmxVmreadSafe (index bits : Nat) (cpu : VmxCpu) (hw : Vmcs cpu.arch) (encoding : Nat) :
    Halting (Option (BitVec bits)) := do
  cAssert (encoding >>> 12 == index)
  match vmxVmread cpu hw encoding with
  | none => return none
  | some value =>
    cAssert (value == (value.setWidth bits).setWidth _)
    return some (value.setWidth bits)

def vmxVmread16Safe (cpu : VmxCpu) := vmxVmreadSafe 0 16 cpu

def vmxVmread32Safe (cpu : VmxCpu) := vmxVmreadSafe 4 32 cpu

def vmxVmreadNWSafe (cpu : VmxCpu) := vmxVmreadSafe 6 cpu.arch.ptrBits cpu

def vmxVmread64Safe (cpu : VmxCpu) (hw : Vmcs cpu.arch) (encoding : Nat) :
    Halting (Option (BitVec 64)) :=
  match cpu.arch with
  | .amd64 => do
    cAssert (encoding >>> 12 == 2)
    match vmxVmread cpu hw encoding with
    | none => return none
    | some value => return some (value.setWidth 64)
  | .i386 => do
    cAssert (encoding >>> 12 == 2)
    cAssert (encoding &&& 1 == 0)
    match vmxVmread cpu hw encoding with
    | none => return none
    | some low =>
      let high ← vmxVmread cpu hw (encoding + 1)
      return some (high.setWidth 32 ++ low.setWidth 32)

/-- `ASSERT(safe(encoding, &value)); return value;`. -/
def assertSuccess {α : Type} (safe : Halting (Option α)) : Halting α := do
  match ← safe with
  | none => none
  | some value => return value

def vmxVmread16 (cpu : VmxCpu) (hw : Vmcs cpu.arch) (encoding : Nat) :=
  assertSuccess (vmxVmread16Safe cpu hw encoding)

def vmxVmread64 (cpu : VmxCpu) (hw : Vmcs cpu.arch) (encoding : Nat) :=
  assertSuccess (vmxVmread64Safe cpu hw encoding)

def vmxVmread32 (cpu : VmxCpu) (hw : Vmcs cpu.arch) (encoding : Nat) :=
  assertSuccess (vmxVmread32Safe cpu hw encoding)

def vmxVmreadNW (cpu : VmxCpu) (hw : Vmcs cpu.arch) (encoding : Nat) :=
  assertSuccess (vmxVmreadNWSafe cpu hw encoding)

/-- The read accessor of a width. -/
def vmxVmreadWidth (cpu : VmxCpu) (hw : Vmcs cpu.arch) (encoding : Nat) :
    (width : VmcsWidth) → Halting (BitVec (width.bits cpu.arch))
  | .w16 => vmxVmread16 cpu hw encoding
  | .w64 => vmxVmread64 cpu hw encoding
  | .w32 => vmxVmread32 cpu hw encoding
  | .nw => vmxVmreadNW cpu hw encoding

/-- The accessors `__vmx_vmwrite…` of the widths one VMWRITE writes. -/
def vmxVmwriteAssert (index bits : Nat) (cpu : VmxCpu) (encoding : Nat) (value : BitVec bits)
    (hw : Vmcs cpu.arch) : Halting (Vmcs cpu.arch) := do
  cAssert (encoding >>> 12 == index)
  vmxVmwrite cpu encoding (value.setWidth _) hw

def vmxVmwrite16 (cpu : VmxCpu) := vmxVmwriteAssert 0 16 cpu

def vmxVmwrite32 (cpu : VmxCpu) := vmxVmwriteAssert 4 32 cpu

def vmxVmwriteNW (cpu : VmxCpu) := vmxVmwriteAssert 6 cpu.arch.ptrBits cpu

def vmxVmwrite64 (cpu : VmxCpu) (encoding : Nat) (value : BitVec 64) (hw : Vmcs cpu.arch) :
    Halting (Vmcs cpu.arch) := do
  cAssert (encoding >>> 12 == 2)
  cAssert (encoding &&& 1 == 0)
  match cpu.arch with
  | .amd64 => vmxVmwrite cpu encoding (value.setWidth _) hw
  | .i386 =>
    let hw' ← vmxVmwrite cpu encoding (value.setWidth _) hw
    vmxVmwrite cpu (encoding + 1) ((value >>> 32).setWidth _) hw'

/-- The write accessor of a width. -/
def vmxVmwriteWidth (cpu : VmxCpu) (encoding : Nat) :
    (width : VmcsWidth) → BitVec (width.bits cpu.arch) → Vmcs cpu.arch → Halting (Vmcs cpu.arch)
  | .w16 => vmxVmwrite16 cpu encoding
  | .w64 => vmxVmwrite64 cpu encoding
  | .w32 => vmxVmwrite32 cpu encoding
  | .nw => vmxVmwriteNW cpu encoding

/-! ## `vmcs_dump` and `vmcs_load` -/

/-- `struct _vmx_vmcsfields`. -/
def VmcsFields (arch : Arch) : Type :=
  (n : VmcsName) → BitVec ((vmcsField n).width.bits arch)

/-- `vcpu->vmcs.name = value`. -/
def VmcsFields.set {arch : Arch} (vmcs : VmcsFields arch) (n : VmcsName)
    (value : BitVec ((vmcsField n).width.bits arch)) : VmcsFields arch :=
  Function.update vmcs n value

@[simp] theorem VmcsFields.set_same {arch : Arch} (vmcs : VmcsFields arch) (n : VmcsName)
    (value : BitVec ((vmcsField n).width.bits arch)) : vmcs.set n value n = value := by
  unfold VmcsFields.set
  exact Function.update_self _ _ _

theorem VmcsFields.set_other {arch : Arch} (vmcs : VmcsFields arch) {n n' : VmcsName}
    (h : n' ≠ n) (value : BitVec ((vmcsField n).width.bits arch)) :
    vmcs.set n value n' = vmcs n' := by
  unfold VmcsFields.set
  exact Function.update_of_ne h _ _

/-- `DECLARE_FIELD_…` of `vmcs_dump`. -/
def vmcsDumpField (cpu : VmxCpu) (hw : Vmcs cpu.arch) (vmcs : VmcsFields cpu.arch) (n : VmcsName) :
    Halting (VmcsFields cpu.arch) :=
  if (vmcsField n).exist cpu then do
    let value ← vmxVmreadWidth cpu hw (vmcsField n).encoding (vmcsField n).width
    return vmcs.set n value
  else return vmcs

def vmcsDump (cpu : VmxCpu) (hw : Vmcs cpu.arch) (vmcs : VmcsFields cpu.arch) :
    Halting (VmcsFields cpu.arch) :=
  vmcsNames.foldlM (vmcsDumpField cpu hw) vmcs

/-- `DECLARE_FIELD_…` of `vmcs_load`. -/
def vmcsLoadField (cpu : VmxCpu) (vmcs : VmcsFields cpu.arch) (hw : Vmcs cpu.arch) (n : VmcsName) :
    Halting (Vmcs cpu.arch) :=
  if (vmcsField n).exist cpu then
    vmxVmwriteWidth cpu (vmcsField n).encoding (vmcsField n).width (vmcs n) hw
  else return hw

def vmcsLoad (cpu : VmxCpu) (vmcs : VmcsFields cpu.arch) (hw : Vmcs cpu.arch) :
    Halting (Vmcs cpu.arch) :=
  vmcsNames.foldlM (vmcsLoadField cpu vmcs) hw

/-! ## What the accessors do on a field the CPU has -/

/-- An encoding of a field of the given width that the CPU has. -/
structure HasField (cpu : VmxCpu) (encoding : Nat) (width : VmcsWidth) : Prop where
  width_eq : encodingWidth encoding = width
  index_eq : encoding >>> 12 = width.index
  even : encoding % 2 = 0
  full : vmreadable cpu encoding = true
  high : width = .w64 → vmreadable cpu (encoding + 1) = true

theorem hasField_of_exist {cpu : VmxCpu} {n : VmcsName} (h : (vmcsField n).exist cpu = true) :
    HasField cpu (vmcsField n).encoding (vmcsField n).width := by
  obtain ⟨hwidth, -, hindex, heven⟩ := vmcsField_encoding n
  refine ⟨hwidth, hindex, heven, ?_, ?_⟩
  · exact List.any_eq_true.mpr ⟨n, mem_vmcsNames n, by simp [h]⟩
  · intro h64
    exact List.any_eq_true.mpr ⟨n, mem_vmcsNames n, by simp [h, h64]⟩

section Access

variable {cpu : VmxCpu} {encoding : Nat} {width : VmcsWidth}

theorem vmxVmread_full (hw : Vmcs cpu.arch) (h : HasField cpu encoding width) :
    vmxVmread cpu hw encoding = some ((hw encoding).setWidth _) := by
  rw [vmxVmread, if_pos h.full, if_pos h.even]

theorem vmxVmread_high (hw : Vmcs cpu.arch) (h : HasField cpu encoding .w64) :
    vmxVmread cpu hw (encoding + 1) = some ((hw encoding >>> 32).setWidth _) := by
  have hodd : ¬(encoding + 1) % 2 = 0 := by have := h.even; omega
  rw [vmxVmread, if_pos (h.high rfl), if_neg hodd]
  rfl

theorem vmxVmwrite_full (hmisc : cpu.vmxMisc.getLsbD 29 = true) (hw : Vmcs cpu.arch)
    (value : BitVec cpu.arch.ptrBits) (h : HasField cpu encoding width) :
    vmxVmwrite cpu encoding value hw =
      some (hw.set encoding (value.setWidth _)) := by
  have hwr : vmwritable cpu encoding = true := by simp [vmwritable, h.full, hmisc]
  rw [vmxVmwrite, if_pos hwr, if_pos h.even]

theorem vmxVmwrite_high (hmisc : cpu.vmxMisc.getLsbD 29 = true) (hw : Vmcs cpu.arch)
    (value : BitVec cpu.arch.ptrBits) (h : HasField cpu encoding .w64) :
    vmxVmwrite cpu (encoding + 1) value hw =
      some (hw.set encoding
        ((value.setWidth 32 ++ (hw encoding).setWidth 32).setWidth _)) := by
  have hwr : vmwritable cpu (encoding + 1) = true := by simp [vmwritable, h.high rfl, hmisc]
  have hodd : ¬(encoding + 1) % 2 = 0 := by have := h.even; omega
  rw [vmxVmwrite, if_pos hwr, if_neg hodd]
  rfl

/-- A 64-bit value is put together from its halves, as they pass through a register. -/
theorem halves_append {k p : Nat} (hk : k = 64) (hp : 32 ≤ p) (x : BitVec k) :
    ((x >>> 32).setWidth p).setWidth 32 ++ (x.setWidth p).setWidth 32 = x.setWidth 64 := by
  subst hk
  rw [BitVec.setWidth_setWidth_of_le _ hp, BitVec.setWidth_setWidth_of_le _ hp]
  ext i hi
  simp only [BitVec.getElem_append, BitVec.getElem_setWidth, BitVec.getLsbD_ushiftRight]
  by_cases h : i < 32
  · simp [h]
  · simp [h, show 32 + (i - 32) = i by omega]

theorem vmxVmreadSafe_eq {index bits : Nat} (hw : Vmcs cpu.arch) (h : HasField cpu encoding width)
    (hindex : width.index = index) (hbits : width.bits cpu.arch = bits)
    (hp : bits ≤ cpu.arch.ptrBits) :
    vmxVmreadSafe index bits cpu hw encoding = some (some ((hw encoding).setWidth bits)) := by
  have hk : (encodingWidth encoding).bits cpu.arch ≤ bits := by rw [h.width_eq, hbits]
  have hfit : ((hw encoding).setWidth cpu.arch.ptrBits).setWidth bits =
      (hw encoding).setWidth bits := BitVec.setWidth_setWidth_of_le _ hp
  have hback : ((hw encoding).setWidth bits).setWidth cpu.arch.ptrBits =
      (hw encoding).setWidth cpu.arch.ptrBits := by
    apply BitVec.eq_of_toNat_eq
    have hlt := Nat.lt_of_lt_of_le (hw encoding).isLt (Nat.pow_le_pow_right (by decide) hk)
    simp only [BitVec.toNat_setWidth, Nat.mod_eq_of_lt hlt]
  rw [vmxVmreadSafe, h.index_eq, hindex, vmxVmread_full hw h]
  simp [hfit, hback]

theorem vmxVmread64Safe_eq (hw : Vmcs cpu.arch) (h : HasField cpu encoding .w64) :
    vmxVmread64Safe cpu hw encoding = some (some ((hw encoding).setWidth 64)) := by
  have hk : (encodingWidth encoding).bits cpu.arch = 64 := by rw [h.width_eq]; rfl
  have hlow : encoding &&& 1 = 0 := by rw [Nat.and_one_is_mod, h.even]
  unfold vmxVmread64Safe
  split
  · rename_i harch
    have hp : 64 ≤ cpu.arch.ptrBits := by rw [harch]; decide
    rw [h.index_eq, vmxVmread_full hw h]
    simp [VmcsWidth.index, BitVec.setWidth_setWidth_of_le _ hp]
  · rw [h.index_eq, hlow, vmxVmread_full hw h, vmxVmread_high hw h]
    simp [VmcsWidth.index, halves_append hk (ptrBits_ge cpu.arch)]

theorem assertSuccess_of {α : Type} {safe : Halting (Option α)} {value : α}
    (h : safe = some (some value)) : assertSuccess safe = some value := by
  rw [h]
  rfl

theorem vmxVmreadWidth_eq (hw : Vmcs cpu.arch) (h : HasField cpu encoding width) :
    vmxVmreadWidth cpu hw encoding width = some ((hw encoding).setWidth _) := by
  have hp := ptrBits_ge cpu.arch
  cases width with
  | w16 => exact assertSuccess_of (vmxVmreadSafe_eq hw h rfl rfl (Nat.le_trans (by decide) hp))
  | w64 => exact assertSuccess_of (vmxVmread64Safe_eq hw h)
  | w32 => exact assertSuccess_of (vmxVmreadSafe_eq hw h rfl rfl hp)
  | nw => exact assertSuccess_of (vmxVmreadSafe_eq hw h rfl rfl (Nat.le_refl _))

theorem vmxVmwriteAssert_back {index bits : Nat} (hmisc : cpu.vmxMisc.getLsbD 29 = true)
    (hw : Vmcs cpu.arch) (h : HasField cpu encoding width) (hindex : width.index = index)
    (hbits : width.bits cpu.arch = bits) (hp : bits ≤ cpu.arch.ptrBits) :
    vmxVmwriteAssert index bits cpu encoding ((hw encoding).setWidth bits) hw = some hw := by
  have hk : (encodingWidth encoding).bits cpu.arch = bits := by rw [h.width_eq, hbits]
  have hback : (((hw encoding).setWidth bits).setWidth cpu.arch.ptrBits).setWidth
      ((encodingWidth encoding).bits cpu.arch) = hw encoding := by
    rw [BitVec.setWidth_setWidth_of_le _ (hk ▸ hp), BitVec.setWidth_setWidth_of_le _ hk.le,
      BitVec.setWidth_eq]
  rw [vmxVmwriteAssert, h.index_eq, hindex, vmxVmwrite_full hmisc hw _ h, hback]
  simp

theorem vmxVmwrite64_back (hmisc : cpu.vmxMisc.getLsbD 29 = true) (hw : Vmcs cpu.arch)
    (h : HasField cpu encoding .w64) :
    vmxVmwrite64 cpu encoding ((hw encoding).setWidth 64) hw = some hw := by
  have hk : (encodingWidth encoding).bits cpu.arch = 64 := by rw [h.width_eq]; rfl
  have hlow : encoding &&& 1 = 0 := by rw [Nat.and_one_is_mod, h.even]
  unfold vmxVmwrite64
  rw [h.index_eq, hlow]
  simp only [VmcsWidth.index, beq_self_eq_true, cAssert_true]
  dsimp only [Bind.bind, Option.bind]
  split
  · rename_i harch
    have hp : 64 ≤ cpu.arch.ptrBits := by rw [harch]; decide
    rw [vmxVmwrite_full hmisc hw _ h, BitVec.setWidth_setWidth_of_le _ (hk ▸ hp),
      BitVec.setWidth_setWidth_of_le _ hk.le, BitVec.setWidth_eq, Vmcs.set_eq_self]
  · rw [vmxVmwrite_full hmisc hw _ h]
    dsimp only
    -- the first write has cleared the high half; the second keeps the low half and puts it back
    have hkeep : ((((hw encoding).setWidth 64).setWidth cpu.arch.ptrBits).setWidth
        ((encodingWidth encoding).bits cpu.arch)).setWidth 32 =
        (((hw encoding).setWidth 64).setWidth cpu.arch.ptrBits).setWidth 32 :=
      BitVec.setWidth_setWidth_of_le _ (by rw [hk]; decide)
    rw [vmxVmwrite_high hmisc _ _ h, Vmcs.set_set, Vmcs.set_same, hkeep,
      halves_append rfl (ptrBits_ge cpu.arch), BitVec.setWidth_eq,
      BitVec.setWidth_setWidth_of_le _ hk.le, BitVec.setWidth_eq, Vmcs.set_eq_self]

theorem vmxVmwriteWidth_back (hmisc : cpu.vmxMisc.getLsbD 29 = true) (hw : Vmcs cpu.arch)
    (h : HasField cpu encoding width) :
    vmxVmwriteWidth cpu encoding width ((hw encoding).setWidth _) hw = some hw := by
  have hp := ptrBits_ge cpu.arch
  cases width with
  | w16 => exact vmxVmwriteAssert_back hmisc hw h rfl rfl (Nat.le_trans (by decide) hp)
  | w64 => exact vmxVmwrite64_back hmisc hw h
  | w32 => exact vmxVmwriteAssert_back hmisc hw h rfl rfl hp
  | nw => exact vmxVmwriteAssert_back hmisc hw h rfl rfl (Nat.le_refl _)

end Access

/-! ## The two loops -/

/-- What `vmcs_dump` leaves in `vcpu->vmcs` after the fields of a list. -/
def dumped (cpu : VmxCpu) (hw : Vmcs cpu.arch) (vmcs : VmcsFields cpu.arch)
    (names : List VmcsName) : VmcsFields cpu.arch := fun n =>
  if n ∈ names ∧ (vmcsField n).exist cpu then (hw (vmcsField n).encoding).setWidth _ else vmcs n

theorem vmcsDumpField_eq {cpu : VmxCpu} (hw : Vmcs cpu.arch) (vmcs : VmcsFields cpu.arch)
    (n : VmcsName) : vmcsDumpField cpu hw vmcs n = some (dumped cpu hw vmcs [n]) := by
  unfold vmcsDumpField
  split
  · rename_i h
    rw [vmxVmreadWidth_eq hw (hasField_of_exist h)]
    refine congrArg some (funext fun n' => ?_)
    by_cases hn : n' = n
    · subst hn
      simp [dumped, h]
    · simp [dumped, VmcsFields.set_other, hn]
  · rename_i h
    refine congrArg some (funext fun n' => ?_)
    by_cases hn : n' = n
    · subst hn
      simp [dumped, h]
    · simp [dumped, hn]

theorem vmcsDump_eq {cpu : VmxCpu} (hw : Vmcs cpu.arch) (vmcs : VmcsFields cpu.arch)
    (names : List VmcsName) :
    names.foldlM (vmcsDumpField cpu hw) vmcs = some (dumped cpu hw vmcs names) := by
  induction names generalizing vmcs with
  | nil =>
    refine congrArg some (funext fun n => ?_)
    simp [dumped]
  | cons n names ih =>
    rw [List.foldlM_cons, vmcsDumpField_eq, Option.bind_eq_bind, Option.bind_some, ih]
    refine congrArg some (funext fun n' => ?_)
    unfold dumped
    grind

/-- On a CPU that lets every field be written, `vmcs_load` of what the fields hold succeeds and
changes nothing. -/
theorem vmcsLoad_back {cpu : VmxCpu} (hmisc : cpu.vmxMisc.getLsbD 29 = true) {hw : Vmcs cpu.arch}
    {vmcs : VmcsFields cpu.arch} (names : List VmcsName)
    (hvmcs : ∀ n, (vmcsField n).exist cpu = true →
      vmcs n = (hw (vmcsField n).encoding).setWidth _) :
    names.foldlM (vmcsLoadField cpu vmcs) hw = some hw := by
  induction names with
  | nil => rfl
  | cons n names ih =>
    have hfield : vmcsLoadField cpu vmcs hw n = some hw := by
      unfold vmcsLoadField
      split
      · rename_i h
        rw [hvmcs n h]
        exact vmxVmwriteWidth_back hmisc hw (hasField_of_exist h)
      · rfl
    rw [List.foldlM_cons, hfield, Option.bind_eq_bind, Option.bind_some, ih]

/-- A loop of fallible steps fails if one of its steps fails in every state. -/
theorem foldlM_eq_none {α σ : Type} {f : σ → α → Option σ} {a : α} {l : List α} (ha : a ∈ l)
    (hf : ∀ s, f s a = none) (s : σ) : l.foldlM f s = none := by
  induction l generalizing s with
  | nil => cases ha
  | cons b l ih =>
    rw [List.foldlM_cons]
    cases ha with
    | head => rw [hf s]; rfl
    | tail _ ha =>
      cases hb : f s b with
      | none => rfl
      | some s' => exact ih ha s'

/-- Without `IA32_VMX_MISC[29]`, `vmcs_load` halts: the VM-instruction error field exists on every
CPU and is read-only. -/
theorem vmcsLoad_halts {cpu : VmxCpu} (hmisc : cpu.vmxMisc.getLsbD 29 = false)
    (vmcs : VmcsFields cpu.arch) (hw : Vmcs cpu.arch) : vmcsLoad cpu vmcs hw = none := by
  refine foldlM_eq_none (mem_vmcsNames .infoVminstrError) (fun hw' => ?_) hw
  have hwr : vmwritable cpu 0x4400 = false := by
    rw [vmwritable, hmisc]
    exact Bool.and_false _
  have hwrite : ∀ value, vmxVmwrite cpu 0x4400 value hw' = none := by
    intro value
    rw [vmxVmwrite, hwr]
    rfl
  exact hwrite _

/-! ## The round trip -/

/-- `vmcs_dump` followed by `vmcs_load` succeeds, leaves every field the CPU has as it was, and a
second `vmcs_dump` leaves `vcpu->vmcs` as it was. -/
def VmcsRoundTrip (cpu : VmxCpu) (hw : Vmcs cpu.arch) (vmcs : VmcsFields cpu.arch) : Prop :=
  ∃ vmcs' hw', vmcsDump cpu hw vmcs = some vmcs' ∧ vmcsLoad cpu vmcs' hw = some hw' ∧
    (∀ n, (vmcsField n).exist cpu = true →
      hw' (vmcsField n).encoding = hw (vmcsField n).encoding) ∧
    vmcsDump cpu hw' vmcs' = some vmcs'

theorem not_vmcsRoundTrip {cpu : VmxCpu} (hmisc : cpu.vmxMisc.getLsbD 29 = false)
    (hw : Vmcs cpu.arch) (vmcs : VmcsFields cpu.arch) : ¬VmcsRoundTrip cpu hw vmcs := by
  rintro ⟨vmcs', hw', -, hload, -⟩
  rw [vmcsLoad_halts hmisc] at hload
  cases hload

theorem vmcsRoundTrip_of_misc {cpu : VmxCpu} (hmisc : cpu.vmxMisc.getLsbD 29 = true)
    (hw : Vmcs cpu.arch) (vmcs : VmcsFields cpu.arch) : VmcsRoundTrip cpu hw vmcs := by
  refine ⟨dumped cpu hw vmcs vmcsNames, hw, vmcsDump_eq hw vmcs vmcsNames, ?_, ?_, ?_⟩
  · apply vmcsLoad_back hmisc
    intro n h
    simp [dumped, h, mem_vmcsNames]
  · intro n _
    rfl
  · refine (vmcsDump_eq hw _ vmcsNames).trans (congrArg some (funext fun n => ?_))
    unfold dumped
    grind

/-- The round trip is one on the CPUs on which VMWRITE accepts the read-only fields, for every
content of the VMCS and of `vcpu->vmcs`, and on no others. -/
theorem vmcs_dump_load_iff (cpu : VmxCpu) (hw : Vmcs cpu.arch) (vmcs : VmcsFields cpu.arch) :
    VmcsRoundTrip cpu hw vmcs ↔ cpu.vmxMisc.getLsbD 29 = true := by
  constructor
  · intro h
    by_contra hmisc
    exact not_vmcsRoundTrip (Bool.eq_false_of_not_eq_true hmisc) hw vmcs h
  · intro hmisc
    exact vmcsRoundTrip_of_misc hmisc hw vmcs

/-- A CPU without `IA32_VMX_MISC[29]`, whose VMCS is all zero. -/
theorem vmcs_load_read_only :
    ¬VmcsRoundTrip
      { arch := .amd64, debugQemu := false, vmxCaps := ⟨0, 0, 0, 0, 0⟩, vmxMisc := 0 }
      (fun _ => 0) (fun _ => 0) :=
  not_vmcsRoundTrip rfl _ _

end Shv
