/-
# `Shv.MsrBitmap` — the test of the MSR bitmap

With the bitmap in use, RDMSR and WRMSR exit only for the MSRs whose bit is set, one
bit for each of 2^13 low and 2^13 high MSRs and each direction.  The guest has the
hypervisor set and clear bits with VMCALLs, and looks at what its next accesses do:
they go through, exit, or fault.

Two descriptions of such a script are related here.  In the concrete one
(`BitmapOp.run`) the bitmap is a page of memory that the handler edits and the CPU
reads, RDMSR and WRMSR are decided by control fields, bits and the MSRs the CPU has,
and interrupts may come whenever the guest has them enabled; the abstract one
(`BitmapOp.view`) knows which accesses are intercepted, and what the MSRs of the test
hold.

* `view_script` — a script that goes through in the abstract description goes through
  on the machine, wherever interrupts come;
* `bitmap_calls_refine` — any sequence of set and clear calls: the handler's
  assertions fail exactly where a bit is set twice or cleared twice, and what is
  intercepted is what has been set;
* `shv_guest_msr_bitmap_passes` — the script of the source goes through, any number of
  times.
-/
import Shv.Vmexit
import Shv.Lib.Leads
import Shv.Lib.Bitmap

namespace Shv

open ByteMem

/-! ## The machine -/

/-- `IA32_MSR_FS_BASE` and `IA32_MSR_GS_BASE`. -/
def ia32MsrFsBase : BitVec 32 := 0xc0000100
def ia32MsrGsBase : BitVec 32 := 0xc0000101

/-- `MSR_TEST_NORMAL`, `MSR_TEST_VMEXIT` and `MSR_TEST_EXCEPT`. -/
def msrTestNormal : BitVec 32 := 0x2900b05d
def msrTestVmexit : BitVec 32 := 0xf6d7a004
def msrTestExcept : BitVec 32 := 0xc23a16e5

/-- What the test runs on: the build, the address of this CPU's `msr_bitmap`, which MSRs RDMSR and
WRMSR accept, and at which points of the guest an interrupt is pending. -/
structure BitmapHost where
  arch : Arch
  msrBitmap : Nat
  readable : BitVec 32 → Bool
  writable : BitVec 32 → BitVec 64 → Bool
  pending : Nat → Bool

/-- Memory, the MSRs that host and guest share, `FS_BASE` and `GS_BASE` of both, the two fields of
the VMCS, the guest's interrupt flag, and how many points an interrupt may have come at. -/
structure BitmapState where
  mem : ByteMem
  msrs : BitVec 32 → BitVec 64
  guestFsBase : BitVec 64
  guestGsBase : BitVec 64
  hostFsBase : BitVec 64
  hostGsBase : BitVec 64
  vmxCpuBased : BitVec 32
  msrBitmapsAddress : Nat
  eflagsIf : Bool
  clock : Nat

/-- The bit that decides about an access, counted from the start of the bitmap: low and high MSRs
for reading, then for writing.  Other MSRs have none. -/
def msrBitmapBit (write : Bool) (msr : BitVec 32) : Option Nat :=
  if msr < 0x2000 then some ((if write then 0x4000 else 0x0000) + msr.toNat)
  else if 0xc0000000 ≤ msr ∧ msr < 0xc0002000 then
    some ((if write then 0x6000 else 0x2000) + (msr.toNat - 0xc0000000))
  else none

/-- Whether RDMSR or WRMSR in the guest exits. -/
def BitmapState.exits (s : BitmapState) (write : Bool) (msr : BitVec 32) : Bool :=
  if s.vmxCpuBased.getLsbD 28 then
    match msrBitmapBit write msr with
    | some k => Bitmap.bit s.mem s.msrBitmapsAddress k
    | none => true
  else true

/-! ## The test -/

/-- The script; `none` is a failed assertion. -/
abbrev BitmapRun := StateT BitmapState Option

def assertBitmap (b : Bool) : BitmapRun Unit := fun s => (cAssert b).map fun u => (u, s)

variable (host : BitmapHost)

/-- An interrupt may come before an instruction of the guest.  `xcph` loads FS and GS, which clears
their bases. -/
def interruptPoint : BitmapRun Unit := modify fun s =>
  let taken := s.eflagsIf && host.pending s.clock
  { s with
    guestFsBase := if taken then 0 else s.guestFsBase
    guestGsBase := if taken then 0 else s.guestGsBase
    clock := s.clock + 1 }

/-- `1U << 28`. -/
def useMsrBitmaps : BitVec 32 := 1#32 <<< 28

/-- `shv_guest_msr_bitmap_vmexit_handler` on a VMCALL. -/
def shvGuestMsrBitmapVmcall (eax ebx : BitVec 32) : BitmapRun Unit := do
  let s ← get
  let byte := host.msrBitmap + ebx.toNat / 8
  -- `1 << (r->ebx % 8)`
  let bit : BitVec 8 := Bitmap.mask ebx.toNat
  if eax = 34 then
    assertBitmap (s.vmxCpuBased &&& useMsrBitmaps == 0)
    assertBitmap ((List.range 4096).all fun i => s.mem (host.msrBitmap + i) == 0)
    set { s with vmxCpuBased := s.vmxCpuBased ||| useMsrBitmaps
                 msrBitmapsAddress := host.msrBitmap }
    assertBitmap (s.msrs 0x3b == 0)
  else if eax = 37 then
    assertBitmap (s.vmxCpuBased &&& useMsrBitmaps == useMsrBitmaps)
    set { s with vmxCpuBased := s.vmxCpuBased &&& ~~~useMsrBitmaps
                 msrs := Function.update s.msrs 0x3b 0 }
  else if eax = 38 then
    assertBitmap (ebx < 0x8000)
    assertBitmap (s.mem byte &&& bit == 0)
    set { s with mem := Function.update s.mem byte (s.mem byte ||| bit) }
  else if eax = 39 then
    assertBitmap (ebx < 0x8000)
    assertBitmap (s.mem byte &&& bit != 0)
    set { s with mem := Function.update s.mem byte (s.mem byte &&& ~~~bit) }
  else if eax = 41 then
    assertBitmap (s.hostFsBase == 0)
    assertBitmap (s.hostGsBase == 0)
    assertBitmap (s.guestFsBase == 0)
    assertBitmap (s.guestGsBase == 0)
    set { s with guestFsBase := 0x680effff, guestGsBase := 0x6810ffff }
  else if eax = 42 then
    assertBitmap (s.guestFsBase == 0xffff680e)
    assertBitmap (s.guestGsBase == 0xffff6810)
    assertBitmap (s.hostFsBase == 0)
    assertBitmap (s.hostGsBase == 0)
    set { s with guestFsBase := 0, guestGsBase := 0 }
  else return

/-- The registers that matter to the handler on RDMSR and WRMSR. -/
def msrRegs (arch : Arch) (ecx ebx : BitVec 32) : Regs arch := fun g =>
  if g = .cx then ecx.setWidth _ else if g = .bx then ebx.setWidth _ else 0

/-- EBX of the guest after an exit of RDMSR or WRMSR. -/
def msrExit (s : BitmapState) (reason : VmexitReason) (ecx ebx : BitVec 32) :
    Option (BitVec 32) :=
  let ctx : VmexitCtx :=
    { cpu := { cpuid := fun _ _ => ⟨0, 0, 0, 0⟩
               rdmsr := fun i => if host.readable i then some (s.msrs i) else none }
      vcpuIsOwn := true
      disableCpuid := false }
  match vmexitAsm ctx (some .msrBitmap) { vmexitReason := reason, guestRip := 0, instLen := 2 }
    (msrRegs host.arch ecx ebx) with
  | .resumed r _ => some (r.get .bx)
  | _ => none

/-- What RDMSR in the guest reads. -/
def guestMsr (s : BitmapState) (msr : BitVec 32) : BitVec 64 :=
  if msr = ia32MsrFsBase then s.guestFsBase
  else if msr = ia32MsrGsBase then s.guestGsBase
  else s.msrs msr

/-- What WRMSR in the guest writes. -/
def setGuestMsr (s : BitmapState) (msr : BitVec 32) (value : BitVec 64) : BitmapState :=
  if msr = ia32MsrFsBase then { s with guestFsBase := value }
  else if msr = ia32MsrGsBase then { s with guestGsBase := value }
  else { s with msrs := Function.update s.msrs msr value }

/-- An access that faults: `xcph` jumps to label 2. -/
def msrFault : BitmapRun (BitVec 32) := fun s =>
  some (msrTestExcept, { s with guestFsBase := 0, guestGsBase := 0 })

def testRdmsr (ecx expectedEbx : BitVec 32) : BitmapRun Unit := do
  let s ← get
  let ebx ←
    if s.exits false ecx then liftM (msrExit host s .rdmsr ecx msrTestNormal)
    else if host.readable ecx then pure msrTestNormal
    else msrFault
  assertBitmap (ebx == expectedEbx)

def testWrmsr (ecx expectedEbx : BitVec 32) (val : BitVec 64) : BitmapRun Unit := do
  let s ← get
  let ebx ←
    if s.exits true ecx then liftM (msrExit host s .wrmsr ecx msrTestNormal)
    else if host.writable ecx val then do
      set (setGuestMsr s ecx val)
      pure msrTestNormal
    else msrFault
  assertBitmap (ebx == expectedEbx)

/-- `ASSERT(rdmsr64(ecx) == val)` in the guest; the source has it only where the access does not
exit, and EBX, which the handler would check, is not defined there. -/
def assertRdmsr (ecx : BitVec 32) (val : BitVec 64) : BitmapRun Unit := do
  let s ← get
  assertBitmap (!s.exits false ecx && host.readable ecx && guestMsr s ecx == val)

/-- The steps of such a test. -/
inductive BitmapOp where
  | vmcall (eax ebx : BitVec 32)
  | rdmsr (ecx expectedEbx : BitVec 32)
  | wrmsr (ecx expectedEbx : BitVec 32) (val : BitVec 64)
  | checkMsr (ecx : BitVec 32) (val : BitVec 64)
  | cli
  | sti
  deriving DecidableEq, Repr

def BitmapOp.run (op : BitmapOp) : BitmapRun Unit := do
  interruptPoint host
  match op with
  | .vmcall eax ebx => shvGuestMsrBitmapVmcall host eax ebx
  | .rdmsr ecx expectedEbx => testRdmsr host ecx expectedEbx
  | .wrmsr ecx expectedEbx val => testWrmsr host ecx expectedEbx val
  | .checkMsr ecx val => assertRdmsr host ecx val
  | .cli => modify fun s => { s with eflagsIf := false }
  | .sti => modify fun s => { s with eflagsIf := true }

/-- `shv_guest_msr_bitmap` up to the `sti`. -/
def shvGuestMsrBitmapInUse : List BitmapOp :=
  [.vmcall 34 0,
    -- initial: ignore everything
    .rdmsr 0xc0000082 msrTestNormal,
    .wrmsr 0xc0000082 msrTestNormal 0xffffffffffffffff,
    .vmcall 38 (0x2000 + 0x82),
    -- VMEXIT only read IA32_LSTAR
    .rdmsr 0xc0000082 msrTestVmexit,
    .wrmsr 0xc0000082 msrTestNormal 0xffffffffffffffff,
    .vmcall 39 (0x2000 + 0x82),
    .vmcall 38 (0x6000 + 0x82),
    -- VMEXIT only write IA32_LSTAR
    .rdmsr 0xc0000082 msrTestNormal,
    .wrmsr 0xc0000082 msrTestVmexit 0xffffffffffffffff,
    .rdmsr 0x0000003b msrTestNormal,
    .wrmsr 0x0000003b msrTestNormal 0x1234567890abcdef,
    .vmcall 39 (0x6000 + 0x82),
    .vmcall 38 (0x0000 + 0x3b),
    -- VMEXIT only read IA32_TSC_ADJUST
    .rdmsr 0x0000003b msrTestVmexit,
    .wrmsr 0x0000003b msrTestNormal 0xfedcba0987654321,
    .vmcall 39 (0x0000 + 0x3b),
    .vmcall 38 (0x4000 + 0x3b),
    -- VMEXIT only write IA32_TSC_ADJUST
    .rdmsr 0x0000003b msrTestNormal,
    .wrmsr 0x0000003b msrTestVmexit 0xdeadbeefbeefdead,
    .vmcall 39 (0x4000 + 0x3b),
    .vmcall 38 (0x0000 + 0x1fff),
    -- VMEXIT only read 0x00001fff
    .rdmsr 0x00001fff msrTestVmexit,
    .rdmsr 0xc0001fff msrTestExcept,
    .wrmsr 0x00001fff msrTestExcept 0x1234567890abcdef,
    .wrmsr 0xc0001fff msrTestExcept 0x1234567890abcdef,
    .vmcall 39 (0x0000 + 0x1fff),
    .vmcall 38 (0x2000 + 0x1fff),
    -- VMEXIT only read 0xc0001fff
    .rdmsr 0x00001fff msrTestExcept,
    .rdmsr 0xc0001fff msrTestVmexit,
    .wrmsr 0x00001fff msrTestExcept 0x1234567890abcdef,
    .wrmsr 0xc0001fff msrTestExcept 0x1234567890abcdef,
    .vmcall 39 (0x2000 + 0x1fff),
    .vmcall 38 (0x4000 + 0x1fff),
    -- VMEXIT only write 0x00001fff
    .rdmsr 0x00001fff msrTestExcept,
    .rdmsr 0xc0001fff msrTestExcept,
    .wrmsr 0x00001fff msrTestVmexit 0x1234567890abcdef,
    .wrmsr 0xc0001fff msrTestExcept 0x1234567890abcdef,
    .vmcall 39 (0x4000 + 0x1fff),
    .vmcall 38 (0x6000 + 0x1fff),
    -- VMEXIT only write 0xc0001fff
    .rdmsr 0x00001fff msrTestExcept,
    .rdmsr 0xc0001fff msrTestExcept,
    .wrmsr 0x00001fff msrTestExcept 0x1234567890abcdef,
    .wrmsr 0xc0001fff msrTestVmexit 0x1234567890abcdef,
    .vmcall 39 (0x6000 + 0x1fff),
    -- IA32_FS_BASE and IA32_GS_BASE, with interrupts disabled
    .cli,
    .vmcall 41 0,
    .rdmsr ia32MsrFsBase msrTestNormal,
    .checkMsr ia32MsrFsBase 0x680effff,
    .checkMsr ia32MsrGsBase 0x6810ffff,
    .wrmsr ia32MsrFsBase msrTestNormal 0xffff680e,
    .wrmsr ia32MsrGsBase msrTestNormal 0xffff6810,
    .vmcall 42 0]

/-- `shv_guest_msr_bitmap` after it. -/
def shvGuestMsrBitmapDisabled : List BitmapOp :=
  [.vmcall 37 0,
    .rdmsr 0x00001fff msrTestVmexit,
    .rdmsr 0xc0001fff msrTestVmexit,
    .wrmsr 0x00001fff msrTestVmexit 0x1234567890abcdef,
    .wrmsr 0xc0001fff msrTestVmexit 0x1234567890abcdef]

def shvGuestMsrBitmap (noEflagsIf : Bool) : List BitmapOp :=
  shvGuestMsrBitmapInUse ++ (if noEflagsIf then [] else [.sti]) ++ shvGuestMsrBitmapDisabled

/-! ## What is intercepted -/

/-- What an access does where it does not exit, as far as it is known: it succeeds or faults. -/
structure MsrKnown where
  read : BitVec 32 → Option Bool
  write : BitVec 32 → BitVec 64 → Option Bool

/-- The CPU does so. -/
structure MsrKnown.Of (known : MsrKnown) (host : BitmapHost) : Prop where
  read : ∀ {msr b}, known.read msr = some b → host.readable msr = b
  write : ∀ {msr val b}, known.write msr val = some b → host.writable msr val = b

/-- The abstract state: whether the bitmap is in use and which bits are set, the MSRs the test looks
at, and whether interrupts may come. -/
structure BitmapView where
  on : Bool
  bits : List Nat
  tscAdjust : BitVec 64
  fsBase : BitVec 64
  gsBase : BitVec 64
  eflagsIf : Bool
  deriving DecidableEq

namespace BitmapView

/-- Whether an access exits. -/
def intercepts (v : BitmapView) (write : Bool) (msr : BitVec 32) : Bool :=
  !v.on || (msrBitmapBit write msr).all (· ∈ v.bits)

/-- What the bases are after they have been lost. -/
def loseBases (v : BitmapView) : BitmapView := { v with fsBase := 0, gsBase := 0 }

/-- An interrupt would lose nothing. -/
def quiet (v : BitmapView) : Bool := !v.eflagsIf || v.fsBase == 0 && v.gsBase == 0

def read (v : BitmapView) (msr : BitVec 32) : Option (BitVec 64) :=
  if msr = ia32MsrFsBase then some v.fsBase
  else if msr = ia32MsrGsBase then some v.gsBase
  else if msr = 0x3b then some v.tscAdjust
  else none

def write (v : BitmapView) (msr : BitVec 32) (val : BitVec 64) : BitmapView :=
  if msr = ia32MsrFsBase then { v with fsBase := val }
  else if msr = ia32MsrGsBase then { v with gsBase := val }
  else if msr = 0x3b then { v with tscAdjust := val }
  else v

end BitmapView

/-- An access that does not exit. -/
def BitmapView.access (v v' : BitmapView) (known : Option Bool) (expectedEbx : BitVec 32) :
    Option BitmapView :=
  match known with
  | some true => if expectedEbx = msrTestNormal then some v' else none
  | some false => if expectedEbx = msrTestExcept then some v.loseBases else none
  | none => none

def BitmapOp.apply (known : MsrKnown) (op : BitmapOp) (v : BitmapView) : Option BitmapView :=
  match op with
  | .vmcall eax ebx =>
    if eax = 34 then
      if v.on = false ∧ v.bits = [] ∧ v.tscAdjust = 0 then some { v with on := true } else none
    else if eax = 37 then
      if v.on = true then some { v with on := false, tscAdjust := 0 } else none
    else if eax = 38 then
      if ebx < 0x8000 ∧ ebx.toNat ∉ v.bits then
        some { v with bits := ebx.toNat :: v.bits }
      else none
    else if eax = 39 then
      if ebx < 0x8000 ∧ ebx.toNat ∈ v.bits then
        some { v with bits := v.bits.filter (· ≠ ebx.toNat) }
      else none
    else if eax = 41 then
      if v.fsBase = 0 ∧ v.gsBase = 0 then
        some { v with fsBase := 0x680effff, gsBase := 0x6810ffff }
      else none
    else if eax = 42 then
      if v.fsBase = 0xffff680e ∧ v.gsBase = 0xffff6810 then some v.loseBases else none
    else some v
  | .rdmsr ecx expectedEbx =>
    if v.intercepts false ecx then
      -- the handler leaves the APIC base and the x2APIC ID to `vmexit_handler`
      if expectedEbx = msrTestVmexit ∧ ecx ≠ 0x1b ∧ ecx ≠ 0x802 then some v else none
    else v.access v (known.read ecx) expectedEbx
  | .wrmsr ecx expectedEbx val =>
    if v.intercepts true ecx then
      if expectedEbx = msrTestVmexit then some v else none
    else v.access (v.write ecx val) (known.write ecx val) expectedEbx
  | .checkMsr ecx val =>
    if v.intercepts false ecx = false ∧ known.read ecx = some true ∧ v.read ecx = some val then
      some v
    else none
  | .cli => some { v with eflagsIf := false }
  | .sti => some { v with eflagsIf := true }

/-- One step on the view, provided that an interrupt after it would lose nothing. -/
def BitmapOp.view (known : MsrKnown) (op : BitmapOp) (v : BitmapView) : Option BitmapView :=
  (op.apply known v).filter BitmapView.quiet

/-! ## The machine follows the view -/

/-- `s` is as the view says, and elsewhere it is `s₀`. -/
structure BitmapView.Describes (v : BitmapView) (host : BitmapHost) (s₀ s : BitmapState) :
    Prop where
  on : s.vmxCpuBased.getLsbD 28 = v.on
  controls : ∀ i, i ≠ 28 → s.vmxCpuBased.getLsbD i = s₀.vmxCpuBased.getLsbD i
  address : v.on = true → s.msrBitmapsAddress = host.msrBitmap
  bits : ∀ k, k < 0x8000 → Bitmap.bit s.mem host.msrBitmap k = decide (k ∈ v.bits)
  frame : ∀ x, x ∉ span host.msrBitmap 4096 → s.mem x = s₀.mem x
  tscAdjust : s.msrs 0x3b = v.tscAdjust
  fsBase : s.guestFsBase = v.fsBase
  gsBase : s.guestGsBase = v.gsBase
  hostFsBase : s.hostFsBase = 0
  hostGsBase : s.hostGsBase = 0
  eflagsIf : s.eflagsIf = v.eflagsIf

variable {host : BitmapHost} {known : MsrKnown} {v v' : BitmapView} {s₀ s s' : BitmapState}
  {ecx ebx eax e : BitVec 32} {val : BitVec 64} {op : BitmapOp}

theorem assertBitmap_of {b : Bool} (h : b = true) (s : BitmapState) :
    assertBitmap b s = some ((), s) := by
  rw [h]
  rfl

theorem assertBitmap_bind (b : Bool) (f : Unit → BitmapRun Unit) (s : BitmapState) :
    (assertBitmap b >>= f) s = if b then f () s else none := by
  cases b <;> rfl

theorem BitmapView.quiet_iff :
    v.quiet = true ↔ (v.eflagsIf = true → v.fsBase = 0 ∧ v.gsBase = 0) := by
  rw [BitmapView.quiet]
  cases v.eflagsIf <;> simp

theorem BitmapView.Describes.interrupt (h : v.Describes host s₀ s) (hquiet : v.quiet = true) :
    Leads (interruptPoint host) s fun _ s' => v.Describes host s₀ s' := by
  refine Leads.last rfl ?_
  have hbases : (s.eflagsIf && host.pending s.clock) = true → v.fsBase = 0 ∧ v.gsBase = 0 := by
    intro htaken
    rw [Bool.and_eq_true, h.eflagsIf] at htaken
    exact BitmapView.quiet_iff.mp hquiet htaken.1
  refine { h with fsBase := ?_, gsBase := ?_ }
  · show (if (s.eflagsIf && host.pending s.clock) = true then 0 else s.guestFsBase) = v.fsBase
    split
    · next htaken => exact (hbases htaken).1.symm
    · exact h.fsBase
  · show (if (s.eflagsIf && host.pending s.clock) = true then 0 else s.guestGsBase) = v.gsBase
    split
    · next htaken => exact (hbases htaken).2.symm
    · exact h.gsBase

theorem msrBitmapBit_lt {w : Bool} {k : Nat} (h : msrBitmapBit w ecx = some k) : k < 0x8000 := by
  rw [msrBitmapBit] at h
  split at h
  · next hlo =>
    have hlt : ecx.toNat < 0x2000 := by simpa [BitVec.lt_def] using hlo
    rw [← Option.some.inj h]
    split <;> omega
  · split at h
    · next hhi =>
      have hlt : ecx.toNat < 0xc0002000 := by simpa [BitVec.lt_def] using hhi.2
      rw [← Option.some.inj h]
      split <;> omega
    · cases h

theorem BitmapView.Describes.exits (h : v.Describes host s₀ s) (w : Bool) (ecx : BitVec 32) :
    s.exits w ecx = v.intercepts w ecx := by
  rw [BitmapState.exits, BitmapView.intercepts, h.on]
  cases hon : v.on with
  | false => rfl
  | true =>
      rw [if_pos rfl, h.address hon]
      cases hk : msrBitmapBit w ecx with
      | none => rfl
      | some k => exact h.bits k (msrBitmapBit_lt hk)

theorem Regs.get_set_self {arch : Arch} (r : Regs arch) (g : Gpr arch) (a : BitVec 32) :
    (r.set g a).get g = a := by
  rw [Regs.get, Regs.set, Function.update_self, setWidth_put32]

theorem setWidth_ptrBits (arch : Arch) (a : BitVec 32) :
    (a.setWidth arch.ptrBits).setWidth 32 = a := by
  rw [BitVec.setWidth_setWidth_of_le a (ptrBits_ge arch), BitVec.setWidth_eq]

theorem msrExit_wrmsr (host : BitmapHost) (s : BitmapState) (ecx ebx : BitVec 32) :
    msrExit host s .wrmsr ecx ebx = some msrTestVmexit :=
  congrArg some (Regs.get_set_self ..)

theorem msrExit_rdmsr (host : BitmapHost) (s : BitmapState) (hecx : ecx ≠ 0x1b ∧ ecx ≠ 0x802) :
    msrExit host s .rdmsr ecx msrTestNormal = some msrTestVmexit := by
  have hcx : (msrRegs host.arch ecx msrTestNormal).get .cx = ecx := setWidth_ptrBits ..
  have hbx : (msrRegs host.arch ecx msrTestNormal).get .bx = msrTestNormal := setWidth_ptrBits ..
  simp only [msrExit, vmexitAsm, vmexitHandler, vmexitHandlerOverride,
    shvGuestMsrBitmapVmexitHandler, Option.bind_some, hcx, hbx]
  have hown : ¬(ecx = 0x1b#32 ∨ ecx = 0x802#32) := not_or.mpr hecx
  rw [if_neg (fun h => h rfl), if_neg hown,
    if_pos (show msrTestNormal = 0x2900b05d#32 from rfl)]
  exact congrArg some (Regs.get_set_self ..)

theorem BitmapView.Describes.lose (h : v.Describes host s₀ s) :
    v.loseBases.Describes host s₀ { s with guestFsBase := 0, guestGsBase := 0 } :=
  { h with fsBase := rfl, gsBase := rfl }

theorem access_exits {c : BitmapRun (BitVec 32)} (hc : c s = some (ebx, s)) (he : e = ebx)
    (h : v.Describes host s₀ s) :
    Leads (c >>= fun ebx => assertBitmap (ebx == e)) s fun _ s' => v.Describes host s₀ s' :=
  Leads.step hc (Leads.last (assertBitmap_of (beq_iff_eq.mpr he.symm) s) h)

theorem access_plain {c : BitmapRun Unit} {k : Option Bool} {b : Bool} {w : BitmapView}
    (hb : ∀ {b'}, k = some b' → b = b') (hc : c s = assertBitmap (msrTestNormal == e) s')
    (hw : w.Describes host s₀ s') (h : v.Describes host s₀ s) (hv : v.access w k e = some v') :
    Leads (if b then c else msrFault >>= fun ebx => assertBitmap (ebx == e)) s
      fun _ s' => v'.Describes host s₀ s' := by
  unfold BitmapView.access at hv
  cases k with
  | none => cases hv
  | some b' =>
      rw [hb rfl]
      cases b' with
      | true =>
          dsimp only at hv
          split at hv
          · next he =>
            cases hv
            exact Leads.last (hc.trans (assertBitmap_of (beq_iff_eq.mpr he.symm) s')) hw
          · cases hv
      | false =>
          dsimp only at hv
          split at hv
          · next he =>
            cases hv
            exact Leads.step rfl (Leads.last (assertBitmap_of (beq_iff_eq.mpr he.symm) _) h.lose)
          · cases hv

theorem rdmsr_step (hknown : known.Of host) (h : v.Describes host s₀ s)
    (hv : (BitmapOp.rdmsr ecx e).apply known v = some v') :
    Leads (testRdmsr host ecx e) s fun _ s' => v'.Describes host s₀ s' := by
  simp only [BitmapOp.apply, ← h.exits] at hv
  refine Leads.step rfl ?_
  split at hv
  · next hexit =>
    split at hv
    · next he =>
      cases hv
      rw [if_pos hexit]
      refine access_exits ?_ he.1 h
      rw [msrExit_rdmsr host s he.2]
      rfl
    · cases hv
  · next hexit =>
    rw [if_neg hexit]
    exact access_plain (fun hb => hknown.read hb) rfl h h hv

theorem BitmapView.Describes.write (h : v.Describes host s₀ s) (ecx : BitVec 32)
    (val : BitVec 64) : (v.write ecx val).Describes host s₀ (setGuestMsr s ecx val) := by
  rw [BitmapView.write, setGuestMsr]
  split
  · exact { h with fsBase := rfl }
  split
  · exact { h with gsBase := rfl }
  split
  · next hecx =>
    subst hecx
    exact { h with tscAdjust := Function.update_self (0x3b : BitVec 32) val s.msrs }
  · next hecx =>
    exact { h with tscAdjust := (Function.update_of_ne (Ne.symm hecx) ..).trans h.tscAdjust }

theorem wrmsr_step (hknown : known.Of host) (h : v.Describes host s₀ s)
    (hv : (BitmapOp.wrmsr ecx e val).apply known v = some v') :
    Leads (testWrmsr host ecx e val) s fun _ s' => v'.Describes host s₀ s' := by
  simp only [BitmapOp.apply, ← h.exits] at hv
  refine Leads.step rfl ?_
  split at hv
  · next hexit =>
    split at hv
    · next he =>
      cases hv
      rw [if_pos hexit]
      refine access_exits ?_ he h
      rw [msrExit_wrmsr]
      rfl
    · cases hv
  · next hexit =>
    rw [if_neg hexit]
    exact access_plain (fun hb => hknown.write hb) rfl (h.write ecx val) h hv

theorem BitmapView.Describes.read (h : v.Describes host s₀ s) (hv : v.read ecx = some val) :
    guestMsr s ecx = val := by
  rw [BitmapView.read] at hv
  rw [guestMsr]
  split at hv
  · next hfs =>
    rw [if_pos hfs, h.fsBase]
    exact Option.some.inj hv
  · next hfs =>
    rw [if_neg hfs]
    split at hv
    · next hgs =>
      rw [if_pos hgs, h.gsBase]
      exact Option.some.inj hv
    · next hgs =>
      rw [if_neg hgs]
      split at hv
      · next htsc =>
        rw [htsc, h.tscAdjust]
        exact Option.some.inj hv
      · cases hv

theorem checkMsr_step (hknown : known.Of host) (h : v.Describes host s₀ s)
    (hv : (BitmapOp.checkMsr ecx val).apply known v = some v') :
    Leads (assertRdmsr host ecx val) s fun _ s' => v'.Describes host s₀ s' := by
  simp only [BitmapOp.apply, ← h.exits] at hv
  split at hv
  · next hc =>
    cases hv
    refine Leads.step rfl (Leads.last (assertBitmap_of ?_ s) h)
    rw [hc.1, hknown.read hc.2.1, h.read hc.2.2]
    simp
  · cases hv

/-! ### VMCALLs -/

theorem getLsbD_useMsrBitmaps (i : Nat) : useMsrBitmaps.getLsbD i = decide (i = 28) := by
  rw [useMsrBitmaps, ← BitVec.twoPow_eq, BitVec.getLsbD_twoPow, decide_eq_true (by decide),
    Bool.true_and]
  exact decide_eq_decide.mpr eq_comm

theorem and_useMsrBitmaps (c : BitVec 32) :
    c &&& useMsrBitmaps = if c.getLsbD 28 then useMsrBitmaps else 0#32 := by
  rw [useMsrBitmaps, ← BitVec.twoPow_eq, BitVec.and_twoPow]

/-- Setting a bit of the bitmap, or clearing it. -/
def bitCall (set : Bool) (ebx : BitVec 32) : BitmapOp := .vmcall (if set then 38 else 39) ebx

/-- The memory after it. -/
def putBit (set : Bool) (m : ByteMem) (a k : Nat) : ByteMem :=
  if set then Bitmap.put m a k else Bitmap.clear m a k

theorem bit_putBit (b : Bool) (m : ByteMem) (a k j : Nat) :
    Bitmap.bit (putBit b m a k) a j = if j = k then b else Bitmap.bit m a j := by
  cases b
  · exact Bitmap.bit_clear m a k j
  · exact Bitmap.bit_put m a k j

theorem putBit_of_notMem {b : Bool} {m : ByteMem} {a k x : Nat} (hk : k < 0x8000)
    (hx : x ∉ span a 4096) : putBit b m a k x = m x := by
  cases b
  · exact Bitmap.clear_of_notMem hk hx
  · exact Bitmap.put_of_notMem hk hx

theorem bitCall_run (host : BitmapHost) (b : Bool) (ebx : BitVec 32) (s : BitmapState) :
    shvGuestMsrBitmapVmcall host (if b then 38 else 39) ebx s =
      if ebx < 0x8000 ∧ Bitmap.bit s.mem host.msrBitmap ebx.toNat = !b then
        some ((), { s with mem := putBit b s.mem host.msrBitmap ebx.toNat })
      else none := by
  have hmask := @Bitmap.and_mask_eq_zero s.mem host.msrBitmap ebx.toNat
  cases b with
  | true =>
      change (assertBitmap (ebx < 0x8000) >>= fun _ =>
        assertBitmap (s.mem _ &&& _ == 0#8) >>= fun _ =>
        set { s with mem := Bitmap.put s.mem host.msrBitmap ebx.toNat }) s = _
      rw [assertBitmap_bind, assertBitmap_bind, ite_and]
      simp only [decide_eq_true_eq, beq_iff_eq, hmask]
      rfl
  | false =>
      change (assertBitmap (ebx < 0x8000) >>= fun _ =>
        assertBitmap (s.mem _ &&& _ != 0#8) >>= fun _ =>
        set { s with mem := Bitmap.clear s.mem host.msrBitmap ebx.toNat }) s = _
      rw [assertBitmap_bind, assertBitmap_bind, ite_and]
      simp only [decide_eq_true_eq, bne_iff_ne, ne_eq, hmask, Bool.not_eq_false]
      rfl

theorem enable_step (h : v.Describes host s₀ s)
    (hv : v.on = false ∧ v.bits = [] ∧ v.tscAdjust = 0) :
    Leads (shvGuestMsrBitmapVmcall host 34 ebx) s
      fun _ s' => { v with on := true }.Describes host s₀ s' := by
  obtain ⟨hon, hbits, htsc⟩ := hv
  have hclear : s.vmxCpuBased &&& useMsrBitmaps = 0#32 := by
    rw [and_useMsrBitmaps, h.on, hon]
    rfl
  have hempty : ∀ k, k < 0x8000 → Bitmap.bit s.mem host.msrBitmap k = false := by
    intro k hk
    rw [h.bits k hk, hbits]
    rfl
  have hzero : ((List.range 4096).all fun i => s.mem (host.msrBitmap + i) == 0) = true := by
    rw [List.all_eq_true]
    intro i hi
    have hi := List.mem_range.mp hi
    exact beq_iff_eq.mpr (@Bitmap.eq_zero_of_bits _ _ 4096 _ hempty (by rw [mem_span]; omega))
  refine Leads.step rfl ?_
  rw [if_pos rfl]
  refine Leads.step (assertBitmap_of (beq_iff_eq.mpr hclear) s) ?_
  refine Leads.step (assertBitmap_of hzero s) ?_
  refine Leads.step rfl (Leads.last (assertBitmap_of ?_ _) ?_)
  · rw [h.tscAdjust, htsc]
    rfl
  · refine { h with on := ?_, controls := ?_, address := fun _ => rfl }
    · rw [BitVec.getLsbD_or, getLsbD_useMsrBitmaps, decide_eq_true rfl, Bool.or_true]
    · intro i hi
      rw [BitVec.getLsbD_or, getLsbD_useMsrBitmaps, decide_eq_false hi, Bool.or_false,
        h.controls i hi]

theorem disable_step (h : v.Describes host s₀ s) (hon : v.on = true) :
    Leads (shvGuestMsrBitmapVmcall host 37 ebx) s
      fun _ s' => { v with on := false, tscAdjust := 0 }.Describes host s₀ s' := by
  have hset : s.vmxCpuBased &&& useMsrBitmaps = useMsrBitmaps := by
    rw [and_useMsrBitmaps, h.on, hon]
    rfl
  refine Leads.step rfl ?_
  rw [if_neg (by decide), if_pos rfl]
  refine Leads.step (assertBitmap_of (beq_iff_eq.mpr hset) s) (Leads.last rfl ?_)
  refine { h with
    on := ?_, controls := ?_, address := nofun
    tscAdjust := Function.update_self (0x3b : BitVec 32) (0 : BitVec 64) s.msrs }
  · rw [BitVec.getLsbD_and, BitVec.getLsbD_not, getLsbD_useMsrBitmaps, decide_eq_true rfl]
    simp
  · intro i hi
    rw [BitVec.getLsbD_and, BitVec.getLsbD_not, getLsbD_useMsrBitmaps, decide_eq_false hi,
      ← h.controls i hi, Bool.not_false, Bool.and_true]
    by_cases hlt : i < 32
    · rw [decide_eq_true hlt, Bool.and_true]
    · rw [BitVec.getLsbD_of_ge _ _ (Nat.le_of_not_lt hlt), Bool.false_and]

theorem bitCall_step {b : Bool} {bits : List Nat} (h : v.Describes host s₀ s)
    (hlt : ebx < 0x8000) (hbit : decide (ebx.toNat ∈ v.bits) = !b)
    (hbits : ∀ k, decide (k ∈ bits) = if k = ebx.toNat then b else decide (k ∈ v.bits)) :
    Leads (shvGuestMsrBitmapVmcall host (if b then 38 else 39) ebx) s
      fun _ s' => { v with bits := bits }.Describes host s₀ s' := by
  have hk : ebx.toNat < 0x8000 := by simpa [BitVec.lt_def] using hlt
  refine Leads.last ((bitCall_run host b ebx s).trans (if_pos ⟨hlt, ?_⟩)) ?_
  · refine { h with bits := ?_, frame := ?_ }
    · intro k hk
      rw [bit_putBit, h.bits k hk, hbits]
    · intro x hx
      exact (putBit_of_notMem hk hx).trans (h.frame x hx)
  · rw [h.bits _ hk, hbit]

theorem basesCall_step (h : v.Describes host s₀ s) (hv : v.fsBase = 0 ∧ v.gsBase = 0) :
    Leads (shvGuestMsrBitmapVmcall host 41 ebx) s
      fun _ s' => { v with fsBase := 0x680effff, gsBase := 0x6810ffff }.Describes host s₀ s' := by
  refine Leads.step rfl ?_
  rw [if_neg (by decide), if_neg (by decide), if_neg (by decide), if_neg (by decide), if_pos rfl]
  refine Leads.step (assertBitmap_of (beq_iff_eq.mpr h.hostFsBase) s) ?_
  refine Leads.step (assertBitmap_of (beq_iff_eq.mpr h.hostGsBase) s) ?_
  refine Leads.step (assertBitmap_of (beq_iff_eq.mpr (h.fsBase.trans hv.1)) s) ?_
  refine Leads.step (assertBitmap_of (beq_iff_eq.mpr (h.gsBase.trans hv.2)) s) ?_
  exact Leads.last rfl { h with fsBase := rfl, gsBase := rfl }

theorem basesCheck_step (h : v.Describes host s₀ s)
    (hv : v.fsBase = 0xffff680e ∧ v.gsBase = 0xffff6810) :
    Leads (shvGuestMsrBitmapVmcall host 42 ebx) s
      fun _ s' => v.loseBases.Describes host s₀ s' := by
  refine Leads.step rfl ?_
  rw [if_neg (by decide), if_neg (by decide), if_neg (by decide), if_neg (by decide),
    if_neg (by decide), if_pos rfl]
  refine Leads.step (assertBitmap_of (beq_iff_eq.mpr (h.fsBase.trans hv.1)) s) ?_
  refine Leads.step (assertBitmap_of (beq_iff_eq.mpr (h.gsBase.trans hv.2)) s) ?_
  refine Leads.step (assertBitmap_of (beq_iff_eq.mpr h.hostFsBase) s) ?_
  refine Leads.step (assertBitmap_of (beq_iff_eq.mpr h.hostGsBase) s) ?_
  exact Leads.last rfl h.lose

theorem vmcall_step (h : v.Describes host s₀ s)
    (hv : (BitmapOp.vmcall eax ebx).apply known v = some v') :
    Leads (shvGuestMsrBitmapVmcall host eax ebx) s fun _ s' => v'.Describes host s₀ s' := by
  simp only [BitmapOp.apply] at hv
  split_ifs at hv with h34 hc h37 hc h38 hc h39 hc h41 hc h42 hc
  · cases hv
    rw [h34]
    exact enable_step h hc
  · cases hv
    rw [h37]
    exact disable_step h hc
  · cases hv
    rw [h38]
    refine @bitCall_step _ _ _ _ _ true _ h hc.1 (decide_eq_false hc.2) fun k => ?_
    by_cases hk : k = ebx.toNat <;> simp [hk]
  · cases hv
    rw [h39]
    refine @bitCall_step _ _ _ _ _ false _ h hc.1 (decide_eq_true hc.2) fun k => ?_
    by_cases hk : k = ebx.toNat <;> simp [hk]
  · cases hv
    rw [h41]
    exact basesCall_step h hc
  · cases hv
    rw [h42]
    exact basesCheck_step h hc
  · cases hv
    refine Leads.step rfl ?_
    rw [if_neg h34, if_neg h37, if_neg h38, if_neg h39, if_neg h41, if_neg h42]
    exact Leads.last rfl h

/-! ### Scripts -/

theorem view_step (hknown : known.Of host) (h : v.Describes host s₀ s) (hquiet : v.quiet = true)
    (hv : op.view known v = some v') :
    Leads (op.run host) s fun _ s' => v'.Describes host s₀ s' := by
  have happly : op.apply known v = some v' := (Option.filter_eq_some_iff.mp hv).1
  refine Leads.seq ((h.interrupt hquiet).mono fun _ s h => ?_)
  cases op with
  | vmcall eax ebx => exact vmcall_step h happly
  | rdmsr ecx e => exact rdmsr_step hknown h happly
  | wrmsr ecx e val => exact wrmsr_step hknown h happly
  | checkMsr ecx val => exact checkMsr_step hknown h happly
  | cli =>
      cases happly
      exact Leads.last rfl { h with eflagsIf := rfl }
  | sti =>
      cases happly
      exact Leads.last rfl { h with eflagsIf := rfl }

/-- A script that goes through in the view goes through on the machine. -/
theorem view_script (hknown : known.Of host) {ops : List BitmapOp} (h : v.Describes host s₀ s)
    (hquiet : v.quiet = true)
    (hv : ops.foldlM (fun v (op : BitmapOp) => op.view known v) v = some v') :
    Leads (ops.forM (BitmapOp.run host)) s fun _ s' => v'.Describes host s₀ s' := by
  induction ops generalizing v s with
  | nil =>
      cases hv
      exact Leads.last rfl h
  | cons op ops ih =>
      rw [List.foldlM_cons, Option.bind_eq_bind, Option.bind_eq_some_iff] at hv
      obtain ⟨w, hw, hv⟩ := hv
      refine Leads.seq ((view_step hknown h hquiet hw).mono fun _ s hs => ?_)
      exact ih hs (Option.filter_eq_some_iff.mp hw).2 hv

/-! ## Results -/

/-- The set after a sequence of calls; `none` where one sets a bit that is set, clears one that is
clear, or is out of range. -/
def callBits : List (Bool × BitVec 32) → (Nat → Bool) → Option (Nat → Bool)
  | [], f => some f
  | (b, ebx) :: calls, f =>
    if ebx < 0x8000 ∧ f ebx.toNat = !b then callBits calls (Function.update f ebx.toNat b) else none

theorem bitCall_cases (host : BitmapHost) (b : Bool) (ebx : BitVec 32) (s : BitmapState) :
    ∃ t, t.vmxCpuBased = s.vmxCpuBased ∧ t.msrBitmapsAddress = s.msrBitmapsAddress ∧
      t.mem = putBit b s.mem host.msrBitmap ebx.toNat ∧
      (bitCall b ebx).run host s =
        if ebx < 0x8000 ∧ Bitmap.bit s.mem host.msrBitmap ebx.toNat = !b then some ((), t)
        else none := by
  obtain ⟨t, hrun, hcontrol, hbitmap, hmem⟩ : ∃ t, interruptPoint host s = some ((), t) ∧
      t.vmxCpuBased = s.vmxCpuBased ∧ t.msrBitmapsAddress = s.msrBitmapsAddress ∧ t.mem = s.mem :=
    ⟨_, rfl, rfl, rfl, rfl⟩
  refine ⟨{ t with mem := putBit b t.mem host.msrBitmap ebx.toNat }, hcontrol, hbitmap,
    by rw [hmem], ?_⟩
  show (interruptPoint host >>= fun _ =>
    shvGuestMsrBitmapVmcall host (if b then 38 else 39) ebx) s = _
  rw [Leads.run_bind hrun, bitCall_run, hmem]

/-- **Any sequence of calls** edits the set of intercepted accesses as `callBits` says: it fails
where that does, and else exactly the accesses whose bit ended in the set exit, with no byte outside
the bitmap changed. -/
theorem bitmap_calls_refine (host : BitmapHost) (calls : List (Bool × BitVec 32)) (s : BitmapState)
    (haddress : s.msrBitmapsAddress = host.msrBitmap) :
    ((calls.forM fun call => (bitCall call.1 call.2).run host) s).map (fun r => r.2.exits) =
        (callBits calls (Bitmap.bit s.mem host.msrBitmap)).map (fun f w msr =>
          !s.vmxCpuBased.getLsbD 28 || (msrBitmapBit w msr).all f) ∧
      ∀ s', (calls.forM fun call => (bitCall call.1 call.2).run host) s = some ((), s') →
        ∀ x, x ∉ span host.msrBitmap 4096 → s'.mem x = s.mem x := by
  induction calls generalizing s with
  | nil =>
      refine ⟨congrArg some (funext fun w => funext fun msr => ?_), fun s' hs' x _ => ?_⟩
      · show s.exits w msr = (!s.vmxCpuBased.getLsbD 28 ||
          (msrBitmapBit w msr).all (Bitmap.bit s.mem host.msrBitmap))
        rw [BitmapState.exits, haddress]
        cases s.vmxCpuBased.getLsbD 28 <;> cases msrBitmapBit w msr <;> rfl
      · cases hs'
        rfl
  | cons call calls ih =>
      obtain ⟨b, ebx⟩ := call
      obtain ⟨t, hcontrol, hbitmap, hmem, hrun⟩ := bitCall_cases host b ebx s
      have hbits : Bitmap.bit t.mem host.msrBitmap =
          Function.update (Bitmap.bit s.mem host.msrBitmap) ebx.toNat b := by
        funext k
        rw [hmem, bit_putBit, Function.update_apply]
      obtain ⟨hexits, hframe⟩ := ih t (hbitmap.trans haddress)
      rw [hcontrol, hbits] at hexits
      have hcons : ((b, ebx) :: calls).forM (fun call => (bitCall call.1 call.2).run host) s =
          ((bitCall b ebx).run host >>= fun _ =>
            calls.forM fun call => (bitCall call.1 call.2).run host) s := rfl
      rw [hcons, callBits]
      by_cases hcall : ebx < 0x8000 ∧ Bitmap.bit s.mem host.msrBitmap ebx.toNat = !b
      · rw [if_pos hcall] at hrun ⊢
        rw [Leads.run_bind hrun]
        refine ⟨hexits, fun s' hs' x hx => (hframe s' hs' x hx).trans ?_⟩
        have hlt : ebx.toNat < 0x8000 := by simpa [BitVec.lt_def] using hcall.1
        rw [hmem, putBit_of_notMem hlt hx]
      · rw [if_neg hcall] at hrun ⊢
        have hnone : ∀ f : Unit → BitmapRun Unit, ((bitCall b ebx).run host >>= f) s = none := by
          intro f
          show Option.bind _ _ = none
          rw [hrun]
          rfl
        rw [hnone]
        exact ⟨rfl, nofun⟩

/-- A CPU and the state of a test that has passed once, for the next one. -/
def msrTestHost : BitmapHost where
  arch := .amd64
  msrBitmap := 0x1000
  readable msr := [0xc0000082, 0x3b, ia32MsrFsBase, ia32MsrGsBase].contains msr
  writable msr _ := [0xc0000082, 0x3b, ia32MsrFsBase, ia32MsrGsBase].contains msr
  pending _ := true

def msrTestState : BitmapState where
  mem _ := 0
  msrs _ := 0
  guestFsBase := 0
  guestGsBase := 0
  hostFsBase := 0
  hostGsBase := 0
  vmxCpuBased := 0x10000000
  msrBitmapsAddress := 0x1000
  eflagsIf := true
  clock := 0

theorem bitmap_calls_refine_sample :
    (([(true, 0x2082), (true, 0x6082), (false, 0x2082)].forM fun call =>
        (bitCall call.1 call.2).run msrTestHost) msrTestState).map (fun r => r.2.exits) =
      (callBits [(true, 0x2082), (true, 0x6082), (false, 0x2082)]
        (Bitmap.bit msrTestState.mem 0x1000)).map (fun f w msr =>
          !msrTestState.vmxCpuBased.getLsbD 28 || (msrBitmapBit w msr).all f) :=
  (bitmap_calls_refine msrTestHost [(true, 0x2082), (true, 0x6082), (false, 0x2082)] msrTestState
    rfl).1

/-- What the test relies on: `IA32_LSTAR`, `IA32_TSC_ADJUST` and the two bases take what it writes,
and there is no last MSR of either range. -/
def msrTestKnown : MsrKnown where
  read msr :=
    if [0xc0000082, 0x3b, ia32MsrFsBase, ia32MsrGsBase].contains msr then some true
    else if [0x1fff, 0xc0001fff].contains msr then some false
    else none
  write msr val :=
    if [(0xc0000082, 0xffffffffffffffff), (0x3b, 0x1234567890abcdef), (0x3b, 0xfedcba0987654321),
        (ia32MsrFsBase, 0xffff680e), (ia32MsrGsBase, 0xffff6810)].contains (msr, val) then
      some true
    else if [0x1fff, 0xc0001fff].contains msr ∧ val = 0x1234567890abcdef then some false
    else none

/-- Before the test: the bitmap is not in use and clear, `IA32_TSC_ADJUST` and the bases are zero,
and interrupts come unless `SHV_NO_EFLAGS_IF` is set. -/
structure BitmapState.Ready (s : BitmapState) (host : BitmapHost) (noEflagsIf : Bool) : Prop where
  off : s.vmxCpuBased.getLsbD 28 = false
  empty : ∀ x, x ∈ span host.msrBitmap 4096 → s.mem x = 0
  tscAdjust : s.msrs 0x3b = 0
  guestBases : s.guestFsBase = 0 ∧ s.guestGsBase = 0
  hostBases : s.hostFsBase = 0 ∧ s.hostGsBase = 0
  eflagsIf : s.eflagsIf = !noEflagsIf

def readyView (noEflagsIf : Bool) : BitmapView where
  on := false
  bits := []
  tscAdjust := 0
  fsBase := 0
  gsBase := 0
  eflagsIf := !noEflagsIf

theorem BitmapState.Ready.describes {no : Bool} (h : s.Ready host no) :
    (readyView no).Describes host s s where
  on := h.off
  controls _ _ := rfl
  address := nofun
  bits k hk := by
    have hx : host.msrBitmap + k / 8 ∈ span host.msrBitmap 4096 := by
      rw [mem_span]
      omega
    rw [Bitmap.bit, h.empty _ hx]
    exact BitVec.getLsbD_zero
  frame _ _ := rfl
  tscAdjust := h.tscAdjust
  fsBase := h.guestBases.1
  gsBase := h.guestBases.2
  hostFsBase := h.hostBases.1
  hostGsBase := h.hostBases.2
  eflagsIf := h.eflagsIf

theorem BitmapView.Describes.ready {no : Bool} (h : (readyView no).Describes host s₀ s) :
    s.Ready host no where
  off := h.on
  empty _ hx := Bitmap.eq_zero_of_bits (fun k hk => h.bits k hk) hx
  tscAdjust := h.tscAdjust
  guestBases := ⟨h.fsBase, h.gsBase⟩
  hostBases := ⟨h.hostFsBase, h.hostGsBase⟩
  eflagsIf := h.eflagsIf

theorem shvGuestMsrBitmap_view (no : Bool) :
    (shvGuestMsrBitmap no).foldlM (fun v (op : BitmapOp) => op.view msrTestKnown v) (readyView no) =
      some (readyView no) := by
  cases no <;> decide

/-- **The test of the MSR bitmap passes**, any number of times in a row and wherever interrupts
come, and leaves memory and controls as they were. -/
theorem shv_guest_msr_bitmap_passes {host : BitmapHost} {s : BitmapState} {noEflagsIf : Bool}
    (hknown : msrTestKnown.Of host) (h : s.Ready host noEflagsIf) (n : Nat) :
    Leads ((List.range n).forM fun _ =>
        (shvGuestMsrBitmap noEflagsIf).forM (BitmapOp.run host)) s
      fun _ s' => s'.Ready host noEflagsIf ∧ s'.mem = s.mem ∧ s'.vmxCpuBased = s.vmxCpuBased := by
  refine Leads.forM (fun _ _ t ht => ?_) ⟨h, rfl, rfl⟩
  obtain ⟨hready, hmem, hcontrol⟩ := ht
  have hquiet : (readyView noEflagsIf).quiet = true := by cases noEflagsIf <;> rfl
  refine (view_script hknown hready.describes hquiet (shvGuestMsrBitmap_view _)).mono
    fun _ u hu => ⟨hu.ready, ?_, ?_⟩
  · rw [← hmem]
    funext x
    by_cases hx : x ∈ span host.msrBitmap 4096
    · rw [hu.ready.empty x hx, hready.empty x hx]
    · exact hu.frame x hx
  · rw [← hcontrol]
    apply BitVec.eq_of_getLsbD_eq
    intro i _
    by_cases hi : i = 28
    · rw [hi, hu.ready.off, hready.off]
    · exact hu.controls i hi

theorem msrTestHost_known : msrTestKnown.Of msrTestHost where
  read {msr b} h := by
    simp only [msrTestKnown] at h
    split_ifs at h with hyes hno
    · cases h
      exact hyes
    · cases h
      exact Bool.eq_false_of_not_eq_true hyes
  write {msr val b} h := by
    simp only [msrTestKnown] at h
    split_ifs at h with hyes hno
    · cases h
      simp only [List.contains_cons, List.contains_nil, Bool.or_false, Bool.or_eq_true, beq_iff_eq,
        Prod.mk.injEq] at hyes
      rcases hyes with hyes | hyes | hyes | hyes | hyes <;> rw [hyes.1] <;> rfl
    · cases h
      have hmsr := hno.1
      simp only [List.contains_cons, List.contains_nil, Bool.or_false, Bool.or_eq_true,
        beq_iff_eq] at hmsr
      rcases hmsr with hmsr | hmsr <;> rw [hmsr] <;> rfl

theorem shv_guest_msr_bitmap_passes_sample :
    Leads ((List.range 5).forM fun _ => (shvGuestMsrBitmap false).forM (BitmapOp.run msrTestHost))
      { msrTestState with vmxCpuBased := 0x84006172 }
      fun _ s' => s'.Ready msrTestHost false ∧ s'.mem = msrTestState.mem ∧
        s'.vmxCpuBased = 0x84006172 :=
  shv_guest_msr_bitmap_passes msrTestHost_known
    { off := by decide
      empty := fun _ _ => rfl
      tscAdjust := rfl
      guestBases := ⟨rfl, rfl⟩
      hostBases := ⟨rfl, rfl⟩
      eflagsIf := rfl } 5

end Shv
