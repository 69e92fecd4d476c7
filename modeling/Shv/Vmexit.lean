/-
# `Shv.Vmexit` — CPUID and RDMSR on behalf of the guest

The guest's CPUID and RDMSR instructions exit to the hypervisor, which runs them itself and puts the
results into the saved registers: in `vmexit_handler`, or for CPUID in `shv_nmi_vmexit_handler`,
which overrides it.  Both write the 32-bit members of the unions of `struct regs`.  On amd64 these
overlay the 64-bit registers, whose upper halves stay as they are; the instructions themselves clear
them.

`cpuid_rdmsr_transparent_iff`: the guest is resumed as if it had run the instruction exactly if the
upper halves of the registers it writes were zero before.
-/
import Shv.Hptw
import Mathlib.Data.BitVec

namespace Shv

/-! ## Registers -/

/-- The general registers of `struct regs`; amd64 has eight more. -/
inductive Gpr : Arch → Type where
  | ax {arch : Arch} : Gpr arch
  | cx {arch : Arch} : Gpr arch
  | dx {arch : Arch} : Gpr arch
  | bx {arch : Arch} : Gpr arch
  | sp {arch : Arch} : Gpr arch
  | bp {arch : Arch} : Gpr arch
  | si {arch : Arch} : Gpr arch
  | di {arch : Arch} : Gpr arch
  | r8 : Gpr .amd64
  | r9 : Gpr .amd64
  | r10 : Gpr .amd64
  | r11 : Gpr .amd64
  | r12 : Gpr .amd64
  | r13 : Gpr .amd64
  | r14 : Gpr .amd64
  | r15 : Gpr .amd64
  deriving DecidableEq

/-- `struct regs`. -/
abbrev Regs (arch : Arch) := Gpr arch → BitVec arch.ptrBits

variable {arch : Arch}

/-- A write to the 32-bit member of a register's union. -/
def put32 (old : BitVec arch.ptrBits) (v : BitVec 32) : BitVec arch.ptrBits :=
  (old >>> 32 <<< 32) ||| v.setWidth arch.ptrBits

/-- The 32-bit member of a register's union: `r->eax` and so on. -/
def Regs.get (r : Regs arch) (g : Gpr arch) : BitVec 32 := (r g).setWidth 32

/-- `r->eax = v` and so on. -/
def Regs.set (r : Regs arch) (g : Gpr arch) (v : BitVec 32) : Regs arch :=
  Function.update r g (put32 (r g) v)

/-! ## The handlers -/

/-- What CPUID puts into EAX, EBX, ECX and EDX. -/
structure CpuidAnswer where
  eax : BitVec 32
  ebx : BitVec 32
  ecx : BitVec 32
  edx : BitVec 32
  deriving DecidableEq, Repr

/-- The CPU under the hypervisor: CPUID by leaf and subleaf, RDMSR by MSR number.  RDMSR of an MSR
that does not exist faults. -/
structure CpuAnswers where
  cpuid : BitVec 32 → BitVec 32 → CpuidAnswer
  rdmsr : BitVec 32 → Option (BitVec 64)

/-- `cpuid_raw(&r->eax, &r->ebx, &r->ecx, &r->edx)`. -/
def cpuidRaw (cpu : CpuAnswers) (r : Regs arch) : Regs arch :=
  let answer := cpu.cpuid (r.get .ax) (r.get .cx)
  (((r.set .ax answer.eax).set .bx answer.ebx).set .cx answer.ecx).set .dx answer.edx

/-- The CPUID case of both handlers; the VMX capability is cleared from leaf 1. -/
def emulateCpuid (cpu : CpuAnswers) (r : Regs arch) : Regs arch :=
  let oldEax := r.get .ax
  let r := cpuidRaw cpu r
  if oldEax = 1#32 then r.set .cx (r.get .cx &&& ~~~(1#32 <<< 5)) else r

/-- `rdmsr(r->ecx, &r->eax, &r->edx)`, where the CPU answers `v`. -/
def emulateRdmsr (v : BitVec 64) (r : Regs arch) : Regs arch :=
  (r.set .ax (v.setWidth 32)).set .dx ((v >>> 32).setWidth 32)

inductive VmexitReason where
  | exception
  | nmiWindow
  | cpuid
  | vmcall
  | rdmsr
  | wrmsr
  | eptViolation
  | other
  deriving DecidableEq, Repr

/-- `vmexit_info_t`. -/
structure VmexitInfo (arch : Arch) where
  vmexitReason : VmexitReason
  guestRip : BitVec arch.ptrBits
  instLen : BitVec 32

/-- RIP of the instruction after the one that exited. -/
def VmexitInfo.nextRip (info : VmexitInfo arch) : BitVec arch.ptrBits :=
  info.guestRip + info.instLen.setWidth arch.ptrBits

inductive VmexitOutcome (arch : Arch) where
  /-- `vmresume_asm`, with the registers of the guest and its RIP in the VMCS -/
  | resumed (r : Regs arch) (rip : BitVec arch.ptrBits)
  /-- an assertion failed, or the host faulted -/
  | halted
  /-- an override handler deals with an exit of its own, which is not followed here -/
  | taken

/-- What the handlers depend on besides the exit: the CPU, whether `vcpu == get_vcpu()`, and
`disable_cpuid` of the NMI experiments. -/
structure VmexitCtx where
  cpu : CpuAnswers
  vcpuIsOwn : Bool
  disableCpuid : Bool

/-- The handlers `vmexit_handler_override` points to. -/
inductive OverrideHandler where
  /-- those of the guest tests that return at once unless the exit is a VMCALL -/
  | vmcallOnly
  /-- `shv_guest_test_ept_vmexit_handler` -/
  | testEpt
  /-- `shv_guest_msr_bitmap_vmexit_handler` -/
  | msrBitmap
  /-- `shv_nmi_vmexit_handler` -/
  | nmi
  deriving DecidableEq, Repr

/-- `shv_nmi_vmexit_handler`; it never returns. -/
def shvNmiVmexitHandler (ctx : VmexitCtx) (r : Regs arch) (info : VmexitInfo arch) :
    VmexitOutcome arch :=
  match info.vmexitReason with
  | .cpuid =>
      if ctx.disableCpuid then .halted
      else .resumed (emulateCpuid ctx.cpu r) info.nextRip
  | .vmcall | .exception | .nmiWindow => .taken
  | _ => .halted

/-- `shv_guest_msr_bitmap_vmexit_handler`; `none` if it returns. -/
def shvGuestMsrBitmapVmexitHandler (r : Regs arch) (info : VmexitInfo arch) :
    Option (VmexitOutcome arch) :=
  match info.vmexitReason with
  | .vmcall => some .taken
  | .wrmsr => some (.resumed (r.set .bx 0xf6d7a004#32) info.nextRip)
  | .rdmsr =>
      if r.get .cx = 0x1b#32 ∨ r.get .cx = 0x802#32 then none
      else if r.get .bx = 0x2900b05d#32 then
        some (.resumed (r.set .bx 0xf6d7a004#32) info.nextRip)
      else some .halted
  | .cpuid => none
  | _ => some .halted

/-- `vcpu->vmexit_handler_override(vcpu, r, &vmexit_info)`; `none` if it returns, and then it has
changed nothing. -/
def vmexitHandlerOverride (ctx : VmexitCtx) (r : Regs arch) (info : VmexitInfo arch) :
    OverrideHandler → Option (VmexitOutcome arch)
  | .vmcallOnly => if info.vmexitReason ≠ .vmcall then none else some .taken
  | .testEpt => if info.vmexitReason ≠ .eptViolation then none else some .taken
  | .msrBitmap => shvGuestMsrBitmapVmexitHandler r info
  | .nmi => some (shvNmiVmexitHandler ctx r info)

/-- `vmexit_handler`, where `vmcs` is what it reads from the VMCS. -/
def vmexitHandler (ctx : VmexitCtx) (override : Option OverrideHandler) (vmcs : VmexitInfo arch)
    (guestRip : BitVec arch.ptrBits) (r : Regs arch) : VmexitOutcome arch :=
  if guestRip ≠ vmcs.guestRip then .halted
  else
    let info := { vmcs with guestRip := guestRip }
    match override.bind (vmexitHandlerOverride ctx r info) with
    | some outcome => outcome
    | none =>
        if !ctx.vcpuIsOwn then .halted
        else
          match info.vmexitReason with
          | .cpuid => .resumed (emulateCpuid ctx.cpu r) info.nextRip
          | .rdmsr =>
              match ctx.cpu.rdmsr (r.get .cx) with
              | some v => .resumed (emulateRdmsr v r) info.nextRip
              | none => .halted
          | _ => .halted

/-- `vmexit_asm`, which reads the RIP argument from the VMCS. -/
def vmexitAsm (ctx : VmexitCtx) (override : Option OverrideHandler) (vmcs : VmexitInfo arch)
    (r : Regs arch) : VmexitOutcome arch :=
  vmexitHandler ctx override vmcs vmcs.guestRip r

/-! ## The instructions -/

/-- The 32-bit results CPUID writes, without the VMX capability of leaf 1. -/
def cpuidResults (cpu : CpuAnswers) (r : Regs arch) : List (Gpr arch × BitVec 32) :=
  let answer := cpu.cpuid (r.get .ax) (r.get .cx)
  [(.ax, answer.eax), (.bx, answer.ebx),
    (.cx, if r.get .ax = 1#32 then answer.ecx &&& ~~~(1#32 <<< 5) else answer.ecx),
    (.dx, answer.edx)]

/-- The 32-bit results RDMSR writes. -/
def rdmsrResults (v : BitVec 64) : List (Gpr arch × BitVec 32) :=
  [(.ax, v.setWidth 32), (.dx, (v >>> 32).setWidth 32)]

/-- What the instruction that exited writes, if it is one of the two and does not fault. -/
def instructionResults (cpu : CpuAnswers) (reason : VmexitReason) (r : Regs arch) :
    Option (List (Gpr arch × BitVec 32)) :=
  match reason with
  | .cpuid => some (cpuidResults cpu r)
  | .rdmsr => (cpu.rdmsr (r.get .cx)).map rdmsrResults
  | _ => none

/-- The registers after results have been written with `wr`. -/
def Regs.writeWith (wr : BitVec arch.ptrBits → BitVec 32 → BitVec arch.ptrBits) (r : Regs arch)
    (results : List (Gpr arch × BitVec 32)) : Regs arch := fun g =>
  match results.lookup g with
  | some v => wr (r g) v
  | none => r g

/-- The registers after an instruction: a 32-bit result clears the upper half of its register. -/
def Regs.afterInstruction (r : Regs arch) (results : List (Gpr arch × BitVec 32)) : Regs arch :=
  r.writeWith (fun _ v => v.setWidth arch.ptrBits) results

/-- The exit is for the case in question: no override handler takes it, or the NMI experiments' does
and it is CPUID.  The assertions on the way hold. -/
def HandlesExit (ctx : VmexitCtx) (override : Option OverrideHandler) (vmcs : VmexitInfo arch)
    (r : Regs arch) : Prop :=
  ((∀ h, override = some h → vmexitHandlerOverride ctx r vmcs h = none) ∧ ctx.vcpuIsOwn = true) ∨
    (override = some .nmi ∧ vmcs.vmexitReason = .cpuid ∧ ctx.disableCpuid = false)

/-! ## Upper halves -/

theorem getLsbD_put32 (old : BitVec arch.ptrBits) (v : BitVec 32) (i : Nat) :
    (put32 old v).getLsbD i = if i < 32 then v.getLsbD i else old.getLsbD i := by
  have hw := ptrBits_ge arch
  rw [put32, BitVec.getLsbD_or, BitVec.getLsbD_shiftLeft, BitVec.getLsbD_ushiftRight,
    BitVec.getLsbD_setWidth]
  by_cases hi : i < 32
  · rw [if_pos hi]
    simp [hi, Nat.lt_of_lt_of_le hi hw]
  · rw [if_neg hi, BitVec.getLsbD_of_ge v i (Nat.le_of_not_lt hi)]
    by_cases hi' : i < arch.ptrBits
    · simp [hi, hi', Nat.add_sub_cancel' (Nat.le_of_not_lt hi)]
    · rw [BitVec.getLsbD_of_ge old i (Nat.le_of_not_lt hi')]
      simp [hi']

theorem setWidth_put32 (old : BitVec arch.ptrBits) (v : BitVec 32) :
    (put32 old v).setWidth 32 = v := by
  apply BitVec.eq_of_getLsbD_eq
  intro i hi
  rw [BitVec.getLsbD_setWidth, getLsbD_put32, if_pos hi, decide_eq_true hi, Bool.true_and]

theorem put32_put32 (old : BitVec arch.ptrBits) (v v' : BitVec 32) :
    put32 (put32 old v) v' = put32 old v' := by
  apply BitVec.eq_of_getLsbD_eq
  intro i _
  rw [getLsbD_put32, getLsbD_put32, getLsbD_put32]
  split <;> rfl

/-- Writing the 32-bit member is writing the register exactly if its upper half is zero. -/
theorem put32_eq_setWidth_iff (old : BitVec arch.ptrBits) (v : BitVec 32) :
    put32 old v = v.setWidth arch.ptrBits ↔ old.toNat < 2 ^ 32 := by
  constructor
  · intro h
    apply Nat.lt_pow_two_of_testBit
    intro i hi
    have hbit := congrArg (fun x => BitVec.getLsbD x i) h
    simp only [getLsbD_put32, if_neg (Nat.not_lt.mpr hi), BitVec.getLsbD_setWidth,
      BitVec.getLsbD_of_ge v i hi, Bool.and_false] at hbit
    exact hbit
  · intro h
    apply BitVec.eq_of_getLsbD_eq
    intro i hi
    rw [getLsbD_put32, BitVec.getLsbD_setWidth, decide_eq_true hi, Bool.true_and]
    split
    next => rfl
    next hge =>
        have hge := Nat.le_of_not_lt hge
        rw [BitVec.getLsbD_of_ge v i hge]
        exact (lt_two_pow_iff_getLsbD _).mp h i hge

/-! ## What the handlers write -/

theorem emulateCpuid_eq (cpu : CpuAnswers) (r : Regs arch) :
    emulateCpuid cpu r = r.writeWith put32 (cpuidResults cpu r) := by
  by_cases hleaf : r.get .ax = 1#32
  · -- ECX is written twice
    have hcx : ∀ answer : BitVec 32, put32 (put32 (r .cx) answer)
        ((put32 (r .cx) answer).setWidth 32 &&& ~~~(1#32 <<< 5)) =
          put32 (r .cx) (answer &&& ~~~(1#32 <<< 5)) := by
      intro answer
      rw [setWidth_put32, put32_put32]
    unfold emulateCpuid cpuidResults
    dsimp only
    rw [if_pos hleaf, if_pos hleaf]
    funext g
    cases g with
    | cx => exact hcx _
    | _ => rfl
  · unfold emulateCpuid cpuidResults
    dsimp only
    rw [if_neg hleaf, if_neg hleaf]
    funext g
    cases g <;> rfl

theorem emulateRdmsr_eq (v : BitVec 64) (r : Regs arch) :
    emulateRdmsr v r = r.writeWith put32 (rdmsrResults v) := by
  funext g
  cases g <;> rfl

theorem lookup_isSome_iff_mem {g : Gpr arch} {results : List (Gpr arch × BitVec 32)} :
    (results.lookup g).isSome = true ↔ g ∈ results.map Prod.fst := by
  rw [List.lookup_isSome_iff, List.mem_map]
  refine exists_congr fun x => and_congr_right' ?_
  rw [beq_iff_eq]
  exact eq_comm

/-- Two ways to write the same results come to the same exactly if they agree on each result. -/
theorem writeWith_eq_iff {wr wr' : BitVec arch.ptrBits → BitVec 32 → BitVec arch.ptrBits}
    {r : Regs arch} {results : List (Gpr arch × BitVec 32)} :
    r.writeWith wr results = r.writeWith wr' results ↔
      ∀ g v, results.lookup g = some v → wr (r g) v = wr' (r g) v := by
  constructor
  · intro h g v hv
    have hg := congrFun h g
    rwa [Regs.writeWith, Regs.writeWith, hv] at hg
  · intro h
    funext g
    rw [Regs.writeWith, Regs.writeWith]
    cases hv : results.lookup g with
    | none => rfl
    | some v => exact h g v hv

theorem vmexitAsm_eq {ctx : VmexitCtx} {override : Option OverrideHandler} {vmcs : VmexitInfo arch}
    {r : Regs arch} {results : List (Gpr arch × BitVec 32)}
    (hexit : instructionResults ctx.cpu vmcs.vmexitReason r = some results)
    (hhandles : HandlesExit ctx override vmcs r) :
    vmexitAsm ctx override vmcs r = .resumed (r.writeWith put32 results) vmcs.nextRip := by
  rw [vmexitAsm, vmexitHandler, if_neg (fun h => h rfl)]
  obtain ⟨hov, hown⟩ | ⟨rfl, hcpuid, hdisable⟩ := hhandles
  · have hnone : override.bind (vmexitHandlerOverride ctx r vmcs) = none := by
      cases override with
      | none => rfl
      | some h => exact hov h rfl
    dsimp only
    rw [hnone, hown]
    unfold instructionResults at hexit
    cases hreason : vmcs.vmexitReason with
    | cpuid =>
        rw [hreason] at hexit
        obtain rfl := Option.some.inj hexit
        rw [← emulateCpuid_eq]
        rfl
    | rdmsr =>
        rw [hreason] at hexit
        obtain ⟨v, hv, rfl⟩ := Option.map_eq_some_iff.mp hexit
        dsimp only
        rw [hv, ← emulateRdmsr_eq]
        rfl
    | _ => rw [hreason] at hexit; cases hexit
  · rw [hcpuid] at hexit
    obtain rfl := Option.some.inj hexit
    dsimp only [Option.bind_some, vmexitHandlerOverride, shvNmiVmexitHandler]
    rw [hcpuid, hdisable, ← emulateCpuid_eq]
    rfl

/-- **Emulated CPUID and RDMSR are transparent** exactly if the upper halves of the registers the
instruction writes were zero, as they always are on i386. -/
theorem cpuid_rdmsr_transparent_iff {ctx : VmexitCtx} {override : Option OverrideHandler}
    {vmcs : VmexitInfo arch} {r : Regs arch} {results : List (Gpr arch × BitVec 32)}
    (hexit : instructionResults ctx.cpu vmcs.vmexitReason r = some results)
    (hhandles : HandlesExit ctx override vmcs r) :
    vmexitAsm ctx override vmcs r = .resumed (r.afterInstruction results) vmcs.nextRip ↔
      arch = .i386 ∨ ∀ g ∈ results.map Prod.fst, (r g).toNat < 2 ^ 32 := by
  rw [vmexitAsm_eq hexit hhandles, VmexitOutcome.resumed.injEq, and_iff_left rfl,
    Regs.afterInstruction, writeWith_eq_iff]
  have hupper : (∀ g v, results.lookup g = some v → put32 (r g) v = v.setWidth arch.ptrBits) ↔
      ∀ g ∈ results.map Prod.fst, (r g).toNat < 2 ^ 32 := by
    constructor
    · intro h g hg
      obtain ⟨v, hv⟩ := Option.isSome_iff_exists.mp (lookup_isSome_iff_mem.mpr hg)
      exact (put32_eq_setWidth_iff _ v).mp (h g v hv)
    · intro h g v hv
      exact (put32_eq_setWidth_iff _ v).mpr (h g (lookup_isSome_iff_mem.mp (by rw [hv]; rfl)))
  rw [hupper]
  constructor
  · exact Or.inr
  · rintro (rfl | h)
    · exact fun g _ => (r g).isLt
    · exact h

/-- A CPU that answers every CPUID alike, and every RDMSR. -/
def sameAnswers : CpuAnswers where
  cpuid := fun _ _ => ⟨0x16, 0x756e6547, 0x6c65746e, 0x49656e69⟩
  rdmsr := fun _ => some 0xfee00900

/-- No experiments are running. -/
def plainCtx : VmexitCtx where
  cpu := sameAnswers
  vcpuIsOwn := true
  disableCpuid := false

/-- An exit at 0x1000 for an instruction of two bytes. -/
def exitAt (arch : Arch) (reason : VmexitReason) : VmexitInfo arch where
  vmexitReason := reason
  guestRip := 0x1000
  instLen := 2

/-- Registers of a guest that has not used the upper halves of the first four, but that of RSI. -/
def lowRegs : Regs .amd64 := fun g => if g = .si then 0xffff800000201000#64 else 0x80000001#64

def highRegs : Regs .amd64 := fun _ => 0x100000000#64

theorem plainCtx_handles (vmcs : VmexitInfo arch) (r : Regs arch) :
    HandlesExit plainCtx none vmcs r :=
  Or.inl ⟨(fun _ h => nomatch h), rfl⟩

/-- CPUID in such a guest. -/
theorem cpuid_transparent_lowRegs :
    vmexitAsm plainCtx none (exitAt .amd64 .cpuid) lowRegs =
        .resumed (lowRegs.afterInstruction (cpuidResults sameAnswers lowRegs)) 0x1002 ∧
      lowRegs.afterInstruction (cpuidResults sameAnswers lowRegs) .ax = 0x16#64 ∧
      lowRegs.afterInstruction (cpuidResults sameAnswers lowRegs) .si = 0xffff800000201000#64 :=
  ⟨(cpuid_rdmsr_transparent_iff
    (show instructionResults plainCtx.cpu (exitAt .amd64 .cpuid).vmexitReason lowRegs =
      some (cpuidResults sameAnswers lowRegs) from rfl)
    (plainCtx_handles _ _)).mpr (Or.inr (by decide)), rfl, rfl⟩

/-- In a guest with non-zero upper halves they stay: RAX is 0x100000016 after CPUID, and the
instruction makes it 0x16. -/
theorem cpuid_upper_half_kept :
    ∃ r', vmexitAsm plainCtx none (exitAt .amd64 .cpuid) highRegs = .resumed r' 0x1002 ∧
      r' .ax = 0x100000016#64 ∧
      highRegs.afterInstruction (cpuidResults sameAnswers highRegs) .ax = 0x16#64 ∧
      vmexitAsm plainCtx none (exitAt .amd64 .cpuid) highRegs ≠
        .resumed (highRegs.afterInstruction (cpuidResults sameAnswers highRegs)) 0x1002 := by
  have hcode : vmexitAsm plainCtx none (exitAt .amd64 .cpuid) highRegs =
      .resumed (highRegs.writeWith put32 (cpuidResults sameAnswers highRegs)) 0x1002 :=
    vmexitAsm_eq rfl (plainCtx_handles _ _)
  have hrax : highRegs.writeWith put32 (cpuidResults sameAnswers highRegs) .ax =
      0x100000016#64 := rfl
  have hinstr : highRegs.afterInstruction (cpuidResults sameAnswers highRegs) .ax = 0x16#64 := rfl
  refine ⟨_, hcode, hrax, hinstr, fun heq => ?_⟩
  rw [hcode, VmexitOutcome.resumed.injEq] at heq
  have hsame := congrFun heq.1 .ax
  rw [hrax, hinstr] at hsame
  exact absurd hsame (show ¬ 0x100000016#64 = 0x16#64 by decide)

end Shv
