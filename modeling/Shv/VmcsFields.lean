/-
# `Shv.VmcsFields` — `_vmx_vmcs_fields.h` and the control bits it refers to

The VMCS fields SHV knows, in the order of the header: `DECLARE_FIELD_<size>_<writability>` with
the encoding, the name and the condition under which the CPU has the field.  The last argument of
the macro is `UNDEFINED` throughout and left out; so are the rows of `_vmx_ctls_fields.h` that no
condition mentions.

Nothing is proved here except that the table is consistent with the encodings in it: an encoding
carries the width of its field and whether it is a read-only one, and the macro a field is declared
with says the same (`vmcsField_encoding`).
-/
import Shv.Hptw

namespace Shv

/-! ## Control bits -/

/-- `vmx_ctls_t`. -/
structure VmxCtls where
  pinbasedCtls : BitVec 32
  procbasedCtls : BitVec 32
  procbasedCtls2 : BitVec 32
  exitCtls : BitVec 32
  entryCtls : BitVec 32
  deriving DecidableEq, Repr

/-- What the table depends on: the build (`__amd64__` or `__i386__`, and `__DEBUG_QEMU__`), the
controls the CPU allows (`vcpu->vmx_caps`) and its `IA32_VMX_MISC`. -/
structure VmxCpu where
  arch : Arch
  debugQemu : Bool
  vmxCaps : VmxCtls
  vmxMisc : BitVec 64

/-- The controls the table refers to, by the names of their `_vmx_hasctl_` functions. -/
inductive VmxCtl where
  | activateVmxPreemptionTimer | processPostedInterrupts
  | activateTertiaryControls | useTprShadow | useIoBitmaps | useMsrBitmaps
  | activateSecondaryControls
  | virtualizeApicAccess | enableEpt | enableVpid | virtualInterruptDelivery | pauseLoopExiting
  | enableVmFunctions | vmcsShadowing | enableEnclsExiting | enablePml | eptViolationVe
  | enableXsavesXrstors | subPageWritePermissionsForEpt | useTscScaling | enableEnclvExiting
  | vmexitLoadIa32PerfGlobalCtrl | vmexitSaveIa32Pat | vmexitLoadIa32Pat | vmexitSaveIa32Efer
  | vmexitLoadIa32Efer | vmexitClearIa32Bndcfgs | vmexitClearIa32RtitCtl | vmexitLoadCetState
  | vmexitLoadPkrs
  | vmentryLoadIa32PerfGlobalCtrl | vmentryLoadIa32Pat | vmentryLoadIa32Efer
  | vmentryLoadIa32Bndcfgs | vmentryLoadIa32RtitCtl | vmentryLoadCetState | vmentryLoadPkrs
  deriving DecidableEq, Repr

/-- `DECLARE_CTLS`: the word a control is in and its bit. -/
def VmxCtl.place : VmxCtl → (VmxCtls → BitVec 32) × Nat
  | .activateVmxPreemptionTimer => (VmxCtls.pinbasedCtls, 6)
  | .processPostedInterrupts => (VmxCtls.pinbasedCtls, 7)
  | .activateTertiaryControls => (VmxCtls.procbasedCtls, 17)
  | .useTprShadow => (VmxCtls.procbasedCtls, 21)
  | .useIoBitmaps => (VmxCtls.procbasedCtls, 25)
  | .useMsrBitmaps => (VmxCtls.procbasedCtls, 28)
  | .activateSecondaryControls => (VmxCtls.procbasedCtls, 31)
  | .virtualizeApicAccess => (VmxCtls.procbasedCtls2, 0)
  | .enableEpt => (VmxCtls.procbasedCtls2, 1)
  | .enableVpid => (VmxCtls.procbasedCtls2, 5)
  | .virtualInterruptDelivery => (VmxCtls.procbasedCtls2, 9)
  | .pauseLoopExiting => (VmxCtls.procbasedCtls2, 10)
  | .enableVmFunctions => (VmxCtls.procbasedCtls2, 13)
  | .vmcsShadowing => (VmxCtls.procbasedCtls2, 14)
  | .enableEnclsExiting => (VmxCtls.procbasedCtls2, 15)
  | .enablePml => (VmxCtls.procbasedCtls2, 17)
  | .eptViolationVe => (VmxCtls.procbasedCtls2, 18)
  | .enableXsavesXrstors => (VmxCtls.procbasedCtls2, 20)
  | .subPageWritePermissionsForEpt => (VmxCtls.procbasedCtls2, 23)
  | .useTscScaling => (VmxCtls.procbasedCtls2, 25)
  | .enableEnclvExiting => (VmxCtls.procbasedCtls2, 28)
  | .vmexitLoadIa32PerfGlobalCtrl => (VmxCtls.exitCtls, 12)
  | .vmexitSaveIa32Pat => (VmxCtls.exitCtls, 18)
  | .vmexitLoadIa32Pat => (VmxCtls.exitCtls, 19)
  | .vmexitSaveIa32Efer => (VmxCtls.exitCtls, 20)
  | .vmexitLoadIa32Efer => (VmxCtls.exitCtls, 21)
  | .vmexitClearIa32Bndcfgs => (VmxCtls.exitCtls, 23)
  | .vmexitClearIa32RtitCtl => (VmxCtls.exitCtls, 25)
  | .vmexitLoadCetState => (VmxCtls.exitCtls, 28)
  | .vmexitLoadPkrs => (VmxCtls.exitCtls, 29)
  | .vmentryLoadIa32PerfGlobalCtrl => (VmxCtls.entryCtls, 13)
  | .vmentryLoadIa32Pat => (VmxCtls.entryCtls, 14)
  | .vmentryLoadIa32Efer => (VmxCtls.entryCtls, 15)
  | .vmentryLoadIa32Bndcfgs => (VmxCtls.entryCtls, 16)
  | .vmentryLoadIa32RtitCtl => (VmxCtls.entryCtls, 18)
  | .vmentryLoadCetState => (VmxCtls.entryCtls, 20)
  | .vmentryLoadPkrs => (VmxCtls.entryCtls, 22)

/-- The family `_vmx_hasctl_…(FIELD_CTLS_ARG)`. -/
def hasctl (c : VmxCtl) (cpu : VmxCpu) : Bool :=
  (c.place.1 cpu.vmxCaps).getLsbD c.place.2

/-! ## The table -/

/-- Size of a field: 16, 64 or 32 bits, or natural width. -/
inductive VmcsWidth where
  | w16 | w64 | w32 | nw
  deriving DecidableEq, Repr

/-- Width of the C type of the field in `struct _vmx_vmcsfields`. -/
def VmcsWidth.bits (arch : Arch) : VmcsWidth → Nat
  | .w16 => 16
  | .w64 => 64
  | .w32 => 32
  | .nw => arch.ptrBits

structure VmcsField where
  width : VmcsWidth
  readOnly : Bool
  encoding : Nat
  exist : VmxCpu → Bool

/-- `DECLARE_FIELD_…_RW`. -/
def VmcsField.rw (width : VmcsWidth) (encoding : Nat) (exist : VmxCpu → Bool) : VmcsField where
  width := width
  readOnly := false
  encoding := encoding
  exist := exist

/-- `DECLARE_FIELD_…_RO`. -/
def VmcsField.ro (width : VmcsWidth) (encoding : Nat) (exist : VmxCpu → Bool) : VmcsField where
  width := width
  readOnly := true
  encoding := encoding
  exist := exist

/-- The `exist` arguments `(1)` and `(0)`. -/
def always (_ : VmxCpu) : Bool := true
def never (_ : VmxCpu) : Bool := false

/-- `!VMCS12_FIELDS_QEMU`. -/
def notQemu (cpu : VmxCpu) : Bool := !cpu.debugQemu

/-- A disjunction of two controls. -/
def either (c d : VmxCtl) (cpu : VmxCpu) : Bool := hasctl c cpu || hasctl d cpu

inductive VmcsName where
  | controlVpid | controlPostInterruptNotificationVec | controlEptpIndex
  | guestESSelector | guestCSSelector | guestSSSelector | guestDSSelector | guestFSSelector
  | guestGSSelector | guestLDTRSelector | guestTRSelector | guestInterruptStatus | guestPMLIndex
  | hostESSelector | hostCSSelector | hostSSSelector | hostDSSelector | hostFSSelector
  | hostGSSelector | hostTRSelector
  | controlIOBitmapAAddress | controlIOBitmapBAddress | controlMSRBitmapsAddress
  | controlVMExitMSRStoreAddress | controlVMExitMSRLoadAddress | controlVMEntryMSRLoadAddress
  | controlExecutiveVMCSPointer | controlPMLAddress | controlTSCOffset | controlVirtualAPICAddress
  | controlAPICAccessAddress | controlPostedInterruptDescAddress | controlVMFunctionControls
  | controlEPTPointer | controlEOIExitBitmap0 | controlEOIExitBitmap1 | controlEOIExitBitmap2
  | controlEOIExitBitmap3 | controlEPTPListAddress | controlVMREADBitmapAddress
  | controlVMWRITEBitmapAddress | controlVirtExceptionInfoAddress | controlXSSExitingBitmap
  | controlENCLSExitingBitmap | controlSubpagePermissionTablePointer | controlTSCMultiplier
  | controlTertiaryProcBasedVMexecCtls | controlENCLVExitingBitmap
  | guestPaddr
  | guestVMCSLinkPointer | guestIA32DEBUGCTL | guestIA32PAT | guestIA32EFER
  | guestIA32PERFGLOBALCTRL | guestPDPTE0 | guestPDPTE1 | guestPDPTE2 | guestPDPTE3
  | guestIA32BNDCFGS | guestIA32RTITCTL | guestIA32PKRS
  | hostIA32PAT | hostIA32EFER | hostIA32PERFGLOBALCTRL | hostIA32PKRS
  | controlVMXPinBased | controlVMXCpuBased | controlExceptionBitmap
  | controlPagefaultErrorcodeMask | controlPagefaultErrorcodeMatch | controlCR3TargetCount
  | controlVMExitControls | controlVMExitMSRStoreCount | controlVMExitMSRLoadCount
  | controlVMEntryControls | controlVMEntryMSRLoadCount | controlVMEntryInterruptionInformation
  | controlVMEntryExceptionErrorcode | controlVMEntryInstructionLength
  | controlTaskPRivilegeThreshold | controlVMXSeccpuBased | controlPLEGap | controlPLEWindow
  | infoVminstrError | infoVmexitReason | infoVmexitInterruptInformation
  | infoVmexitInterruptErrorCode | infoIDTVectoringInformation | infoIDTVectoringErrorCode
  | infoVmexitInstructionLength | infoVmxInstructionInformation
  | guestESLimit | guestCSLimit | guestSSLimit | guestDSLimit | guestFSLimit | guestGSLimit
  | guestLDTRLimit | guestTRLimit | guestGDTRLimit | guestIDTRLimit | guestESAccessRights
  | guestCSAccessRights | guestSSAccessRights | guestDSAccessRights | guestFSAccessRights
  | guestGSAccessRights | guestLDTRAccessRights | guestTRAccessRights | guestInterruptibility
  | guestActivityState | guestSMBASE | guestSYSENTERCS | guestVMXPreemptionTimerValue
  | hostSYSENTERCS
  | controlCR0Mask | controlCR4Mask | controlCR0Shadow | controlCR4Shadow | controlCR3Target0
  | controlCR3Target1 | controlCR3Target2 | controlCR3Target3
  | infoExitQualification | infoIORCX | infoIORSI | infoIORDI | infoIORIP | infoGuestLinearAddress
  | guestCR0 | guestCR3 | guestCR4 | guestESBase | guestCSBase | guestSSBase | guestDSBase
  | guestFSBase | guestGSBase | guestLDTRBase | guestTRBase | guestGDTRBase | guestIDTRBase
  | guestDR7 | guestRSP | guestRIP | guestRFLAGS | guestPendingDebugX | guestSYSENTERESP
  | guestSYSENTEREIP | guestIA32SCET | guestSSP | guestIA32INTERRUPTSSPTABLEADDR
  | hostCR0 | hostCR3 | hostCR4 | hostFSBase | hostGSBase | hostTRBase | hostGDTRBase
  | hostIDTRBase | hostSYSENTERESP | hostSYSENTEREIP | hostRSP | hostRIP | hostIA32SCET | hostSSP
  | hostIA32INTERRUPTSSPTABLEADDR
  deriving DecidableEq

def vmcsField : VmcsName → VmcsField
  -- 16-Bit Control Fields
  | .controlVpid => .rw .w16 0x0000 (hasctl .enableVpid)
  | .controlPostInterruptNotificationVec => .rw .w16 0x0002 (hasctl .processPostedInterrupts)
  | .controlEptpIndex => .rw .w16 0x0004 (hasctl .eptViolationVe)
  -- 16-Bit Guest-State Fields
  | .guestESSelector => .rw .w16 0x0800 always
  | .guestCSSelector => .rw .w16 0x0802 always
  | .guestSSSelector => .rw .w16 0x0804 always
  | .guestDSSelector => .rw .w16 0x0806 always
  | .guestFSSelector => .rw .w16 0x0808 always
  | .guestGSSelector => .rw .w16 0x080A always
  | .guestLDTRSelector => .rw .w16 0x080C always
  | .guestTRSelector => .rw .w16 0x080E always
  | .guestInterruptStatus => .rw .w16 0x0810 (hasctl .virtualInterruptDelivery)
  | .guestPMLIndex => .rw .w16 0x0812 (hasctl .enablePml)
  -- 16-Bit Host-State Fields
  | .hostESSelector => .rw .w16 0x0C00 always
  | .hostCSSelector => .rw .w16 0x0C02 always
  | .hostSSSelector => .rw .w16 0x0C04 always
  | .hostDSSelector => .rw .w16 0x0C06 always
  | .hostFSSelector => .rw .w16 0x0C08 always
  | .hostGSSelector => .rw .w16 0x0C0A always
  | .hostTRSelector => .rw .w16 0x0C0C always
  -- 64-Bit Control Fields
  | .controlIOBitmapAAddress => .rw .w64 0x2000 (hasctl .useIoBitmaps)
  | .controlIOBitmapBAddress => .rw .w64 0x2002 (hasctl .useIoBitmaps)
  | .controlMSRBitmapsAddress => .rw .w64 0x2004 (hasctl .useMsrBitmaps)
  | .controlVMExitMSRStoreAddress => .rw .w64 0x2006 always
  | .controlVMExitMSRLoadAddress => .rw .w64 0x2008 always
  | .controlVMEntryMSRLoadAddress => .rw .w64 0x200A always
  | .controlExecutiveVMCSPointer => .rw .w64 0x200C notQemu
  | .controlPMLAddress => .rw .w64 0x200E (hasctl .enablePml)
  | .controlTSCOffset => .rw .w64 0x2010 always
  | .controlVirtualAPICAddress => .rw .w64 0x2012 (hasctl .useTprShadow)
  | .controlAPICAccessAddress => .rw .w64 0x2014 (hasctl .virtualizeApicAccess)
  | .controlPostedInterruptDescAddress => .rw .w64 0x2016 (hasctl .processPostedInterrupts)
  | .controlVMFunctionControls => .rw .w64 0x2018 (hasctl .enableVmFunctions)
  | .controlEPTPointer => .rw .w64 0x201A (hasctl .enableEpt)
  | .controlEOIExitBitmap0 => .rw .w64 0x201C (hasctl .virtualInterruptDelivery)
  | .controlEOIExitBitmap1 => .rw .w64 0x201E (hasctl .virtualInterruptDelivery)
  | .controlEOIExitBitmap2 => .rw .w64 0x2020 (hasctl .virtualInterruptDelivery)
  | .controlEOIExitBitmap3 => .rw .w64 0x2022 (hasctl .virtualInterruptDelivery)
  -- exists with the EPTP-switching VM function, which the header cannot detect
  | .controlEPTPListAddress => .rw .w64 0x2024 never
  | .controlVMREADBitmapAddress => .rw .w64 0x2026 (hasctl .vmcsShadowing)
  | .controlVMWRITEBitmapAddress => .rw .w64 0x2028 (hasctl .vmcsShadowing)
  | .controlVirtExceptionInfoAddress => .rw .w64 0x202A (hasctl .eptViolationVe)
  | .controlXSSExitingBitmap => .rw .w64 0x202C (hasctl .enableXsavesXrstors)
  | .controlENCLSExitingBitmap => .rw .w64 0x202E (hasctl .enableEnclsExiting)
  | .controlSubpagePermissionTablePointer => .rw .w64 0x2030 (hasctl .subPageWritePermissionsForEpt)
  | .controlTSCMultiplier => .rw .w64 0x2032 (hasctl .useTscScaling)
  | .controlTertiaryProcBasedVMexecCtls => .rw .w64 0x2034 (hasctl .activateTertiaryControls)
  | .controlENCLVExitingBitmap => .rw .w64 0x2036 (hasctl .enableEnclvExiting)
  -- 64-Bit Read-Only Data Field
  | .guestPaddr => .ro .w64 0x2400 (hasctl .enableEpt)
  -- 64-Bit Guest-State Fields
  | .guestVMCSLinkPointer => .rw .w64 0x2800 always
  | .guestIA32DEBUGCTL => .rw .w64 0x2802 always
  | .guestIA32PAT => .rw .w64 0x2804 (either .vmexitSaveIa32Pat .vmentryLoadIa32Pat)
  | .guestIA32EFER => .rw .w64 0x2806 (either .vmexitSaveIa32Efer .vmentryLoadIa32Efer)
  | .guestIA32PERFGLOBALCTRL => .rw .w64 0x2808 (hasctl .vmentryLoadIa32PerfGlobalCtrl)
  | .guestPDPTE0 => .rw .w64 0x280A (hasctl .enableEpt)
  | .guestPDPTE1 => .rw .w64 0x280C (hasctl .enableEpt)
  | .guestPDPTE2 => .rw .w64 0x280E (hasctl .enableEpt)
  | .guestPDPTE3 => .rw .w64 0x2810 (hasctl .enableEpt)
  | .guestIA32BNDCFGS => .rw .w64 0x2812 (either .vmexitClearIa32Bndcfgs .vmentryLoadIa32Bndcfgs)
  | .guestIA32RTITCTL => .rw .w64 0x2814 (either .vmexitClearIa32RtitCtl .vmentryLoadIa32RtitCtl)
  | .guestIA32PKRS => .rw .w64 0x2818 (hasctl .vmentryLoadPkrs)
  -- 64-Bit Host-State Fields
  | .hostIA32PAT => .rw .w64 0x2C00 (hasctl .vmexitLoadIa32Pat)
  | .hostIA32EFER => .rw .w64 0x2C02 (hasctl .vmexitLoadIa32Efer)
  | .hostIA32PERFGLOBALCTRL => .rw .w64 0x2C04 (hasctl .vmexitLoadIa32PerfGlobalCtrl)
  | .hostIA32PKRS => .rw .w64 0x2C06 (hasctl .vmexitLoadPkrs)
  -- 32-Bit Control Fields
  | .controlVMXPinBased => .rw .w32 0x4000 always
  | .controlVMXCpuBased => .rw .w32 0x4002 always
  | .controlExceptionBitmap => .rw .w32 0x4004 always
  | .controlPagefaultErrorcodeMask => .rw .w32 0x4006 always
  | .controlPagefaultErrorcodeMatch => .rw .w32 0x4008 always
  | .controlCR3TargetCount => .rw .w32 0x400A always
  | .controlVMExitControls => .rw .w32 0x400C always
  | .controlVMExitMSRStoreCount => .rw .w32 0x400E always
  | .controlVMExitMSRLoadCount => .rw .w32 0x4010 always
  | .controlVMEntryControls => .rw .w32 0x4012 always
  | .controlVMEntryMSRLoadCount => .rw .w32 0x4014 always
  | .controlVMEntryInterruptionInformation => .rw .w32 0x4016 always
  | .controlVMEntryExceptionErrorcode => .rw .w32 0x4018 always
  | .controlVMEntryInstructionLength => .rw .w32 0x401A always
  | .controlTaskPRivilegeThreshold => .rw .w32 0x401C (hasctl .useTprShadow)
  | .controlVMXSeccpuBased => .rw .w32 0x401E (hasctl .activateSecondaryControls)
  | .controlPLEGap => .rw .w32 0x4020 (hasctl .pauseLoopExiting)
  | .controlPLEWindow => .rw .w32 0x4022 (hasctl .pauseLoopExiting)
  -- 32-Bit Read-Only Data Fields
  | .infoVminstrError => .ro .w32 0x4400 always
  | .infoVmexitReason => .ro .w32 0x4402 always
  | .infoVmexitInterruptInformation => .ro .w32 0x4404 always
  | .infoVmexitInterruptErrorCode => .ro .w32 0x4406 always
  | .infoIDTVectoringInformation => .ro .w32 0x4408 always
  | .infoIDTVectoringErrorCode => .ro .w32 0x440A always
  | .infoVmexitInstructionLength => .ro .w32 0x440C always
  | .infoVmxInstructionInformation => .ro .w32 0x440E always
  -- 32-Bit Guest-State Fields
  | .guestESLimit => .rw .w32 0x4800 always
  | .guestCSLimit => .rw .w32 0x4802 always
  | .guestSSLimit => .rw .w32 0x4804 always
  | .guestDSLimit => .rw .w32 0x4806 always
  | .guestFSLimit => .rw .w32 0x4808 always
  | .guestGSLimit => .rw .w32 0x480A always
  | .guestLDTRLimit => .rw .w32 0x480C always
  | .guestTRLimit => .rw .w32 0x480E always
  | .guestGDTRLimit => .rw .w32 0x4810 always
  | .guestIDTRLimit => .rw .w32 0x4812 always
  | .guestESAccessRights => .rw .w32 0x4814 always
  | .guestCSAccessRights => .rw .w32 0x4816 always
  | .guestSSAccessRights => .rw .w32 0x4818 always
  | .guestDSAccessRights => .rw .w32 0x481A always
  | .guestFSAccessRights => .rw .w32 0x481C always
  | .guestGSAccessRights => .rw .w32 0x481E always
  | .guestLDTRAccessRights => .rw .w32 0x4820 always
  | .guestTRAccessRights => .rw .w32 0x4822 always
  | .guestInterruptibility => .rw .w32 0x4824 always
  | .guestActivityState => .rw .w32 0x4826 always
  | .guestSMBASE => .rw .w32 0x4828 notQemu
  | .guestSYSENTERCS => .rw .w32 0x482A always
  | .guestVMXPreemptionTimerValue => .rw .w32 0x482E (hasctl .activateVmxPreemptionTimer)
  -- 32-Bit Host-State Field
  | .hostSYSENTERCS => .rw .w32 0x4C00 always
  -- Natural-Width Control Fields
  | .controlCR0Mask => .rw .nw 0x6000 always
  | .controlCR4Mask => .rw .nw 0x6002 always
  | .controlCR0Shadow => .rw .nw 0x6004 always
  | .controlCR4Shadow => .rw .nw 0x6006 always
  | .controlCR3Target0 => .rw .nw 0x6008 notQemu
  | .controlCR3Target1 => .rw .nw 0x600A notQemu
  | .controlCR3Target2 => .rw .nw 0x600C notQemu
  | .controlCR3Target3 => .rw .nw 0x600E notQemu
  -- Natural-Width Read-Only Data Fields
  | .infoExitQualification => .ro .nw 0x6400 always
  | .infoIORCX => .ro .nw 0x6402 notQemu
  | .infoIORSI => .ro .nw 0x6404 notQemu
  | .infoIORDI => .ro .nw 0x6406 notQemu
  | .infoIORIP => .ro .nw 0x6408 notQemu
  | .infoGuestLinearAddress => .ro .nw 0x640A always
  -- Natural-Width Guest-State Fields
  | .guestCR0 => .rw .nw 0x6800 always
  | .guestCR3 => .rw .nw 0x6802 always
  | .guestCR4 => .rw .nw 0x6804 always
  | .guestESBase => .rw .nw 0x6806 always
  | .guestCSBase => .rw .nw 0x6808 always
  | .guestSSBase => .rw .nw 0x680A always
  | .guestDSBase => .rw .nw 0x680C always
  | .guestFSBase => .rw .nw 0x680E always
  | .guestGSBase => .rw .nw 0x6810 always
  | .guestLDTRBase => .rw .nw 0x6812 always
  | .guestTRBase => .rw .nw 0x6814 always
  | .guestGDTRBase => .rw .nw 0x6816 always
  | .guestIDTRBase => .rw .nw 0x6818 always
  | .guestDR7 => .rw .nw 0x681A always
  | .guestRSP => .rw .nw 0x681C always
  | .guestRIP => .rw .nw 0x681E always
  | .guestRFLAGS => .rw .nw 0x6820 always
  | .guestPendingDebugX => .rw .nw 0x6822 always
  | .guestSYSENTERESP => .rw .nw 0x6824 always
  | .guestSYSENTEREIP => .rw .nw 0x6826 always
  | .guestIA32SCET => .rw .nw 0x6828 (hasctl .vmentryLoadCetState)
  | .guestSSP => .rw .nw 0x682A (hasctl .vmentryLoadCetState)
  | .guestIA32INTERRUPTSSPTABLEADDR => .rw .nw 0x682C (hasctl .vmentryLoadCetState)
  -- Natural-Width Host-State Fields
  | .hostCR0 => .rw .nw 0x6C00 always
  | .hostCR3 => .rw .nw 0x6C02 always
  | .hostCR4 => .rw .nw 0x6C04 always
  | .hostFSBase => .rw .nw 0x6C06 always
  | .hostGSBase => .rw .nw 0x6C08 always
  | .hostTRBase => .rw .nw 0x6C0A always
  | .hostGDTRBase => .rw .nw 0x6C0C always
  | .hostIDTRBase => .rw .nw 0x6C0E always
  | .hostSYSENTERESP => .rw .nw 0x6C10 always
  | .hostSYSENTEREIP => .rw .nw 0x6C12 always
  | .hostRSP => .rw .nw 0x6C14 always
  | .hostRIP => .rw .nw 0x6C16 always
  | .hostIA32SCET => .rw .nw 0x6C18 (hasctl .vmexitLoadCetState)
  | .hostSSP => .rw .nw 0x6C1A (hasctl .vmexitLoadCetState)
  | .hostIA32INTERRUPTSSPTABLEADDR => .rw .nw 0x6C1C (hasctl .vmexitLoadCetState)

/-- The fields in the order in which including the header lists them. -/
def vmcsNames : List VmcsName := [
  .controlVpid, .controlPostInterruptNotificationVec, .controlEptpIndex, .guestESSelector,
  .guestCSSelector, .guestSSSelector, .guestDSSelector, .guestFSSelector, .guestGSSelector,
  .guestLDTRSelector, .guestTRSelector, .guestInterruptStatus, .guestPMLIndex, .hostESSelector,
  .hostCSSelector, .hostSSSelector, .hostDSSelector, .hostFSSelector, .hostGSSelector,
  .hostTRSelector, .controlIOBitmapAAddress, .controlIOBitmapBAddress, .controlMSRBitmapsAddress,
  .controlVMExitMSRStoreAddress, .controlVMExitMSRLoadAddress, .controlVMEntryMSRLoadAddress,
  .controlExecutiveVMCSPointer, .controlPMLAddress, .controlTSCOffset, .controlVirtualAPICAddress,
  .controlAPICAccessAddress, .controlPostedInterruptDescAddress, .controlVMFunctionControls,
  .controlEPTPointer, .controlEOIExitBitmap0, .controlEOIExitBitmap1, .controlEOIExitBitmap2,
  .controlEOIExitBitmap3, .controlEPTPListAddress, .controlVMREADBitmapAddress,
  .controlVMWRITEBitmapAddress, .controlVirtExceptionInfoAddress, .controlXSSExitingBitmap,
  .controlENCLSExitingBitmap, .controlSubpagePermissionTablePointer, .controlTSCMultiplier,
  .controlTertiaryProcBasedVMexecCtls, .controlENCLVExitingBitmap, .guestPaddr,
  .guestVMCSLinkPointer, .guestIA32DEBUGCTL, .guestIA32PAT, .guestIA32EFER,
  .guestIA32PERFGLOBALCTRL, .guestPDPTE0, .guestPDPTE1, .guestPDPTE2, .guestPDPTE3,
  .guestIA32BNDCFGS, .guestIA32RTITCTL, .guestIA32PKRS, .hostIA32PAT, .hostIA32EFER,
  .hostIA32PERFGLOBALCTRL, .hostIA32PKRS, .controlVMXPinBased, .controlVMXCpuBased,
  .controlExceptionBitmap, .controlPagefaultErrorcodeMask, .controlPagefaultErrorcodeMatch,
  .controlCR3TargetCount, .controlVMExitControls, .controlVMExitMSRStoreCount,
  .controlVMExitMSRLoadCount, .controlVMEntryControls, .controlVMEntryMSRLoadCount,
  .controlVMEntryInterruptionInformation, .controlVMEntryExceptionErrorcode,
  .controlVMEntryInstructionLength, .controlTaskPRivilegeThreshold, .controlVMXSeccpuBased,
  .controlPLEGap, .controlPLEWindow, .infoVminstrError, .infoVmexitReason,
  .infoVmexitInterruptInformation, .infoVmexitInterruptErrorCode, .infoIDTVectoringInformation,
  .infoIDTVectoringErrorCode, .infoVmexitInstructionLength, .infoVmxInstructionInformation,
  .guestESLimit, .guestCSLimit, .guestSSLimit, .guestDSLimit, .guestFSLimit, .guestGSLimit,
  .guestLDTRLimit, .guestTRLimit, .guestGDTRLimit, .guestIDTRLimit, .guestESAccessRights,
  .guestCSAccessRights, .guestSSAccessRights, .guestDSAccessRights, .guestFSAccessRights,
  .guestGSAccessRights, .guestLDTRAccessRights, .guestTRAccessRights, .guestInterruptibility,
  .guestActivityState, .guestSMBASE, .guestSYSENTERCS, .guestVMXPreemptionTimerValue,
  .hostSYSENTERCS, .controlCR0Mask, .controlCR4Mask, .controlCR0Shadow, .controlCR4Shadow,
  .controlCR3Target0, .controlCR3Target1, .controlCR3Target2, .controlCR3Target3,
  .infoExitQualification, .infoIORCX, .infoIORSI, .infoIORDI, .infoIORIP, .infoGuestLinearAddress,
  .guestCR0, .guestCR3, .guestCR4, .guestESBase, .guestCSBase, .guestSSBase, .guestDSBase,
  .guestFSBase, .guestGSBase, .guestLDTRBase, .guestTRBase, .guestGDTRBase, .guestIDTRBase,
  .guestDR7, .guestRSP, .guestRIP, .guestRFLAGS, .guestPendingDebugX, .guestSYSENTERESP,
  .guestSYSENTEREIP, .guestIA32SCET, .guestSSP, .guestIA32INTERRUPTSSPTABLEADDR, .hostCR0,
  .hostCR3, .hostCR4, .hostFSBase, .hostGSBase, .hostTRBase, .hostGDTRBase, .hostIDTRBase,
  .hostSYSENTERESP, .hostSYSENTEREIP, .hostRSP, .hostRIP, .hostIA32SCET, .hostSSP,
  .hostIA32INTERRUPTSSPTABLEADDR]

/-! ## Encodings

Bits 14:13 of an encoding are the width of the field, bits 11:10 its type, 1 being the read-only
data fields; bit 0 is set only to name the high half of a 64-bit field. -/

/-- The width an encoding carries. -/
def encodingWidth (encoding : Nat) : VmcsWidth :=
  match encoding / 2 ^ 13 % 4 with
  | 0 => .w16
  | 1 => .w64
  | 2 => .w32
  | _ => .nw

/-- Whether an encoding is that of a read-only data field. -/
def encodingReadOnly (encoding : Nat) : Bool := encoding / 2 ^ 10 % 4 == 1

/-- What bits 15:12 are for a field of the given width. -/
def VmcsWidth.index : VmcsWidth → Nat
  | .w16 => 0
  | .w64 => 2
  | .w32 => 4
  | .nw => 6

/-- The macro a field is declared with agrees with its encoding, which is the encoding of a whole
field. -/
theorem vmcsField_encoding (n : VmcsName) :
    encodingWidth (vmcsField n).encoding = (vmcsField n).width ∧
    encodingReadOnly (vmcsField n).encoding = (vmcsField n).readOnly ∧
    (vmcsField n).encoding >>> 12 = (vmcsField n).width.index ∧
    (vmcsField n).encoding % 2 = 0 := by
  cases n <;> exact ⟨rfl, rfl, rfl, rfl⟩

theorem mem_vmcsNames (n : VmcsName) : n ∈ vmcsNames := by
  have h : vmcsNames[n.ctorIdx]? = some n := by cases n <;> rfl
  exact List.mem_of_getElem? h

end Shv
