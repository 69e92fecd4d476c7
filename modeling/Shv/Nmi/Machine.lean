/-
# `Shv.Nmi.Machine` — CPU 1 while it runs the NMI experiments

The experiments of `shv-nmi.c` are about what the processor does with NMIs in and
around a guest.  So their model has two parts.  The code (handlers, the VM-exit
handler, `hlt_wait`, `iret_wait`, `set_state`, …) is embedded as it is, as
computations of `NmiM`.  The processor is what the code runs on: `Hw`, with

    blocked       blocking by NMI: set when an NMI is delivered or causes a VM exit,
                  cleared by IRET and by nothing else
    latched       an NMI that waits; there is never more than one
    virtBlocked   virtual-NMI blocking, in the guest
    vmcs          the controls and the guest state that concern NMIs

and its rules:

    VM exit   virtual NMIs = 0: `blocked` stays and is saved in interruptibility bit 3
              virtual NMIs = 1: `virtBlocked` is saved there, and NMIs are not blocked
              an NMI exit blocks NMIs in either case; the injection's valid bit is cleared
    VM entry  virtual NMIs = 0: bit 3 is loaded to `blocked`
              virtual NMIs = 1: bit 3 is loaded to `virtBlocked`, and NMIs are not blocked
              an event to be injected is delivered before anything else
    IRET      unblocks NMIs, but with NMI exiting = 1 only virtual ones, if these are on
    priority  NMI-window exit before a latched NMI
    injection an injected NMI blocks virtual NMIs, if these are on, and nothing else

The BSP sends NMIs and IPIs in turn, while `l2_ready` is set, to a CPU that is in
HLT (`next` is the next one).  A CPU may wake from HLT for no reason: `stray` says
how often this happens in each of the coming waits.
-/
import Shv.Nmi.Recorder

namespace Shv.Nmi

/-! ## The processor -/

/-- The places of the code at which an event can hit. -/
inductive Rip where
  | null
  /-- label 1 in `hlt_wait` -/
  | hltWait
  /-- label 1 in `unblock_nmi_with_rip` -/
  | unblockNmi
  /-- the instruction after the `vmcall` of an experiment in a state -/
  | vmcall (experimentNo stateNo : Nat)
  | idtStub (guest : Bool) (vector : Nat)
  | vmexitAsm
  deriving DecidableEq, Repr

instance : Zero Rip := ⟨.null⟩

def idtStubGuest11 : Rip := .idtStub true 0x02
def idtStubGuestHh1 : Rip := .idtStub true 0x21

/-- What the BSP sends. -/
inductive Signal where
  | nmi
  | ipi
  deriving DecidableEq, Repr

/-- The valid VM-entry interruption informations: `0x80000202` and `0x80000021`. -/
inductive Injection where
  | nmi
  | keyboard
  deriving DecidableEq, Repr

/-- The fields of the VMCS that concern NMIs.  `halted` is the guest's activity state. -/
structure Vmcs where
  nmiExiting : Bool
  virtualNmis : Bool
  nmiWindowing : Bool
  blockingByNmi : Bool
  injection : Option Injection
  halted : Bool
  deriving DecidableEq, Repr

structure Hw where
  guest : Bool
  blocked : Bool
  virtBlocked : Bool
  halted : Bool
  latched : Bool
  next : Signal
  vmcs : Vmcs
  deriving DecidableEq, Repr

inductive ExitReason where
  | exception
  | nmiWindow
  | vmcall
  deriving DecidableEq, Repr

def Hw.exit (reason : ExitReason) (hw : Hw) : Hw :=
  { hw with
    guest := false
    blocked := reason = .exception || (!hw.vmcs.virtualNmis && hw.blocked)
    virtBlocked := false
    halted := false
    vmcs := { hw.vmcs with
      blockingByNmi := if hw.vmcs.virtualNmis then hw.virtBlocked else hw.blocked
      injection := none
      halted := hw.halted } }

/-- The checks of VM entry on these fields. -/
def Vmcs.entryOk (c : Vmcs) : Bool :=
  (!c.virtualNmis || c.nmiExiting) && (!c.nmiWindowing || c.virtualNmis) &&
    !(c.injection = some .nmi && c.virtualNmis && c.blockingByNmi)

/-- A VM entry, up to the delivery of an injected event. -/
def Hw.enter (hw : Hw) : Hw :=
  { hw with
    guest := true
    blocked := !hw.vmcs.virtualNmis && hw.vmcs.blockingByNmi
    virtBlocked := hw.vmcs.virtualNmis && hw.vmcs.blockingByNmi
    halted := hw.vmcs.halted && hw.vmcs.injection = none }

/-- IRET. -/
def Hw.iret (hw : Hw) : Hw :=
  if hw.guest && hw.vmcs.nmiExiting then
    { hw with virtBlocked := hw.virtBlocked && !hw.vmcs.virtualNmis }
  else
    { hw with blocked := false }

def Hw.takeNmi (hw : Hw) : Hw :=
  { hw with latched := false, blocked := true, halted := false }

/-! ## The machine -/

structure Machine where
  vars : Vars Rip
  experimentNo : Nat
  stateNo : Nat
  stray : List Nat
  hw : Hw
  deriving Repr

/-- Computations of CPU 1; `none` is a failed assertion or a CPU that hangs. -/
abbrev NmiM := StateT Machine Halting

def halt {α : Type} : NmiM α := fun _ => none

/-- A function of the recorder. -/
def recorder (f : Vars Rip → Halting (Vars Rip)) : NmiM Unit := fun σ =>
  (f σ.vars).map fun v => ((), { σ with vars := v })

def hardware (f : Hw → Hw) : NmiM Unit := fun σ => some ((), { σ with hw := f σ.hw })

def vmwrite (f : Vmcs → Vmcs) : NmiM Unit := hardware fun hw => { hw with vmcs := f hw.vmcs }

def setL2Ready (b : Bool) : NmiM Unit := recorder fun v => some { v with l2Ready := b }

def setExitSource (source : ExitSource) : NmiM Unit :=
  recorder fun v => some { v with exitSource := source }

/-! ## Interrupt handlers -/

def handleNmiInterrupt (guest : Bool) (rip : Rip) : NmiM Unit :=
  recorder (handleInterruptCpu1 (if guest then .nmiG else .nmiH) rip)

def handleIpiInterrupt (guest : Bool) (rip : Rip) : NmiM Unit :=
  recorder (handleInterruptCpu1 (if guest then .timerG else .timerH) rip)

/-- `handle_keyboard_interrupt`, which only prints the scan code. -/
def handleKeyboardInterrupt : NmiM Unit := pure ()

/-- `handle_idt` with the vectors that come to CPU 1; whether IRET is to be simulated. -/
def handleIdt (vector : Nat) (guest : Bool) (rip : Rip) : NmiM Bool := do
  match vector with
  | 0x02 => handleNmiInterrupt guest rip
  | 0x21 => handleKeyboardInterrupt
  | 0x54 => handleIpiInterrupt guest rip
  | _ => halt
  return vector == 0x02 || vector == 0x21 || vector == 0x54

/-- A stub of the IDT, from its first instruction on. -/
def idtStub (vector : Nat) (guest : Bool) (rip : Rip) : NmiM Unit := do
  let simulate ← handleIdt vector guest rip
  if !simulate then
    hardware Hw.iret

/-! ## VM exits and entries -/

/-- `shv_nmi_vmexit_handler`, up to `vmresume`. -/
def shvNmiVmexitHandler (dispatcher : NmiM Unit) (reason : ExitReason) (guestRip : Rip) :
    NmiM Unit := do
  match reason with
  | .vmcall => dispatcher
  | .exception =>
      recorder (handleInterruptCpu1 .vmexit guestRip)
      if (← get).hw.vmcs.halted then
        vmwrite fun c => { c with halted := false }
  | .nmiWindow =>
      recorder (handleInterruptCpu1 .nmiwind guestRip)
      cAssert (← get).hw.vmcs.nmiWindowing
      vmwrite fun c => { c with nmiWindowing := false }

/-- A latched NMI hits the host before the instruction at `rip`. -/
def hostBoundary (rip : Rip) : NmiM Unit := do
  let hw := (← get).hw
  if hw.latched && !hw.blocked then
    hardware Hw.takeNmi
    idtStub 0x02 false rip

def vmexit (dispatcher : NmiM Unit) (reason : ExitReason) (rip : Rip) : NmiM Unit := do
  hardware (Hw.exit reason)
  hostBoundary .vmexitAsm
  shvNmiVmexitHandler dispatcher reason rip

/-- `vmresume` to `rip`; `boundary` is what comes between two instructions of the guest. -/
def vmresume (boundary : Rip → NmiM Unit) (rip : Rip) : NmiM Unit := do
  let c := (← get).hw.vmcs
  cAssert c.entryOk
  hardware Hw.enter
  match c.injection with
  | none => boundary rip
  | some .keyboard =>
      boundary (.idtStub true 0x21)
      idtStub 0x21 true rip
  | some .nmi =>
      hardware fun hw => { hw with virtBlocked := hw.vmcs.virtualNmis }
      boundary (.idtStub true 0x02)
      idtStub 0x02 true rip

/-- The events that hit the guest before the instruction at `rip`.  Each uses up the NMI-window
control or the latched NMI, so a little fuel is enough; none left is a failure. -/
def guestBoundary : Nat → Rip → NmiM Unit
  | 0, _ => halt
  | fuel + 1, rip => do
      let hw := (← get).hw
      if hw.vmcs.nmiWindowing && !hw.virtBlocked then
        vmexit halt .nmiWindow rip
        vmresume (guestBoundary fuel) rip
      else if hw.latched && !hw.blocked then
        if hw.vmcs.nmiExiting then
          hardware fun hw => { hw with latched := false }
          vmexit halt .exception rip
          vmresume (guestBoundary fuel) rip
        else
          hardware Hw.takeNmi
          guestBoundary fuel (.idtStub true 0x02)
          idtStub 0x02 true rip

/-- Between two instructions. -/
def boundary (rip : Rip) : NmiM Unit := do
  if (← get).hw.guest then guestBoundary 4 rip else hostBoundary rip

/-! ## HLT and IRET -/

/-- In HLT: the BSP sends the next signal.  A blocked NMI is latched and does not wake the CPU. -/
def waitSignal : Nat → NmiM Unit
  | 0 => halt
  | fuel + 1 => do
      let σ ← get
      cAssert σ.vars.l2Ready
      match σ.hw.next with
      | .nmi =>
          hardware fun hw => { hw with next := .ipi, latched := true }
          boundary .hltWait
      | .ipi =>
          hardware fun hw => { hw with next := .nmi, halted := false }
          boundary (.idtStub σ.hw.guest 0x54)
          idtStub 0x54 σ.hw.guest .hltWait
      if (← get).hw.halted then
        waitSignal fuel

def hlt : NmiM Unit := do
  hardware fun hw => { hw with halted := true }
  waitSignal 2

/-- The loop of `hlt_wait`, with the number of times that HLT is left for no reason. -/
def hltLoop : Nat → NmiM Unit
  | 0 => do
      hlt
      if (← get).vars.exitSource = .measure then halt
  | stray + 1 => do
      if (← get).vars.exitSource = .measure then
        setL2Ready false
        setL2Ready true
        hltLoop stray

def hltWait (source : ExitSource) : NmiM Unit := do
  recorder prepareMeasure
  setExitSource .measure
  setL2Ready true
  let stray := (← get).stray
  modify fun σ => { σ with stray := stray.tail }
  hltLoop (stray.headD 0)
  cAssert !(← get).vars.l2Ready
  recorder (assertMeasure source .hltWait)

def unblockNmiWithRip : NmiM Rip := do
  hardware Hw.iret
  boundary .unblockNmi
  return .unblockNmi

def iretWait (source : ExitSource) : NmiM Unit := do
  recorder prepareMeasure
  setExitSource .measure
  let rip ← unblockNmiWithRip
  recorder (assertMeasure source rip)

/-! ## The VMCS as the experiments see it -/

def getBlockingByNmi : NmiM Bool := do
  return (← get).hw.vmcs.blockingByNmi

def assertState (nmiExiting virtualNmis blockingByNmi nmiWindowing : Bool) : NmiM Unit := do
  let c := (← get).hw.vmcs
  cAssert (c.nmiExiting == nmiExiting)
  cAssert (c.virtualNmis == virtualNmis)
  cAssert (c.nmiWindowing == nmiWindowing)
  cAssert (c.blockingByNmi == blockingByNmi)

def setState (nmiExiting virtualNmis blockingByNmi nmiWindowing : Bool) : NmiM Unit :=
  vmwrite fun c => { c with nmiExiting, virtualNmis, blockingByNmi, nmiWindowing }

/-- `__vmx_vmwrite32(VMCS_control_VM_entry_interruption_information, …)`. -/
def setInjection (injection : Injection) : NmiM Unit :=
  vmwrite fun c => { c with injection := some injection }

def setInjectNmi : NmiM Unit := do
  cAssert (← get).hw.vmcs.injection.isNone
  setInjection .nmi

end Shv.Nmi
