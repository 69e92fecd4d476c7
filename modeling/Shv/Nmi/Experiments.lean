/-
# `Shv.Nmi.Experiments` — the experiments of `shv-nmi.c`

An experiment has two halves.  `experiment_n` runs in the guest; every `vmcall` it
makes runs `experiment_n_vmcall` in the host, which goes by `state_no`.  Experiments
that differ in a few values share one definition and are that definition at their
own values; the others are written out.

`set_state`, `assert_state` take NMI exiting, virtual NMIs, blocking by NMI and NMI
windowing, in this order.
-/
import Shv.Nmi.Machine

namespace Shv.Nmi

/-! ## The halves in the host -/

def vmcallState (state0 : NmiM Unit) : NmiM Unit := do
  match (← get).stateNo with
  | 0 => state0
  | _ => halt

def vmcallStates (state0 state1 : NmiM Unit) : NmiM Unit := do
  match (← get).stateNo with
  | 0 => state0
  | 1 => state1
  | _ => halt

/-- `hlt_wait(EXIT_NMI_H)`, then `timers` times `hlt_wait(EXIT_TIMER_H)`: from the second of
these on, an NMI is latched. -/
def hltNmiThenTimers (timers : Nat) : NmiM Unit := do
  hltWait .nmiH
  (List.replicate timers ()).forM fun _ => hltWait .timerH

/-- The host gets an NMI, unblocks NMIs and gets a timer interrupt. -/
def hltNmiIretTimer : NmiM Unit := do
  hltWait .nmiH
  iretWait .measure
  hltWait .timerH

/-- `TEST_ASSERT(get_blocking_by_nmi())`, or of its negation. -/
def assertBlockingByNmi (blocking : Bool) : NmiM Unit := do
  cAssert ((← getBlockingByNmi) == blocking)

def experiment1Vmcall : NmiM Unit := vmcallState (setState false false false false)

def experiment2Vmcall : NmiM Unit :=
  vmcallStates (setState false false true false) do
    assertBlockingByNmi true
    recorder (assertMeasure .measure 0)
    hltWait .timerH

def experiment3Vmcall : NmiM Unit := vmcallState do
  hltNmiThenTimers 2
  setState false false false false
  recorder prepareMeasure

def experiment4Vmcall : NmiM Unit :=
  vmcallStates (setState false false true false) do
    hltWait .timerH
    iretWait .nmiH
    iretWait .measure

/-- Experiments 5 and 8. -/
def hltExitVmcall (virtualNmis : Bool) : NmiM Unit :=
  vmcallStates (setState true virtualNmis false false) (iretWait .measure)

def experiment5Vmcall : NmiM Unit := hltExitVmcall false

def experiment6Vmcall : NmiM Unit :=
  vmcallStates (setState true false true false) do
    assertBlockingByNmi true
    iretWait .nmiH
    iretWait .measure
    setState true false false false

/-- Experiments 7, 10 and 11: an NMI that the host has latched. -/
def latchedExitVmcall (virtualNmis blockingByNmi : Bool) : NmiM Unit :=
  vmcallStates
    (do hltNmiThenTimers 2
        setState true virtualNmis blockingByNmi false)
    (do assertBlockingByNmi blockingByNmi
        iretWait .measure)

def experiment7Vmcall : NmiM Unit := latchedExitVmcall false false
def experiment8Vmcall : NmiM Unit := hltExitVmcall true

def experiment9Vmcall : NmiM Unit :=
  vmcallStates (setState true true true false) do
    assertBlockingByNmi true
    iretWait .measure

def experiment10Vmcall : NmiM Unit := latchedExitVmcall true false
def experiment11Vmcall : NmiM Unit := latchedExitVmcall true true

def experiment12Vmcall : NmiM Unit :=
  vmcallStates (setState true true true false) do
    assertBlockingByNmi false
    hltNmiIretTimer

/-- Experiments 13 and 14: the host blocks NMIs and enters the guest. -/
def roundTripVmcall (blockingByNmi : Bool) : NmiM Unit :=
  vmcallStates
    (do hltNmiThenTimers 1
        setState true true blockingByNmi false)
    (do assertBlockingByNmi blockingByNmi
        hltNmiIretTimer)

def experiment13Vmcall : NmiM Unit := roundTripVmcall false
def experiment14Vmcall : NmiM Unit := roundTripVmcall true

/-- Experiments 15 to 17: a latched NMI and an injected interrupt. -/
def keyboardVmcall (nmiExiting virtualNmis blockingByNmi blockingAfter : Bool) : NmiM Unit :=
  vmcallStates
    (do hltNmiThenTimers 2
        setState nmiExiting virtualNmis blockingByNmi false
        setInjection .keyboard
        recorder prepareMeasure)
    (do assertBlockingByNmi blockingAfter
        iretWait .measure
        setState false false false false)

def experiment15Vmcall : NmiM Unit := keyboardVmcall false false false true
def experiment16Vmcall : NmiM Unit := keyboardVmcall true false false false
def experiment17Vmcall : NmiM Unit := keyboardVmcall true true true true

def experiment18Vmcall : NmiM Unit :=
  vmcallStates
    (do hltNmiIretTimer
        setState false false false false
        setInjectNmi
        recorder prepareMeasure)
    (do assertBlockingByNmi false
        iretWait .measure
        setState false false false false)

/-- Experiments 19 and 20: an injected NMI. -/
def injectNmiVmcall (virtualNmis : Bool) : NmiM Unit :=
  vmcallStates
    (do setState true virtualNmis false false
        setInjectNmi
        recorder prepareMeasure)
    (do assertBlockingByNmi virtualNmis
        hltNmiIretTimer
        setState false false false false)

def experiment19Vmcall : NmiM Unit := injectNmiVmcall false
def experiment20Vmcall : NmiM Unit := injectNmiVmcall true

/-- Experiments 21 to 23: NMI windowing. -/
def windowVmcall (blockingByNmi blockingAfter windowingAfter : Bool) : NmiM Unit :=
  vmcallStates
    (do setState true true blockingByNmi true
        recorder prepareMeasure)
    (do assertState true true blockingAfter windowingAfter
        hltNmiIretTimer
        setState false false false false)

def experiment21Vmcall : NmiM Unit := windowVmcall false false false
def experiment22Vmcall : NmiM Unit := windowVmcall true true true
def experiment23Vmcall : NmiM Unit := windowVmcall true false false

def experiment24Vmcall : NmiM Unit :=
  vmcallStates
    (do hltNmiThenTimers 2
        setState true true false true
        recorder prepareMeasure2)
    (do assertState true true false false
        iretWait .measure
        setState false false false false)

def experiment25Vmcall : NmiM Unit :=
  vmcallStates
    (do setState true true false true
        setInjectNmi
        recorder prepareMeasure)
    (do assertState true true false false
        hltNmiIretTimer
        setState false false false false)

def experiment26Vmcall : NmiM Unit :=
  vmcallStates
    (do hltNmiThenTimers 2
        setState true true false false
        setInjectNmi
        recorder prepareMeasure2)
    (do assertState true true true false
        iretWait .measure
        setState false false false false)

/-- Experiments 27, 28 and 30: two NMIs, one of which is lost. -/
def lostNmiVmcall (nmiExiting virtualNmis : Bool) : NmiM Unit :=
  vmcallStates
    (do hltNmiThenTimers 3
        setState nmiExiting virtualNmis false false
        recorder prepareMeasure)
    (do assertState nmiExiting virtualNmis false false
        iretWait .measure
        setState false false false false)

def experiment27Vmcall : NmiM Unit := lostNmiVmcall false false
def experiment28Vmcall : NmiM Unit := lostNmiVmcall true false

def experiment29Vmcall : NmiM Unit := vmcallState do
  hltNmiThenTimers 4
  iretWait .nmiH
  iretWait .measure
  iretWait .measure
  setState false false false false

def experiment30Vmcall : NmiM Unit := lostNmiVmcall true true

/-- The `vmcall` members of `experiments`. -/
def experimentsVmcall : List (Option (NmiM Unit)) :=
  [none,
    some experiment1Vmcall, some experiment2Vmcall, some experiment3Vmcall,
    some experiment4Vmcall, some experiment5Vmcall, some experiment6Vmcall,
    some experiment7Vmcall, some experiment8Vmcall, some experiment9Vmcall,
    some experiment10Vmcall, some experiment11Vmcall, some experiment12Vmcall,
    some experiment13Vmcall, some experiment14Vmcall, some experiment15Vmcall,
    some experiment16Vmcall, some experiment17Vmcall, some experiment18Vmcall,
    some experiment19Vmcall, some experiment20Vmcall, some experiment21Vmcall,
    some experiment22Vmcall, some experiment23Vmcall, some experiment24Vmcall,
    some experiment25Vmcall, some experiment26Vmcall, some experiment27Vmcall,
    some experiment28Vmcall, some experiment29Vmcall, some experiment30Vmcall]

def shvNmiVmcallDispatcher : NmiM Unit := do
  match experimentsVmcall[(← get).experimentNo]? with
  | some (some vmcall) => vmcall
  | _ => halt

/-- `vmcall`, with the address of the next instruction. -/
def vmcall : NmiM Rip := do
  let σ ← get
  let rip := Rip.vmcall σ.experimentNo σ.stateNo
  vmexit shvNmiVmcallDispatcher .vmcall rip
  vmresume (guestBoundary 4) rip
  return rip

/-! ## The halves in the guest -/

/-- `experiment_no = n; state_no = 0; vmcall`. -/
def firstVmcall (experimentNo : Nat) : NmiM Rip := do
  modify fun σ => { σ with experimentNo, stateNo := 0 }
  vmcall

/-- `state_no = 1; vmcall`. -/
def secondVmcall : NmiM Unit := do
  modify fun σ => { σ with stateNo := 1 }
  let _ ← vmcall

def experiment1 : NmiM Unit := do
  let _ ← firstVmcall 1
  hltWait .nmiG
  iretWait .measure
  hltWait .timerG

def experiment2 : NmiM Unit := do
  let _ ← firstVmcall 2
  hltWait .timerG
  setExitSource .measure
  modify fun σ => { σ with stateNo := 1 }
  recorder prepareMeasure
  let _ ← vmcall
  iretWait .nmiG
  iretWait .measure

def experiment3 : NmiM Unit := do
  let rip ← firstVmcall 3
  recorder (assertMeasure .nmiG rip)
  iretWait .measure

def experiment4 : NmiM Unit := do
  let _ ← firstVmcall 4
  secondVmcall
  iretWait .measure

/-- Experiments 5 and 8. -/
def hltExit (experimentNo : Nat) : NmiM Unit := do
  let _ ← firstVmcall experimentNo
  hltWait .vmexit
  secondVmcall
  hltWait .timerG

def experiment5 : NmiM Unit := hltExit 5

def experiment6 : NmiM Unit := do
  let _ ← firstVmcall 6
  hltWait .timerG
  iretWait .measure
  secondVmcall

/-- Experiments 7, 10 and 11. -/
def latchedExit (experimentNo : Nat) : NmiM Unit := do
  modify fun σ => { σ with experimentNo, stateNo := 0 }
  recorder prepareMeasure
  let rip ← vmcall
  recorder (assertMeasure .vmexit rip)
  secondVmcall

def experiment7 : NmiM Unit := latchedExit 7
def experiment8 : NmiM Unit := hltExit 8

def experiment9 : NmiM Unit := do
  let _ ← firstVmcall 9
  hltWait .vmexit
  hltWait .timerG
  secondVmcall

def experiment10 : NmiM Unit := latchedExit 10
def experiment11 : NmiM Unit := latchedExit 11

def experiment12 : NmiM Unit := do
  let _ ← firstVmcall 12
  iretWait .measure
  secondVmcall

/-- Experiments 13 and 14. -/
def roundTrip (experimentNo : Nat) : NmiM Unit := do
  let _ ← firstVmcall experimentNo
  secondVmcall

def experiment13 : NmiM Unit := roundTrip 13
def experiment14 : NmiM Unit := roundTrip 14

/-- Experiments 15 to 17. -/
def keyboard (experimentNo : Nat) (source : ExitSource) : NmiM Unit := do
  let _ ← firstVmcall experimentNo
  recorder (assertMeasure source idtStubGuestHh1)
  secondVmcall

def experiment15 : NmiM Unit := keyboard 15 .nmiG
def experiment16 : NmiM Unit := keyboard 16 .vmexit
def experiment17 : NmiM Unit := keyboard 17 .vmexit

/-- Experiments 18 to 22. -/
def atVmcall (experimentNo : Nat) (source : ExitSource) : NmiM Unit := do
  let rip ← firstVmcall experimentNo
  recorder (assertMeasure source rip)
  secondVmcall

def experiment18 : NmiM Unit := atVmcall 18 .nmiG
def experiment19 : NmiM Unit := atVmcall 19 .nmiG
def experiment20 : NmiM Unit := atVmcall 20 .nmiG
def experiment21 : NmiM Unit := atVmcall 21 .nmiwind
def experiment22 : NmiM Unit := atVmcall 22 .measure

def experiment23 : NmiM Unit := do
  let _ ← firstVmcall 23
  recorder (assertMeasure .measure 0)
  iretWait .nmiwind
  secondVmcall

def experiment24 : NmiM Unit := do
  let rip ← firstVmcall 24
  recorder (assertMeasure2 .nmiH .vmexitAsm .nmiwind rip)
  secondVmcall

/-- Experiments 25, 27, 28 and 30. -/
def atVmcallThenIret (experimentNo : Nat) (source iretSource : ExitSource) : NmiM Unit := do
  let rip ← firstVmcall experimentNo
  recorder (assertMeasure source rip)
  iretWait iretSource
  secondVmcall

def experiment25 : NmiM Unit := atVmcallThenIret 25 .nmiG .nmiwind

def experiment26 : NmiM Unit := do
  let rip ← firstVmcall 26
  recorder (assertMeasure2 .vmexit idtStubGuest11 .nmiG rip)
  secondVmcall

def experiment27 : NmiM Unit := atVmcallThenIret 27 .nmiG .measure
def experiment28 : NmiM Unit := atVmcallThenIret 28 .vmexit .measure

def experiment29 : NmiM Unit := do
  let _ ← firstVmcall 29

def experiment30 : NmiM Unit := atVmcallThenIret 30 .vmexit .measure

/-- The `f` members of `experiments`. -/
def experiments : List (Option (NmiM Unit)) :=
  [none,
    some experiment1, some experiment2, some experiment3, some experiment4, some experiment5,
    some experiment6, some experiment7, some experiment8, some experiment9, some experiment10,
    some experiment11, some experiment12, some experiment13, some experiment14, some experiment15,
    some experiment16, some experiment17, some experiment18, some experiment19, some experiment20,
    some experiment21, some experiment22, some experiment23, some experiment24, some experiment25,
    some experiment26, some experiment27, some experiment28, some experiment29, some experiment30]

def runExperiment (expMask : BitVec 64) (i : Nat) : NmiM Unit := do
  if expMask &&& (1#64 <<< i) ≠ 0 then
    match experiments[i]? with
    | some (some f) =>
        f
        cAssert ((← get).vars.masterFail == 0)
    | _ => halt

/-- The initial value of `exp_mask`: every experiment is enabled. -/
def expMaskAll : BitVec 64 := ~~~1#64

/-! ## `shv_nmi_guest_main` -/

/-- `rand`: the next value of `seed`, and the result. -/
def rand (seed : BitVec 32) : BitVec 32 × BitVec 32 :=
  let seed := seed * 1103515245#32 + 12345#32
  (seed, seed / 65536#32 % 32768#32)

/-- `rand() % nexperiments`, so many times. -/
def randomExperiments : Nat → BitVec 32 → List Nat
  | 0, _ => []
  | count + 1, seed =>
      ((rand seed).2 % 31#32).toNat :: randomExperiments count (rand seed).1

/-- The sleep at the start: a wait for an NMI and one for the timer, until `i` reaches 10. -/
def sleep (interruptPeriod : Nat) : NmiM Unit :=
  (List.range ((10 + interruptPeriod - 1) / interruptPeriod)).forM fun _ => do
    hltWait .nmiG
    iretWait .measure
    hltWait .timerG

/-- Experiments one after the other, and the check after them. -/
def runExperiments (expMask : BitVec 64) (is : List Nat) : NmiM Unit := do
  is.forM (runExperiment expMask)
  cAssert ((← get).vars.masterFail == 0)

/-- `shv_nmi_guest_main`, after it has set its variables. -/
def shvNmiGuestMain (interruptPeriod : Nat) (expMask : BitVec 64) (sequential random : Bool) :
    NmiM Unit := do
  sleep interruptPeriod
  if sequential then
    runExperiments expMask (List.range 31)
  if random then
    runExperiments expMask (randomExperiments 100000 12#32)
  cAssert ((← get).vars.masterFail == 0)

end Shv.Nmi
