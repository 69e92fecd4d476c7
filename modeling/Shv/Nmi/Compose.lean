/-
# `Shv.Nmi.Compose` — the experiments compose in any order

Several experiments leave NMI exiting, virtual NMIs or virtual-NMI blocking set, and
the next experiment starts from there.  `Ready` is what they all need and all leave:
nothing recorded, nothing latched, nothing blocked or to be injected, no NMI window,
and an NMI as the next signal of the BSP, so that each experiment uses up an even
number of signals.

The proofs run the scripts on states that are given explicitly (`inHost`, `inGuest`,
`controls`).  Each command has lemmas that say where it leads from the states it is
used in; an experiment is a chain of them (`Leads`).  `nmi_experiments_compose` is
the invariant rule for a loop, applied to `Ready`.
-/
import Shv.Nmi.Experiments
import Shv.Lib.Leads
import Mathlib.Tactic.IntervalCases

namespace Shv.Nmi

open Leads (run_bind)

/-! ## States -/

/-- The variables after an event; the old pair may hold anything. -/
def recorded (source : ExitSource) (rip : Rip) (old : ExitSource × Rip) : Vars Rip where
  l2Ready := false
  masterFail := 0
  exitSource := source
  exitRip := rip
  exitSourceOld := old.1
  exitRipOld := old.2

/-- The variables between two measurements. -/
def idle (old : ExitSource × Rip) : Vars Rip := recorded .measure 0 old

def inHost (blocked latched : Bool) (next : Signal) (c : Vmcs) : Hw where
  guest := false
  blocked := blocked
  virtBlocked := false
  halted := false
  latched := latched
  next := next
  vmcs := c

def inGuest (blocked virtBlocked latched : Bool) (next : Signal) (c : Vmcs) : Hw where
  guest := true
  blocked := blocked
  virtBlocked := virtBlocked
  halted := false
  latched := latched
  next := next
  vmcs := c

/-- A VMCS with nothing to inject, of a guest that is active. -/
def controls (nmiExiting virtualNmis nmiWindowing blockingByNmi : Bool) : Vmcs where
  nmiExiting := nmiExiting
  virtualNmis := virtualNmis
  nmiWindowing := nmiWindowing
  blockingByNmi := blockingByNmi
  injection := none
  halted := false

section Waits

variable {old : ExitSource × Rip} {n st : Nat} {ws : List Nat} {hw hw' : Hw} {c : Vmcs}
  {source : ExitSource} {rip : Rip} {σ σ' : Machine} {e v w b vb l bit : Bool} {next : Signal}
  {vars vars' vars₁ : Vars Rip} {inj : Option Injection} {halted halted' : Bool}

theorem assertMeasure_run :
    recorder (assertMeasure source rip) ⟨recorded source rip old, n, st, ws, hw⟩ =
      some ((), ⟨idle old, n, st, ws, hw⟩) := by
  have h : assertMeasure source rip (recorded source rip old) = some (idle old) :=
    assertMeasure_eq_some.mpr ⟨rfl, fun _ => rfl, rfl⟩
  rw [recorder, h]
  rfl

theorem assertMeasure2_run {source2 : ExitSource} {rip2 : Rip} :
    recorder (assertMeasure2 source rip source2 rip2)
        ⟨recorded source2 rip2 (source, rip), n, st, ws, hw⟩ =
      some ((), ⟨idle (.measure, 0), n, st, ws, hw⟩) := by
  have h : assertMeasure2 source rip source2 rip2 (recorded source2 rip2 (source, rip)) =
      some (idle (.measure, 0)) :=
    assertMeasure2_eq_some.mpr ⟨rfl, fun _ => rfl, rfl, fun _ => rfl, rfl⟩
  rw [recorder, h]
  rfl

theorem handleInterruptCpu1_run (h : handleInterruptCpu1 source rip vars = some vars') :
    recorder (handleInterruptCpu1 source rip) ⟨vars, n, st, ws, hw⟩ =
      some ((), ⟨vars', n, st, ws, hw⟩) := by
  rw [recorder, h]
  rfl

theorem idtStub_nmi (h : handleInterruptCpu1 .nmiG rip vars = some vars') :
    idtStub 0x02 true rip ⟨vars, n, st, ws, hw⟩ = some ((), ⟨vars', n, st, ws, hw⟩) := by
  have hidt : handleIdt 0x02 true rip ⟨vars, n, st, ws, hw⟩ =
      some (true, ⟨vars', n, st, ws, hw⟩) := run_bind (handleInterruptCpu1_run h)
  rw [idtStub]
  exact run_bind hidt

/-! ## Events in the guest -/

theorem boundary_guest (h : σ.hw.guest = true) : boundary rip σ = guestBoundary 4 rip σ := by
  rw [boundary, run_bind rfl, h]
  rfl

/-- Nothing hits the guest: no window is open, and no NMI both waits and may come. -/
theorem guestBoundary_quiet {fuel : Nat} (hwin : (w && !vb) = false) (hl : (l && !b) = false) :
    guestBoundary (fuel + 1) rip
        ⟨vars, n, st, ws, inGuest b vb l next ⟨e, v, w, bit, inj, halted⟩⟩ =
      some ((), ⟨vars, n, st, ws, inGuest b vb l next ⟨e, v, w, bit, inj, halted⟩⟩) := by
  cases w <;> cases vb <;> cases hwin <;> cases l <;> cases b <;> cases hl <;> rfl

/-- Entering the guest with nothing to inject comes to what hits the guest there. -/
theorem vmresume_none {fuel : Nat} (hok : (controls e v w bit).entryOk = true) :
    vmresume (guestBoundary fuel) rip ⟨vars, n, st, ws, inHost b l next (controls e v w bit)⟩ =
      guestBoundary fuel rip ⟨vars, n, st, ws,
        inGuest (!v && bit) (v && bit) l next (controls e v w bit)⟩ := by
  have hassert : (liftM (cAssert (controls e v w bit).entryOk) : NmiM Unit)
      ⟨vars, n, st, ws, inHost b l next (controls e v w bit)⟩ =
        some ((), ⟨vars, n, st, ws, inHost b l next (controls e v w bit)⟩) := by
    rw [hok]
    rfl
  rw [vmresume, run_bind rfl]
  exact (run_bind hassert).trans (run_bind rfl)

theorem vmresume_quiet {fuel : Nat} (hok : (controls e v w bit).entryOk = true)
    (hwin : (w && !bit) = false) (hl : (l && !(!v && bit)) = false) :
    vmresume (guestBoundary (fuel + 1)) rip
        ⟨vars, n, st, ws, inHost b l next (controls e v w bit)⟩ =
      some ((), ⟨vars, n, st, ws, inGuest (!v && bit) (v && bit) l next (controls e v w bit)⟩) := by
  have hwin' : (w && !(v && bit)) = false := by
    revert hok hwin
    cases e <;> cases v <;> cases w <;> cases bit <;> decide
  exact (vmresume_none hok).trans (guestBoundary_quiet hwin' hl)

theorem guestBoundary_nmi {fuel : Nat} (hrec : handleInterruptCpu1 .nmiG rip vars = some vars') :
    guestBoundary (fuel + 2) rip
        ⟨vars, n, st, ws, inGuest false vb true next ⟨false, v, false, bit, inj, halted⟩⟩ =
      some ((), ⟨vars', n, st, ws,
        inGuest true vb false next ⟨false, v, false, bit, inj, halted⟩⟩) := by
  have hstub : guestBoundary (fuel + 1) (.idtStub true 0x02)
        ⟨vars, n, st, ws, inGuest true vb false next ⟨false, v, false, bit, inj, halted⟩⟩ =
      some ((), ⟨vars, n, st, ws,
        inGuest true vb false next ⟨false, v, false, bit, inj, halted⟩⟩) :=
    guestBoundary_quiet rfl rfl
  rw [guestBoundary, run_bind rfl]
  refine (run_bind rfl).trans ((run_bind hstub).trans ?_)
  exact idtStub_nmi hrec

/-- An NMI exit and its handler: the host blocks NMIs, and the guest's blocking is saved. -/
theorem vmexit_exception (hrec : handleInterruptCpu1 .vmexit rip vars = some vars') :
    vmexit halt .exception rip ⟨vars, n, st, ws,
        { inGuest false vb false next ⟨e, v, w, bit, inj, halted'⟩ with halted := halted }⟩ =
      some ((), ⟨vars', n, st, ws, inHost true false next (controls e v w (v && vb))⟩) := by
  have hexit : hardware (Hw.exit .exception) ⟨vars, n, st, ws,
        { inGuest false vb false next ⟨e, v, w, bit, inj, halted'⟩ with halted := halted }⟩ =
      some ((), ⟨vars, n, st, ws,
        inHost true false next { controls e v w (v && vb) with halted := halted }⟩) := by
    cases v <;> rfl
  have hhost : hostBoundary .vmexitAsm ⟨vars, n, st, ws,
        inHost true false next { controls e v w (v && vb) with halted := halted }⟩ =
      some ((), ⟨vars, n, st, ws,
        inHost true false next { controls e v w (v && vb) with halted := halted }⟩) := rfl
  rw [vmexit, run_bind hexit, run_bind hhost]
  refine (run_bind (handleInterruptCpu1_run hrec)).trans ?_
  cases halted <;> rfl

variable (vb) in
/-- A latched NMI takes the guest to the host and back; what the guest blocks stays. -/
theorem guestBoundary_exit {fuel : Nat}
    (hrec : handleInterruptCpu1 .vmexit rip vars = some vars') :
    guestBoundary (fuel + 2) rip ⟨vars, n, st, ws,
        { inGuest false (v && vb) true next ⟨true, v, false, bit, inj, halted'⟩ with
          halted := halted }⟩ =
      some ((), ⟨vars', n, st, ws,
        inGuest false (v && vb) false next (controls true v false (v && vb))⟩) := by
  have hexit : vmexit halt .exception rip ⟨vars, n, st, ws,
        { inGuest false (v && vb) false next ⟨true, v, false, bit, inj, halted'⟩ with
          halted := halted }⟩ =
      some ((), ⟨vars', n, st, ws, inHost true false next
        (controls true v false (v && (v && vb)))⟩) := vmexit_exception hrec
  have hres : vmresume (guestBoundary (fuel + 1)) rip ⟨vars', n, st, ws,
        inHost true false next (controls true v false (v && (v && vb)))⟩ =
      some ((), ⟨vars', n, st, ws,
        inGuest false (v && vb) false next (controls true v false (v && vb))⟩) := by
    refine (vmresume_quiet (by cases v <;> rfl) rfl rfl).trans ?_
    cases v <;> cases vb <;> rfl
  rw [guestBoundary, run_bind rfl]
  exact (run_bind rfl).trans ((run_bind hexit).trans hres)

theorem vmexit_window (hrec : handleInterruptCpu1 .nmiwind rip vars = some vars') :
    vmexit halt .nmiWindow rip
        ⟨vars, n, st, ws, inGuest b vb false next ⟨e, true, true, bit, inj, halted⟩⟩ =
      some ((), ⟨vars', n, st, ws, inHost false false next (controls e true false vb)⟩) := by
  have hexit : hardware (Hw.exit .nmiWindow)
        ⟨vars, n, st, ws, inGuest b vb false next ⟨e, true, true, bit, inj, halted⟩⟩ =
      some ((), ⟨vars, n, st, ws, inHost false false next (controls e true true vb)⟩) := rfl
  have hhost : hostBoundary .vmexitAsm
        ⟨vars, n, st, ws, inHost false false next (controls e true true vb)⟩ =
      some ((), ⟨vars, n, st, ws, inHost false false next (controls e true true vb)⟩) := rfl
  rw [vmexit, run_bind hexit, run_bind hhost]
  exact run_bind (handleInterruptCpu1_run hrec)

theorem guestBoundary_window {fuel : Nat}
    (hrec : handleInterruptCpu1 .nmiwind rip vars = some vars') :
    guestBoundary (fuel + 2) rip
        ⟨vars, n, st, ws, inGuest false false false next ⟨true, true, true, bit, inj, halted⟩⟩ =
      some ((), ⟨vars', n, st, ws,
        inGuest false false false next (controls true true false false)⟩) := by
  rw [guestBoundary, run_bind rfl]
  exact (run_bind (vmexit_window hrec)).trans (vmresume_quiet rfl rfl rfl)

theorem vmresume_nmi {fuel : Nat} :
    vmresume (guestBoundary (fuel + 2)) rip
        ⟨idle old, n, st, ws, inHost b true next (controls false false false false)⟩ =
      some ((), ⟨recorded .nmiG rip old, n, st, ws,
        inGuest true false false next (controls false false false false)⟩) :=
  (vmresume_none rfl).trans (guestBoundary_nmi rfl)

theorem vmresume_exit {fuel : Nat} (hb : (!v && bit) = false) :
    vmresume (guestBoundary (fuel + 2)) rip
        ⟨idle old, n, st, ws, inHost b true next (controls true v false bit)⟩ =
      some ((), ⟨recorded .vmexit rip old, n, st, ws,
        inGuest false (v && bit) false next (controls true v false (v && bit))⟩) := by
  refine (vmresume_none (by cases v <;> rfl)).trans ?_
  rw [hb]
  exact guestBoundary_exit _ rfl

theorem vmresume_window {fuel : Nat} :
    vmresume (guestBoundary (fuel + 2)) rip
        ⟨idle old, n, st, ws, inHost b false next (controls true true true false)⟩ =
      some ((), ⟨recorded .nmiwind rip old, n, st, ws,
        inGuest false false false next (controls true true false false)⟩) :=
  (vmresume_none rfl).trans (guestBoundary_window rfl)

/-- The NMI-window exit comes before a latched NMI, which then hits the host at the first
instruction of the exit. -/
theorem vmresume_window_latched {fuel : Nat} :
    vmresume (guestBoundary (fuel + 2)) rip ⟨recorded .meas2 0 (.measure, 0), n, st, ws,
        inHost b true next (controls true true true false)⟩ =
      some ((), ⟨recorded .nmiwind rip (.nmiH, .vmexitAsm), n, st, ws,
        inGuest false false false next (controls true true false false)⟩) := by
  have hexit : vmexit halt .nmiWindow rip ⟨recorded .meas2 0 (.measure, 0), n, st, ws,
        inGuest false false true next (controls true true true false)⟩ =
      some ((), ⟨recorded .nmiwind rip (.nmiH, .vmexitAsm), n, st, ws,
        inHost true false next (controls true true false false)⟩) := rfl
  refine (vmresume_none rfl).trans ?_
  rw [guestBoundary, run_bind rfl]
  exact (run_bind hexit).trans (vmresume_quiet rfl rfl rfl)

/-! ## Injected events -/

/-- Entering the guest with an event to inject delivers it: what hits the guest comes before the
first instruction of its handler. -/
theorem vmresume_keyboard {fuel : Nat} (hok : (!v || e) = true)
    (h : guestBoundary fuel idtStubGuestHh1 ⟨vars, n, st, ws,
        inGuest (!v && bit) (v && bit) l next ⟨e, v, false, bit, some .keyboard, false⟩⟩ =
      some ((), σ)) :
    vmresume (guestBoundary fuel) rip
        ⟨vars, n, st, ws, inHost b l next ⟨e, v, false, bit, some .keyboard, false⟩⟩ =
      some ((), σ) := by
  have hassert : (liftM (cAssert (Vmcs.entryOk ⟨e, v, false, bit, some .keyboard, false⟩)) :
      NmiM Unit) ⟨vars, n, st, ws, inHost b l next ⟨e, v, false, bit, some .keyboard, false⟩⟩ =
        some ((), ⟨vars, n, st, ws,
          inHost b l next ⟨e, v, false, bit, some .keyboard, false⟩⟩) := by
    cases v <;> cases e <;> cases hok <;> rfl
  have henter : hardware Hw.enter
        ⟨vars, n, st, ws, inHost b l next ⟨e, v, false, bit, some .keyboard, false⟩⟩ =
      some ((), ⟨vars, n, st, ws,
        inGuest (!v && bit) (v && bit) l next ⟨e, v, false, bit, some .keyboard, false⟩⟩) := rfl
  rw [vmresume, run_bind rfl]
  refine (run_bind hassert).trans ((run_bind henter).trans ((run_bind h).trans ?_))
  rfl

theorem vmresume_injectNmi {fuel : Nat} (hok : (!v || e) = true) (hwv : (!w || v) = true)
    (h : guestBoundary fuel idtStubGuest11
        ⟨vars, n, st, ws, inGuest false v l next ⟨e, v, w, false, some .nmi, false⟩⟩ =
      some ((), ⟨vars₁, n, st, ws, hw⟩))
    (hrec : handleInterruptCpu1 .nmiG rip vars₁ = some vars') :
    vmresume (guestBoundary fuel) rip
        ⟨vars, n, st, ws, inHost b l next ⟨e, v, w, false, some .nmi, false⟩⟩ =
      some ((), ⟨vars', n, st, ws, hw⟩) := by
  have hassert : (liftM (cAssert (Vmcs.entryOk ⟨e, v, w, false, some .nmi, false⟩)) :
      NmiM Unit) ⟨vars, n, st, ws, inHost b l next ⟨e, v, w, false, some .nmi, false⟩⟩ =
        some ((), ⟨vars, n, st, ws, inHost b l next ⟨e, v, w, false, some .nmi, false⟩⟩) := by
    cases v <;> cases e <;> cases hok <;> cases w <;> cases hwv <;> rfl
  have henter : hardware Hw.enter
        ⟨vars, n, st, ws, inHost b l next ⟨e, v, w, false, some .nmi, false⟩⟩ =
      some ((), ⟨vars, n, st, ws,
        inGuest false false l next ⟨e, v, w, false, some .nmi, false⟩⟩) := by
    cases v <;> rfl
  rw [vmresume, run_bind rfl]
  refine (run_bind hassert).trans ((run_bind henter).trans ((run_bind rfl).trans ?_))
  exact (run_bind h).trans (idtStub_nmi hrec)

/-! ## Waiting in HLT -/

theorem hltLoop_run (hlt : hlt σ = some ((), σ')) (hm : σ.vars.exitSource = .measure)
    (hr : σ.vars.l2Ready = true) (h' : σ'.vars.exitSource ≠ .measure) (stray : Nat) :
    hltLoop stray σ = some ((), σ') := by
  induction stray with
  | zero =>
      rw [hltLoop, run_bind hlt, run_bind rfl, if_neg h']
      rfl
  | succ stray ih =>
      have hset : { σ with vars := { σ.vars with l2Ready := true } } = σ := by
        rw [← hr]
      rw [hltLoop, run_bind rfl, if_pos hm, run_bind rfl, run_bind rfl, ← ih]
      exact congrArg _ hset

theorem hltWait_run (hs : source ≠ .measure)
    (h : hlt ⟨{ idle old with l2Ready := true }, n, st, ws.tail, hw⟩ =
      some ((), ⟨recorded source .hltWait old, n, st, ws.tail, hw'⟩)) :
    hltWait source ⟨idle old, n, st, ws, hw⟩ = some ((), ⟨idle old, n, st, ws.tail, hw'⟩) := by
  have hloop := hltLoop_run h rfl rfl hs (ws.headD 0)
  have hprep : recorder prepareMeasure ⟨idle old, n, st, ws, hw⟩ =
      some ((), ⟨idle old, n, st, ws, hw⟩) := rfl
  rw [hltWait, run_bind hprep, run_bind rfl, run_bind rfl, run_bind rfl, run_bind rfl]
  refine (run_bind hloop).trans ?_
  rw [run_bind rfl, run_bind rfl]
  exact assertMeasure_run

theorem hlt_nmi (hr : vars.l2Ready = true) (hn : hw.next = .nmi)
    (hb : boundary .hltWait
        ⟨vars, n, st, ws, { hw with halted := true, next := .ipi, latched := true }⟩ =
      some ((), σ')) (hh : σ'.hw.halted = false) :
    hlt ⟨vars, n, st, ws, hw⟩ = some ((), σ') := by
  have hassert : (liftM (cAssert vars.l2Ready) : NmiM Unit)
      ⟨vars, n, st, ws, { hw with halted := true }⟩ =
        some ((), ⟨vars, n, st, ws, { hw with halted := true }⟩) := by
    rw [hr]
    rfl
  rw [hlt, run_bind rfl, waitSignal, run_bind rfl]
  refine (run_bind hassert).trans ?_
  simp only [hn]
  refine (run_bind rfl).trans ((run_bind hb).trans ?_)
  rw [run_bind rfl, hh]
  rfl

theorem hltWait_host_nmi :
    hltWait .nmiH ⟨idle old, n, st, ws, inHost false false .nmi c⟩ =
      some ((), ⟨idle old, n, st, ws.tail, inHost true false .ipi c⟩) :=
  hltWait_run (by decide) rfl

theorem hltWait_host_timer :
    hltWait .timerH ⟨idle old, n, st, ws, inHost b false .ipi c⟩ =
      some ((), ⟨idle old, n, st, ws.tail, inHost b false .nmi c⟩) := by
  cases b <;> exact hltWait_run (by decide) rfl

/-- A blocked NMI is latched, and the timer interrupt after it ends the wait. -/
theorem hltWait_host_latch :
    hltWait .timerH ⟨idle old, n, st, ws, inHost true l .nmi c⟩ =
      some ((), ⟨idle old, n, st, ws.tail, inHost true true .nmi c⟩) :=
  hltWait_run (by decide) rfl

variable (old) in
theorem hltWait_guest_nmi :
    hltWait .nmiG ⟨idle old, n, st, ws, inGuest false vb false .nmi (controls false v false bit)⟩ =
      some ((), ⟨idle old, n, st, ws.tail,
        inGuest true vb false .ipi (controls false v false bit)⟩) :=
  hltWait_run (by decide) rfl

theorem hltWait_guest_timer :
    hltWait .timerG ⟨idle old, n, st, ws, inGuest b vb false .ipi (controls e v false bit)⟩ =
      some ((), ⟨idle old, n, st, ws.tail, inGuest b vb false .nmi (controls e v false bit)⟩) := by
  cases b <;> exact hltWait_run (by decide) rfl

theorem hltWait_guest_latch :
    hltWait .timerG ⟨idle old, n, st, ws, inGuest true vb l .nmi (controls e v false bit)⟩ =
      some ((), ⟨idle old, n, st, ws.tail, inGuest true vb true .nmi (controls e v false bit)⟩) :=
  hltWait_run (by decide) rfl

variable (vb) in
theorem hltWait_guest_exit :
    hltWait .vmexit ⟨idle old, n, st, ws,
        inGuest false (v && vb) false .nmi (controls true v false bit)⟩ =
      some ((), ⟨idle old, n, st, ws.tail,
        inGuest false (v && vb) false .ipi (controls true v false (v && vb))⟩) := by
  refine hltWait_run (by decide) (hlt_nmi rfl rfl ?_ rfl)
  have hrec : handleInterruptCpu1 .vmexit .hltWait { idle old with l2Ready := true } =
      some (recorded .vmexit .hltWait old) := rfl
  refine (boundary_guest rfl).trans ((guestBoundary_exit vb hrec).trans ?_)
  cases v <;> rfl

/-! ## IRET -/

theorem iretWait_host :
    iretWait .measure ⟨idle old, n, st, ws, inHost b false next c⟩ =
      some ((), ⟨idle old, n, st, ws, inHost false false next c⟩) := rfl

theorem iretWait_host_latched :
    iretWait .nmiH ⟨idle old, n, st, ws, inHost b true next c⟩ =
      some ((), ⟨idle old, n, st, ws, inHost true false next c⟩) := rfl

theorem iretWait_guest :
    iretWait .measure ⟨idle old, n, st, ws, inGuest b vb false next (controls false v false bit)⟩ =
      some ((), ⟨idle old, n, st, ws, inGuest false vb false next (controls false v false bit)⟩) :=
  rfl

theorem iretWait_guest_latched :
    iretWait .nmiG ⟨idle old, n, st, ws, inGuest b vb true next (controls false v false bit)⟩ =
      some ((), ⟨idle old, n, st, ws, inGuest true vb false next (controls false v false bit)⟩) :=
  rfl

theorem iretWait_guest_exiting (hl : (l && !b) = false) :
    iretWait .measure ⟨idle old, n, st, ws, inGuest b vb l next (controls true false false bit)⟩ =
      some ((), ⟨idle old, n, st, ws, inGuest b vb l next (controls true false false bit)⟩) := by
  cases b <;> cases l <;> cases hl <;> cases vb <;> rfl

theorem iretWait_guest_virtual :
    iretWait .measure
        ⟨idle old, n, st, ws, inGuest b vb false next (controls true true false bit)⟩ =
      some ((),
        ⟨idle old, n, st, ws, inGuest b false false next (controls true true false bit)⟩) := by
  cases vb <;> rfl

theorem iretWait_guest_window :
    iretWait .nmiwind ⟨idle old, n, st, ws,
        inGuest false true false next ⟨true, true, true, bit, inj, halted⟩⟩ =
      some ((), ⟨idle old, n, st, ws,
        inGuest false false false next (controls true true false false)⟩) := by
  have hrec : handleInterruptCpu1 .nmiwind .unblockNmi (idle old) =
      some (recorded .nmiwind .unblockNmi old) := rfl
  have hb : boundary .unblockNmi ⟨idle old, n, st, ws,
        inGuest false false false next ⟨true, true, true, bit, inj, halted⟩⟩ =
      some ((), ⟨recorded .nmiwind .unblockNmi old, n, st, ws,
        inGuest false false false next (controls true true false false)⟩) :=
    (boundary_guest rfl).trans (guestBoundary_window hrec)
  rw [iretWait, run_bind rfl, run_bind rfl]
  refine (run_bind ((run_bind rfl).trans (run_bind hb))).trans ?_
  exact assertMeasure_run

/-! ## Scripts of the host -/

/-- The host stays blocked, with an NMI latched, through any number of timer interrupts. -/
theorem hltTimers_latched (k : Nat) :
    (List.replicate k ()).forM (fun _ => hltWait .timerH)
        ⟨idle old, n, st, ws, inHost true true .nmi c⟩ =
      some ((), ⟨idle old, n, st, ws.drop k, inHost true true .nmi c⟩) := by
  induction k generalizing ws with
  | zero => rfl
  | succ k ih =>
      refine (run_bind hltWait_host_latch).trans (ih.trans ?_)
      rw [List.drop_tail]

theorem hltNmiThenTimers_one :
    hltNmiThenTimers 1 ⟨idle old, n, st, ws, inHost false false .nmi c⟩ =
      some ((), ⟨idle old, n, st, ws.tail.tail, inHost true false .nmi c⟩) := by
  rw [hltNmiThenTimers, run_bind hltWait_host_nmi]
  exact run_bind hltWait_host_timer

/-- From the second timer interrupt on, an NMI is latched; others are lost. -/
theorem hltNmiThenTimers_run (k : Nat) :
    hltNmiThenTimers (k + 2) ⟨idle old, n, st, ws, inHost false false .nmi c⟩ =
      some ((), ⟨idle old, n, st, ws.drop (k + 3), inHost true true .nmi c⟩) := by
  rw [hltNmiThenTimers, run_bind hltWait_host_nmi]
  refine (run_bind hltWait_host_timer).trans ((run_bind hltWait_host_latch).trans ?_)
  refine (hltTimers_latched k).trans ?_
  rw [List.drop_tail, List.drop_tail, List.drop_tail]

theorem hltNmiIretTimer_run :
    hltNmiIretTimer ⟨idle old, n, st, ws, inHost false false .nmi c⟩ =
      some ((), ⟨idle old, n, st, ws.tail.tail, inHost false false .nmi c⟩) := by
  rw [hltNmiIretTimer, run_bind hltWait_host_nmi, run_bind iretWait_host]
  exact hltWait_host_timer

/-! ## VMCALL -/

theorem vmcall_run {half : NmiM Unit} (hn : experimentsVmcall[n]? = some (some half))
    (hl : (hw.latched && !(hw.exit .vmcall).blocked) = false)
    (hhalf : half ⟨vars, n, st, ws, hw.exit .vmcall⟩ = some ((), σ))
    (hres : vmresume (guestBoundary 4) (.vmcall n st) σ = some ((), σ')) :
    vmcall ⟨vars, n, st, ws, hw⟩ = some (.vmcall n st, σ') := by
  have hhost : hostBoundary .vmexitAsm ⟨vars, n, st, ws, hw.exit .vmcall⟩ =
      some ((), ⟨vars, n, st, ws, hw.exit .vmcall⟩) := by
    have hl' : ((hw.exit .vmcall).latched && !(hw.exit .vmcall).blocked) = false := hl
    rw [hostBoundary, run_bind rfl]
    simp only [hl']
    rfl
  have hdisp : shvNmiVmcallDispatcher ⟨vars, n, st, ws, hw.exit .vmcall⟩ = some ((), σ) := by
    rw [shvNmiVmcallDispatcher, run_bind rfl]
    simp only [hn]
    exact hhalf
  have hexit : vmexit shvNmiVmcallDispatcher .vmcall (.vmcall n st) ⟨vars, n, st, ws, hw⟩ =
      some ((), σ) := by
    rw [vmexit, run_bind rfl]
    exact (run_bind hhost).trans hdisp
  rw [vmcall, run_bind rfl]
  refine (run_bind hexit).trans ?_
  exact run_bind hres

end Waits

/-! ## Readiness -/

/-- A state from which every experiment passes.  Nothing is said of NMI exiting, virtual NMIs
and virtual-NMI blocking, which experiments leave as they happen to be. -/
structure Ready (σ : Machine) : Prop where
  exitSource : σ.vars.exitSource = .measure
  exitRip : σ.vars.exitRip = 0
  l2Ready : σ.vars.l2Ready = false
  masterFail : σ.vars.masterFail = 0
  guest : σ.hw.guest = true
  active : σ.hw.halted = false
  latched : σ.hw.latched = false
  /-- nor will the host be blocked after a VM exit -/
  unblocked : σ.hw.blocked = false
  windowing : σ.hw.vmcs.nmiWindowing = false
  injection : σ.hw.vmcs.injection = none
  next : σ.hw.next = .nmi

/-- An experiment passes if it leaves a machine ready that was ready. -/
def Passes (experiment : NmiM Unit) : Prop := ∀ σ, Ready σ → Leads experiment σ fun _ => Ready

section Experiments

variable {α : Type} {old : ExitSource × Rip} {n st k : Nat} {ws : List Nat} {hw : Hw}
  {vars : Vars Rip} {e v w b l vb bit e' v' w' bit' : Bool} {next : Signal}
  {half s0 s1 : NmiM Unit} {f : Rip → NmiM Unit} {σ : Machine} {Q : Unit → Machine → Prop}

variable (old) in
theorem ready_guest :
    Ready ⟨idle old, n, st, ws, inGuest false vb false .nmi (controls e v false bit)⟩ :=
  ⟨rfl, rfl, rfl, rfl, rfl, rfl, rfl, rfl, rfl, rfl, rfl⟩

theorem Ready.exit (h : Ready σ) : ∃ old e v bit, σ.vars = idle old ∧
    σ.hw.exit .vmcall = inHost false false .nmi (controls e v false bit) := by
  obtain ⟨vars, n, st, ws, g, b, vb, hd, l, next, e, v, w, bit, inj, hd'⟩ := σ
  obtain ⟨h₁, h₂, h₃, h₄, h₅, h₆, h₇, h₈, h₉, h₁₀, h₁₁⟩ := h
  obtain ⟨ready, fail, source, rip, os, or⟩ := vars
  simp only at h₁ h₂ h₃ h₄ h₅ h₆ h₇ h₈ h₉ h₁₀ h₁₁
  subst h₁ h₂ h₃ h₄ h₅ h₆ h₇ h₈ h₉ h₁₀ h₁₁
  refine ⟨(os, or), e, v, v && vb, rfl, ?_⟩
  cases v <;> rfl

theorem Ready.check (h : Ready σ) :
    (liftM (cAssert (σ.vars.masterFail == 0)) : NmiM Unit) σ = some ((), σ) := by
  rw [h.masterFail]
  rfl

/-! ## Rules for `vmcall` -/

theorem leads_vmcall {P : Rip → Machine → Prop} (hn : experimentsVmcall[n]? = some (some half))
    (hl : (hw.latched && !(hw.exit .vmcall).blocked) = false)
    (h : Leads half ⟨vars, n, st, ws, hw.exit .vmcall⟩ fun _ σ =>
      Leads (vmresume (guestBoundary 4) (.vmcall n st)) σ fun _ => P (.vmcall n st)) :
    Leads vmcall ⟨vars, n, st, ws, hw⟩ P := by
  obtain ⟨_, σ₁, hhalf, _, σ₂, hres, hp⟩ := h
  exact .last (vmcall_run hn hl hhalf hres) hp

theorem leads_secondVmcall (hn : experimentsVmcall[n]? = some (some half))
    (hl : (hw.latched && !(hw.exit .vmcall).blocked) = false)
    (h : Leads half ⟨vars, n, 1, ws, hw.exit .vmcall⟩ fun _ σ =>
      Leads (vmresume (guestBoundary 4) (.vmcall n 1)) σ fun _ => Q ()) :
    Leads secondVmcall ⟨vars, n, st, ws, hw⟩ Q :=
  .step rfl (.seq (leads_vmcall hn hl (h.mono fun _ _ h => h.mono fun _ _ hq => .last rfl hq)))

/-- The frame of an experiment: from a ready machine to the first half in the host, back to the
guest and through the rest. -/
theorem Ready.vmcall (hσ : Ready σ) (hn : experimentsVmcall[k]? = some (some half))
    (h : ∀ old ws e v bit,
      Leads half ⟨idle old, k, 0, ws, inHost false false .nmi (controls e v false bit)⟩ fun _ σ =>
        Leads (vmresume (guestBoundary 4) (.vmcall k 0)) σ fun _ σ =>
          Leads (f (.vmcall k 0)) σ fun _ => Ready) :
    Leads (Nmi.vmcall >>= f) { σ with experimentNo := k, stateNo := 0 } fun _ => Ready := by
  obtain ⟨old, e, v, bit, hvars, hexit⟩ := hσ.exit
  refine .seq (leads_vmcall hn (by rw [hσ.latched]; rfl) ?_)
  rw [hvars, hexit]
  exact h old σ.stray e v bit

theorem passes_firstVmcall (hn : experimentsVmcall[k]? = some (some half))
    (h : ∀ old ws e v bit,
      Leads half ⟨idle old, k, 0, ws, inHost false false .nmi (controls e v false bit)⟩ fun _ σ =>
        Leads (vmresume (guestBoundary 4) (.vmcall k 0)) σ fun _ σ =>
          Leads (f (.vmcall k 0)) σ fun _ => Ready) :
    Passes (firstVmcall k >>= f) := by
  intro σ hσ
  obtain ⟨_, σ₁, hrun, hready⟩ := hσ.vmcall hn h
  exact ⟨_, σ₁, hrun, hready⟩

theorem leads_vmcallState (h : Leads s0 ⟨vars, n, 0, ws, hw⟩ Q) :
    Leads (vmcallState s0) ⟨vars, n, 0, ws, hw⟩ Q := h

theorem leads_state0 (h : Leads s0 ⟨vars, n, 0, ws, hw⟩ Q) :
    Leads (vmcallStates s0 s1) ⟨vars, n, 0, ws, hw⟩ Q := h

theorem leads_state1 (h : Leads s1 ⟨vars, n, 1, ws, hw⟩ Q) :
    Leads (vmcallStates s0 s1) ⟨vars, n, 1, ws, hw⟩ Q := h

theorem setState_run :
    setState e' v' bit' w' ⟨vars, n, st, ws, inHost b l next (controls e v w bit)⟩ =
      some ((), ⟨vars, n, st, ws, inHost b l next (controls e' v' w' bit')⟩) := rfl

theorem assertBlockingByNmi_run :
    assertBlockingByNmi bit ⟨vars, n, st, ws, inHost b l next (controls e v w bit)⟩ =
      some ((), ⟨vars, n, st, ws, inHost b l next (controls e v w bit)⟩) := by
  cases bit <;> rfl

theorem assertState_run :
    assertState e v bit w ⟨vars, n, st, ws, inHost b l next (controls e v w bit)⟩ =
      some ((), ⟨vars, n, st, ws, inHost b l next (controls e v w bit)⟩) := by
  cases e <;> cases v <;> cases bit <;> cases w <;> rfl

theorem prepareMeasure_run :
    recorder prepareMeasure ⟨idle old, n, st, ws, hw⟩ = some ((), ⟨idle old, n, st, ws, hw⟩) := rfl

theorem prepareMeasure2_run :
    recorder prepareMeasure2 ⟨idle old, n, st, ws, hw⟩ =
      some ((), ⟨recorded .meas2 0 (.measure, 0), n, st, ws, hw⟩) := rfl

/-! ## The experiments -/

theorem experiment1_passes : Passes experiment1 := by
  refine passes_firstVmcall rfl fun _ _ _ _ _ => leads_vmcallState ?_
  refine .last setState_run (.last (vmresume_quiet rfl rfl rfl) ?_)
  refine .step (hltWait_guest_nmi _) (.step iretWait_guest ?_)
  exact .last hltWait_guest_timer (ready_guest _)

/-- The NMI that the guest latches stays latched in the host, and comes when the guest unblocks
NMIs. -/
theorem experiment2_passes : Passes experiment2 := by
  refine passes_firstVmcall rfl fun _ _ _ _ _ => leads_state0 ?_
  refine .last setState_run (.last (vmresume_quiet rfl rfl rfl) ?_)
  refine .step hltWait_guest_latch (.step rfl (.step rfl (.step prepareMeasure_run ?_)))
  refine .seq (leads_vmcall rfl rfl (leads_state1 ?_))
  refine .step assertBlockingByNmi_run (.step assertMeasure_run ?_)
  refine .last hltWait_host_latch (.last (vmresume_quiet rfl rfl rfl) ?_)
  exact .step iretWait_guest_latched (.last iretWait_guest (ready_guest _))

theorem experiment3_passes : Passes experiment3 := by
  refine passes_firstVmcall rfl fun _ _ _ _ _ => leads_vmcallState ?_
  refine .step (hltNmiThenTimers_run 0) (.step setState_run (.last prepareMeasure_run ?_))
  refine .last vmresume_nmi ?_
  exact .step assertMeasure_run (.last iretWait_guest (ready_guest _))

theorem experiment4_passes : Passes experiment4 := by
  refine passes_firstVmcall rfl fun _ _ _ _ _ => leads_state0 ?_
  refine .last setState_run (.last (vmresume_quiet rfl rfl rfl) ?_)
  refine .seq (leads_secondVmcall rfl rfl (leads_state1 ?_))
  refine .step hltWait_host_latch (.step iretWait_host_latched ?_)
  refine .last iretWait_host (.last (vmresume_quiet rfl rfl rfl) ?_)
  exact .last iretWait_guest (ready_guest _)

theorem hltExit_passes (hn : experimentsVmcall[k]? = some (some (hltExitVmcall v))) :
    Passes (hltExit k) := by
  refine passes_firstVmcall hn fun _ _ _ _ _ => leads_state0 ?_
  refine .last setState_run ?_
  cases v
  all_goals
    refine .last (vmresume_quiet rfl rfl rfl) ?_
    refine .step (hltWait_guest_exit false) ?_
    refine .seq (leads_secondVmcall hn rfl (leads_state1 ?_))
    refine .last iretWait_host (.last (vmresume_quiet rfl rfl rfl) ?_)
    exact .last hltWait_guest_timer (ready_guest _)

theorem experiment5_passes : Passes experiment5 := hltExit_passes rfl

/-- With NMI exiting and without virtual NMIs the guest cannot unblock NMIs, the host can. -/
theorem experiment6_passes : Passes experiment6 := by
  refine passes_firstVmcall rfl fun _ _ _ _ _ => leads_state0 ?_
  refine .last setState_run (.last (vmresume_quiet rfl rfl rfl) ?_)
  refine .step hltWait_guest_latch (.step (iretWait_guest_exiting rfl) ?_)
  refine leads_secondVmcall rfl rfl (leads_state1 ?_)
  refine .step assertBlockingByNmi_run (.step iretWait_host_latched (.step iretWait_host ?_))
  exact .last setState_run (.last (vmresume_quiet rfl rfl rfl) (ready_guest _))

theorem latchedExit_passes (hn : experimentsVmcall[k]? = some (some (latchedExitVmcall v b)))
    (hb : (!v && b) = false) : Passes (latchedExit k) := by
  intro σ hσ
  obtain ⟨old, -, -, -, hvars, -⟩ := hσ.exit
  have hprep : recorder prepareMeasure { σ with experimentNo := k, stateNo := 0 } =
      some ((), { σ with experimentNo := k, stateNo := 0 }) := by
    rw [hvars]
    rfl
  refine .step rfl (.step hprep (hσ.vmcall hn fun _ _ _ _ _ => leads_state0 ?_))
  refine .step (hltNmiThenTimers_run 0) (.last setState_run ?_)
  cases v <;> cases b <;> cases hb
  all_goals
    refine .last (vmresume_exit rfl) ?_
    refine .step assertMeasure_run (leads_secondVmcall hn rfl (leads_state1 ?_))
    refine .step assertBlockingByNmi_run ?_
    exact .last iretWait_host (.last (vmresume_quiet rfl rfl rfl) (ready_guest _))

theorem experiment7_passes : Passes experiment7 := latchedExit_passes rfl rfl

theorem experiment8_passes : Passes experiment8 := hltExit_passes rfl

theorem experiment9_passes : Passes experiment9 := by
  refine passes_firstVmcall rfl fun _ _ _ _ _ => leads_state0 ?_
  refine .last setState_run (.last (vmresume_quiet rfl rfl rfl) ?_)
  refine .step (hltWait_guest_exit true) (.step hltWait_guest_timer ?_)
  refine leads_secondVmcall rfl rfl (leads_state1 (.step assertBlockingByNmi_run ?_))
  exact .last iretWait_host (.last (vmresume_quiet rfl rfl rfl) (ready_guest _))

theorem experiment10_passes : Passes experiment10 := latchedExit_passes rfl rfl

theorem experiment11_passes : Passes experiment11 := latchedExit_passes rfl rfl

theorem experiment12_passes : Passes experiment12 := by
  refine passes_firstVmcall rfl fun _ _ _ _ _ => leads_state0 ?_
  refine .last setState_run (.last (vmresume_quiet rfl rfl rfl) ?_)
  refine .step iretWait_guest_virtual (leads_secondVmcall rfl rfl (leads_state1 ?_))
  refine .step assertBlockingByNmi_run ?_
  exact .last hltNmiIretTimer_run (.last (vmresume_quiet rfl rfl rfl) (ready_guest _))

theorem roundTrip_passes (hn : experimentsVmcall[k]? = some (some (roundTripVmcall b))) :
    Passes (roundTrip k) := by
  refine passes_firstVmcall hn fun _ _ _ _ _ => leads_state0 ?_
  refine .step hltNmiThenTimers_one (.last setState_run ?_)
  cases b
  all_goals
    refine .last (vmresume_quiet rfl rfl rfl) (leads_secondVmcall hn rfl (leads_state1 ?_))
    refine .step assertBlockingByNmi_run ?_
    exact .last hltNmiIretTimer_run (.last (vmresume_quiet rfl rfl rfl) (ready_guest _))

theorem experiment13_passes : Passes experiment13 := roundTrip_passes rfl

theorem experiment14_passes : Passes experiment14 := roundTrip_passes rfl

/-- The keyboard interrupt is delivered first, and the NMI comes at its handler. -/
theorem experiment15_passes : Passes experiment15 := by
  refine passes_firstVmcall rfl fun _ _ _ _ _ => leads_state0 ?_
  refine .step (hltNmiThenTimers_run 0) (.step setState_run (.step rfl ?_))
  refine .last prepareMeasure_run ?_
  refine .last (vmresume_keyboard rfl (guestBoundary_nmi rfl)) ?_
  refine .step assertMeasure_run (leads_secondVmcall rfl rfl (leads_state1 ?_))
  refine .step assertBlockingByNmi_run (.step iretWait_host ?_)
  exact .last setState_run (.last (vmresume_quiet rfl rfl rfl) (ready_guest _))

theorem keyboardExit_passes
    (hn : experimentsVmcall[k]? = some (some (keyboardVmcall true v v v))) :
    Passes (keyboard k .vmexit) := by
  refine passes_firstVmcall hn fun _ _ _ _ _ => leads_state0 ?_
  refine .step (hltNmiThenTimers_run 0) (.step setState_run (.step rfl ?_))
  refine .last prepareMeasure_run ?_
  cases v
  all_goals
    refine .last (vmresume_keyboard rfl (guestBoundary_exit true rfl)) ?_
    refine .step assertMeasure_run (leads_secondVmcall hn rfl (leads_state1 ?_))
    refine .step assertBlockingByNmi_run (.step iretWait_host ?_)
    exact .last setState_run (.last (vmresume_quiet rfl rfl rfl) (ready_guest _))

theorem experiment16_passes : Passes experiment16 := keyboardExit_passes rfl

theorem experiment17_passes : Passes experiment17 := keyboardExit_passes rfl

theorem experiment18_passes : Passes experiment18 := by
  refine passes_firstVmcall rfl fun _ _ _ _ _ => leads_state0 ?_
  refine .step hltNmiIretTimer_run (.step setState_run (.step rfl ?_))
  refine .last prepareMeasure_run ?_
  refine .last (vmresume_injectNmi rfl rfl (guestBoundary_quiet rfl rfl) rfl) ?_
  refine .step assertMeasure_run (leads_secondVmcall rfl rfl (leads_state1 ?_))
  refine .step assertBlockingByNmi_run (.step iretWait_host ?_)
  exact .last setState_run (.last (vmresume_quiet rfl rfl rfl) (ready_guest _))

theorem injectNmi_passes (hn : experimentsVmcall[k]? = some (some (injectNmiVmcall v))) :
    Passes (atVmcall k .nmiG) := by
  refine passes_firstVmcall hn fun _ _ _ _ _ => leads_state0 ?_
  refine .step setState_run (.step rfl (.last prepareMeasure_run ?_))
  cases v
  all_goals
    refine .last (vmresume_injectNmi rfl rfl (guestBoundary_quiet rfl rfl) rfl) ?_
    refine .step assertMeasure_run (leads_secondVmcall hn rfl (leads_state1 ?_))
    refine .step assertBlockingByNmi_run (.step hltNmiIretTimer_run ?_)
    exact .last setState_run (.last (vmresume_quiet rfl rfl rfl) (ready_guest _))

theorem experiment19_passes : Passes experiment19 := injectNmi_passes rfl

theorem experiment20_passes : Passes experiment20 := injectNmi_passes rfl

theorem experiment21_passes : Passes experiment21 := by
  refine passes_firstVmcall rfl fun _ _ _ _ _ => leads_state0 ?_
  refine .step setState_run (.last prepareMeasure_run (.last vmresume_window ?_))
  refine .step assertMeasure_run (leads_secondVmcall rfl rfl (leads_state1 ?_))
  refine .step assertState_run (.step hltNmiIretTimer_run ?_)
  exact .last setState_run (.last (vmresume_quiet rfl rfl rfl) (ready_guest _))

/-- The window stays closed, and the control is still set at the second `vmcall`. -/
theorem experiment22_passes : Passes experiment22 := by
  refine passes_firstVmcall rfl fun _ _ _ _ _ => leads_state0 ?_
  refine .step setState_run (.last prepareMeasure_run (.last (vmresume_quiet rfl rfl rfl) ?_))
  refine .step rfl (leads_secondVmcall rfl rfl (leads_state1 ?_))
  refine .step assertState_run (.step hltNmiIretTimer_run ?_)
  exact .last setState_run (.last (vmresume_quiet rfl rfl rfl) (ready_guest _))

theorem experiment23_passes : Passes experiment23 := by
  refine passes_firstVmcall rfl fun _ _ _ _ _ => leads_state0 ?_
  refine .step setState_run (.last prepareMeasure_run (.last (vmresume_quiet rfl rfl rfl) ?_))
  refine .step assertMeasure_run (.step iretWait_guest_window ?_)
  refine leads_secondVmcall rfl rfl (leads_state1 (.step assertState_run ?_))
  refine .step hltNmiIretTimer_run ?_
  exact .last setState_run (.last (vmresume_quiet rfl rfl rfl) (ready_guest _))

theorem experiment24_passes : Passes experiment24 := by
  refine passes_firstVmcall rfl fun _ _ _ _ _ => leads_state0 ?_
  refine .step (hltNmiThenTimers_run 0) (.step setState_run ?_)
  refine .last prepareMeasure2_run ?_
  refine .last vmresume_window_latched (.step assertMeasure2_run ?_)
  refine leads_secondVmcall rfl rfl (leads_state1 (.step assertState_run ?_))
  refine .step iretWait_host ?_
  exact .last setState_run (.last (vmresume_quiet rfl rfl rfl) (ready_guest _))

theorem experiment25_passes : Passes experiment25 := by
  refine passes_firstVmcall rfl fun _ _ _ _ _ => leads_state0 ?_
  refine .step setState_run (.step rfl (.last prepareMeasure_run ?_))
  refine .last (vmresume_injectNmi rfl rfl (guestBoundary_quiet rfl rfl) rfl) ?_
  refine .step assertMeasure_run (.step iretWait_guest_window ?_)
  refine leads_secondVmcall rfl rfl (leads_state1 (.step assertState_run ?_))
  refine .step hltNmiIretTimer_run ?_
  exact .last setState_run (.last (vmresume_quiet rfl rfl rfl) (ready_guest _))

/-- The injected NMI is delivered first; the NMI exit comes at its handler, which runs after it. -/
theorem experiment26_passes : Passes experiment26 := by
  refine passes_firstVmcall rfl fun _ _ _ _ _ => leads_state0 ?_
  refine .step (hltNmiThenTimers_run 0) (.step setState_run (.step rfl ?_))
  refine .last prepareMeasure2_run ?_
  refine .last (vmresume_injectNmi rfl rfl (guestBoundary_exit true rfl) rfl) ?_
  refine .step assertMeasure2_run (leads_secondVmcall rfl rfl (leads_state1 ?_))
  refine .step assertState_run (.step iretWait_host ?_)
  exact .last setState_run (.last (vmresume_quiet rfl rfl rfl) (ready_guest _))

theorem experiment27_passes : Passes experiment27 := by
  refine passes_firstVmcall rfl fun _ _ _ _ _ => leads_state0 ?_
  refine .step (hltNmiThenTimers_run 1) (.step setState_run (.last prepareMeasure_run ?_))
  refine .last vmresume_nmi (.step assertMeasure_run (.step iretWait_guest ?_))
  refine leads_secondVmcall rfl rfl (leads_state1 (.step assertState_run ?_))
  refine .step iretWait_host ?_
  exact .last setState_run (.last (vmresume_quiet rfl rfl rfl) (ready_guest _))

theorem lostNmiExit_passes (hn : experimentsVmcall[k]? = some (some (lostNmiVmcall true v))) :
    Passes (atVmcallThenIret k .vmexit .measure) := by
  refine passes_firstVmcall hn fun _ _ _ _ _ => leads_state0 ?_
  refine .step (hltNmiThenTimers_run 1) (.step setState_run (.last prepareMeasure_run ?_))
  have hiret : ∀ {ws : List Nat} {old : ExitSource × Rip}, iretWait .measure ⟨idle old, k, 0, ws,
        inGuest false (v && false) false .nmi (controls true v false (v && false))⟩ =
      some ((), ⟨idle old, k, 0, ws,
        inGuest false false false .nmi (controls true v false false)⟩) := by
    cases v
    · exact iretWait_guest_exiting rfl
    · exact iretWait_guest_virtual
  refine .last (vmresume_exit (by cases v <;> rfl)) (.step assertMeasure_run (.step hiret ?_))
  cases v
  all_goals
    refine leads_secondVmcall hn rfl (leads_state1 (.step assertState_run ?_))
    refine .step iretWait_host ?_
    exact .last setState_run (.last (vmresume_quiet rfl rfl rfl) (ready_guest _))

theorem experiment28_passes : Passes experiment28 := lostNmiExit_passes rfl

theorem experiment29_passes : Passes experiment29 := by
  refine passes_firstVmcall rfl fun _ _ _ _ _ => leads_vmcallState ?_
  refine .step (hltNmiThenTimers_run 2) (.step iretWait_host_latched ?_)
  refine .step iretWait_host (.step iretWait_host (.last setState_run ?_))
  exact .last (vmresume_quiet rfl rfl rfl) (.last rfl (ready_guest _))

theorem experiment30_passes : Passes experiment30 := lostNmiExit_passes rfl

/-! ## Any order -/

theorem experiments_pass {experiment : NmiM Unit} (h : some experiment ∈ experiments) :
    Passes experiment := by
  simp only [experiments, List.mem_cons, reduceCtorEq, Option.some.injEq, List.not_mem_nil,
    or_false, false_or] at h
  rcases h with rfl | rfl | rfl | rfl | rfl | rfl | rfl | rfl | rfl | rfl | rfl | rfl | rfl | rfl |
    rfl | rfl | rfl | rfl | rfl | rfl | rfl | rfl | rfl | rfl | rfl | rfl | rfl | rfl | rfl | rfl
  exacts [experiment1_passes, experiment2_passes, experiment3_passes, experiment4_passes,
    experiment5_passes, experiment6_passes, experiment7_passes, experiment8_passes,
    experiment9_passes, experiment10_passes, experiment11_passes, experiment12_passes,
    experiment13_passes, experiment14_passes, experiment15_passes, experiment16_passes,
    experiment17_passes, experiment18_passes, experiment19_passes, experiment20_passes,
    experiment21_passes, experiment22_passes, experiment23_passes, experiment24_passes,
    experiment25_passes, experiment26_passes, experiment27_passes, experiment28_passes,
    experiment29_passes, experiment30_passes]

theorem runExperiment_passes {expMask : BitVec 64} (hk : k < 31)
    (h0 : k = 0 → expMask &&& (1#64 <<< k) = 0) : Passes (runExperiment expMask k) := by
  intro σ hσ
  by_cases hmask : expMask &&& (1#64 <<< k) = 0
  · exact .last (by rw [runExperiment, if_neg (not_not.mpr hmask)]; rfl) hσ
  · have hne : k ≠ 0 := fun h => hmask (h0 h)
    obtain ⟨experiment, hget⟩ : ∃ experiment, experiments[k]? = some (some experiment) := by
      interval_cases k
      · exact absurd rfl hne
      all_goals exact ⟨_, rfl⟩
    rw [runExperiment, if_pos hmask]
    simp only [hget]
    refine .seq ((experiments_pass (List.mem_of_getElem? hget) σ hσ).mono fun _ σ' hσ' => ?_)
    exact .step rfl (.last hσ'.check hσ')

/-- `shv_nmi_guest_main` before its sleep: the controls are those of a fresh VMCS. -/
def Machine.start (stray : List Nat) : Machine where
  vars := Vars.init
  experimentNo := 0
  stateNo := 0
  stray := stray
  hw := inGuest false false false .nmi (controls false false false false)

theorem sleep_leads (interruptPeriod : Nat) :
    Leads (sleep interruptPeriod) (Machine.start ws) fun _ => Ready := by
  refine (Leads.forM (I := fun σ => ∃ ws, σ = Machine.start ws) (fun _ _ σ hσ => ?_)
    ⟨ws, rfl⟩).mono fun _ σ hσ => ?_
  · obtain ⟨ws, rfl⟩ := hσ
    refine .step (hltWait_guest_nmi (.measure, 0)) (.step iretWait_guest ?_)
    exact .last hltWait_guest_timer ⟨_, rfl⟩
  · obtain ⟨ws, rfl⟩ := hσ
    exact ready_guest (.measure, 0)

theorem randomExperiments_lt {seed : BitVec 32} {count i : Nat}
    (h : i ∈ randomExperiments count seed) : i < 31 := by
  induction count generalizing seed with
  | zero => cases h
  | succ count ih =>
      rcases List.mem_cons.mp h with rfl | h
      · rw [BitVec.toNat_umod]
        exact Nat.mod_lt _ (by decide)
      · exact ih h

/-- **All tests pass.**  Whatever runs are asked for and whatever is masked besides entry 0,
`shv_nmi_guest_main` gets to its end. -/
theorem shvNmiGuestMain_passes (interruptPeriod : Nat) {expMask : BitVec 64}
    (h0 : expMask &&& 1#64 = 0) (sequential random : Bool) :
    Leads (shvNmiGuestMain interruptPeriod expMask sequential random) (Machine.start ws)
      fun _ => Ready := by
  have hmask : ∀ i, i = 0 → expMask &&& (1#64 <<< i) = 0 := by
    rintro i rfl
    exact h0
  have hruns : ∀ is : List Nat, (∀ i ∈ is, i < 31) → ∀ σ, Ready σ →
      Leads (runExperiments expMask is) σ fun _ => Ready := by
    intro is his σ hσ
    refine .seq ((Leads.forM (fun i hi => runExperiment_passes (his i hi) (hmask i)) hσ).mono
      fun _ σ' hσ' => ?_)
    exact .step rfl (.last hσ'.check hσ')
  have hseq := hruns (List.range 31) fun i hi => List.mem_range.mp hi
  have hrand := hruns (randomExperiments 100000 12#32) fun i hi => randomExperiments_lt hi
  refine .seq ((sleep_leads interruptPeriod).mono fun _ σ hσ => ?_)
  cases sequential <;> cases random
  · exact .step rfl (.last hσ.check hσ)
  · exact .seq ((hrand σ hσ).mono fun _ σ' hσ' => .step rfl (.last hσ'.check hσ'))
  · exact .seq ((hseq σ hσ).mono fun _ σ' hσ' => .step rfl (.last hσ'.check hσ'))
  · refine .seq ((hseq σ hσ).mono fun _ σ₁ hσ₁ => ?_)
    exact .seq ((hrand σ₁ hσ₁).mono fun _ σ' hσ' => .step rfl (.last hσ'.check hσ'))

end Experiments

end Shv.Nmi
