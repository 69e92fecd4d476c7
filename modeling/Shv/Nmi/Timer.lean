/-
# `Shv.Nmi.Timer` — the BSP's timer handler during the NMI tests

While `l2_ready` is set, `shv_nmi_handle_timer_interrupt` counts timer ticks and
sends CPU 1 an NMI and an IPI in turn, `interrupt_period` ticks apart.  The phase
is `count % (interrupt_period * 2)`, and `count` is a `u32` that is never reset.

A run is a sequence of ticks on the BSP and of writes to `l2_ready` by CPU 1, in any
order, after `shv_nmi_guest_main` has configured the period.  What is sent at ready
tick `k` depends on `k` modulo `2^32` alone (`icr_eq`), so that the phase jumps
when the counter wraps, unless `2^32` is a multiple of twice the period.  Of the
periods `shv_nmi_guest_main` knows (1, 5, 10, 15, 20) only 1 has that property.
-/
import Shv.Nmi.Machine

namespace Shv.Nmi

/-! ## The handler -/

/-- The variables the handler uses.  `count` is its `static` one. -/
structure TimerVars where
  interruptPeriod : BitVec 32
  l2Ready : BitVec 32
  l2InitApicId : BitVec 32
  count : BitVec 32

def TimerVars.init : TimerVars := ⟨0, 0, 0, 0⟩

/-- What is written to the low half of the ICR to send a signal. -/
def Signal.icrLow : Signal → BitVec 32
  | .nmi => 0x00004400#32
  | .ipi => 0x00004054#32

/-- `shv_nmi_handle_timer_interrupt`: the variables after it, and what it writes to the low
half of the ICR.  Taking a number modulo 0 is a divide error, which halts the CPU. -/
def shvNmiHandleTimerInterrupt (isbsp : Bool) (vector : BitVec 8) (guest : Bool)
    (v : TimerVars) : Halting (TimerVars × Option (BitVec 32)) := do
  cAssert isbsp
  cAssert (vector == 0x20#8)
  cAssert !guest
  if v.l2Ready ≠ 0 then
    cAssert (v.l2InitApicId != 0)
    cAssert (v.interruptPeriod * 2 != 0)
    let icr :=
      if v.count % (v.interruptPeriod * 2) = 0 then some Signal.nmi.icrLow
      else if v.count % (v.interruptPeriod * 2) = v.interruptPeriod then some Signal.ipi.icrLow
      else none
    return ({ v with count := v.count + 1 }, icr)
  else return (v, none)

/-- The `interrupt_period` that `shv_nmi_guest_main` configures. -/
def interruptPeriodOf (nmiOpt : BitVec 64) : BitVec 32 :=
  if nmiOpt &&& 0x10#64 ≠ 0 then 1
  else if nmiOpt &&& 0x20#64 ≠ 0 then 5
  else if nmiOpt &&& 0x40#64 ≠ 0 then 15
  else if nmiOpt &&& 0x80#64 ≠ 0 then 20
  else 10

/-- The start of `shv_nmi_guest_main`; `ebx` is what CPUID 1 returns. -/
def TimerVars.configure (nmiOpt : BitVec 64) (ebx : BitVec 32) (v : TimerVars) : TimerVars :=
  { v with l2InitApicId := ebx &&& 0xff000000#32, interruptPeriod := interruptPeriodOf nmiOpt }

/-! ## Runs -/

/-- What happens: a timer tick on the BSP, or CPU 1 writes `l2_ready`. -/
inductive Act where
  | tick
  | ready (value : BitVec 32)
  deriving DecidableEq, Repr

/-- The variables, the ready ticks so far, and what was written to the ICR, each with the
number of ready ticks before it. -/
structure Run where
  vars : TimerVars
  readyTicks : Nat
  log : List (Nat × BitVec 32)

def Run.step (r : Run) : Act → Halting Run
  | .tick => do
      let (vars, icr) ← shvNmiHandleTimerInterrupt true 0x20#8 false r.vars
      return { vars := vars
               readyTicks := if r.vars.l2Ready ≠ 0 then r.readyTicks + 1 else r.readyTicks
               log := r.log ++ (icr.map fun w => (r.readyTicks, w)).toList }
  | .ready value => return { r with vars := { r.vars with l2Ready := value } }

/-- A run from power-on: ticks before `shv_nmi_guest_main`, its configuration, and whatever
follows. -/
def runTimer (nmiOpt : BitVec 64) (ebx : BitVec 32) (early : Nat) (acts : List Act) :
    Halting Run := do
  let r ← (List.replicate early Act.tick).foldlM Run.step ⟨TimerVars.init, 0, []⟩
  acts.foldlM Run.step { r with vars := r.vars.configure nmiOpt ebx }

/-- The ready ticks of a run, given whether `l2_ready` is set at its start. -/
def readyTicksOf : Bool → List Act → Nat
  | _, [] => 0
  | ready, .tick :: acts => (if ready then 1 else 0) + readyTicksOf ready acts
  | _, .ready value :: acts => readyTicksOf (value != 0) acts

/-- NMIs and IPIs in turn, an NMI first, `period` ready ticks apart. -/
structure Alternates (period : Nat) (log : List (Nat × BitVec 32)) : Prop where
  turn : ∀ j t w, log[j]? = some (t, w) →
    w = if j % 2 = 0 then Signal.nmi.icrLow else Signal.ipi.icrLow
  apart : ∀ j t w t' w', log[j]? = some (t, w) → log[j + 1]? = some (t', w') → t' = t + period

/-! ## The log -/

/-- What a counter that never wraps sends at ready tick `k`. -/
def sentAt (period k : Nat) : Option (BitVec 32) :=
  if k % (period * 2) = 0 then some Signal.nmi.icrLow
  else if k % (period * 2) = period then some Signal.ipi.icrLow
  else none

/-- The log after `n` ready ticks. -/
def logOf (period : Nat) : Nat → List (Nat × BitVec 32)
  | 0 => []
  | n + 1 => logOf period n ++ ((sentAt period (n % 2 ^ 32)).map fun w => (n, w)).toList

/-- The periods `shv_nmi_guest_main` knows. -/
def periods : List Nat := [1, 5, 10, 15, 20]

theorem interruptPeriodOf_mem (nmiOpt : BitVec 64) :
    (interruptPeriodOf nmiOpt).toNat ∈ periods := by
  unfold interruptPeriodOf
  split
  · decide
  · split
    · decide
    · split
      · decide
      · split <;> decide

theorem modulus_ne_zero (nmiOpt : BitVec 64) : (interruptPeriodOf nmiOpt * 2 != 0) = true := by
  unfold interruptPeriodOf
  split
  · decide
  · split
    · decide
    · split
      · decide
      · split <;> decide

theorem mem_periods {period : Nat} (h : period ∈ periods) :
    period = 1 ∨ period = 5 ∨ period = 10 ∨ period = 15 ∨ period = 20 := by
  simpa [periods] using h

/-- The signal whose turn it is, as the ICR takes it. -/
def turnOf (j : Nat) : BitVec 32 := if j % 2 = 0 then Signal.nmi.icrLow else Signal.ipi.icrLow

theorem sentAt_eq {period : Nat} (h : period ∈ periods) (k : Nat) :
    sentAt period k = if k % period = 0 then some (turnOf (k / period)) else none := by
  have hcases := mem_periods h
  rw [sentAt]
  by_cases h0 : k % period = 0
  · rw [if_pos h0, turnOf]
    by_cases heven : k / period % 2 = 0
    · have hphase : k % (period * 2) = 0 := by
        rcases hcases with rfl | rfl | rfl | rfl | rfl <;> omega
      rw [if_pos hphase, if_pos heven]
    · have hphase : k % (period * 2) = period ∧ period ≠ 0 := by
        rcases hcases with rfl | rfl | rfl | rfl | rfl <;> omega
      rw [hphase.1, if_neg hphase.2, if_pos rfl, if_neg heven]
  · have hphase : k % (period * 2) ≠ 0 ∧ k % (period * 2) ≠ period := by
      rcases hcases with rfl | rfl | rfl | rfl | rfl <;> omega
    rw [if_neg hphase.1, if_neg hphase.2, if_neg h0]

/-- The log a counter that never wraps would leave after `n` ready ticks: a signal at every
`period`-th of them, from the first one on, NMIs and IPIs in turn. -/
def idealLog (period n : Nat) : List (Nat × BitVec 32) :=
  (List.range ((n + (period - 1)) / period)).map fun j => (j * period, turnOf j)

theorem idealLog_succ {period : Nat} (h : period ∈ periods) (n : Nat) :
    idealLog period (n + 1) =
      idealLog period n ++ ((sentAt period n).map fun w => (n, w)).toList := by
  rw [sentAt_eq h]
  by_cases hn : n % period = 0
  · have hlen : (n + 1 + (period - 1)) / period = (n + (period - 1)) / period + 1 := by
      rcases mem_periods h with rfl | rfl | rfl | rfl | rfl <;> omega
    have hlast : (n + (period - 1)) / period = n / period := by
      rcases mem_periods h with rfl | rfl | rfl | rfl | rfl <;> omega
    have hmul : n / period * period = n := Nat.div_mul_cancel (Nat.dvd_of_mod_eq_zero hn)
    rw [if_pos hn, idealLog, hlen, List.range_succ, List.map_append, hlast]
    simp only [List.map_cons, List.map_nil, hmul, Option.map_some, Option.toList_some]
    rw [idealLog, hlast]
  · have hlen : (n + 1 + (period - 1)) / period = (n + (period - 1)) / period := by
      rcases mem_periods h with rfl | rfl | rfl | rfl | rfl <;> omega
    rw [if_neg hn, idealLog, hlen, idealLog]
    simp

/-- A counter of period 1 does not notice that it wraps, and one that has not wrapped is as good
as one that never does. -/
theorem logOf_eq_idealLog {period : Nat} (h : period ∈ periods) (n : Nat) :
    period = 1 ∨ n ≤ 2 ^ 32 → logOf period n = idealLog period n := by
  induction n with
  | zero =>
      intro _
      rcases mem_periods h with rfl | rfl | rfl | rfl | rfl <;> rfl
  | succ n ih =>
      intro hn
      have hsent : sentAt period (n % 2 ^ 32) = sentAt period n := by
        rcases hn with rfl | hn
        · simp only [sentAt, Nat.one_mul]
          rw [show n % 2 ^ 32 % 2 = n % 2 by omega]
        · rw [Nat.mod_eq_of_lt (by omega)]
      rw [logOf, hsent, idealLog_succ h, ih (hn.imp_right fun hn => by omega)]

theorem getElem?_idealLog {period n j t : Nat} {w : BitVec 32}
    (h : (idealLog period n)[j]? = some (t, w)) : t = j * period ∧ w = turnOf j := by
  rw [idealLog, List.getElem?_map, Option.map_eq_some_iff] at h
  obtain ⟨i, hi, heq⟩ := h
  obtain ⟨hlt, rfl⟩ := List.getElem?_eq_some_iff.mp hi
  rw [List.getElem_range] at heq
  cases heq
  exact ⟨rfl, rfl⟩

theorem idealLog_alternates (period n : Nat) : Alternates period (idealLog period n) where
  turn j t w h := (getElem?_idealLog h).2
  apart j t w t' w' h h' := by
    rw [(getElem?_idealLog h).1, (getElem?_idealLog h').1, Nat.succ_mul]

theorem logOf_isPrefix (period : Nat) {m n : Nat} (h : m ≤ n) :
    logOf period m <+: logOf period n := by
  induction h with
  | refl => exact List.prefix_rfl
  | step _ ih => exact ih.trans (List.prefix_append _ _)

theorem logOf_not_alternates {period n : Nat} (h : period ∈ periods) (h1 : period ≠ 1)
    (hn : 2 ^ 32 < n) : ¬ Alternates period (logOf period n) := by
  intro halt
  have hlog : logOf period (2 ^ 32 + 1) =
      idealLog period (2 ^ 32) ++ [(2 ^ 32, Signal.nmi.icrLow)] := by
    rw [logOf, logOf_eq_idealLog h _ (Or.inr (Nat.le_refl _)), Nat.mod_self, sentAt_eq h,
      Nat.zero_mod, if_pos rfl, Nat.zero_div]
    rfl
  obtain ⟨rest, hrest⟩ := logOf_isPrefix period (Nat.succ_le_of_lt hn)
  obtain ⟨l, hl⟩ : ∃ l, (2 ^ 32 + (period - 1)) / period = l + 1 := by
    refine ⟨(2 ^ 32 + (period - 1)) / period - 1, ?_⟩
    rcases mem_periods h with rfl | rfl | rfl | rfl | rfl <;> omega
  have hlen : (idealLog period (2 ^ 32)).length = l + 1 := by
    rw [idealLog, List.length_map, List.length_range, hl]
  rw [hlog, List.append_assoc] at hrest
  -- the last signal before the counter wraps, and the NMI right after it
  have hprev : (logOf period n)[l]? = some (l * period, turnOf l) := by
    rw [← hrest, List.getElem?_append_left (by omega), idealLog, hl, List.getElem?_map,
      List.getElem?_range (Nat.lt_succ_self l)]
    rfl
  have hnext : (logOf period n)[l + 1]? = some (2 ^ 32, Signal.nmi.icrLow) := by
    rw [← hrest, List.getElem?_append_right (by omega), hlen, Nat.sub_self]
    rfl
  have hapart := halt.apart l _ _ _ _ hprev hnext
  rcases mem_periods h with rfl | rfl | rfl | rfl | rfl
  · exact h1 rfl
  all_goals omega

/-! ## The code -/

section Code

variable {nmiOpt : BitVec 64} {ebx : BitVec 32} {r r' : Run}

theorem icr_eq (nmiOpt : BitVec 64) (count : BitVec 32) :
    (if count % (interruptPeriodOf nmiOpt * 2) = 0 then some Signal.nmi.icrLow
      else if count % (interruptPeriodOf nmiOpt * 2) = interruptPeriodOf nmiOpt
        then some Signal.ipi.icrLow
      else none) = sentAt (interruptPeriodOf nmiOpt).toNat count.toNat := by
  have hmul : (interruptPeriodOf nmiOpt * 2).toNat = (interruptPeriodOf nmiOpt).toNat * 2 := by
    have hsmall := mem_periods (interruptPeriodOf_mem nmiOpt)
    rw [BitVec.toNat_mul, show (2 : BitVec 32).toNat = 2 from rfl]
    omega
  have hzero : count % (interruptPeriodOf nmiOpt * 2) = 0 ↔
      count.toNat % ((interruptPeriodOf nmiOpt).toNat * 2) = 0 := by
    rw [← BitVec.toNat_inj, BitVec.toNat_umod, hmul]
    rfl
  have hperiod : count % (interruptPeriodOf nmiOpt * 2) = interruptPeriodOf nmiOpt ↔
      count.toNat % ((interruptPeriodOf nmiOpt).toNat * 2) =
        (interruptPeriodOf nmiOpt).toNat := by
    rw [← BitVec.toNat_inj, BitVec.toNat_umod, hmul]
  rw [sentAt]
  exact if_congr hzero rfl (if_congr hperiod rfl rfl)

/-- What holds once the period is configured: the counter is the number of ready ticks, modulo
`2^32`, and decides the log. -/
structure Configured (nmiOpt : BitVec 64) (r : Run) : Prop where
  period : r.vars.interruptPeriod = interruptPeriodOf nmiOpt
  apicId : r.vars.l2InitApicId ≠ 0
  count : r.vars.count.toNat = r.readyTicks % 2 ^ 32
  log : r.log = logOf (interruptPeriodOf nmiOpt).toNat r.readyTicks

/-- Whether `l2_ready` is set after an act, given whether it was before. -/
def Act.readyAfter (ready : Bool) : Act → Bool
  | .tick => ready
  | .ready value => value != 0

theorem Configured.step (h : Configured nmiOpt r) (a : Act) :
    ∃ r', r.step a = some r' ∧ Configured nmiOpt r' ∧
      (r'.vars.l2Ready != 0) = a.readyAfter (r.vars.l2Ready != 0) ∧
      r'.readyTicks = r.readyTicks + readyTicksOf (r.vars.l2Ready != 0) [a] := by
  cases a with
  | ready value =>
      exact ⟨_, rfl, ⟨h.period, h.apicId, h.count, h.log⟩, rfl, rfl⟩
  | tick =>
      by_cases hready : r.vars.l2Ready = 0
      · have hnone : shvNmiHandleTimerInterrupt true 0x20#8 false r.vars =
            some (r.vars, none) := by
          simp [shvNmiHandleTimerInterrupt, hready]
        refine ⟨r, ?_, h, rfl, ?_⟩
        · simp [Run.step, hnone, hready]
        · simp [readyTicksOf, hready]
      · have hmod : (r.vars.interruptPeriod * 2 != 0) = true := by
          rw [h.period]
          exact modulus_ne_zero nmiOpt
        have hapic : (r.vars.l2InitApicId != 0) = true := bne_iff_ne.mpr h.apicId
        have hsome : shvNmiHandleTimerInterrupt true 0x20#8 false r.vars =
            some ({ r.vars with count := r.vars.count + 1 },
              sentAt (interruptPeriodOf nmiOpt).toNat r.vars.count.toNat) := by
          rw [← icr_eq, ← h.period]
          simp only [shvNmiHandleTimerInterrupt, cAssert_true, beq_self_eq_true, Bool.not_false,
            Option.bind_eq_bind, Option.bind_some, ne_eq, hready, not_false_eq_true, if_true,
            hapic, hmod]
          rfl
        refine ⟨_, congrArg (Option.bind · _) hsome, ⟨h.period, h.apicId, ?_, ?_⟩, rfl, ?_⟩
        · simp only [ne_eq, hready, not_false_eq_true, if_true]
          rw [BitVec.toNat_add, h.count, show (1 : BitVec 32).toNat = 1 from rfl]
          omega
        · simp only [ne_eq, hready, not_false_eq_true, if_true]
          rw [logOf, h.log, h.count]
        · have hb : (r.vars.l2Ready != 0) = true := bne_iff_ne.mpr hready
          simp only [ne_eq, hready, not_false_eq_true, if_true, readyTicksOf, hb]

theorem Configured.run (acts : List Act) : ∀ r, Configured nmiOpt r →
    ∃ r', acts.foldlM Run.step r = some r' ∧ Configured nmiOpt r' ∧
      r'.readyTicks = r.readyTicks + readyTicksOf (r.vars.l2Ready != 0) acts := by
  induction acts with
  | nil => intro r h; exact ⟨r, rfl, h, rfl⟩
  | cons a acts ih =>
      intro r h
      obtain ⟨r₁, hstep, h₁, hready, hticks⟩ := h.step a
      obtain ⟨r', hrun, h', hticks'⟩ := ih r₁ h₁
      refine ⟨r', ?_, h', ?_⟩
      · rw [List.foldlM_cons, hstep]
        exact hrun
      · rw [hticks', hticks, hready]
        cases a with
        | tick => simp only [readyTicksOf, Act.readyAfter]; omega
        | ready value => simp only [readyTicksOf, Act.readyAfter]; omega

theorem early_ticks (n : Nat) :
    (List.replicate n Act.tick).foldlM Run.step ⟨TimerVars.init, 0, []⟩ =
      some ⟨TimerVars.init, 0, []⟩ := by
  induction n with
  | zero => rfl
  | succ n ih => exact ih

theorem runTimer_log (nmiOpt : BitVec 64) (hapic : ebx &&& 0xff000000#32 ≠ 0) (early : Nat)
    (acts : List Act) :
    ∃ r, runTimer nmiOpt ebx early acts = some r ∧
      r.log = logOf (interruptPeriodOf nmiOpt).toNat (readyTicksOf false acts) := by
  have h₀ : Configured nmiOpt ⟨TimerVars.init.configure nmiOpt ebx, 0, []⟩ :=
    ⟨rfl, hapic, rfl, rfl⟩
  obtain ⟨r, hrun, h, hticks⟩ := Configured.run acts _ h₀
  refine ⟨r, ?_, ?_⟩
  · rw [runTimer, early_ticks]
    exact hrun
  · rw [h.log, hticks, Nat.zero_add]
    rfl

theorem run_quiet (acts : List Act) : ∀ r : Run, readyTicksOf (r.vars.l2Ready != 0) acts = 0 →
    ∃ r', acts.foldlM Run.step r = some r' ∧ r'.log = r.log := by
  induction acts with
  | nil => exact fun r _ => ⟨r, rfl, rfl⟩
  | cons a acts ih =>
      intro r h
      cases a with
      | ready value => exact ih _ h
      | tick =>
          have hready : r.vars.l2Ready = 0 := by
            by_contra hne
            rw [readyTicksOf, bne_iff_ne.mpr hne, if_pos rfl] at h
            omega
          have hstep : r.step .tick = some r := by
            simp [Run.step, shvNmiHandleTimerInterrupt, hready]
          obtain ⟨r', hrun, hlog⟩ := ih r (by
            rw [readyTicksOf] at h
            omega)
          refine ⟨r', ?_, hlog⟩
          rw [List.foldlM_cons, hstep]
          exact hrun

theorem run_no_apic (acts : List Act) : ∀ r : Run, r.vars.l2InitApicId = 0 →
    0 < readyTicksOf (r.vars.l2Ready != 0) acts → acts.foldlM Run.step r = none := by
  induction acts with
  | nil => exact fun r _ h => absurd h (Nat.lt_irrefl 0)
  | cons a acts ih =>
      intro r hapic h
      rw [List.foldlM_cons]
      cases a with
      | ready value => exact ih _ hapic h
      | tick =>
          by_cases hready : r.vars.l2Ready = 0
          · have hstep : r.step .tick = some r := by
              simp [Run.step, shvNmiHandleTimerInterrupt, hready]
            rw [hstep]
            refine ih r hapic ?_
            rw [readyTicksOf, hready] at h
            rw [hready]
            simpa using h
          · have hstep : r.step .tick = none := by
              have hne : ¬ r.vars.l2Ready = 0#32 := hready
              simp [Run.step, shvNmiHandleTimerInterrupt, hne, hapic]
            rw [hstep]
            rfl

/-- **The injections alternate while the counter does not wrap.**  A run of the timer goes on (the
modulus is never 0), with the signals sent that a counter without a bound would send, exactly when
CPU 1's APIC id is not 0, as the handler asserts, and either `interrupt_period` is 1 or the run has
at most `2^32` ready ticks.  Where it does not, the signals sent are not even in turn and
`interrupt_period` ready ticks apart. -/
theorem injections_alternate_iff (nmiOpt : BitVec 64) (ebx : BitVec 32) (early : Nat)
    (acts : List Act) :
    ((∃ r, runTimer nmiOpt ebx early acts = some r ∧
        r.log = idealLog (interruptPeriodOf nmiOpt).toNat (readyTicksOf false acts)) ↔
      (ebx &&& 0xff000000#32 ≠ 0 ∨ readyTicksOf false acts = 0) ∧
        (interruptPeriodOf nmiOpt = 1 ∨ readyTicksOf false acts ≤ 2 ^ 32)) ∧
    ((∃ r, runTimer nmiOpt ebx early acts = some r ∧
        Alternates (interruptPeriodOf nmiOpt).toNat r.log) ↔
      (ebx &&& 0xff000000#32 ≠ 0 ∨ readyTicksOf false acts = 0) ∧
        (interruptPeriodOf nmiOpt = 1 ∨ readyTicksOf false acts ≤ 2 ^ 32)) := by
  have hmem := interruptPeriodOf_mem nmiOpt
  have hideal : (ebx &&& 0xff000000#32 ≠ 0 ∨ readyTicksOf false acts = 0) ∧
      (interruptPeriodOf nmiOpt = 1 ∨ readyTicksOf false acts ≤ 2 ^ 32) →
      ∃ r, runTimer nmiOpt ebx early acts = some r ∧
        r.log = idealLog (interruptPeriodOf nmiOpt).toNat (readyTicksOf false acts) := by
    rintro ⟨hapic, hok⟩
    by_cases hzero : readyTicksOf false acts = 0
    · obtain ⟨r, hrun, hlog⟩ :=
        run_quiet acts ⟨TimerVars.init.configure nmiOpt ebx, 0, []⟩ hzero
      refine ⟨r, ?_, ?_⟩
      · rw [runTimer, early_ticks]
        exact hrun
      · rw [hlog, hzero, ← logOf_eq_idealLog hmem 0 (Or.inr (Nat.zero_le _))]
        rfl
    · obtain ⟨r, hrun, hlog⟩ := runTimer_log nmiOpt (hapic.resolve_right hzero) early acts
      refine ⟨r, hrun, hlog.trans (logOf_eq_idealLog hmem _ ?_)⟩
      exact hok.imp_left fun h1 => by rw [h1]; rfl
  have hbreak : ∀ r, runTimer nmiOpt ebx early acts = some r →
      Alternates (interruptPeriodOf nmiOpt).toNat r.log →
      (ebx &&& 0xff000000#32 ≠ 0 ∨ readyTicksOf false acts = 0) ∧
        (interruptPeriodOf nmiOpt = 1 ∨ readyTicksOf false acts ≤ 2 ^ 32) := by
    intro r hrun halt
    have hapic : ebx &&& 0xff000000#32 ≠ 0 ∨ readyTicksOf false acts = 0 := by
      by_contra hno
      obtain ⟨h0, hpos⟩ := not_or.mp hno
      have hnone := run_no_apic acts ⟨TimerVars.init.configure nmiOpt ebx, 0, []⟩
        (not_not.mp h0) (Nat.pos_of_ne_zero hpos)
      rw [runTimer, early_ticks] at hrun
      exact absurd (hrun.symm.trans hnone) (Option.some_ne_none r)
    refine ⟨hapic, ?_⟩
    by_contra hno
    obtain ⟨hne, hlt⟩ := not_or.mp hno
    have hne' : (interruptPeriodOf nmiOpt).toNat ≠ 1 := fun h1 => hne (BitVec.eq_of_toNat_eq h1)
    obtain ⟨r', hrun', hlog⟩ :=
      runTimer_log nmiOpt (hapic.resolve_right (by omega)) early acts
    obtain rfl := Option.some.inj (hrun.symm.trans hrun')
    rw [hlog] at halt
    exact logOf_not_alternates hmem hne' (Nat.lt_of_not_le hlt) halt
  constructor
  · refine ⟨?_, hideal⟩
    rintro ⟨r, hrun, hlog⟩
    exact hbreak r hrun (hlog ▸ idealLog_alternates _ _)
  · refine ⟨fun ⟨r, hrun, halt⟩ => hbreak r hrun halt, fun hok => ?_⟩
    obtain ⟨r, hrun, hlog⟩ := hideal hok
    exact ⟨r, hrun, hlog ▸ idealLog_alternates _ _⟩

end Code

/-- Period 1: CPU 1 waits twice and is sent an NMI and an IPI. -/
theorem injections_alternate_iff_two_waits :
    ∃ r, runTimer 0x10#64 0x01000800#32 3 [.ready 1, .tick, .ready 0, .tick, .ready 1, .tick] =
        some r ∧ r.log = [(0, Signal.nmi.icrLow), (1, Signal.ipi.icrLow)] :=
  (injections_alternate_iff 0x10#64 0x01000800#32 3
    [.ready 1, .tick, .ready 0, .tick, .ready 1, .tick]).1.mpr (by decide)

theorem readyTicksOf_replicate (n : Nat) :
    readyTicksOf false (.ready 1 :: List.replicate n .tick) = n := by
  show readyTicksOf true (List.replicate n .tick) = n
  induction n with
  | zero => rfl
  | succ n ih => rw [List.replicate_succ, readyTicksOf, ih, if_pos rfl, Nat.add_comm]

/-- With the default period 10 the sequence breaks after `2^32` ready ticks. -/
theorem injections_break_when_count_wraps :
    ∃ r, runTimer 0 0x01000800#32 0 (.ready 1 :: List.replicate (2 ^ 32 + 1) .tick) = some r ∧
      ¬ Alternates (interruptPeriodOf 0).toNat r.log := by
  have hapic : 0x01000800#32 &&& 0xff000000#32 ≠ 0 := by decide
  obtain ⟨r, hrun, hlog⟩ :=
    runTimer_log 0 hapic 0 (.ready 1 :: List.replicate (2 ^ 32 + 1) .tick)
  refine ⟨r, hrun, ?_⟩
  rw [hlog, readyTicksOf_replicate]
  exact logOf_not_alternates (by decide) (by decide) (Nat.lt_succ_self _)

end Shv.Nmi
