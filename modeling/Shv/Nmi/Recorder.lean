/-
# `Shv.Nmi.Recorder` — the event recorder of `shv-nmi.c`

Every interrupt and NMI-related VM exit on CPU 1 ends in `handle_interrupt_cpu1`,
which files it in `exit_source` and `exit_rip` (and, when two are expected, the
first one in the `_old` pair).  The same enumeration says what mode the recorder
is in, what it recorded and that nothing has come yet.

A test is a *round*: `prepare_measure` … `assert_measure`, or the pair for two
events.  `recorder_exact` says that a run of rounds gets through a round exactly
when nothing came before it and what came during it is what it asserts; and that
the recorder is then as it was at the start.

`TEST_ASSERT` sets `master_fail` and halts.  `none` is a halted CPU, so a failed
test is not followed by anything; `master_fail` is 0 in every state there is.
The instruction pointers are of an arbitrary type here.
-/
import Shv.Bitfield

namespace Shv.Nmi

/-- `enum exit_source`. -/
inductive ExitSource where
  | ignore
  | measure
  | meas2
  | nmiG
  | timerG
  | nmiH
  | timerH
  | vmexit
  | nmiwind
  deriving DecidableEq, Repr

/-- The values that stand for an event. -/
def ExitSource.Real : ExitSource → Prop
  | .ignore | .measure | .meas2 => False
  | _ => True

/-- The static variables of `shv-nmi.c` that the recorder uses. -/
structure Vars (α : Type) where
  l2Ready : Bool
  masterFail : Nat
  exitSource : ExitSource
  exitRip : α
  exitSourceOld : ExitSource
  exitRipOld : α
  deriving DecidableEq, Repr

section Recorder

variable {α : Type} [Zero α] [DecidableEq α]

def Vars.init : Vars α where
  l2Ready := false
  masterFail := 0
  exitSource := .measure
  exitRip := 0
  exitSourceOld := .measure
  exitRipOld := 0

def handleInterruptCpu1 (source : ExitSource) (rip : α) (v : Vars α) : Halting (Vars α) := do
  let v := { v with l2Ready := false }
  cAssert (v.masterFail == 0)
  match v.exitSource with
  | .ignore => none
  | .measure => return { v with exitSource := source, exitRip := rip }
  | .meas2 =>
      return { v with exitSource := .measure, exitSourceOld := source, exitRipOld := rip }
  | _ => none

def prepareMeasure (v : Vars α) : Halting (Vars α) := do
  cAssert (v.exitSource == .measure)
  cAssert (v.exitRip == 0)
  return v

def assertMeasure (source : ExitSource) (rip : α) (v : Vars α) : Halting (Vars α) := do
  cAssert (v.exitSource == source)
  if v.exitSource ≠ .measure then cAssert (rip == v.exitRip)
  return { v with exitSource := .measure, exitRip := 0 }

def prepareMeasure2 (v : Vars α) : Halting (Vars α) := do
  cAssert (v.exitSource == .measure)
  cAssert (v.exitRip == 0)
  return { v with exitSource := .meas2, exitRip := 0, exitSourceOld := .measure, exitRipOld := 0 }

def assertMeasure2 (source1 : ExitSource) (rip1 : α) (source2 : ExitSource) (rip2 : α)
    (v : Vars α) : Halting (Vars α) := do
  cAssert (v.exitSourceOld == source1)
  if v.exitSourceOld ≠ .measure then cAssert (rip1 == v.exitRipOld)
  cAssert (v.exitSource == source2)
  if v.exitSource ≠ .measure then cAssert (rip2 == v.exitRip)
  return { v with exitSource := .measure, exitRip := 0, exitSourceOld := .measure, exitRipOld := 0 }

/-! ## Rounds -/

/-- What a round asserts, with the values its callers pass. -/
inductive Asserted (α : Type) where
  | one (source : ExitSource) (rip : α) (h : source = .measure ∨ source.Real)
  | two (source1 : ExitSource) (rip1 : α) (source2 : ExitSource) (rip2 : α)
      (h₁ : source1.Real) (h₂ : source2 = .measure ∨ source2.Real)

def Asserted.prepare : Asserted α → Vars α → Halting (Vars α)
  | .one .. => prepareMeasure
  | .two .. => prepareMeasure2

def Asserted.check : Asserted α → Vars α → Halting (Vars α)
  | .one source rip _ => assertMeasure source rip
  | .two source1 rip1 source2 rip2 _ _ => assertMeasure2 source1 rip1 source2 rip2

/-- The events that meet the assertion; `EXIT_MEASURE` is the absence of one. -/
def Asserted.expected : Asserted α → List (ExitSource × α)
  | .one source rip _ => if source = .measure then [] else [(source, rip)]
  | .two source1 rip1 source2 rip2 _ _ =>
      (source1, rip1) :: if source2 = .measure then [] else [(source2, rip2)]

/-- A round: the events before its `prepare_` half, and those between the halves. -/
structure Round (α : Type) where
  asserted : Asserted α
  before : List (ExitSource × α)
  during : List (ExitSource × α)
  before_real : ∀ e ∈ before, e.1.Real
  during_real : ∀ e ∈ during, e.1.Real

def runEvents (v : Vars α) (events : List (ExitSource × α)) : Halting (Vars α) :=
  events.foldlM (fun v e => handleInterruptCpu1 e.1 e.2 v) v

def runRound (v : Vars α) (r : Round α) : Halting (Vars α) := do
  let v ← runEvents v r.before
  let v ← r.asserted.prepare v
  let v ← runEvents v r.during
  r.asserted.check v

def runRounds (v : Vars α) (rounds : List (Round α)) : Halting (Vars α) :=
  rounds.foldlM runRound v

/-! ## What one round does -/

variable {v : Vars α} {source : ExitSource} {rip : α} {events : List (ExitSource × α)}

theorem ExitSource.Real.ne_measure (h : source.Real) : source ≠ .measure := by
  rintro rfl
  exact h

omit [Zero α] [DecidableEq α] in
theorem runEvents_full (h : v.exitSource.Real) (hne : events ≠ []) : runEvents v events = none := by
  cases events with
  | nil => exact absurd rfl hne
  | cons e events =>
      have hstep : handleInterruptCpu1 e.1 e.2 v = none := by
        obtain ⟨ready, fail, src, r, old, ro⟩ := v
        cases src <;> first | exact h.elim | (cases fail <;> rfl)
      simp only [runEvents, List.foldlM_cons, hstep, Option.bind_eq_bind, Option.bind_none]

omit [Zero α] [DecidableEq α] in
theorem runEvents_measure (hm : v.exitSource = .measure) (hf : v.masterFail = 0)
    (hr : ∀ e ∈ events, e.1.Real) :
    (events = [] ∧ runEvents v events = some v) ∨
    (∃ s r, events = [(s, r)] ∧ runEvents v events =
      some { v with l2Ready := false, exitSource := s, exitRip := r }) ∨
    (2 ≤ events.length ∧ runEvents v events = none) := by
  cases events with
  | nil => exact Or.inl ⟨rfl, rfl⟩
  | cons e events =>
      have hstep : runEvents v (e :: events) = runEvents
          { v with l2Ready := false, exitSource := e.1, exitRip := e.2 } events := by
        simp [runEvents, handleInterruptCpu1, hm, hf]
      right
      by_cases hnil : events = []
      · subst hnil
        exact Or.inl ⟨e.1, e.2, rfl, hstep⟩
      · refine Or.inr ⟨?_, hstep.trans (runEvents_full (hr e (List.mem_cons_self ..)) hnil)⟩
        have := List.length_pos_iff.mpr hnil
        simp only [List.length_cons]
        omega

theorem prepareMeasure_init : prepareMeasure (Vars.init : Vars α) = some Vars.init := by
  simp [prepareMeasure, Vars.init]

theorem prepareMeasure2_init : prepareMeasure2 (Vars.init : Vars α) =
    some { Vars.init with exitSource := .meas2 } := by
  simp [prepareMeasure2, Vars.init]

/-- An event that was not asked for is noticed by the `prepare_` half. -/
theorem Asserted.prepare_full (a : Asserted α) (h : v.exitSource.Real) : a.prepare v = none := by
  have hne : (v.exitSource == ExitSource.measure) = false := by simpa using h.ne_measure
  cases a with
  | one => simp [Asserted.prepare, prepareMeasure, hne]
  | two => simp [Asserted.prepare, prepareMeasure2, hne]

theorem prepare_runEvents {before : List (ExitSource × α)} (a : Asserted α)
    (hr : ∀ e ∈ before, e.1.Real) (hne : before ≠ []) :
    ((runEvents Vars.init before).bind a.prepare) = none := by
  rcases runEvents_measure (v := Vars.init) rfl rfl hr with
    ⟨hnil, -⟩ | ⟨s, r, rfl, hrun⟩ | ⟨-, hrun⟩
  · exact absurd hnil hne
  · rw [hrun]
    exact a.prepare_full (hr (s, r) (List.mem_singleton_self _))
  · rw [hrun]
    rfl

theorem assertMeasure_eq_some {v' : Vars α} :
    assertMeasure source rip v = some v' ↔
      v.exitSource = source ∧ (source ≠ .measure → rip = v.exitRip) ∧
        { v with exitSource := .measure, exitRip := 0 } = v' := by
  by_cases h₁ : v.exitSource = source
  · subst h₁
    by_cases h₂ : v.exitSource = .measure
    · simp [assertMeasure, h₂]
    · by_cases h₃ : rip = v.exitRip <;> simp [assertMeasure, cAssert, h₂, h₃]
  · simp [assertMeasure, cAssert, h₁]

theorem assertMeasure2_eq_some {source2 : ExitSource} {rip2 : α} {v' : Vars α} :
    assertMeasure2 source rip source2 rip2 v = some v' ↔
      v.exitSourceOld = source ∧ (source ≠ .measure → rip = v.exitRipOld) ∧
        v.exitSource = source2 ∧ (source2 ≠ .measure → rip2 = v.exitRip) ∧
        { v with exitSource := .measure, exitRip := 0,
                 exitSourceOld := .measure, exitRipOld := 0 } = v' := by
  by_cases h₁ : v.exitSourceOld = source
  · subst h₁
    by_cases h₂ : v.exitSource = source2
    · subst h₂
      by_cases ho : v.exitSourceOld = .measure <;> by_cases hs : v.exitSource = .measure <;>
        by_cases hr : rip = v.exitRipOld <;> by_cases hr₂ : rip2 = v.exitRip <;>
        simp [assertMeasure2, cAssert, ho, hs, hr, hr₂]
    · by_cases ho : v.exitSourceOld = .measure <;> by_cases hr : rip = v.exitRipOld <;>
        simp [assertMeasure2, cAssert, h₂, ho, hr]
  · simp [assertMeasure2, cAssert, h₁]

theorem one_init (hs : source = .measure ∨ source.Real) (hr : ∀ e ∈ events, e.1.Real) :
    (runEvents Vars.init events).bind (assertMeasure source rip) = some v ↔
      events = (Asserted.one source rip hs).expected ∧ v = Vars.init := by
  rcases runEvents_measure (v := Vars.init) rfl rfl hr with
    ⟨rfl, hrun⟩ | ⟨s, r, rfl, hrun⟩ | ⟨hlen, hrun⟩
  · rw [hrun, Option.bind_some, assertMeasure_eq_some]
    by_cases hm : source = .measure
    · simp [Asserted.expected, Vars.init, hm, eq_comm]
    · simp [Asserted.expected, Vars.init, hm, Ne.symm hm]
  · have hreal := (hr (s, r) (List.mem_singleton_self _)).ne_measure
    rw [hrun, Option.bind_some, assertMeasure_eq_some]
    by_cases hm : source = .measure
    · simp [Asserted.expected, hm, hreal]
    · simp [Asserted.expected, Vars.init, hm, eq_comm, and_assoc]
  · rw [hrun, Option.bind_none]
    refine ⟨fun h => (by cases h), fun h => ?_⟩
    rw [h.1] at hlen
    by_cases hm : source = .measure <;> simp [Asserted.expected, hm] at hlen

theorem two_init {source2 : ExitSource} {rip2 : α} (h₁ : source.Real)
    (h₂ : source2 = .measure ∨ source2.Real) (hr : ∀ e ∈ events, e.1.Real) :
    (runEvents { Vars.init with exitSource := .meas2 } events).bind
        (assertMeasure2 source rip source2 rip2) = some v ↔
      events = (Asserted.two source rip source2 rip2 h₁ h₂).expected ∧ v = Vars.init := by
  cases events with
  | nil =>
      have hnil : runEvents { Vars.init with exitSource := .meas2 } ([] : List (ExitSource × α)) =
          some { Vars.init with exitSource := .meas2 } := rfl
      rw [hnil, Option.bind_some, assertMeasure2_eq_some]
      simp [Asserted.expected, Vars.init, Ne.symm h₁.ne_measure]
  | cons e events =>
      obtain ⟨s, r⟩ := e
      -- the first event goes to the `_old` pair, and the rest is as with one event
      have hstep : runEvents { Vars.init with exitSource := .meas2 } ((s, r) :: events) =
          runEvents { Vars.init with exitSourceOld := s, exitRipOld := r } events := rfl
      rw [hstep]
      rcases runEvents_measure (v := { Vars.init with exitSourceOld := s, exitRipOld := r }) rfl rfl
        (fun e he => hr e (List.mem_cons_of_mem _ he)) with
        ⟨rfl, hrun⟩ | ⟨s', r', rfl, hrun⟩ | ⟨hlen, hrun⟩
      · rw [hrun, Option.bind_some, assertMeasure2_eq_some]
        by_cases hm : source2 = .measure
        · simp [Asserted.expected, Vars.init, hm, h₁.ne_measure, eq_comm, and_assoc]
        · simp [Asserted.expected, Vars.init, hm, Ne.symm hm]
      · have hreal := (hr (s', r') (by simp)).ne_measure
        rw [hrun, Option.bind_some, assertMeasure2_eq_some]
        by_cases hm : source2 = .measure
        · simp [Asserted.expected, hm, hreal]
        · simp [Asserted.expected, Vars.init, hm, h₁.ne_measure, eq_comm, and_assoc]
      · rw [hrun, Option.bind_none]
        refine ⟨fun h => (by cases h), fun h => ?_⟩
        have hlen' := congrArg List.length h.1
        by_cases hm : source2 = .measure
        · simp only [Asserted.expected, hm, if_true, List.length_cons, List.length_nil] at hlen'
          omega
        · simp only [Asserted.expected, hm, if_false, List.length_cons, List.length_nil] at hlen'
          omega

/-- From the initial values a round passes exactly when its events are the asserted ones, and
leaves the initial values. -/
theorem runRound_init (r : Round α) :
    runRound Vars.init r = some v ↔
      r.before = [] ∧ r.during = r.asserted.expected ∧ v = Vars.init := by
  obtain ⟨a, before, during, hb, hd⟩ := r
  by_cases hne : before = []
  · subst hne
    rw [eq_self, true_and]
    cases a with
    | one source rip hs =>
        refine Iff.trans (Iff.of_eq (congrArg (· = some v) ?_)) (one_init hs hd)
        show (prepareMeasure Vars.init).bind _ = _
        rw [prepareMeasure_init]
        rfl
    | two source1 rip1 source2 rip2 h₁ h₂ =>
        refine Iff.trans (Iff.of_eq (congrArg (· = some v) ?_)) (two_init h₁ h₂ hd)
        show (prepareMeasure2 Vars.init).bind _ = _
        rw [prepareMeasure2_init]
        rfl
  · have hnone : runRound Vars.init ⟨a, before, during, hb, hd⟩ = none := by
      show (runEvents Vars.init before).bind (fun v => (a.prepare v).bind _) = none
      rw [← Option.bind_assoc, prepare_runEvents a hb hne, Option.bind_none]
    simp [hnone, hne]

theorem runRounds_init (rounds : List (Round α)) (h : runRounds Vars.init rounds = some v) :
    v = Vars.init := by
  induction rounds with
  | nil => exact (Option.some.inj h).symm
  | cons r rounds ih =>
      simp only [runRounds, List.foldlM_cons, Option.bind_eq_bind] at h
      obtain ⟨v₁, hr, h⟩ := Option.bind_eq_some_iff.mp h
      obtain ⟨-, -, rfl⟩ := (runRound_init r).mp hr
      exact ih h

/-- **The recorder loses, duplicates and misattributes nothing.**  A run that starts with the
initial values gets past a round if and only if it got to it, no event came before its
`prepare_` half, and the events after that are the asserted ones; the variables then have
their initial values again. -/
theorem recorder_exact (rounds : List (Round α)) (r : Round α) (v : Vars α) :
    runRounds Vars.init (rounds ++ [r]) = some v ↔
      (∃ v', runRounds Vars.init rounds = some v') ∧
        r.before = [] ∧ r.during = r.asserted.expected ∧ v = Vars.init := by
  have happ : runRounds Vars.init (rounds ++ [r]) =
      (runRounds Vars.init rounds).bind fun v => runRound v r := by
    simp [runRounds, List.foldlM_append]
  rw [happ, Option.bind_eq_some_iff]
  constructor
  · rintro ⟨v', hrun, hr⟩
    obtain rfl := runRounds_init rounds hrun
    exact ⟨⟨_, hrun⟩, (runRound_init r).mp hr⟩
  · rintro ⟨⟨v', hrun⟩, hr⟩
    obtain rfl := runRounds_init rounds hrun
    exact ⟨_, hrun, (runRound_init r).mpr hr⟩

end Recorder

end Shv.Nmi
