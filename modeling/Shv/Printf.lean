/-
# `Shv.Printf` — `printf` and the interrupt handlers that call it

`vprintf` takes the console line lock, prints, and gives the lock back.  It does so with
interrupts as they are: the guest main loop prints after `sti`.  A handler that runs on top of an
interrupted `vprintf` and prints itself waits for a lock that only the interrupted code can give
back.  A comment in `handle_idt` says so for vector 0x27, whose handler does not print; those of
the keyboard and the mouse always do, and those of the NMI tests may.

A CPU has a stack of contexts: the main program and, on top of it, the handlers that have
interrupted it and each other.  A context is somewhere in `vprintf` or outside of it.  The main
program is arbitrary: it prints, changes `EFLAGS.IF` and does other things in any order
(`MainProgram`).  The handlers are `Code`: accesses to shared variables and calls of `printf`.

* `printf_no_self_deadlock`: no CPU waits for itself in a run in which the handler of an interrupt
  that is taken while a context of that CPU has the lock does not print for the values the shared
  variables have meanwhile;
* `SelfDeadlock.stays`: a CPU that does wait for itself does so forever;
* `printf_self_deadlock`: the guest main loop and one keyboard interrupt get there.

`shv_disable_enable_paging` takes the lock in assembly, with interrupts disabled; it is one more
main program here.  The two consistency checks at the start of `handle_idt` (`_ip`, and `guest`
against CPUID), its branch for system calls and its branch for exceptions are left out: they are
not about hardware interrupts.
-/
import Mathlib.Data.BitVec
import Shv.Spinlock
import Shv.Nmi.Timer

namespace Shv.Console

open Smp

/-! ## Handlers as code -/

/-- The code of a handler, as far as other code can notice it. -/
inductive Code (V : Type) where
  /-- `iret`, or the instructions that stand for it and do not unblock NMIs -/
  | ret (simulated : Bool)
  /-- `cpu_halt` -/
  | halt
  | printf (k : Code V)
  /-- an access to a shared variable; the continuation sees the state before it -/
  | access (f : V → V) (k : V → Code V)

namespace Code

variable {V : Type}

def read (k : V → Code V) : Code V := access id k

def write (f : V → V) (k : Code V) : Code V := access f fun _ => k

/-- `ASSERT(expr)`, which prints before it halts. -/
def assert (b : Bool) (k : Code V) : Code V := if b then k else printf halt

/-- The code may come to a call of `printf` if whatever it sees of the shared variables is in
`R`. -/
inductive CanPrint (R : V → Prop) : Code V → Prop
  | printf {k : Code V} : CanPrint R (.printf k)
  | access {f : V → V} {k : V → Code V} (v : V) :
      R v → CanPrint R (k v) → CanPrint R (.access f k)

/-- The code run by itself: the variables it leaves, `none` if it halts. -/
def exec : Code V → V → Halting V
  | .ret _, v => some v
  | .halt, _ => none
  | .printf k, v => k.exec v
  | .access f k, v => (k v).exec (f v)

@[simp] theorem exec_read (k : V → Code V) (v : V) : (read k).exec v = (k v).exec v := rfl

@[simp] theorem exec_write (f : V → V) (k : Code V) (v : V) :
    (write f k).exec v = k.exec (f v) := rfl

@[simp] theorem exec_assert (b : Bool) (k : Code V) (v : V) :
    (assert b k).exec v = cAssert b >>= fun _ => k.exec v := by
  cases b <;> rfl

end Code

/-! ## The handlers -/

/-- What does not change: the options and which CPU has which index. -/
structure Config (ι : Type) where
  shvOpt : BitVec 64
  nmiOpt : BitVec 64
  idx : ι → Nat

namespace Config

variable {ι : Type}

def isbsp (cfg : Config ι) (i : ι) : Bool := cfg.idx i == 0

def noInterrupt (cfg : Config ι) : Bool := cfg.shvOpt &&& 0x200 != 0

def nmiEnable (cfg : Config ι) : Bool := cfg.nmiOpt &&& 0x1 != 0

end Config

/-- The shared variables the handlers use; `l2_ready` is one of the recorder's. -/
structure Vars where
  dropKeyboardInterrupts : BitVec 32
  dropMouseInterrupts : BitVec 32
  /-- `shot_arrived` of `handle_timer_interrupt` -/
  shotArrived : Bool
  quiet : Bool
  interruptPeriod : BitVec 32
  l2InitApicId : BitVec 32
  /-- `count` of `shv_nmi_handle_timer_interrupt` -/
  count : BitVec 32
  recorder : Nmi.Vars (BitVec 64)

/-- As the image is loaded. -/
def Vars.init : Vars where
  dropKeyboardInterrupts := 0
  dropMouseInterrupts := 0
  shotArrived := false
  quiet := false
  interruptPeriod := 0
  l2InitApicId := 0
  count := 0
  recorder := .init

def Code.record (f : Nmi.Vars (BitVec 64) → Nmi.Vars (BitVec 64)) (k : Code Vars) : Code Vars :=
  .write (fun v => { v with recorder := f v.recorder }) k

/-- The hardware interrupts `handle_idt` knows. -/
inductive Vector where
  /-- 0x02 -/
  | nmi
  /-- 0x20 and 0x22 -/
  | pitTimer
  | lapicTimer
  /-- 0x21 -/
  | keyboard
  /-- 0x27 -/
  | irq7
  /-- 0x2c -/
  | mouse
  /-- 0x54 -/
  | ipi
  deriving DecidableEq, Repr

def Vector.number : Vector → BitVec 8
  | .nmi => 0x02
  | .pitTimer => 0x20
  | .lapicTimer => 0x22
  | .keyboard => 0x21
  | .irq7 => 0x27
  | .mouse => 0x2c
  | .ipi => 0x54

/-- An interrupt: through which IDT, at which instruction, and for 0x27 what the in-service
register of the PIC says. -/
structure Interrupt where
  vector : Vector
  guest : Bool
  ip : BitVec 64
  inService : BitVec 8

/-- The end of a failed `TEST_ASSERT` in the given line. -/
def testAssertFailed (line : Nat) : Code Vars :=
  .record (fun r => { r with masterFail := line }) <|
  .record (fun r => { r with l2Ready := false }) <|
  .printf .halt

def handleInterruptCpu1 (source : Nmi.ExitSource) (rip : BitVec 64) (k : Code Vars) : Code Vars :=
  .record (fun r => { r with l2Ready := false }) <|
  .read fun v => .assert (v.recorder.masterFail == 0) <|
  .read fun v => match v.recorder.exitSource with
    | .ignore => .printf <| testAssertFailed 99
    | .measure =>
      let store : Code Vars :=
        .record (fun r => { r with exitSource := source }) <|
        .record (fun r => { r with exitRip := rip }) k
      .read fun v => if v.quiet then store else .printf store
    | .meas2 =>
      .printf <|
      .record (fun r => { r with exitSource := .measure }) <|
      .record (fun r => { r with exitSourceOld := source }) <|
      .record (fun r => { r with exitRipOld := rip }) k
    | _ => .printf <| .printf <| testAssertFailed 125

/-- `shv_nmi_handle_timer_interrupt`.  The remainder is a divide error if the period is 0, and the
handler of that prints and halts. -/
def shvNmiHandleTimerInterrupt (isbsp : Bool) (vector : BitVec 8) (guest : Bool) (k : Code Vars) :
    Code Vars :=
  .assert isbsp <| .assert (vector == 0x20#8) <| .assert (!guest) <|
  .read fun v => if !v.recorder.l2Ready then k else
    .read fun v => .assert (v.l2InitApicId != 0) <|
    .read fun v =>
      let next : Code Vars := .write (fun v => { v with count := v.count + 1 }) k
      let inject : Code Vars := .read fun v => if v.quiet then next else .printf next
      if v.interruptPeriod * 2 = 0 then .printf .halt
      else if v.count % (v.interruptPeriod * 2) = 0 then inject
      else if v.count % (v.interruptPeriod * 2) = v.interruptPeriod then inject
      else next

/-- Run by itself, the recorder's entry point is the one of `Shv.Nmi.Recorder`. -/
theorem exec_handleInterruptCpu1 (source : Nmi.ExitSource) (rip : BitVec 64) (simulated : Bool)
    (v : Vars) :
    (handleInterruptCpu1 source rip (.ret simulated)).exec v =
      (Nmi.handleInterruptCpu1 source rip v.recorder).map fun r => { v with recorder := r } := by
  obtain ⟨_, _, _, quiet, _, _, _, ⟨l2Ready, masterFail, exitSource, _, _, _⟩⟩ := v
  cases masterFail with
  | zero => cases exitSource <;> cases quiet <;> rfl
  | succ n => rfl

/-- The variables of the timer handler as `Shv.Nmi.Timer` has them. -/
def Vars.timer (v : Vars) : Nmi.TimerVars where
  interruptPeriod := v.interruptPeriod
  l2Ready := if v.recorder.l2Ready then 1 else 0
  l2InitApicId := v.l2InitApicId
  count := v.count

theorem exec_shvNmiHandleTimerInterrupt (isbsp : Bool) (vector : BitVec 8) (guest simulated : Bool)
    (v : Vars) :
    (shvNmiHandleTimerInterrupt isbsp vector guest (.ret simulated)).exec v =
      (Nmi.shvNmiHandleTimerInterrupt isbsp vector guest v.timer).map
        fun r => { v with count := r.1.count } := by
  unfold shvNmiHandleTimerInterrupt Nmi.shvNmiHandleTimerInterrupt
  rcases isbsp with _ | _
  · rfl
  by_cases hvector : vector = 0x20#8
  · subst hvector
    rcases guest with _ | _
    · cases hready : v.recorder.l2Ready with
      | false => simp [Code.exec, Vars.timer, hready]
      | true =>
          by_cases hid : v.l2InitApicId = 0#32
          · simp [Vars.timer, hready, hid]
          by_cases hperiod : v.interruptPeriod * 2#32 = 0#32
          · simp [Code.exec, Vars.timer, hready, hperiod]
          have hdivisor : (v.interruptPeriod * 2#32 != 0#32) = true := bne_iff_ne.mpr hperiod
          by_cases hnmi : v.count % (v.interruptPeriod * 2#32) = 0#32 <;>
            by_cases hipi : v.count % (v.interruptPeriod * 2#32) = v.interruptPeriod <;>
              cases hquiet : v.quiet <;>
                simp [Code.exec, Vars.timer, hready, hperiod, hdivisor, hnmi, hipi, hquiet]
    · rfl
  · have hother : (vector == 0x20#8) = false := beq_eq_false_iff_ne.mpr hvector
    rw [hother]
    rfl

section Handlers

variable {ι : Type} (cfg : Config ι) (i : ι) (e : Interrupt) (k : Code Vars)

def handleNmiInterrupt : Code Vars :=
  .assert (!cfg.isbsp i) <| .assert (e.vector.number == 0x2) <|
  handleInterruptCpu1 (if e.guest then .nmiG else .nmiH) e.ip k

def handleIpiInterrupt : Code Vars :=
  .assert (!cfg.isbsp i) <| .assert (e.vector.number == 0x54) <|
  handleInterruptCpu1 (if e.guest then .timerG else .timerH) e.ip k

/-- `handle_timer_interrupt`.  The counters and the screen are the CPU's own, and the two calls of
`calibrate_timer` are switched off. -/
def handleTimerInterrupt : Code Vars :=
  if cfg.noInterrupt then
    .assert (cfg.isbsp i) <|
    .read fun v => .assert (!v.shotArrived) <|
    .write (fun v => { v with shotArrived := true }) k
  else if cfg.nmiEnable then
    shvNmiHandleTimerInterrupt (cfg.isbsp i) e.vector.number e.guest k
  else .assert (e.vector.number == 0x20 || e.vector.number == 0x22) k

def handleKeyboardInterrupt : Code Vars :=
  .assert (cfg.nmiEnable || cfg.isbsp i) <| .assert (e.vector.number == 0x21) <|
  .read fun v =>
    if v.dropKeyboardInterrupts ≠ 0 then
      .write (fun v => { v with dropKeyboardInterrupts := v.dropKeyboardInterrupts - 1 }) <|
      .printf k
    else .printf k

def handleMouseInterrupt : Code Vars :=
  .assert (cfg.isbsp i) <| .assert (e.vector.number == 0x2c) <|
  .read fun v =>
    if v.dropMouseInterrupts ≠ 0 then
      .write (fun v => { v with dropMouseInterrupts := v.dropMouseInterrupts - 1 }) <|
      .printf k
    else .printf k

/-- Whether `handle_idt` returns 1, which makes the stub simulate `iret`. -/
def simulateIret : Bool :=
  cfg.nmiEnable && cfg.idx i == 1 &&
    (e.vector == .nmi || e.vector == .keyboard || e.vector == .ipi)

/-- `handle_idt`, to the end of the stub. -/
def handleIdt : Code Vars :=
  let done : Code Vars := .ret (simulateIret cfg i e)
  match e.vector with
  | .nmi => handleNmiInterrupt cfg i e done
  | .pitTimer | .lapicTimer => handleTimerInterrupt cfg i e done
  | .keyboard => handleKeyboardInterrupt cfg i e done
  | .irq7 => .assert (e.inService &&& 0x80 == 0) done
  | .mouse => handleMouseInterrupt cfg i e done
  | .ipi => handleIpiInterrupt cfg i e done

end Handlers

/-! ## CPUs and their contexts -/

inductive VprintfPc where
  | outside
  /-- in `emhfc_putchar_linelock` -/
  | linelock (p : SpinPc)
  /-- in `kvprintf`, or about to call `emhfc_putchar_lineunlock` -/
  | kvprintf
  deriving DecidableEq, Repr

/-- What a context does next outside of `vprintf`: the main program is in a state, a handler has
code left. -/
inductive Todo (B : Type) where
  | main (b : B)
  | handler (c : Code Vars)

/-- The main program may print at any time. -/
def Todo.CanPrint {B : Type} (R : Vars → Prop) : Todo B → Prop
  | .main _ => True
  | .handler c => c.CanPrint R

structure Context (B : Type) where
  pc : VprintfPc
  todo : Todo B

/-- A CPU.  The contexts below the running one are stored with their `EFLAGS.IF`. -/
structure Cpu (B : Type) where
  eflagsIf : Bool
  nmiBlocked : Bool
  top : Context B
  below : List (Context B × Bool)

/-- All contexts, the running one first. -/
def Cpu.contexts {B : Type} (cpu : Cpu B) : List (Context B) := cpu.top :: cpu.below.map Prod.fst

def Cpu.accepts {B : Type} (cpu : Cpu B) (e : Interrupt) : Bool :=
  if e.vector = .nmi then !cpu.nmiBlocked else cpu.eflagsIf

/-- What the main program does: it calls `printf`, it changes `EFLAGS.IF` (`sti`, `cli`, `popf`, VM
entry, VM exit), or something else. -/
inductive MainOp where
  | printf
  | setIf (value : Bool)
  | other

/-- The code the CPUs run outside of interrupt handlers. -/
structure MainProgram (ι : Type) where
  State : Type
  start : ι → State
  next : ι → Vars → State → MainOp → Vars → State → Prop

/-- The CPU after a step of the main program, which is now in `b`. -/
def Cpu.mainOp {B : Type} (cpu : Cpu B) (b : B) : MainOp → Cpu B
  | .printf => { cpu with top := ⟨.linelock .test, .main b⟩ }
  | .setIf value => { cpu with eflagsIf := value, top := ⟨.outside, .main b⟩ }
  | .other => { cpu with top := ⟨.outside, .main b⟩ }

/-- The shared memory: the lock word, and everything else. -/
structure Memory where
  linelock : BitVec 32
  vars : Vars

/-- A CPU goes on, or it takes an interrupt. -/
inductive Event where
  | run
  | interrupt (e : Interrupt)

section System

variable {ι : Type} (cfg : Config ι) (prog : MainProgram ι)

inductive Move (i : ι) :
    Memory → Cpu prog.State → Event → Memory → Cpu prog.State → Prop
  | main {m : Memory} {cpu : Cpu prog.State} {b b' : prog.State} {op : MainOp} {vars : Vars} :
      cpu.top = ⟨.outside, .main b⟩ → prog.next i m.vars b op vars b' →
      Move i m cpu .run { m with vars := vars } (cpu.mainOp b' op)
  | access {m : Memory} {cpu : Cpu prog.State} {f : Vars → Vars} {k : Vars → Code Vars} :
      cpu.top = ⟨.outside, .handler (.access f k)⟩ →
      Move i m cpu .run { m with vars := f m.vars }
        { cpu with top := ⟨.outside, .handler (k m.vars)⟩ }
  | call {m : Memory} {cpu : Cpu prog.State} {k : Code Vars} :
      cpu.top = ⟨.outside, .handler (.printf k)⟩ →
      Move i m cpu .run m { cpu with top := ⟨.linelock .test, .handler k⟩ }
  | spin {m : Memory} {cpu : Cpu prog.State} {todo : Todo prog.State} {p p' : SpinPc} :
      cpu.top = ⟨.linelock p, todo⟩ → (spinLock m.linelock p).2 = some p' →
      Move i m cpu .run { m with linelock := (spinLock m.linelock p).1 }
        { cpu with top := ⟨.linelock p', todo⟩ }
  | locked {m : Memory} {cpu : Cpu prog.State} {todo : Todo prog.State} {p : SpinPc} :
      cpu.top = ⟨.linelock p, todo⟩ → (spinLock m.linelock p).2 = none →
      Move i m cpu .run { m with linelock := (spinLock m.linelock p).1 }
        { cpu with top := ⟨.kvprintf, todo⟩ }
  | putchar {m : Memory} {cpu : Cpu prog.State} :
      cpu.top.pc = .kvprintf → Move i m cpu .run m cpu
  | unlock {m : Memory} {cpu : Cpu prog.State} {todo : Todo prog.State} :
      cpu.top = ⟨.kvprintf, todo⟩ →
      Move i m cpu .run { m with linelock := spinUnlock m.linelock }
        { cpu with top := ⟨.outside, todo⟩ }
  | iret {m : Memory} {cpu : Cpu prog.State} {simulated eflagsIf : Bool}
      {x : Context prog.State} {below : List (Context prog.State × Bool)} :
      cpu.top = ⟨.outside, .handler (.ret simulated)⟩ → cpu.below = (x, eflagsIf) :: below →
      Move i m cpu .run m ⟨eflagsIf, simulated && cpu.nmiBlocked, x, below⟩
  | interrupt {m : Memory} {cpu : Cpu prog.State} {e : Interrupt} :
      cpu.accepts e = true →
      Move i m cpu (.interrupt e) m
        { eflagsIf := false
          nmiBlocked := cpu.nmiBlocked || e.vector == .nmi
          top := ⟨.outside, .handler (handleIdt cfg i e)⟩
          below := (cpu.top, cpu.eflagsIf) :: cpu.below }

abbrev System := Smp ι Memory (Cpu prog.State)

def PrintStep [DecidableEq ι] : System prog → ι × Event → System prog → Prop :=
  Step (Move cfg prog)

/-- The lock is free, and every CPU begins its main program with interrupts disabled. -/
def start : System prog where
  shared := { linelock := 0, vars := .init }
  thread i :=
    { eflagsIf := false, nmiBlocked := false, top := ⟨.outside, .main (prog.start i)⟩, below := [] }

end System

/-! ## Waiting for oneself -/

variable {B : Type} {R : Vars → Prop}

/-- Between the return of `spin_lock` and the exchange of `spin_unlock`. -/
def Context.Holds (x : Context B) : Prop := x.pc = .kvprintf

/-- Some context of the CPU has the line lock. -/
def Cpu.Holds (cpu : Cpu B) : Prop := ∃ x ∈ cpu.contexts, x.Holds

/-- Some interrupted context of the CPU has it. -/
def Cpu.HoldsBelow (cpu : Cpu B) : Prop := ∃ x ∈ cpu.below.map Prod.fst, x.Holds

/-- The CPU is in `spin_lock` for the line lock, which a context has that it has interrupted. -/
def Cpu.SelfDeadlock (cpu : Cpu B) : Prop :=
  (∃ p, cpu.top.pc = .linelock p) ∧ ∃ x ∈ cpu.below, x.1.Holds

/-- A context that will not wait for the lock while the shared variables are in `R`. -/
def Context.Silent (R : Vars → Prop) (x : Context B) : Prop :=
  x.pc = .outside ∧ ¬x.todo.CanPrint R

/-- Whatever is on top of a context that has the lock is silent. -/
def Cpu.Safe (R : Vars → Prop) (cpu : Cpu B) : Prop :=
  cpu.contexts.Pairwise fun upper lower => lower.Holds → upper.Silent R

theorem Cpu.Safe.not_selfDeadlock {cpu : Cpu B} (h : cpu.Safe R) : ¬cpu.SelfDeadlock := by
  rintro ⟨⟨p, hp⟩, x, hx, hholds⟩
  have hsilent := (List.pairwise_cons.mp h).1 x.1 (List.mem_map_of_mem hx) hholds
  rw [Context.Silent, hp] at hsilent
  exact nomatch hsilent.1

theorem Cpu.Safe.replace {cpu cpu' : Cpu B} (h : cpu.Safe R) (hbelow : cpu'.below = cpu.below)
    (hsilent : cpu.HoldsBelow → cpu.top.Silent R → cpu'.top.Silent R) : cpu'.Safe R := by
  have hcons := List.pairwise_cons.mp h
  unfold Cpu.Safe Cpu.contexts
  rw [hbelow]
  refine List.pairwise_cons.mpr ⟨fun x hx hholds => ?_, hcons.2⟩
  exact hsilent ⟨x, hx, hholds⟩ (hcons.1 x hx hholds)

/-- A context that is in `vprintf`, or has a call of it to make, is not silent. -/
theorem Cpu.Safe.replace_loud {cpu cpu' : Cpu B} (h : cpu.Safe R)
    (hbelow : cpu'.below = cpu.below) {pc : VprintfPc} {todo : Todo B}
    (htop : cpu.top = ⟨pc, todo⟩) (hloud : pc ≠ .outside ∨ todo.CanPrint R) : cpu'.Safe R := by
  refine h.replace hbelow fun _ hsilent => ?_
  rw [htop] at hsilent
  rcases hloud with hpc | hprint
  · exact absurd hsilent.1 hpc
  · exact absurd hprint hsilent.2

/-- At most one of the contexts of the CPU has the line lock. -/
def Cpu.Single (cpu : Cpu B) : Prop :=
  cpu.contexts.Pairwise fun upper lower => ¬(upper.Holds ∧ lower.Holds)

theorem Cpu.Single.replace {cpu cpu' : Cpu B} (h : cpu.Single) (hbelow : cpu'.below = cpu.below)
    (htop : cpu'.top.Holds → ¬cpu.Holds) : cpu'.Single := by
  have hcons := List.pairwise_cons.mp h
  unfold Cpu.Single Cpu.contexts
  rw [hbelow]
  refine List.pairwise_cons.mpr ⟨fun x hx hboth => ?_, hcons.2⟩
  exact htop hboth.1 ⟨x, List.mem_cons_of_mem _ hx, hboth.2⟩

/-- A CPU that has the lock after its running context was replaced: by the new context, or as
before. -/
theorem Cpu.Holds.replaced {cpu cpu' : Cpu B} (hbelow : cpu'.below = cpu.below)
    (h : cpu'.Holds) : cpu'.top.Holds ∨ cpu.HoldsBelow := by
  obtain ⟨x, hx, hholds⟩ := h
  unfold Cpu.contexts at hx
  rw [hbelow] at hx
  rcases List.mem_cons.mp hx with rfl | hx
  · exact .inl hholds
  · exact .inr ⟨x, hx, hholds⟩

theorem Cpu.HoldsBelow.holds {cpu : Cpu B} (h : cpu.HoldsBelow) : cpu.Holds := by
  obtain ⟨x, hx, hholds⟩ := h
  exact ⟨x, List.mem_cons_of_mem _ hx, hholds⟩

/-- A context in `spin_lock`, above one that has the lock. -/
def WaitsIn (contexts : List (Context B)) : Prop :=
  ∃ upper lower, [upper, lower].Sublist contexts ∧ (∃ p, upper.pc = .linelock p) ∧ lower.Holds

theorem WaitsIn.cons {contexts : List (Context B)} (h : WaitsIn contexts) (x : Context B) :
    WaitsIn (x :: contexts) := by
  obtain ⟨upper, lower, hsub, hrest⟩ := h
  exact ⟨upper, lower, hsub.cons x, hrest⟩

/-- The CPU waits for itself, now or when the handlers on top have returned. -/
def Cpu.Waits (cpu : Cpu B) : Prop := WaitsIn cpu.contexts

theorem Cpu.SelfDeadlock.waits {cpu : Cpu B} (h : cpu.SelfDeadlock) : cpu.Waits := by
  obtain ⟨hp, x, hx, hholds⟩ := h
  have hmem : x.1 ∈ cpu.below.map Prod.fst := List.mem_map_of_mem hx
  exact ⟨cpu.top, x.1, (List.singleton_sublist.mpr hmem).cons_cons _, hp, hholds⟩

theorem Cpu.Waits.holds {cpu : Cpu B} (h : cpu.Waits) : cpu.Holds := by
  obtain ⟨_, lower, hsub, _, hholds⟩ := h
  exact ⟨lower, hsub.subset (by simp), hholds⟩

/-- The upper one of the two contexts is interrupted itself, or it is the running one. -/
theorem Cpu.Waits.split {cpu : Cpu B} (h : cpu.Waits) :
    WaitsIn (cpu.below.map Prod.fst) ∨ cpu.SelfDeadlock := by
  obtain ⟨upper, lower, hsub, hp, hholds⟩ := h
  cases hsub with
  | cons _ hsub => exact .inl ⟨upper, lower, hsub, hp, hholds⟩
  | cons_cons _ hsub =>
      obtain ⟨x, hx, rfl⟩ := List.mem_map.mp (List.singleton_sublist.mp hsub)
      exact .inr ⟨hp, x, hx, hholds⟩

section Runs

variable {ι : Type} {cfg : Config ι} {prog : MainProgram ι}

/-- One move.  While the lock is held, an interrupt must not bring in a handler that can print, and
a handler must see values it is silent for. -/
theorem Cpu.Safe.move {R : Vars → Prop} {i : ι} {m m' : Memory} {cpu cpu' : Cpu prog.State}
    {a : Event} (h : cpu.Safe R) (hm : Move cfg prog i m cpu a m' cpu')
    (hvars : a = .run → cpu.HoldsBelow → R m.vars)
    (hquiet : ∀ e, a = .interrupt e → cpu.Holds → ¬(handleIdt cfg i e).CanPrint R) :
    cpu'.Safe R := by
  cases hm with
  | @main b b' op vars htop hnext =>
      refine h.replace_loud ?_ htop (.inr trivial)
      cases op <;> rfl
  | @access f k htop =>
      refine h.replace rfl fun hbelow hsilent => ?_
      rw [htop] at hsilent
      exact ⟨rfl, fun hprint => hsilent.2 (.access _ (hvars rfl hbelow) hprint)⟩
  | call htop => exact h.replace_loud rfl htop (.inr .printf)
  | spin htop _ => exact h.replace_loud rfl htop (.inl nofun)
  | locked htop _ => exact h.replace_loud rfl htop (.inl nofun)
  | putchar _ => exact h
  | unlock htop => exact h.replace_loud rfl htop (.inl nofun)
  | iret _ hbelow =>
      have htail := (List.pairwise_cons.mp h).2
      rw [hbelow] at htail
      exact htail
  | @interrupt e _ =>
      refine List.pairwise_cons.mpr ⟨fun x hx hholds => ⟨rfl, ?_⟩, h⟩
      exact hquiet e rfl ⟨x, hx, hholds⟩

theorem Cpu.Waits.move {i : ι} {m m' : Memory} {cpu cpu' : Cpu prog.State} {a : Event}
    (h : cpu.Waits) (hword : m.linelock ≠ 0) (hm : Move cfg prog i m cpu a m' cpu') :
    cpu'.Waits := by
  rcases h.split with hbelow | ⟨⟨p, hp⟩, hx⟩
  · cases hm with
    | @main _ _ op _ _ _ => cases op <;> exact hbelow.cons _
    | access _ | call _ | spin _ _ | locked _ _ | putchar _ | unlock _ => exact hbelow.cons _
    | iret _ hstack =>
        rw [hstack] at hbelow
        exact hbelow
    | interrupt _ => exact h.cons _
  · cases hm with
    | main htop _ | access htop | call htop | unlock htop | iret htop _ =>
        rw [htop] at hp
        cases hp
    | spin _ _ => exact Cpu.SelfDeadlock.waits ⟨⟨_, rfl⟩, hx⟩
    | locked _ hnone => exact absurd (spinLock_returns hnone) hword
    | putchar hpc =>
        rw [hpc] at hp
        cases hp
    | interrupt _ => exact h.cons _

variable [DecidableEq ι]

/-- An interrupt that comes while a context of the CPU has the line lock has a handler that cannot
print while the shared variables are in `R`, and there they are whenever a CPU runs on top of a
context that has the lock. -/
def Considerate (cfg : Config ι) (R : Vars → Prop) (c : System prog) : ι × Event → Prop
  | (i, .run) => (c.thread i).HoldsBelow → R c.shared.vars
  | (i, .interrupt e) => (c.thread i).Holds → ¬(handleIdt cfg i e).CanPrint R

def ConsiderateStep (cfg : Config ι) (prog : MainProgram ι) (R : Vars → Prop) (c : System prog)
    (a : ι × Event) (c' : System prog) : Prop :=
  PrintStep cfg prog c a c' ∧ Considerate cfg R c a

theorem safe_step {R : Vars → Prop} {c c' : System prog} {a : ι × Event}
    (h : ∀ i, (c.thread i).Safe R) (hs : ConsiderateStep cfg prog R c a c') :
    ∀ i, (c'.thread i).Safe R := by
  obtain ⟨hstep, hquiet⟩ := hs
  cases hstep with
  | @mk i a m' cpu' hm =>
      refine (Function.forall_update_iff _ fun _ cpu => Cpu.Safe R cpu).mpr ⟨?_, fun j _ => h j⟩
      refine (h i).move hm (fun ha => ?_) fun e he => ?_
      · subst ha
        exact hquiet
      · subst he
        exact hquiet

/-- No CPU waits for itself, however many there are, whatever they run and however they interleave,
as long as the handler of an interrupt that comes while a context of the CPU has the line lock does
not print for the values `R` that the shared variables have then.  If nothing is known of them, `R`
is all values. -/
theorem printf_no_self_deadlock (cfg : Config ι) (prog : MainProgram ι) (R : Vars → Prop)
    {ls : List (ι × Event)} {c : System prog}
    (h : Trace (ConsiderateStep cfg prog R) (start prog) ls c) (i : ι) :
    ¬(c.thread i).SelfDeadlock := by
  have hsafe : ∀ i, (c.thread i).Safe R :=
    h.invariant safe_step fun _ => List.pairwise_singleton _ _
  exact (hsafe i).not_selfDeadlock

end Runs

/-! ## The NMI tests before the guest is ready -/

/-- During the NMI tests the timer handler does not print while `l2_ready` is 0. -/
theorem not_canPrint_shvNmiHandleTimerInterrupt {R : Vars → Prop}
    (hR : ∀ v, R v → v.recorder.l2Ready = false) {k : Code Vars} (hk : ¬k.CanPrint R) :
    ¬(shvNmiHandleTimerInterrupt true 0x20 false k).CanPrint R := by
  rintro (_ | ⟨v, hv, hprint⟩)
  simp only [hR v hv] at hprint
  exact hk hprint

/-- Two CPUs, `SHV_USE_PS2_MOUSE` and `SHV_NMI_ENABLE`. -/
def nmiTest : Config (Fin 2) where
  shvOpt := 0x1000
  nmiOpt := 0x1
  idx i := i

/-- Where a CPU is in `shv_main`: at `sti`, at the first `printf` of `mouse_init`, and after it.
CPU 1 has no mouse. -/
inductive MainPc where
  | sti
  | mouseInit
  | rest

inductive MainNext (i : Fin 2) : Vars → MainPc → MainOp → Vars → MainPc → Prop
  | sti {v : Vars} : MainNext i v .sti (.setIf true) v .mouseInit
  | printf {v : Vars} : i = 0 → MainNext i v .mouseInit .printf v .rest
  | skip {v : Vars} : i ≠ 0 → MainNext i v .mouseInit .other v .rest

def shvMain : MainProgram (Fin 2) where
  State := MainPc
  start _ := .sti
  next := MainNext

/-- The PIT interrupts `mouse_init` while it has the lock, and the handler has seen that `l2_ready`
is 0. -/
theorem printf_no_self_deadlock_timer :
    ∃ (ls : List (Fin 2 × Event)) (c : System shvMain),
      Trace (ConsiderateStep nmiTest shvMain fun v => v.recorder.l2Ready = false) (start _) ls c ∧
        (c.thread 0).HoldsBelow ∧ ¬(c.thread 0).SelfDeadlock := by
  let timer : Interrupt := { vector := .pitTimer, guest := false, ip := 0, inService := 0 }
  let R : Vars → Prop := fun v => v.recorder.l2Ready = false
  have t0 : Trace (ConsiderateStep nmiTest shvMain R) (start _) [] (start _) := .nil
  have t1 := t0.snoc (l := (0, Event.run)) ⟨.mk (.main rfl MainNext.sti), fun _ => rfl⟩
  have t2 := t1.snoc (l := (0, Event.run)) ⟨.mk (.main rfl (.printf rfl)), fun _ => rfl⟩
  have t3 := t2.snoc (l := (0, Event.run)) ⟨.mk (.spin rfl rfl), fun _ => rfl⟩
  have t4 := t3.snoc (l := (0, Event.run)) ⟨.mk (.locked rfl rfl), fun _ => rfl⟩
  have t5 := t4.snoc (l := (0, Event.interrupt timer)) ⟨.mk (.interrupt rfl), fun _ =>
    not_canPrint_shvNmiHandleTimerInterrupt (fun _ h => h) nofun⟩
  have t6 := t5.snoc (l := (0, Event.run)) ⟨.mk (.access rfl), fun _ => rfl⟩
  refine ⟨_, _, t6, ?_, printf_no_self_deadlock nmiTest _ R t6 0⟩
  exact ⟨_, List.mem_cons_self .., rfl⟩

/-! ## A CPU that waits for itself does so forever -/

section Runs

variable {ι : Type} {cfg : Config ι} {prog : MainProgram ι} [DecidableEq ι]

/-- At most one context of one CPU has the line lock, and none while the lock word is 0. -/
structure Exclusive (c : System prog) : Prop where
  lock : Locked c.shared.linelock Cpu.Holds c.thread
  single : ∀ i, (c.thread i).Single

omit [DecidableEq ι] in
theorem exclusive_start : Exclusive (start prog) where
  lock := Locked.start fun _ => by
    rintro ⟨x, hx, hholds⟩
    obtain rfl := List.mem_singleton.mp hx
    cases hholds
  single _ := List.pairwise_singleton _ _

variable {c c' : System prog} {i : ι} {cpu' : Cpu prog.State} {m' : Memory}

theorem Exclusive.update (h : Exclusive c)
    (hlock : Locked m'.linelock Cpu.Holds (Function.update c.thread i cpu'))
    (hsingle : cpu'.Single) : Exclusive ⟨m', Function.update c.thread i cpu'⟩ where
  lock := hlock
  single := (Function.forall_update_iff _ fun _ cpu => Cpu.Single cpu).mpr
    ⟨hsingle, fun j _ => h.single j⟩

/-- The running context is replaced by one that does not have the lock. -/
theorem Exclusive.replace (h : Exclusive c) (hbelow : cpu'.below = (c.thread i).below)
    (htop : ¬cpu'.top.Holds) (hword : m'.linelock = 0 → c.shared.linelock = 0) :
    Exclusive ⟨m', Function.update c.thread i cpu'⟩ := by
  refine h.update (h.lock.stay (fun hholds => ?_) hword) ?_
  · exact ((Cpu.Holds.replaced hbelow hholds).resolve_left htop).holds
  · exact (h.single i).replace hbelow fun hholds => absurd hholds htop

theorem Exclusive.step {a : ι × Event} (h : Exclusive c) (hs : PrintStep cfg prog c a c') :
    Exclusive c' := by
  cases hs with
  | @mk i a m' cpu' hm =>
      cases hm with
      | @main b b' op vars htop hnext =>
          refine h.replace ?_ ?_ id
          · cases op <;> rfl
          · cases op <;> exact nofun
      | access _ => exact h.replace rfl nofun id
      | call _ => exact h.replace rfl nofun id
      | @spin todo p p' _ hp =>
          refine h.update (spinLock_locked h.lock p fun hholds => ?_) ?_
          · have hbelow : (c.thread i).HoldsBelow :=
              (Cpu.Holds.replaced rfl hholds).resolve_left nofun
            exact .inr hbelow.holds
          · exact (h.single i).replace rfl nofun
      | @locked todo p _ hp =>
          refine h.update (spinLock_locked h.lock p fun _ => .inl hp) ?_
          exact (h.single i).replace rfl fun _ => h.lock.free (spinLock_returns hp) i
      | putchar _ =>
          rw [Function.update_eq_self]
          exact h
      | @unlock todo htop =>
          have hholds : (c.thread i).Holds :=
            ⟨(c.thread i).top, List.mem_cons_self .., by rw [htop]; rfl⟩
          refine h.update (h.lock.release hholds fun hholds' => ?_) ?_
          · obtain ⟨x, hx, hxholds⟩ := (Cpu.Holds.replaced rfl hholds').resolve_left nofun
            refine (List.pairwise_cons.mp (h.single i)).1 x hx ⟨?_, hxholds⟩
            rw [htop]
            rfl
          · exact (h.single i).replace rfl nofun
      | @iret simulated eflagsIf x below htop hbelow =>
          have hcontexts : (c.thread i).contexts = (c.thread i).top :: x :: below.map Prod.fst := by
            rw [Cpu.contexts, hbelow]
            rfl
          refine h.update (h.lock.stay (fun hholds => ?_) id) ?_
          · obtain ⟨y, hy, hyholds⟩ := hholds
            exact ⟨y, by rw [hcontexts]; exact List.mem_cons_of_mem _ hy, hyholds⟩
          · have hsingle := h.single i
            rw [Cpu.Single, hcontexts] at hsingle
            exact (List.pairwise_cons.mp hsingle).2
      | interrupt _ =>
          refine h.update (h.lock.stay (fun hholds => ?_) id) ?_
          · obtain ⟨y, hy, hyholds⟩ := hholds
            rcases List.mem_cons.mp hy with rfl | hy
            · cases hyholds
            · exact ⟨y, hy, hyholds⟩
          · exact List.pairwise_cons.mpr ⟨fun _ _ hboth => absurd hboth.1 nofun, h.single i⟩

theorem Cpu.Waits.step {a : ι × Event} (hexcl : Exclusive c) (hs : PrintStep cfg prog c a c')
    (h : (c.thread i).Waits) : (c'.thread i).Waits := by
  have hword : c.shared.linelock ≠ 0 := fun h0 => hexcl.lock.free h0 i h.holds
  cases hs with
  | @mk j a m' cpu' hm =>
      by_cases hij : i = j
      · subst hij
        dsimp only
        rw [Function.update_self]
        exact h.move hword hm
      · dsimp only
        rwa [Function.update_of_ne hij]

/-- A CPU that waits for itself never gets any further, whatever happens. -/
theorem Cpu.SelfDeadlock.stays {ls ls' : List (ι × Event)}
    (hc : Trace (PrintStep cfg prog) (start prog) ls c) (h : (c.thread i).SelfDeadlock)
    (hc' : Trace (PrintStep cfg prog) c ls' c') : (c'.thread i).Waits := by
  have hexcl : Exclusive c := hc.invariant Exclusive.step exclusive_start
  have hboth : Exclusive c' ∧ (c'.thread i).Waits :=
    hc'.invariant (I := fun c => Exclusive c ∧ (c.thread i).Waits)
      (fun hI hs => ⟨hI.1.step hs, hI.2.step hI.1 hs⟩) ⟨hexcl, h.waits⟩
  exact hboth.2

end Runs

/-! ## The guest main loop -/

inductive GuestPc where
  /-- at the test of `SHV_NO_EFLAGS_IF` before the loop -/
  | eflags
  /-- at the `printf` of the loop, the `hlt` after it, and the tests that follow -/
  | iter
  | hlt
  | tests
  deriving DecidableEq, Repr

/-- The steps of `shv_guest_main`.  The tests are not modelled: they may do anything. -/
inductive GuestNext (shvOpt : BitVec 64) : Vars → GuestPc → MainOp → Vars → GuestPc → Prop
  | sti {v : Vars} : shvOpt &&& 0x2 = 0 → GuestNext shvOpt v .eflags (.setIf true) v .iter
  | noSti {v : Vars} : shvOpt &&& 0x2 ≠ 0 → GuestNext shvOpt v .eflags .other v .iter
  | iter {v : Vars} : GuestNext shvOpt v .iter .printf v .hlt
  | hlt {v : Vars} : GuestNext shvOpt v .hlt .other v .tests
  | test {v v' : Vars} {op : MainOp} : GuestNext shvOpt v .tests op v' .tests
  | again {v : Vars} : GuestNext shvOpt v .tests .other v .iter

/-- `shv_guest_main` on every CPU. -/
def shvGuestMain {ι : Type} (cfg : Config ι) : MainProgram ι where
  State := GuestPc
  start _ := .eflags
  next _ := GuestNext cfg.shvOpt

/-- One CPU, no options. -/
def oneCpu : Config (Fin 1) where
  shvOpt := 0
  nmiOpt := 0
  idx i := i

/-- The CPU prints, and a key is pressed while it has the lock. -/
theorem printf_self_deadlock :
    ∃ (ls : List (Fin 1 × Event)) (c : System (shvGuestMain oneCpu)),
      Trace (PrintStep oneCpu (shvGuestMain oneCpu)) (start _) ls c ∧
        (c.thread 0).SelfDeadlock := by
  let key : Interrupt := { vector := .keyboard, guest := true, ip := 0, inService := 0 }
  have t0 : Trace (PrintStep oneCpu (shvGuestMain oneCpu)) (start _) [] (start _) := .nil
  have t1 := t0.snoc (.mk (i := 0) (a := .run) (.main rfl (GuestNext.sti rfl)))
  have t2 := t1.snoc (.mk (i := 0) (a := .run) (.main rfl GuestNext.iter))
  have t3 := t2.snoc (.mk (i := 0) (a := .run) (.spin rfl rfl))
  have t4 := t3.snoc (.mk (i := 0) (a := .run) (.locked rfl rfl))
  have t5 := t4.snoc (.mk (i := 0) (a := .interrupt key) (.interrupt rfl))
  have t6 := t5.snoc (.mk (i := 0) (a := .run) (.access rfl))
  have t7 := t6.snoc (.mk (i := 0) (a := .run) (.call rfl))
  refine ⟨_, _, t7, ⟨.test, rfl⟩, ?_⟩
  exact ⟨_, List.mem_cons_self .., rfl⟩

end Shv.Console
