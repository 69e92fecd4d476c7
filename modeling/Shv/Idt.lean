/-
# `Shv.Idt` — the IDTs are complete before any CPU enables interrupts

Every CPU runs `kernel_main_smp`: a barrier, `init_idt`, and `shv_main`, which has
a second barrier and enables interrupts after it.  The first CPU to come to
`construct_idt` sets `initialized`, gives the lock back and only then writes the
512 gates; the others return at once and load an IDT that may still be empty.
So it is the second barrier that makes the IDT complete in time: the CPU that
writes the gates arrives there after the last of them.

A CPU takes one step for each access to the variables below.  Everything between
them (printing, `init_gdt`, the PIC, the PIT and LAPIC registers, the screen)
touches none of these variables and is left out; an `ASSERT` that fails there stops
a CPU, and a CPU may stop anywhere in a run.
-/
import Shv.Hptw
import Shv.Spinlock

namespace Shv

open Smp

/-! ## Gates -/

/-- `idtentry_t`.  The last two fields exist in amd64 only and are 0 here in i386. -/
structure IdtEntry where
  isrLow16 : BitVec 16
  isrSelector : BitVec 16
  count : BitVec 8
  type : BitVec 8
  isrHigh16 : BitVec 16
  isrHigh32 : BitVec 32
  reservedZero : BitVec 32
  deriving DecidableEq, Repr

/-- `__CS`. -/
def codeSelector : Arch → BitVec 16
  | .i386 => 0x08
  | .amd64 => 0x18

def constructIdtEntry (arch : Arch) (vector : Nat) (stub : BitVec 64) : IdtEntry where
  isrLow16 := stub.truncate 16
  isrHigh16 := (stub >>> 16).truncate 16
  isrHigh32 := match arch with
    | .i386 => 0
    | .amd64 => (stub >>> 32).truncate 32
  reservedZero := 0
  isrSelector := codeSelector arch
  count := 0x0
  -- only 0x23, the system call, can be used from ring 3
  type := if vector = 0x23 then 0x8E ||| 0x60 else 0x8E

/-- An IDT as it is filled; a gate that has not been written yet is `none`. -/
abbrev Idt := Fin 256 → Option IdtEntry

/-- The body of the loops of `construct_idt`. -/
def writeGate (arch : Arch) (stubs : Fin 256 → BitVec 64) (idt : Idt) (i : Fin 256) : Idt :=
  Function.update idt i (some (constructIdtEntry arch i (stubs i)))

/-! ## From `kernel_main_smp` to the end of `shv_main` -/

/-- What does not change while the CPUs start: the build, the options, the number of CPUs that
`smp_init` has found and the addresses of the stubs. -/
structure BootConfig where
  arch : Arch
  midtableNumentries : BitVec 32
  shvOpt : BitVec 64
  nmiOpt : BitVec 64
  idtStubsHost : Fin 256 → BitVec 64
  idtStubsGuest : Fin 256 → BitVec 64

structure BootVars where
  /-- `count` of `kernel_main_smp` -/
  smpCount : BitVec 32
  /-- `lock` and `initialized` of `construct_idt` -/
  lock : BitVec 32
  initialized : Bool
  idtHost : Idt
  idtGuest : Idt
  /-- `count` of `shv_main` -/
  mainCount : BitVec 32

inductive BootPc where
  /-- the barrier of `kernel_main_smp` -/
  | smpIncl
  | smpWait
  /-- `construct_idt`: the lock and what it guards, then the two loops at index `i` -/
  | spin (p : SpinPc)
  | testInitialized
  | setInitialized
  | unlock (construct : Bool)
  | host (i : Nat)
  | guest (i : Nat)
  /-- the rest of `init_idt` -/
  | lidt
  /-- the barrier of `shv_main` -/
  | mainIncl
  | mainWait
  | checkNmi
  | timerInit
  | disablePaging
  | eflags
  /-- the rest of `shv_main` -/
  | running
  | halted
  deriving DecidableEq, Repr

/-- Whether a step executes `sti`. -/
inductive BootOp where
  | sti
  | other
  deriving DecidableEq, Repr

def bootStep (cfg : BootConfig) (idx : Nat) (v : BootVars) : BootPc → BootOp × BootVars × BootPc
  | .smpIncl => (.other, { v with smpCount := v.smpCount + 1 }, .smpWait)
  | .smpWait =>
      (.other, v, if v.smpCount < cfg.midtableNumentries then .smpWait else .spin .test)
  | .spin p =>
      (.other, { v with lock := (spinLock v.lock p).1 },
        match (spinLock v.lock p).2 with
        | some p' => .spin p'
        | none => .testInitialized)
  | .testInitialized => (.other, v, if v.initialized then .unlock false else .setInitialized)
  | .setInitialized => (.other, { v with initialized := true }, .unlock true)
  | .unlock construct =>
      (.other, { v with lock := spinUnlock v.lock }, if construct then .host 0 else .lidt)
  | .host i =>
      if h : i < 256 then
        (.other, { v with idtHost := writeGate cfg.arch cfg.idtStubsHost v.idtHost ⟨i, h⟩ },
          .host (i + 1))
      else (.other, v, .guest 0)
  | .guest i =>
      if h : i < 256 then
        (.other, { v with idtGuest := writeGate cfg.arch cfg.idtStubsGuest v.idtGuest ⟨i, h⟩ },
          .guest (i + 1))
      else (.other, v, .lidt)
  | .lidt => (.other, v, .mainIncl)
  | .mainIncl => (.other, { v with mainCount := v.mainCount + 1 }, .mainWait)
  | .mainWait =>
      (.other, v, if v.mainCount < cfg.midtableNumentries then .mainWait else .checkNmi)
  | .checkNmi =>
      (.other, v,
        if cfg.nmiOpt &&& 0x1 ≠ 0 ∧ ¬ (idx < 2 ∧ 2 ≤ cfg.midtableNumentries) then .halted
        else .timerInit)
  | .timerInit =>
      -- `sti; hlt; cli` on the BSP, to get rid of a pending interrupt
      (if idx = 0 ∧ cfg.shvOpt &&& 0x200 ≠ 0 then .sti else .other, v, .disablePaging)
  | .disablePaging =>
      -- `shv_disable_enable_paging`, which is assembly in amd64 and ends with `sti`
      (if cfg.arch = .amd64 ∧ cfg.shvOpt &&& 0x20 ≠ 0 then .sti else .other, v, .eflags)
  | .eflags => (if cfg.shvOpt &&& 0x2 = 0 then .sti else .other, v, .running)
  | .running => (.other, v, .running)
  | .halted => (.other, v, .halted)

/-- The CPUs of the MADT: an AP that is not in `g_midtable` halts in `smp-asm.S`. -/
abbrev BootCpu (cfg : BootConfig) := Fin cfg.midtableNumentries.toNat

abbrev BootState (cfg : BootConfig) := Smp (BootCpu cfg) BootVars BootPc

def BootStep (cfg : BootConfig) : BootState cfg → BootCpu cfg × BootOp → BootState cfg → Prop :=
  Step fun i v pc op v' pc' => bootStep cfg i v pc = (op, v', pc')

def bootStart (cfg : BootConfig) : BootState cfg where
  shared :=
    { smpCount := 0, lock := 0, initialized := false, idtHost := fun _ => none,
      idtGuest := fun _ => none, mainCount := 0 }
  thread _ := .smpIncl

/-! ## Gates that have been written -/

/-- The gates below `n` have been written. -/
def GatesWritten (arch : Arch) (stubs : Fin 256 → BitVec 64) (idt : Idt) (n : Nat) : Prop :=
  ∀ i : Fin 256, i.val < n → idt i = some (constructIdtEntry arch i (stubs i))

section Gates

variable {arch : Arch} {stubs : Fin 256 → BitVec 64} {idt : Idt} {n : Nat}

theorem gatesWritten_zero : GatesWritten arch stubs idt 0 :=
  fun _ h => absurd h (Nat.not_lt_zero _)

/-- A gate is written once more with what it has, so nothing is lost if two CPUs fill the IDT. -/
theorem GatesWritten.again (h : GatesWritten arch stubs idt n) (k : Fin 256) :
    GatesWritten arch stubs (writeGate arch stubs idt k) n := by
  intro i hi
  by_cases hik : i = k
  · subst hik
    exact Function.update_self _ _ _
  · rw [writeGate, Function.update_of_ne hik]
    exact h i hi

theorem GatesWritten.next (h : GatesWritten arch stubs idt n) (hn : n < 256) :
    GatesWritten arch stubs (writeGate arch stubs idt ⟨n, hn⟩) (n + 1) := by
  intro i hi
  rcases Nat.lt_or_eq_of_le (Nat.le_of_lt_succ hi) with hlt | heq
  · exact h.again ⟨n, hn⟩ i hlt
  · obtain rfl : i = ⟨n, hn⟩ := Fin.ext heq
    exact Function.update_self _ _ _

theorem GatesWritten.all (h : GatesWritten arch stubs idt n) (hn : ¬ n < 256) (k : Nat) :
    GatesWritten arch stubs idt k :=
  fun i _ => h i (Nat.lt_of_lt_of_le i.isLt (Nat.le_of_not_lt hn))

end Gates

/-! ## The invariant -/

/-- Between setting `initialized` and the end of `construct_idt`. -/
def BootPc.constructing : BootPc → Bool
  | .unlock construct => construct
  | .host _ | .guest _ => true
  | _ => false

/-- Has found `initialized` set, or has set it. -/
def BootPc.pastTest : BootPc → Bool
  | .smpIncl | .smpWait | .spin _ | .testInitialized | .setInitialized => false
  | _ => true

/-- Has arrived at the barrier of `shv_main`. -/
def BootPc.arrived : BootPc → Bool
  | .mainWait | .checkNmi | .timerInit | .disablePaging | .eflags | .running | .halted => true
  | _ => false

/-- Has left the barrier of `shv_main`. -/
def BootPc.released : BootPc → Bool
  | .checkNmi | .timerInit | .disablePaging | .eflags | .running | .halted => true
  | _ => false

theorem BootPc.pastTest_of_released {pc : BootPc} (h : pc.released = true) :
    pc.pastTest = true := by
  cases pc with
  | checkNmi | timerInit | disablePaging | eflags | running | halted => rfl
  | _ => cases h

theorem BootPc.not_arrived_of_constructing {pc : BootPc} (h : pc.constructing = true) :
    pc.arrived ≠ true := by
  cases pc with
  | unlock _ | host _ | guest _ => exact Bool.false_ne_true
  | _ => cases h

/-- What the CPU in the loops has written. -/
def BootPc.Wrote (cfg : BootConfig) (v : BootVars) : BootPc → Prop
  | .host i => GatesWritten cfg.arch cfg.idtStubsHost v.idtHost i
  | .guest i => GatesWritten cfg.arch cfg.idtStubsHost v.idtHost 256 ∧
      GatesWritten cfg.arch cfg.idtStubsGuest v.idtGuest i
  | _ => True

def IdtComplete (cfg : BootConfig) (v : BootVars) : Prop :=
  GatesWritten cfg.arch cfg.idtStubsHost v.idtHost 256 ∧
    GatesWritten cfg.arch cfg.idtStubsGuest v.idtGuest 256

structure BootInv (cfg : BootConfig) (c : BootState cfg) : Prop where
  wrote : ∀ i, (c.thread i).Wrote cfg c.shared
  passed : ∀ i, (c.thread i).pastTest = true → c.shared.initialized = true
  built : c.shared.initialized = true →
    IdtComplete cfg c.shared ∨ ∃ i, (c.thread i).constructing = true
  count : c.shared.mainCount.toNat = count (fun pc => pc.arrived = true) c.thread
  barrier : ∀ i, (c.thread i).released = true → ∀ j, (c.thread j).arrived = true

theorem bootInv_start (cfg : BootConfig) : BootInv cfg (bootStart cfg) where
  wrote _ := trivial
  passed _ := nofun
  built := nofun
  count := (count_zero fun _ => Bool.false_ne_true).symm
  barrier _ := nofun

/-- No gate is lost and `initialized` stays set. -/
structure BootVars.Grows (cfg : BootConfig) (v v' : BootVars) : Prop where
  host : ∀ {n}, GatesWritten cfg.arch cfg.idtStubsHost v.idtHost n →
    GatesWritten cfg.arch cfg.idtStubsHost v'.idtHost n
  guest : ∀ {n}, GatesWritten cfg.arch cfg.idtStubsGuest v.idtGuest n →
    GatesWritten cfg.arch cfg.idtStubsGuest v'.idtGuest n
  initialized : v.initialized = true → v'.initialized = true

section Step

variable {cfg : BootConfig} {c : BootState cfg} {i : BootCpu cfg} {v v' : BootVars}
  {pc pc' : BootPc}

theorem BootPc.Wrote.grows (h : pc.Wrote cfg v) (hv : v.Grows cfg v') : pc.Wrote cfg v' := by
  cases pc with
  | host i => exact hv.host h
  | guest i => exact ⟨hv.host h.1, hv.guest h.2⟩
  | _ => trivial

theorem IdtComplete.grows (h : IdtComplete cfg v) (hv : v.Grows cfg v') : IdtComplete cfg v' :=
  ⟨hv.host h.1, hv.guest h.2⟩

/-- A CPU keeps the invariant if it keeps these things: it says truly what it has written, it does
not pass the test of `initialized` before that is set, it leaves `construct_idt` with both IDTs
complete, it counts itself in at the barrier and it does not leave the barrier alone. -/
theorem BootInv.update (h : BootInv cfg c) (hpc : c.thread i = pc) (hv : c.shared.Grows cfg v')
    (hwrote : pc'.Wrote cfg v') (hpassed : pc'.pastTest = true → v'.initialized = true)
    (hinit : v'.initialized = true → c.shared.initialized = true ∨ pc'.constructing = true)
    (hbuilt : pc.constructing = true → pc'.constructing = true ∨ IdtComplete cfg v')
    (hcount : v'.mainCount.toNat + (if pc.arrived = true then 1 else 0) =
      c.shared.mainCount.toNat + if pc'.arrived = true then 1 else 0)
    (harrived : pc.arrived = true → pc'.arrived = true)
    (hreleased : pc'.released = true → ∀ j, (c.thread j).arrived = true) :
    BootInv cfg ⟨v', Function.update c.thread i pc'⟩ := by
  have harr : ∀ j, (c.thread j).arrived = true →
      (Function.update c.thread i pc' j).arrived = true := by
    intro j hj
    by_cases hji : j = i
    · subst hji
      rw [Function.update_self]
      exact harrived (hpc ▸ hj)
    · rwa [Function.update_of_ne hji]
  refine
    { wrote := (Function.forall_update_iff _ fun _ pc => BootPc.Wrote cfg v' pc).mpr
        ⟨hwrote, fun j _ => (h.wrote j).grows hv⟩
      passed := (Function.forall_update_iff _ fun _ pc =>
          BootPc.pastTest pc = true → v'.initialized = true).mpr
        ⟨hpassed, fun j _ hj => hv.initialized (h.passed j hj)⟩
      built := ?_
      count := ?_
      barrier := (Function.forall_update_iff _ fun _ pc => BootPc.released pc = true →
          ∀ j, (Function.update c.thread i pc' j).arrived = true).mpr
        ⟨fun hr j => harr j (hreleased hr j), fun j _ hr k => harr k (h.barrier j hr k)⟩ }
  · intro hi
    have hself : pc'.constructing = true →
        ∃ j, (Function.update c.thread i pc' j).constructing = true :=
      fun hc => ⟨i, by rw [Function.update_self]; exact hc⟩
    rcases hinit hi with hold | hnew
    · rcases h.built hold with hdone | ⟨j, hj⟩
      · exact Or.inl (hdone.grows hv)
      · by_cases hji : j = i
        · subst hji
          exact (hbuilt (hpc ▸ hj)).symm.imp_right hself
        · refine Or.inr ⟨j, ?_⟩
          dsimp only
          rwa [Function.update_of_ne hji]
    · exact Or.inr (hself hnew)
  · have hupd := count_update (P := fun pc : BootPc => pc.arrived = true) (f := c.thread) i pc'
    rw [hpc] at hupd
    have hold := h.count
    dsimp only
    omega

/-- A step that writes neither a gate nor `initialized` nor the count of the barrier. -/
theorem BootInv.quiet (h : BootInv cfg c) (hpc : c.thread i = pc) {smpCount lock : BitVec 32}
    (hwrote : pc'.Wrote cfg c.shared)
    (hpassed : pc'.pastTest = true → c.shared.initialized = true)
    (hbuilt : pc.constructing = true → pc'.constructing = true ∨ IdtComplete cfg c.shared)
    (harrived : pc'.arrived = pc.arrived)
    (hreleased : pc'.released = true → ∀ j, (c.thread j).arrived = true) :
    BootInv cfg ⟨{ c.shared with smpCount := smpCount, lock := lock },
      Function.update c.thread i pc'⟩ := by
  refine h.update hpc ⟨id, id, id⟩ (hwrote.grows ⟨id, id, id⟩) hpassed Or.inl ?_ ?_ ?_ hreleased
  · intro hc
    exact (hbuilt hc).imp_right fun hdone => hdone.grows ⟨id, id, id⟩
  · rw [harrived]
  · intro ha
    rw [harrived]
    exact ha

/-- The count does not wrap: there are no more CPUs than a `u32` can count. -/
theorem BootInv.mainCount_succ (h : BootInv cfg c) (hpc : c.thread i = .mainIncl) :
    (c.shared.mainCount + 1).toNat = c.shared.mainCount.toNat + 1 := by
  have hupd := count_update (P := fun pc : BootPc => pc.arrived = true) (f := c.thread) i .mainWait
  rw [hpc, if_neg (show ¬ BootPc.mainIncl.arrived = true from nofun),
    if_pos (show BootPc.mainWait.arrived = true from rfl), ← h.count] at hupd
  have hle : Smp.count (fun pc : BootPc => pc.arrived = true)
      (Function.update c.thread i .mainWait) ≤ Fintype.card (BootCpu cfg) := count_le
  rw [Fintype.card_fin] at hle
  have hnum := cfg.midtableNumentries.isLt
  have hone : (1 : BitVec 32).toNat = 1 := rfl
  rw [BitVec.toNat_add, hone]
  exact Nat.mod_eq_of_lt (by omega)

theorem BootInv.all_arrived (h : BootInv cfg c)
    (hlt : ¬ c.shared.mainCount < cfg.midtableNumentries) (j : BootCpu cfg) :
    (c.thread j).arrived = true := by
  refine all_of_count (P := fun pc : BootPc => pc.arrived = true) ?_ j
  rw [Fintype.card_fin, ← h.count]
  exact Nat.le_of_not_lt hlt

theorem BootInv.step {c' : BootState cfg} {a : BootCpu cfg × BootOp} (h : BootInv cfg c)
    (hs : BootStep cfg c a c') : BootInv cfg c' := by
  cases hs with
  | @mk i op v' pc' hm =>
      have hwrote := h.wrote i
      have hpassed := h.passed i
      have hbarrier := h.barrier i
      generalize hpc : c.thread i = pc at hm hwrote hpassed hbarrier
      cases pc with
      | smpIncl =>
          obtain ⟨-, rfl, rfl⟩ := hm
          exact h.quiet hpc trivial nofun nofun rfl nofun
      | smpWait =>
          obtain ⟨-, rfl, rfl⟩ := hm
          split
          · exact h.quiet hpc trivial nofun nofun rfl nofun
          · exact h.quiet hpc trivial nofun nofun rfl nofun
      | spin p =>
          obtain ⟨-, rfl, rfl⟩ := hm
          split
          · exact h.quiet hpc trivial nofun nofun rfl nofun
          · exact h.quiet hpc trivial nofun nofun rfl nofun
      | testInitialized =>
          obtain ⟨-, rfl, rfl⟩ := hm
          split
          next hi => exact h.quiet hpc trivial (fun _ => hi) nofun rfl nofun
          next => exact h.quiet hpc trivial nofun nofun rfl nofun
      | setInitialized =>
          obtain ⟨-, rfl, rfl⟩ := hm
          exact h.update hpc ⟨id, id, fun _ => rfl⟩ trivial (fun _ => rfl) (fun _ => Or.inr rfl)
            nofun rfl nofun nofun
      | unlock construct =>
          obtain ⟨-, rfl, rfl⟩ := hm
          have hi := hpassed rfl
          cases construct with
          | true =>
            exact h.quiet hpc gatesWritten_zero (fun _ => hi) (fun _ => Or.inl rfl) rfl nofun
          | false => exact h.quiet hpc trivial (fun _ => hi) nofun rfl nofun
      | host k =>
          have hi := hpassed rfl
          by_cases hk : k < 256
          · rw [bootStep, dif_pos hk] at hm
            obtain ⟨-, rfl, rfl⟩ := hm
            exact h.update hpc ⟨fun hw => hw.again _, id, id⟩ (hwrote.next hk) (fun _ => hi)
              (fun _ => Or.inl hi) (fun _ => Or.inl rfl) rfl nofun nofun
          · rw [bootStep, dif_neg hk] at hm
            obtain ⟨-, rfl, rfl⟩ := hm
            exact h.quiet hpc ⟨hwrote.all hk _, gatesWritten_zero⟩ (fun _ => hi)
              (fun _ => Or.inl rfl) rfl nofun
      | guest k =>
          have hi := hpassed rfl
          obtain ⟨hhost, hguest⟩ := hwrote
          by_cases hk : k < 256
          · rw [bootStep, dif_pos hk] at hm
            obtain ⟨-, rfl, rfl⟩ := hm
            exact h.update hpc ⟨id, fun hw => hw.again _, id⟩ ⟨hhost, hguest.next hk⟩
              (fun _ => hi) (fun _ => Or.inl hi) (fun _ => Or.inl rfl) rfl nofun nofun
          · rw [bootStep, dif_neg hk] at hm
            obtain ⟨-, rfl, rfl⟩ := hm
            -- here the CPU that fills the IDTs is done
            exact h.quiet hpc trivial (fun _ => hi) (fun _ => Or.inr ⟨hhost, hguest.all hk _⟩) rfl
              nofun
      | lidt =>
          obtain ⟨-, rfl, rfl⟩ := hm
          exact h.quiet hpc trivial (fun _ => hpassed rfl) nofun rfl nofun
      | mainIncl =>
          obtain ⟨-, rfl, rfl⟩ := hm
          have hi := hpassed rfl
          refine h.update hpc ⟨id, id, id⟩ trivial (fun _ => hi) Or.inl nofun ?_ nofun nofun
          exact h.mainCount_succ hpc
      | mainWait =>
          obtain ⟨-, rfl, rfl⟩ := hm
          have hi := hpassed rfl
          split
          next => exact h.quiet hpc trivial (fun _ => hi) nofun rfl nofun
          next hlt =>
            exact h.quiet hpc trivial (fun _ => hi) nofun rfl fun _ => h.all_arrived hlt
      | checkNmi =>
          obtain ⟨-, rfl, rfl⟩ := hm
          have hi := hpassed rfl
          have hall := hbarrier rfl
          split
          · exact h.quiet hpc trivial (fun _ => hi) nofun rfl fun _ => hall
          · exact h.quiet hpc trivial (fun _ => hi) nofun rfl fun _ => hall
      | timerInit | disablePaging | eflags | running | halted =>
          obtain ⟨-, rfl, rfl⟩ := hm
          exact h.quiet hpc trivial (fun _ => hpassed rfl) nofun rfl fun _ => hbarrier rfl

end Step

theorem released_of_sti {cfg : BootConfig} {idx : Nat} {v v' : BootVars} {pc pc' : BootPc}
    (h : bootStep cfg idx v pc = (.sti, v', pc')) : pc.released = true := by
  cases pc with
  | timerInit | disablePaging | eflags => rfl
  | host k =>
      rw [bootStep] at h
      split at h <;> cases h
  | guest k =>
      rw [bootStep] at h
      split at h <;> cases h
  | _ => cases h

/-- **No CPU enables interrupts before the IDTs are complete.** -/
theorem sti_after_idt_complete (cfg : BootConfig) {ls : List (BootCpu cfg × BootOp)}
    {c c' : BootState cfg} {i : BootCpu cfg} (h : Trace (BootStep cfg) (bootStart cfg) ls c)
    (hs : BootStep cfg c (i, .sti) c') (k : Fin 256) :
    c.shared.idtHost k = some (constructIdtEntry cfg.arch k (cfg.idtStubsHost k)) ∧
      c.shared.idtGuest k = some (constructIdtEntry cfg.arch k (cfg.idtStubsGuest k)) := by
  have hinv : BootInv cfg c := h.invariant BootInv.step (bootInv_start cfg)
  cases hs with
  | mk hm =>
      have hreleased := released_of_sti hm
      have hall := hinv.barrier i hreleased
      -- everybody has arrived, so nobody is in `construct_idt` any more
      rcases hinv.built (hinv.passed i (BootPc.pastTest_of_released hreleased)) with hdone | ⟨j, hj⟩
      · exact ⟨hdone.1 k k.isLt, hdone.2 k k.isLt⟩
      · exact absurd (hall j) (BootPc.not_arrived_of_constructing hj)

/-- One CPU alone takes `n` steps. -/
def soloRun (cfg : BootConfig) (idx : Nat) : Nat → BootVars × BootPc → BootVars × BootPc
  | 0, s => s
  | n + 1, s =>
      let r := soloRun cfg idx n s
      (bootStep cfg idx r.1 r.2).2

theorem soloRun_trace {cfg : BootConfig} (c : BootState cfg) (i : BootCpu cfg) (n : Nat) :
    ∃ ls, Trace (BootStep cfg) c ls
      ⟨(soloRun cfg i n (c.shared, c.thread i)).1,
        Function.update c.thread i (soloRun cfg i n (c.shared, c.thread i)).2⟩ := by
  induction n with
  | zero => exact ⟨[], by rw [soloRun, Function.update_eq_self]; exact .nil⟩
  | succ n ih =>
      obtain ⟨ls, h⟩ := ih
      rw [soloRun]
      generalize soloRun cfg i n (c.shared, c.thread i) = r at h
      have hstep : BootStep cfg ⟨r.1, Function.update c.thread i r.2⟩
          (i, (bootStep cfg i r.1 r.2).1)
          ⟨(bootStep cfg i r.1 r.2).2.1,
            Function.update (Function.update c.thread i r.2) i (bootStep cfg i r.1 r.2).2.2⟩ :=
        .mk (by dsimp only; rw [Function.update_self])
      rw [Function.update_idem] at hstep
      exact ⟨_, h.snoc hstep⟩

/-- The CPUs take turns, for so many steps each. -/
def turns {cfg : BootConfig} (c : BootState cfg) : List (BootCpu cfg × Nat) → BootState cfg
  | [] => c
  | (i, n) :: rest =>
      let r := soloRun cfg i n (c.shared, c.thread i)
      turns ⟨r.1, Function.update c.thread i r.2⟩ rest

theorem turns_trace {cfg : BootConfig} (turn : List (BootCpu cfg × Nat)) (c : BootState cfg) :
    ∃ ls, Trace (BootStep cfg) c ls (turns c turn) := by
  induction turn generalizing c with
  | nil => exact ⟨[], .nil⟩
  | cons t turn ih =>
      obtain ⟨ls, h⟩ := soloRun_trace c t.1 t.2
      obtain ⟨ls', h'⟩ := ih _
      exact ⟨_, h.append h'⟩

def twoCpus : BootConfig where
  arch := .amd64
  midtableNumentries := 2
  shvOpt := 0
  nmiOpt := 0
  idtStubsHost k := 0x100000 + 16 * k.val
  idtStubsGuest k := 0x200000 + 16 * k.val

def twoCpusBsp : BootCpu twoCpus := ⟨0, by decide⟩

def twoCpusAp : BootCpu twoCpus := ⟨1, by decide⟩

/-- The AP has returned from `construct_idt` while the BSP is still in it. -/
def earlyReturn : BootState twoCpus :=
  turns (bootStart twoCpus) [(twoCpusBsp, 1), (twoCpusAp, 1), (twoCpusBsp, 10), (twoCpusAp, 9)]

theorem earlyReturn_thread :
    earlyReturn.thread twoCpusBsp = .host 4 ∧ earlyReturn.thread twoCpusAp = .mainWait := by
  decide +kernel

theorem earlyReturn_eflags :
    (turns earlyReturn [(twoCpusBsp, 516)]).thread twoCpusBsp = .eflags := by
  decide +kernel

/-- The gate of the system call, which the BSP writes after the AP has gone on to the barrier. -/
theorem sti_after_idt_complete_twoCpus : ∃ ls ls' c c',
    Trace (BootStep twoCpus) (bootStart twoCpus) ls earlyReturn ∧
      earlyReturn.thread twoCpusBsp = .host 4 ∧ earlyReturn.thread twoCpusAp = .mainWait ∧
      Trace (BootStep twoCpus) earlyReturn ls' c ∧ BootStep twoCpus c (twoCpusBsp, .sti) c' ∧
      c.shared.idtHost 0x23 = some
        { isrLow16 := 0x0230, isrSelector := 0x18, count := 0, type := 0xee, isrHigh16 := 0x10,
          isrHigh32 := 0, reservedZero := 0 } := by
  obtain ⟨ls, h⟩ : ∃ ls, Trace (BootStep twoCpus) (bootStart twoCpus) ls earlyReturn :=
    turns_trace ..
  obtain ⟨ls', h'⟩ := turns_trace [(twoCpusBsp, 516)] earlyReturn
  have hpc := earlyReturn_eflags
  generalize turns earlyReturn [(twoCpusBsp, 516)] = c at h' hpc
  have hs : BootStep twoCpus c (twoCpusBsp, .sti)
      ⟨c.shared, Function.update c.thread twoCpusBsp .running⟩ :=
    .mk (by rw [hpc]; rfl)
  exact ⟨ls, ls', c, _, h, earlyReturn_thread.1, earlyReturn_thread.2, h', hs,
    (sti_after_idt_complete twoCpus (h.append h') hs 0x23).1⟩

end Shv
