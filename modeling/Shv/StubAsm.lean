/-
# `Shv.StubAsm` — interrupts do not disturb the code they interrupt (`idt-asm.S`)

For each vector there is a stub in the host's IDT and one in the guest's.  It pushes an error code
unless the CPU has, and the vector, and `idt_stub_common` pushes the rest of `iret_info_t`, calls
`handle_idt` and goes back by the code of `Shv.IdtAsm`.

* `handle_idt_arguments`: in whatever state kernel code is interrupted, `handle_idt` gets the
  interrupted RIP and a pointer to an `iret_info_t` that describes this state, and memory is written
  below the interrupted stack only.
* `interrupt_transparent`: if `handle_idt` returns, with its `iret_info_t` as it was, the
  interrupted code goes on with all registers, segments and flags as they were.
* `xcph_recovers`: from an exception that `handle_idt` has no case for the code goes on at the target
  in `xcph_table`, exactly if there is one.

Code of user mode is interrupted with a change of stacks, and is not looked at.  `handle_idt` is C
code, and what is asked of it is what the C calling convention promises (`HandlerReturns`).
-/
import Shv.Idt
import Shv.IdtAsm
import Shv.Lib.WordList

namespace Shv

namespace IdtAsm

open RingMem

variable {arch : Arch}

/-! ## The machine -/

def pushWord (s : State arch) (v : BitVec arch.ptrBits) : State arch :=
  { s with
    mem := RingMem.store s.mem (slot s.sp (-1)) v
    gpr := Function.update s.gpr .sp (slot s.sp (-1)) }

@[simp] theorem pushWord_sp (s : State arch) (v : BitVec arch.ptrBits) :
    (pushWord s v).sp = slot s.sp (-1) := by
  simp [pushWord, State.sp]

/-- The low 16 bits of a register replaced. -/
def putLow16 (old : BitVec arch.ptrBits) (v : BitVec 16) : BitVec arch.ptrBits :=
  old >>> 16 <<< 16 ||| v.setWidth arch.ptrBits

def addFlags (old a b : BitVec arch.ptrBits) : BitVec arch.ptrBits :=
  let even := ((List.range 8).filter (a + b).getLsbD).length % 2 == 0
  let carry := decide (2 ^ arch.ptrBits ≤ a.toNat + b.toNat)
  let aux := decide (16 ≤ a.toNat % 16 + b.toNat % 16)
  let overflow := a.msb == b.msb && (a + b).msb != a.msb
  putFlag (putFlag (putFlag (putFlag (putFlag (putFlag old 0 carry) 2 even) 4 aux) 6 (a + b == 0))
    7 (a + b).msb) 11 overflow

/-- The instructions of the stubs. -/
inductive EntryInstr (arch : Arch) where
  /-- an instruction of `Shv.IdtAsm` -/
  | plain (i : Instr arch)
  /-- `push $v` -/
  | pushImm (v : BitVec arch.ptrBits)
  | pushal
  /-- `add $v, SIZE*disp(_SP)` -/
  | addMem (v : BitVec arch.ptrBits) (disp : Nat)
  /-- `xor _AX, _AX` -/
  | xorAx
  /-- `movw src, %ax` -/
  | movFromSeg (src : SegReg)
  /-- `movw $v, %ax` -/
  | movAx (v : BitVec 16)
  /-- `mov src, dst` -/
  | mov (src dst : Gpr arch)

/-- One instruction.  AF, which is undefined after `xor`, is kept. -/
def entryStep (s : State arch) : EntryInstr arch → State arch
  | .plain i => step s i
  | .pushImm v => pushWord s v
  | .pushal =>
      [s.gpr .ax, s.gpr .cx, s.gpr .dx, s.gpr .bx, s.gpr .sp, s.gpr .bp, s.gpr .si,
        s.gpr .di].foldl pushWord s
  | .addMem v disp =>
      { s with
        mem := RingMem.store s.mem (slot s.sp disp) (RingMem.load s.mem (slot s.sp disp) + v)
        flags := addFlags s.flags (RingMem.load s.mem (slot s.sp disp)) v }
  | .xorAx => { s with gpr := Function.update s.gpr .ax 0, flags := testFlags s.flags 0 }
  | .movFromSeg src =>
      { s with gpr := Function.update s.gpr .ax (putLow16 (s.gpr .ax) (s.seg src)) }
  | .movAx v => { s with gpr := Function.update s.gpr .ax (putLow16 (s.gpr .ax) v) }
  | .mov src dst => { s with gpr := Function.update s.gpr dst (s.gpr src) }

def entryRun (s : State arch) (code : List (EntryInstr arch)) : State arch :=
  code.foldl entryStep s

theorem entryRun_append (s : State arch) (code code' : List (EntryInstr arch)) :
    entryRun s (code ++ code') = entryRun (entryRun s code) code' :=
  List.foldl_append

theorem entryRun_singleton (s : State arch) (i : EntryInstr arch) :
    entryRun s [i] = entryStep s i := rfl

/-! ## The code -/

/-- `__DS`. -/
def dataSelector : BitVec 16 := 0x10

def ngprs : Arch → Nat
  | .i386 => 8
  | .amd64 => 16

def pushes (rs : List (Gpr arch)) : List (EntryInstr arch) := rs.map fun g => .plain (.push g)

/-- `PUSHA`: `pushal`, or `PUSHAQ`. -/
def pusha : (arch : Arch) → List (EntryInstr arch)
  | .i386 => [.pushal]
  | .amd64 => [.plain (.push .ax), .plain (.push .cx), .plain (.push .dx), .plain (.push .bx),
      .plain (.push .sp), .plain (.push .bp), .plain (.push .si), .plain (.push .di),
      .plain (.push .r8), .plain (.push .r9), .plain (.push .r10), .plain (.push .r11),
      .plain (.push .r12), .plain (.push .r13), .plain (.push .r14), .plain (.push .r15),
      .addMem (4 * 8) 11]

/-- `SET_ARG2(_SP)`, `SET_ARG1(_DI)` and `SET_STACKTOP(_DI)`. -/
def setArgs : (arch : Arch) → List (EntryInstr arch)
  | .i386 => [.plain (.push .sp), .plain (.push .di)]
  | .amd64 => [.mov .sp .si, .mov .di .di, .plain (.push .di)]

def saveSeg (src : SegReg) : List (EntryInstr arch) := [.movFromSeg src, .plain (.push .ax)]

/-- The general registers and the segment registers are saved. -/
def saveRegs (arch : Arch) : List (EntryInstr arch) :=
  pusha arch ++ ([.xorAx] ++ (saveSeg .gs ++ (saveSeg .fs ++ (saveSeg .es ++ saveSeg .ds))))

def loadSegs (arch : Arch) : List (EntryInstr arch) :=
  [.movAx dataSelector, .plain (.movSeg .ds), .plain (.movSeg .es), .plain (.movSeg .fs),
    .plain (.movSeg .gs)]

/-- The arguments of `handle_idt`. -/
def prepareArgs (arch : Arch) : List (EntryInstr arch) :=
  [.plain (.load (ngprs arch + 6) .sp .di)] ++ setArgs arch

/-- `idt_stub_common` up to the call of `handle_idt`. -/
def commonCode (arch : Arch) : List (EntryInstr arch) :=
  saveRegs arch ++ (loadSegs arch ++ prepareArgs arch)

/-- Whether a stub pushes an error code. -/
def pushesErrorCode (cur : Nat) : Bool :=
  cur != 0x08 && cur != 0x0a && cur != 0x0b && cur != 0x0c && cur != 0x0d && cur != 0x0e &&
    cur != 0x11

/-- What a stub pushes for the vector. -/
def vectorWord (guest : Bool) (cur : Nat) : BitVec arch.ptrBits :=
  if guest then BitVec.ofNat _ (0x100 + cur) else BitVec.ofNat _ cur

/-- The body of `idt_stub_host_` and `idt_stub_guest_`, up to the jump. -/
def stubCode (arch : Arch) (guest : Bool) (cur : Nat) : List (EntryInstr arch) :=
  (if pushesErrorCode cur then [.pushImm 0] else []) ++ [.pushImm (vectorWord guest cur)]

/-- From the stub to the call of `handle_idt`. -/
def stubEntry (guest : Bool) (cur : Nat) (s : State arch) : State arch :=
  entryRun s (stubCode arch guest cur ++ commonCode arch)

/-! ## The tables of stubs -/

/-- The `name` of a stub: how many `h` and how many `1` it consists of. -/
abbrev StubName := Nat × Nat

/-- The vectors and names in the order in which `def_stubs` defines and `ref_stubs` lists them: the
macros call themselves for the next vector of a row of 16, and after that for the next row. -/
def expandStubs : Nat → Nat → StubName → List (Nat × StubName)
  | 0, _, _ => []
  | fuel + 1, cur, name =>
      (cur, name) ::
        (if (cur + 1) % 16 ≠ 0 then expandStubs fuel (cur + 1) (name.1, name.2 + 1) else []) ++
        (if cur % 16 = 0 ∧ cur < 240 then expandStubs fuel (cur + 16) (name.1 + 1, name.2) else [])

/-- `g_idt_stubs_host`, respectively `g_idt_stubs_guest`: the names listed. -/
def refStubs : List StubName := (expandStubs 256 0 (0, 0)).map Prod.snd

/-- The vector of the stub with a name. -/
def defStub (name : StubName) : Option Nat :=
  ((expandStubs 256 0 (0, 0)).find? fun p => p.2 = name).map Prod.fst

theorem expandStubs_eq : expandStubs 256 0 (0, 0) =
    (List.range 256).map fun i => (i, (i / 16, i % 16)) := by
  decide +kernel

/-- **The stub at index `i` of the tables is the one for vector `i`.** -/
theorem defStub_refStubs {i : Nat} (hi : i < 256) : refStubs[i]?.bind defStub = some i := by
  have hname : refStubs[i]? = some (i / 16, i % 16) := by
    rw [refStubs, expandStubs_eq, List.map_map, List.getElem?_map,
      List.getElem?_range hi]
    rfl
  have hfind : (expandStubs 256 0 (0, 0)).find? (fun p => p.2 = (i / 16, i % 16)) =
      some (i, (i / 16, i % 16)) := by
    rw [expandStubs_eq, List.find?_eq_some_iff_getElem]
    refine ⟨by simp, i, by simpa using hi, by simp, fun j hj => ?_⟩
    have hne : ¬ j / 16 = i / 16 ∨ ¬ j % 16 = i % 16 := by omega
    simpa [Decidable.imp_iff_not_or] using hne
  rw [hname, Option.bind_some, defStub, hfind]
  rfl

/-! ## An interrupt -/

/-- `iret_info_t`.  i386 has neither `sp` nor `ss`. -/
structure IretInfo (arch : Arch) where
  ds : BitVec arch.ptrBits
  es : BitVec arch.ptrBits
  fs : BitVec arch.ptrBits
  gs : BitVec arch.ptrBits
  r : Regs arch
  vector : BitVec arch.ptrBits
  errorCode : BitVec arch.ptrBits
  ip : BitVec arch.ptrBits
  cs : BitVec arch.ptrBits
  flags : BitVec arch.ptrBits
  sp : BitVec arch.ptrBits
  ss : BitVec arch.ptrBits

/-- `struct regs`, in the order of its fields. -/
def regsOrder : (arch : Arch) → List (Gpr arch)
  | .i386 => [.di, .si, .bp, .sp, .bx, .dx, .cx, .ax]
  | .amd64 => [.r15, .r14, .r13, .r12, .r11, .r10, .r9, .r8, .di, .si, .bp, .sp, .bx, .dx, .cx, .ax]

/-- The part of an `iret_info_t` that the CPU pushes and IRET pops. -/
def IretInfo.frame : {arch : Arch} → IretInfo arch → List (BitVec arch.ptrBits)
  | .i386, info => [info.ip, info.cs, info.flags]
  | .amd64, info => [info.ip, info.cs, info.flags, info.sp, info.ss]

/-- The words of an `iret_info_t` in memory. -/
def IretInfo.words (info : IretInfo arch) : List (BitVec arch.ptrBits) :=
  [info.ds, info.es, info.fs, info.gs] ++ ((regsOrder arch).map info.r ++
    ([info.vector, info.errorCode] ++ info.frame))

/-- Exceptions with an error code, as far as the CPUs raise them: `#CP` needs CET. -/
def deliversErrorCode (vector : Nat) : Bool := [8, 10, 11, 12, 13, 14, 17].contains vector

/-- Where the CPU pushes the frame: amd64 aligns the stack to 16 bytes. -/
def frameBase : {arch : Arch} → State arch → BitVec arch.ptrBits
  | .i386, s => s.sp
  | .amd64, s => BitVec.and s.sp (~~~15#64)

def gateOffset (gate : IdtEntry) : BitVec arch.ptrBits :=
  (gate.isrHigh32 ++ gate.isrHigh16 ++ gate.isrLow16).setWidth arch.ptrBits

/-- What the CPU pushes; RF is `rf` in the saved flags. -/
def delivered (s : State arch) (vector : Nat) (rf : Bool) (errorCode : BitVec arch.ptrBits) :
    List (BitVec arch.ptrBits) :=
  (match arch with
    | .i386 => []
    | .amd64 => [(s.seg .ss).setWidth _, s.sp]) ++
  [putFlag s.flags 16 rf, (s.seg .cs).setWidth _, s.rip] ++
  (if deliversErrorCode vector then [errorCode] else [])

/-- An interrupt or exception through an interrupt gate, at privilege level 0: the frame is pushed,
and TF, IF, NT, RF and VM are cleared. -/
def deliver (s : State arch) (gate : IdtEntry) (vector : Nat) (rf : Bool)
    (errorCode : BitVec arch.ptrBits) : State arch :=
  { (delivered s vector rf errorCode).foldl pushWord
      { s with gpr := Function.update s.gpr .sp (frameBase s) } with
    rip := gateOffset gate
    seg := Function.update s.seg .cs gate.isrSelector
    flags := [8, 9, 14, 16, 17].foldl (fun flags i => putFlag flags i false) s.flags }

/-- The `iret_info_t` that describes an interrupted state.  Its `r.sp` points to its `vector`. -/
def infoOf (guest : Bool) (s : State arch) (vector : Nat) (rf : Bool)
    (errorCode : BitVec arch.ptrBits) : IretInfo arch where
  ds := (s.seg .ds).setWidth _
  es := (s.seg .es).setWidth _
  fs := (s.seg .fs).setWidth _
  gs := (s.seg .gs).setWidth _
  r := Function.update s.gpr .sp (slot (frameBase s) (match arch with | .i386 => -5 | .amd64 => -7))
  vector := vectorWord guest vector
  errorCode := if deliversErrorCode vector then errorCode else 0
  ip := s.rip
  cs := (s.seg .cs).setWidth _
  flags := putFlag s.flags 16 rf
  sp := s.sp
  ss := (s.seg .ss).setWidth _

/-- The kernel is running: the privilege level is 0 already, and the stack stays. -/
def KernelCode (s : State arch) : Prop :=
  s.seg .cs = codeSelector arch ∧ s.flags.getLsbD 17 = false

instance (s : State arch) : Decidable (KernelCode s) :=
  inferInstanceAs (Decidable (_ ∧ _))

/-- From the interrupted state to the call of `handle_idt`: the CPU takes the gate for the vector,
which leads to the stub at that index of the table.  Only interrupts of the kernel are described. -/
def interrupt (guest : Bool) (s : State arch) (stub : BitVec 64) (vector : Nat) (rf : Bool)
    (errorCode : BitVec arch.ptrBits) : Option (State arch) :=
  if KernelCode s then
    (refStubs[vector]?.bind defStub).map fun cur =>
      stubEntry guest cur (deliver s (constructIdtEntry arch vector stub) vector rf errorCode)
  else none

/-! ## The way in -/

/-- The first argument of a C function, where it is called. -/
def handlerIp : {arch : Arch} → State arch → BitVec arch.ptrBits
  | .i386, s => RingMem.load s.mem s.sp
  | .amd64, s => s.gpr .di

/-- The second argument. -/
def handlerInfo : {arch : Arch} → State arch → BitVec arch.ptrBits
  | .i386, s => RingMem.load s.mem (slot s.sp 1)
  | .amd64, s => s.gpr .si

/-- The segment registers `handle_idt` is called with. -/
def handlerSegs (sel : BitVec 16) (seg : SegReg → BitVec 16) : SegReg → BitVec 16
  | .cs => sel
  | .ss => seg .ss
  | _ => dataSelector

/-- The arguments on the stack, below which `iret_info_t` lies. -/
def stackArgs (s : State arch) (p : BitVec arch.ptrBits) : List (BitVec arch.ptrBits) :=
  match arch with
  | .i386 => [s.rip, p]
  | .amd64 => [s.rip]

/-- Where `iret_info_t` lies. -/
def infoAt (s : State arch) : BitVec arch.ptrBits :=
  slot (frameBase s) (match arch with | .i386 => -17 | .amd64 => -27)

/-- The flags that `PUSHAQ` and `xor` change. -/
def arithmeticFlags : List Nat := [0, 2, 4, 6, 7, 11]

/-- A state on the way in: `ws` has been put on the stack, the registers but for the stack pointer
are as in `gpr`, and the flags not changed by arithmetic as in `flags`. -/
structure Entering (m₀ : RingMem arch.ptrBits) (b : BitVec arch.ptrBits)
    (ws : List (BitVec arch.ptrBits)) (gpr : Regs arch) (seg : SegReg → BitVec 16)
    (flags : BitVec arch.ptrBits) (s : State arch) : Prop where
  pushed : Pushed 32 m₀ b ws s.mem s.sp
  gpr : ∀ g, g ≠ .sp → s.gpr g = gpr g
  seg : s.seg = seg
  flags : ∀ i, i ∉ arithmeticFlags → s.flags.getLsbD i = flags.getLsbD i

theorem words_fit (arch : Arch) : 32 * (arch.ptrBits / 8) ≤ 2 ^ arch.ptrBits := by
  cases arch <;> decide

namespace Entering

variable {m₀ : RingMem arch.ptrBits} {b : BitVec arch.ptrBits} {ws : List (BitVec arch.ptrBits)}
  {gpr : Regs arch} {seg : SegReg → BitVec 16} {flags : BitVec arch.ptrBits} {s : State arch}

theorem pushWord (h : Entering m₀ b ws gpr seg flags s) (hroom : ws.length < 32)
    (v : BitVec arch.ptrBits) : Entering m₀ b (v :: ws) gpr seg flags (pushWord s v) where
  pushed := by
    have hp := h.pushed.push (wordSize arch) (words_fit arch) hroom v
    rwa [pushWord_sp]
  gpr g hg := (Function.update_of_ne hg ..).trans (h.gpr g hg)
  seg := h.seg
  flags := h.flags

theorem pushWords (vs : List (BitVec arch.ptrBits)) (h : Entering m₀ b ws gpr seg flags s)
    (hroom : vs.length + ws.length ≤ 32) :
    Entering m₀ b (vs.reverse ++ ws) gpr seg flags (vs.foldl IdtAsm.pushWord s) := by
  induction vs generalizing ws s with
  | nil => exact h
  | cons v vs ih =>
      rw [List.length_cons] at hroom
      rw [List.reverse_cons, List.append_assoc, List.foldl_cons]
      refine ih (h.pushWord (by omega) v) ?_
      show vs.length + (ws.length + 1) ≤ 32
      omega

theorem push (h : Entering m₀ b ws gpr seg flags s) (hroom : ws.length < 32) {g : Gpr arch}
    (hg : g ≠ .sp) :
    Entering m₀ b (gpr g :: ws) gpr seg flags (entryStep s (.plain (.push g))) := by
  rw [← h.gpr g hg]
  exact h.pushWord hroom (s.gpr g)

theorem pushSp (h : Entering m₀ b ws gpr seg flags s) (hroom : ws.length < 32) :
    Entering m₀ b (slot b (-(ws.length : Int)) :: ws) gpr seg flags
      (entryStep s (.plain (.push .sp))) := by
  rw [← h.pushed.sp_eq]
  exact h.pushWord hroom s.sp

theorem pushRegs (rs : List (Gpr arch)) (h : Entering m₀ b ws gpr seg flags s)
    (hroom : rs.length + ws.length ≤ 32) (hrs : ∀ g ∈ rs, g ≠ .sp) :
    Entering m₀ b ((rs.map gpr).reverse ++ ws) gpr seg flags
      (entryRun s (pushes rs)) := by
  induction rs generalizing ws s with
  | nil => exact h
  | cons g rs ih =>
      rw [List.length_cons] at hroom
      have hpush := h.push (by omega) (hrs g List.mem_cons_self)
      have hrun := ih hpush (by rw [List.length_cons]; omega)
        fun u hu => hrs u (List.mem_cons_of_mem g hu)
      rw [List.map_cons, List.reverse_cons, List.append_assoc]
      exact hrun

theorem setGpr (h : Entering m₀ b ws gpr seg flags s) {g : Gpr arch} (hg : g ≠ .sp)
    (v : BitVec arch.ptrBits) : Entering m₀ b ws (Function.update gpr g v) seg flags
      { s with gpr := Function.update s.gpr g v } where
  pushed := by
    show Pushed 32 m₀ b ws s.mem (Function.update s.gpr g v .sp)
    rw [Function.update_of_ne hg.symm]
    exact h.pushed
  gpr u hu := by
    show Function.update s.gpr g v u = _
    by_cases hug : u = g
    · subst hug
      rw [Function.update_self, Function.update_self]
    · rw [Function.update_of_ne hug, Function.update_of_ne hug, h.gpr u hu]
  seg := h.seg
  flags := h.flags

theorem movSeg (h : Entering m₀ b ws gpr seg flags s) (dst : SegReg) :
    Entering m₀ b ws gpr (Function.update seg dst ((gpr .ax).setWidth 16)) flags
      (entryStep s (.plain (.movSeg dst))) where
  pushed := h.pushed
  gpr := h.gpr
  seg := by
    show Function.update s.seg dst ((s.gpr .ax).setWidth 16) = _
    rw [h.seg, h.gpr .ax (by simp)]
  flags := h.flags

theorem setFlags (h : Entering m₀ b ws gpr seg flags s) {new : BitVec arch.ptrBits}
    (hnew : ∀ i, i ∉ arithmeticFlags → new.getLsbD i = s.flags.getLsbD i) :
    Entering m₀ b ws gpr seg flags { s with flags := new } where
  pushed := h.pushed
  gpr := h.gpr
  seg := h.seg
  flags i hi := (hnew i hi).trans (h.flags i hi)

theorem xorAx (h : Entering m₀ b ws gpr seg flags s) :
    Entering m₀ b ws (Function.update gpr .ax 0) seg flags (entryStep s .xorAx) := by
  refine (h.setGpr (g := .ax) (by simp) 0).setFlags fun i hi => ?_
  simp only [arithmeticFlags, List.mem_cons, List.not_mem_nil, or_false, not_or] at hi
  simp [testFlags, getLsbD_putFlag, hi]

theorem addMem (h : Entering m₀ b ws gpr seg flags s) {d : Nat} (hd : d < ws.length)
    (v : BitVec arch.ptrBits) :
    Entering m₀ b (ws.set d (ws[d] + v)) gpr seg flags (entryStep s (.addMem v d)) := by
  have hset : Entering m₀ b (ws.set d (ws[d] + v)) gpr seg flags
      { s with mem := RingMem.store s.mem (slot s.sp d) (RingMem.load s.mem (slot s.sp d) + v) } :=
    { pushed := by
        rw [h.pushed.holds d hd]
        exact h.pushed.set (wordSize arch) (words_fit arch) hd _
      gpr := h.gpr
      seg := h.seg
      flags := h.flags }
  refine hset.setFlags fun i hi => ?_
  simp only [arithmeticFlags, List.mem_cons, List.not_mem_nil, or_false, not_or] at hi
  simp [addFlags, getLsbD_putFlag, hi]

theorem putLow16_setWidth (old : BitVec arch.ptrBits) (u v : BitVec 16)
    (hold : old = 0 ∨ old = u.setWidth _) : putLow16 old v = v.setWidth _ := by
  have hzero : old >>> 16 = 0 := by
    rcases hold with rfl | rfl
    · exact BitVec.zero_ushiftRight
    · apply BitVec.eq_of_getLsbD_eq
      intro i hi
      rw [BitVec.getLsbD_ushiftRight, BitVec.getLsbD_setWidth, BitVec.getLsbD_of_ge u _ (by omega)]
      simp
  rw [putLow16, hzero]
  simp

/-- A segment register is saved, with the upper bits 0 as AX holds a selector, or 0, before. -/
theorem saveSeg (h : Entering m₀ b ws gpr seg flags s) (hroom : ws.length < 32) (src : SegReg)
    {u : BitVec 16} (hax : gpr .ax = 0 ∨ gpr .ax = u.setWidth _) :
    Entering m₀ b ((seg src).setWidth _ :: ws)
      (Function.update gpr .ax ((seg src).setWidth _)) seg flags
      (entryRun s (IdtAsm.saveSeg src)) := by
  have hmov : Entering m₀ b ws (Function.update gpr .ax ((seg src).setWidth _)) seg flags
      (entryStep s (.movFromSeg src)) := by
    have hval : putLow16 (s.gpr .ax) (s.seg src) = (seg src).setWidth _ := by
      rw [h.gpr .ax (by simp), h.seg, putLow16_setWidth _ u _ hax]
    have hset := h.setGpr (g := .ax) (by simp) (putLow16 (s.gpr .ax) (s.seg src))
    rw [hval] at hset
    rw [entryStep, hval]
    exact hset
  have hpush := hmov.push hroom (g := .ax) (by simp)
  rwa [Function.update_self] at hpush

theorem movAx (h : Entering m₀ b ws gpr seg flags s) (v : BitVec 16) {u : BitVec 16}
    (hax : gpr .ax = u.setWidth _) :
    Entering m₀ b ws (Function.update gpr .ax (v.setWidth _)) seg flags
      (entryStep s (.movAx v)) := by
  have hval : putLow16 (s.gpr .ax) v = v.setWidth _ := by
    rw [h.gpr .ax (by simp), putLow16_setWidth _ u _ (.inr hax)]
  rw [entryStep, hval]
  exact h.setGpr (by simp) _

theorem movSel (h : Entering m₀ b ws gpr seg flags s) (dst : SegReg) {v : BitVec 16}
    (hax : gpr .ax = v.setWidth _) :
    Entering m₀ b ws gpr (Function.update seg dst v) flags
      (entryStep s (.plain (.movSeg dst))) := by
  have hv : (gpr .ax).setWidth 16 = v := by
    have hge := ptrBits_ge arch
    rw [hax, BitVec.setWidth_setWidth_of_le v (by omega), BitVec.setWidth_eq]
  rw [← hv]
  exact h.movSeg dst

theorem load (h : Entering m₀ b ws gpr seg flags s) {d : Nat} {v : BitVec arch.ptrBits}
    (hd : ws[d]? = some v) {g : Gpr arch} (hg : g ≠ .sp) :
    Entering m₀ b ws (Function.update gpr g v) seg flags
      (entryStep s (.plain (.load d .sp g))) := by
  rw [← h.pushed.holds.get hd]
  exact h.setGpr hg _

theorem mov (h : Entering m₀ b ws gpr seg flags s) {src g : Gpr arch} (hsrc : src ≠ .sp)
    (hg : g ≠ .sp) :
    Entering m₀ b ws (Function.update gpr g (gpr src)) seg flags (entryStep s (.mov src g)) := by
  rw [← h.gpr src hsrc]
  exact h.setGpr hg _

theorem movSp (h : Entering m₀ b ws gpr seg flags s) {g : Gpr arch} (hg : g ≠ .sp) :
    Entering m₀ b ws (Function.update gpr g (slot b (-(ws.length : Int)))) seg flags
      (entryStep s (.mov .sp g)) := by
  rw [← h.pushed.sp_eq]
  exact h.setGpr hg _

theorem slot_add (b : BitVec (Arch.ptrBits .amd64)) (k : Int) :
    slot b k + 4 * 8 = slot b (k + 4) := by
  have hadd : slot (slot b k) 4 = slot b k + 4 * 8 := rfl
  rw [← hadd, slot_slot]

/-- **`PUSHA`** leaves the registers on the stack as `struct regs`, with the stack pointer from
before it. -/
theorem pusha (h : Entering m₀ b ws gpr seg flags s) (hroom : ws.length + 16 ≤ 32) :
    Entering m₀ b ((regsOrder arch).map (Function.update gpr .sp (slot b (-(ws.length : Int)))) ++
      ws) gpr seg flags (entryRun s (pusha arch)) := by
  cases arch with
  | i386 =>
      have hrun := h.pushWords [s.gpr .ax, s.gpr .cx, s.gpr .dx, s.gpr .bx, s.gpr .sp, s.gpr .bp,
        s.gpr .si, s.gpr .di] (by simp only [List.length_cons, List.length_nil]; omega)
      have hsp : s.gpr .sp = slot b (-(ws.length : Int)) := h.pushed.sp_eq
      have hregs : (regsOrder .i386).map (Function.update gpr .sp (slot b (-(ws.length : Int)))) =
          [s.gpr .di, s.gpr .si, s.gpr .bp, s.gpr .sp, s.gpr .bx, s.gpr .dx, s.gpr .cx,
            s.gpr .ax] := by
        rw [h.gpr .ax (by simp), h.gpr .cx (by simp), h.gpr .dx (by simp), h.gpr .bx (by simp),
          hsp, h.gpr .bp (by simp), h.gpr .si (by simp), h.gpr .di (by simp)]
        simp [regsOrder]
      rw [hregs, IdtAsm.pusha, entryRun_singleton, entryStep]
      exact hrun
  | amd64 =>
      have hregs : (regsOrder .amd64).map (Function.update gpr .sp (slot b (-(ws.length : Int)))) =
          [gpr .r15, gpr .r14, gpr .r13, gpr .r12, gpr .r11, gpr .r10, gpr .r9, gpr .r8, gpr .di,
            gpr .si, gpr .bp, slot b (-(ws.length : Int)), gpr .bx, gpr .dx, gpr .cx, gpr .ax] := by
        simp [regsOrder]
      have h₁ := h.pushRegs [.ax, .cx, .dx, .bx]
        (by simp only [List.length_cons, List.length_nil]; omega) (by simp)
      have h₂ := h₁.pushSp (by simp; omega)
      have h₃ := h₂.pushRegs [.bp, .si, .di, .r8, .r9, .r10, .r11, .r12, .r13, .r14, .r15]
        (by simp; omega) (by simp)
      have h₄ := h₃.addMem (d := 11) (by simp) (4 * 8)
      have hadd : slot b (-((ws.length + 4 : Nat) : Int)) + 4 * 8 =
          slot b (-(ws.length : Int)) := by
        rw [slot_add]
        exact congrArg (slot b) (by omega)
      have hcode : IdtAsm.pusha .amd64 = pushes [.ax, .cx, .dx, .bx] ++
          ([.plain (.push .sp)] ++ (pushes [.bp, .si, .di, .r8, .r9, .r10, .r11, .r12, .r13, .r14,
            .r15] ++ [.addMem (4 * 8) 11])) := rfl
      rw [hregs, ← hadd, hcode, entryRun_append, entryRun_append, entryRun_append,
        entryRun_singleton, entryRun_singleton]
      exact h₄

end Entering

theorem pushesErrorCode_eq (cur : Nat) : pushesErrorCode cur = !deliversErrorCode cur := by
  simp only [pushesErrorCode, deliversErrorCode, List.contains_cons, List.contains_nil, bne,
    Bool.not_or, Bool.or_false, Bool.and_assoc]

section Arguments

variable (s : State arch) (gate : IdtEntry) (vector : Nat) (rf : Bool)
  (errorCode : BitVec arch.ptrBits) (guest : Bool)

theorem entering_deliver :
    Entering s.mem (frameBase s) (delivered s vector rf errorCode).reverse s.gpr
      (Function.update s.seg .cs gate.isrSelector) (deliver s gate vector rf errorCode).flags
      (deliver s gate vector rf errorCode) := by
  have hstart : Entering s.mem (frameBase s) [] s.gpr s.seg s.flags
      { s with gpr := Function.update s.gpr .sp (frameBase s) } :=
    { pushed := by
        show Pushed 32 s.mem (frameBase s) [] s.mem (Function.update s.gpr .sp (frameBase s) .sp)
        rw [Function.update_self]
        exact .nil 32 s.mem (frameBase s)
      gpr := fun g hg => Function.update_of_ne hg ..
      seg := rfl
      flags := fun _ _ => rfl }
  have hlen : (delivered s vector rf errorCode).length ≤ 32 := by
    cases arch <;> simp only [delivered] <;> split <;> simp
  have hrun := hstart.pushWords (delivered s vector rf errorCode) hlen
  rw [List.append_nil] at hrun
  exact ⟨hrun.pushed, hrun.gpr, rfl, fun _ _ => rfl⟩

/-- What is on the stack when the stub jumps to `idt_stub_common`: with or without an error code
from the CPU the vector is on top of an error code, and that on the frame. -/
theorem entering_stub :
    Entering s.mem (frameBase s)
      ([vectorWord guest vector, (infoOf guest s vector rf errorCode).errorCode] ++
        (infoOf guest s vector rf errorCode).frame) s.gpr
      (Function.update s.seg .cs gate.isrSelector) (deliver s gate vector rf errorCode).flags
      (entryRun (deliver s gate vector rf errorCode) (stubCode arch guest vector)) := by
  have hdel := entering_deliver s gate vector rf errorCode
  have hframe : (delivered s vector rf errorCode).reverse =
      (if deliversErrorCode vector then [errorCode] else []) ++
        (infoOf guest s vector rf errorCode).frame := by
    cases arch <;> simp only [delivered, infoOf, IretInfo.frame] <;> split <;> rfl
  have hlen : (infoOf guest s vector rf errorCode).frame.length ≤ 5 := by
    cases arch <;> simp [IretInfo.frame]
  rw [hframe] at hdel
  rw [stubCode, entryRun_append, entryRun_singleton, pushesErrorCode_eq]
  cases hcode : deliversErrorCode vector with
  | true =>
      rw [hcode, if_pos rfl] at hdel
      have herr : (infoOf guest s vector rf errorCode).errorCode = errorCode := by
        simp only [infoOf, hcode, if_true]
      rw [herr]
      exact hdel.pushWord (by rw [List.length_append, List.length_singleton]; omega) _
  | false =>
      rw [hcode, if_neg Bool.false_ne_true, List.nil_append] at hdel
      have herr : (infoOf guest s vector rf errorCode).errorCode = 0 := by
        simp only [infoOf, hcode, Bool.false_eq_true, if_false]
      rw [herr]
      exact (hdel.pushWord (by omega) 0).pushWord (by rw [List.length_cons]; omega) _

theorem entering_common :
    ∃ gpr, Entering s.mem (frameBase s) (infoOf guest s vector rf errorCode).words gpr
      (handlerSegs gate.isrSelector s.seg) (deliver s gate vector rf errorCode).flags
      (entryRun (entryRun (deliver s gate vector rf errorCode)
        (stubCode arch guest vector ++ saveRegs arch)) (loadSegs arch)) := by
  have h₀ := entering_stub s gate vector rf errorCode guest
  have hlen : (infoOf guest s vector rf errorCode).frame.length ≤ 5 := by
    cases arch <;> simp [IretInfo.frame]
  have hregs : (regsOrder arch).length ≤ 16 := by
    cases arch <;> simp [regsOrder]
  have hr : Function.update s.gpr .sp (slot (frameBase s) (-((([vectorWord guest vector,
      (infoOf guest s vector rf errorCode).errorCode] ++
      (infoOf guest s vector rf errorCode).frame).length : Nat) : Int))) =
      (infoOf guest s vector rf errorCode).r := by
    cases arch <;> rfl
  have hlen₁ : ((regsOrder arch).map (infoOf guest s vector rf errorCode).r ++
      ([vectorWord guest vector, (infoOf guest s vector rf errorCode).errorCode] ++
        (infoOf guest s vector rf errorCode).frame)).length ≤ 23 := by
    simp only [List.length_append, List.length_map, List.length_cons, List.length_nil]
    omega
  have h₁ := h₀.pusha (by
    simp only [List.length_append, List.length_cons, List.length_nil]
    omega)
  rw [hr] at h₁
  have h₂ := h₁.xorAx.saveSeg (by omega) .gs (u := 0) (.inl (Function.update_self ..))
  have h₃ := h₂.saveSeg (by rw [List.length_cons]; omega) .fs (.inr (Function.update_self ..))
  have h₄ := h₃.saveSeg (by simp only [List.length_cons]; omega) .es
    (.inr (Function.update_self ..))
  have h₅ := h₄.saveSeg (by simp only [List.length_cons]; omega) .ds
    (.inr (Function.update_self ..))
  have h₆ := h₅.movAx dataSelector (Function.update_self ..)
  have h₇ := (((h₆.movSel .ds (Function.update_self ..)).movSel .es
    (Function.update_self ..)).movSel .fs (Function.update_self ..)).movSel .gs
    (Function.update_self ..)
  have hseg : Function.update (Function.update (Function.update (Function.update (Function.update
      s.seg .cs gate.isrSelector) .ds dataSelector) .es dataSelector) .fs dataSelector) .gs
      dataSelector = handlerSegs gate.isrSelector s.seg := by
    funext r
    cases r <;> simp [handlerSegs]
  rw [hseg] at h₇
  rw [Function.update_of_ne (by simp), Function.update_of_ne (by simp),
    Function.update_of_ne (by simp), Function.update_of_ne (by simp)] at h₇
  rw [entryRun_append, saveRegs, entryRun_append, entryRun_append, entryRun_append,
    entryRun_append, entryRun_append, entryRun_singleton]
  exact ⟨_, h₇⟩

theorem entering_handler :
    ∃ gpr, Entering s.mem (frameBase s)
      (stackArgs s (infoAt s) ++ (infoOf guest s vector rf errorCode).words) gpr
      (handlerSegs gate.isrSelector s.seg) (deliver s gate vector rf errorCode).flags
      (stubEntry guest vector (deliver s gate vector rf errorCode)) ∧
    handlerIp (stubEntry guest vector (deliver s gate vector rf errorCode)) = s.rip ∧
    handlerInfo (stubEntry guest vector (deliver s gate vector rf errorCode)) = infoAt s := by
  obtain ⟨gpr, h⟩ := entering_common s gate vector rf errorCode guest
  have hip : (infoOf guest s vector rf errorCode).words[ngprs arch + 6]? = some s.rip := by
    cases arch <;> rfl
  have hload := h.load hip (g := .di) (by simp)
  rw [stubEntry, commonCode, ← List.append_assoc, entryRun_append, entryRun_append, prepareArgs,
    entryRun_append, entryRun_singleton]
  cases arch with
  | i386 =>
      have hsp := hload.pushSp (show (17 : Nat) < 32 by omega)
      have hdi := hsp.push (show (18 : Nat) < 32 by omega) (g := .di) (by simp)
      rw [Function.update_self] at hdi
      exact ⟨_, hdi, hdi.pushed.holds.head, hdi.pushed.holds.get (d := 1) rfl⟩
  | amd64 =>
      have hsi := hload.movSp (g := .si) (by simp)
      have hdi := hsi.mov (show (Gpr.di : Gpr .amd64) ≠ .sp by simp) (g := .di) (by simp)
      have hval : ∀ v, Function.update (Function.update gpr .di s.rip) .si v .di = s.rip := by
        intro v
        rw [Function.update_of_ne (by simp), Function.update_self]
      rw [hval] at hdi
      have hpush := hdi.push (show (27 : Nat) < 32 by omega) (g := .di) (by simp)
      rw [Function.update_self] at hpush
      refine ⟨_, hpush, (hpush.gpr .di (by simp)).trans (Function.update_self ..),
        (hpush.gpr .si (by simp)).trans ?_⟩
      rw [Function.update_of_ne (by simp)]
      exact Function.update_self ..

end Arguments

/-- `handle_idt` gets `vector` and `guest` out of the word the stub pushed. -/
theorem vectorWord_spec (guest : Bool) {vector : Nat} (hv : vector < 256) :
    (vectorWord guest vector : BitVec arch.ptrBits).getLsbD 8 = guest ∧
    (vectorWord guest vector : BitVec arch.ptrBits).setWidth 8 = BitVec.ofNat 8 vector := by
  have hall : ∀ v < 256, (∀ w ∈ [32, 64], ((BitVec.ofNat w (0x100 + v)).getLsbD 8 = true ∧
      (BitVec.ofNat w (0x100 + v)).setWidth 8 = BitVec.ofNat 8 v) ∧
      (BitVec.ofNat w v).getLsbD 8 = false ∧
      (BitVec.ofNat w v).setWidth 8 = BitVec.ofNat 8 v) := by
    decide +kernel
  have h := hall vector hv arch.ptrBits (by cases arch <;> simp [Arch.ptrBits])
  cases guest
  · exact h.2
  · exact h.1

theorem interrupt_eq {s : State arch} (hs : KernelCode s) (stub : BitVec 64) {vector : Nat}
    (hv : vector < 256) (rf : Bool) (errorCode : BitVec arch.ptrBits) (guest : Bool) :
    interrupt guest s stub vector rf errorCode = some (stubEntry guest vector
      (deliver s (constructIdtEntry arch vector stub) vector rf errorCode)) := by
  rw [interrupt, if_pos hs, defStub_refStubs hv]
  rfl

theorem kernelCode_of_interrupt {s e : State arch} {stub : BitVec 64} {vector : Nat} {rf : Bool}
    {errorCode : BitVec arch.ptrBits} {guest : Bool}
    (he : interrupt guest s stub vector rf errorCode = some e) : KernelCode s := by
  by_contra hs
  rw [interrupt, if_neg hs] at he
  cases he

theorem interrupt_entering {s e : State arch} {stub : BitVec 64} {vector : Nat} {rf : Bool}
    {errorCode : BitVec arch.ptrBits} {guest : Bool} (hv : vector < 256)
    (he : interrupt guest s stub vector rf errorCode = some e) :
    ∃ gpr, Entering s.mem (frameBase s)
      (stackArgs s (infoAt s) ++ (infoOf guest s vector rf errorCode).words) gpr
      (handlerSegs (codeSelector arch) s.seg)
      (deliver s (constructIdtEntry arch vector stub) vector rf errorCode).flags e ∧
    handlerIp e = s.rip ∧ handlerInfo e = infoAt s := by
  rw [interrupt_eq (kernelCode_of_interrupt he) stub hv] at he
  obtain rfl := Option.some.inj he
  exact entering_handler s (constructIdtEntry arch vector stub) vector rf errorCode guest

/-- `handle_idt` is given an `iret_info_t` that describes the interrupted state. -/
theorem interrupt_info {s e : State arch} {stub : BitVec 64} {vector : Nat} {rf : Bool}
    {errorCode : BitVec arch.ptrBits} {guest : Bool} (hv : vector < 256)
    (he : interrupt guest s stub vector rf errorCode = some e) :
    WordsAt e.mem (handlerInfo e) (infoOf guest s vector rf errorCode).words := by
  obtain ⟨gpr, h, -, hinfo⟩ := interrupt_entering hv he
  have hholds := h.pushed.holds.drop
  rw [h.pushed.sp_eq, slot_slot] at hholds
  have hat : slot (frameBase s) (-(((stackArgs s (infoAt s) ++
      (infoOf guest s vector rf errorCode).words).length : Nat) : Int) +
      ((stackArgs s (infoAt s)).length : Nat)) = infoAt s := by
    cases arch <;> rfl
  rw [hinfo]
  rwa [hat] at hholds

/-- **The arguments of `handle_idt`.**  In whatever state kernel code is interrupted, by whatever
vector, `handle_idt` is called with the interrupted RIP and a pointer to an `iret_info_t` that
describes this state, with the data segments of the kernel and with interrupts off.  Memory is only
written in the 32 words below the stack the frame is pushed on. -/
theorem handle_idt_arguments (s : State arch) (hcs : s.seg .cs = codeSelector arch)
    (hvm : s.flags.getLsbD 17 = false) (stub : BitVec 64) {vector : Nat} (hv : vector < 256)
    (rf : Bool) (errorCode : BitVec arch.ptrBits) (guest : Bool) :
    ∃ e, interrupt guest s stub vector rf errorCode = some e ∧ handlerIp e = s.rip ∧
      WordsAt e.mem (handlerInfo e) (infoOf guest s vector rf errorCode).words ∧
      (infoOf guest s vector rf errorCode).vector.getLsbD 8 = guest ∧
      (infoOf guest s vector rf errorCode).vector.setWidth 8 = BitVec.ofNat 8 vector ∧
      e.seg = handlerSegs (codeSelector arch) s.seg ∧ e.flags.getLsbD 9 = false ∧
      ∀ a, 32 * (arch.ptrBits / 8) ≤ (a - slot (frameBase s) (-32)).toNat → e.mem a = s.mem a := by
  have he := interrupt_eq ⟨hcs, hvm⟩ stub hv rf errorCode guest
  obtain ⟨gpr, h, hip, -⟩ := interrupt_entering hv he
  refine ⟨_, he, hip, interrupt_info hv he, (vectorWord_spec guest hv).1,
    (vectorWord_spec guest hv).2, h.seg, ?_, h.pushed.outside⟩
  rw [h.flags 9 (by decide)]
  simp [deliver, getLsbD_putFlag]

/-- Kernel code whose stack pointer is not on a multiple of 16. -/
def kernelState : State .amd64 where
  gpr g := if g = .sp then 0x1008#64 else 7#64
  rip := 0x200000#64
  flags := 0x202#64
  seg r := if r = .cs then 0x18#16 else 0x10#16
  mem _ := 0

/-- A timer interrupt. -/
theorem handle_idt_arguments_sample :
    ∃ e, interrupt true kernelState 0x300000#64 0x20 false 0 = some e ∧
      handlerIp e = 0x200000#64 ∧
      WordsAt e.mem (handlerInfo e) (infoOf true kernelState 0x20 false 0).words := by
  obtain ⟨e, he, hip, hinfo, -⟩ := handle_idt_arguments kernelState rfl (by decide) 0x300000#64
    (show 0x20 < 256 by decide) false 0 true
  exact ⟨e, he, hip, hinfo⟩

/-! ## The way back -/

/-- What the C calling convention promises of `handle_idt`, called in `e` and back in `t`: the stack
pointer and the segment registers are as they were, and only flags that `iret` loads have changed,
without NT.  It may have changed its `iret_info_t`, which is `info` then. -/
structure HandlerReturns (e t : State arch) (info : IretInfo arch) : Prop where
  sp : t.sp = e.sp
  info : WordsAt t.mem (handlerInfo e) info.words
  seg : t.seg = e.seg
  flags : ∀ i, i = 14 ∨ (iretMask arch).getLsbD i = false → t.flags.getLsbD i = e.flags.getLsbD i

theorem handlerReturns_of {e : State arch} {info : IretInfo arch} (v : BitVec arch.ptrBits)
    {m : RingMem arch.ptrBits} (h : WordsAt m (handlerInfo e) info.words) :
    HandlerReturns e { e with gpr := Function.update e.gpr .ax v, mem := m } info where
  sp := by simp [State.sp]
  info := h
  seg := rfl
  flags _ _ := rfl

/-- A state on the way back from `t`: the stack pointer is `k` words above `b`, with `ws` there. -/
structure Leaving (t : State arch) (b : BitVec arch.ptrBits) (k : Int)
    (ws : List (BitVec arch.ptrBits)) (r : Regs arch) (seg : SegReg → BitVec 16)
    (s : State arch) : Prop where
  mem : s.mem = t.mem
  flags : s.flags = t.flags
  sp : s.sp = slot b k
  holds : WordsAt t.mem (slot b k) ws
  gpr : ∀ g, g ≠ .sp → s.gpr g = r g
  seg : s.seg = seg

theorem run_append (s : State arch) (code code' : List (Instr arch)) :
    run s (code ++ code') = run (run s code) code' :=
  List.foldl_append

namespace Leaving

variable {t s : State arch} {b v : BitVec arch.ptrBits} {k : Int}
  {ws : List (BitVec arch.ptrBits)} {r : Regs arch} {seg : SegReg → BitVec 16}

theorem pop (h : Leaving t b k (v :: ws) r seg s) {g : Gpr arch} (hg : g ≠ .sp) :
    Leaving t b (k + 1) ws (Function.update r g v) seg (step s (.pop g)) where
  mem := h.mem
  flags := h.flags
  sp := by
    rw [State.sp, step_pop_gpr, Function.update_of_ne hg.symm, Function.update_self, h.sp,
      slot_slot]
  holds := by
    have htail := h.holds.tail
    rwa [slot_slot] at htail
  gpr u hu := by
    rw [step_pop_gpr, h.mem, h.sp, h.holds.head]
    by_cases hug : u = g
    · subst hug
      rw [Function.update_self, Function.update_self]
    · rw [Function.update_of_ne hug, Function.update_of_ne hu, Function.update_of_ne hug,
        h.gpr u hu]
  seg := h.seg

theorem popSeg (h : Leaving t b k (v :: ws) r seg s) (dst : SegReg) :
    Leaving t b (k + 1) ws (Function.update r .ax v) (Function.update seg dst (v.setWidth 16))
      (run s [.pop .ax, .movSeg dst]) := by
  have hpop := h.pop (g := .ax) (by simp)
  have hax : (step s (.pop .ax)).gpr .ax = v := by
    rw [hpop.gpr .ax (by simp), Function.update_self]
  exact ⟨hpop.mem, hpop.flags, hpop.sp, hpop.holds, hpop.gpr, by
    show Function.update (step s (.pop .ax)).seg dst (((step s (.pop .ax)).gpr .ax).setWidth 16) = _
    rw [hax, hpop.seg]⟩

theorem pops (rs : List (Gpr arch)) (f : Regs arch)
    (h : Leaving t b k (rs.map f ++ ws) r seg s) (hrs : ∀ g ∈ rs, g ≠ .sp) :
    Leaving t b (k + rs.length) ws (fun g => if g ∈ rs then f g else r g) seg
      (run s (rs.map .pop)) := by
  induction rs generalizing k r s with
  | nil =>
      rw [List.length_nil, Int.natCast_zero, Int.add_zero]
      exact ⟨h.mem, h.flags, h.sp, h.holds,
        fun g hg => (h.gpr g hg).trans (if_neg List.not_mem_nil).symm, h.seg⟩
  | cons g rs ih =>
      have hrun := ih (h.pop (hrs g List.mem_cons_self)) fun u hu =>
        hrs u (List.mem_cons_of_mem g hu)
      have hk : k + 1 + (rs.length : Int) = k + ((g :: rs).length : Nat) := by
        rw [List.length_cons]
        omega
      rw [hk] at hrun
      refine ⟨hrun.mem, hrun.flags, hrun.sp, hrun.holds, fun u hu => ?_, hrun.seg⟩
      refine (hrun.gpr u hu).trans ?_
      by_cases hmem : u ∈ rs
      · rw [if_pos hmem, if_pos (List.mem_cons_of_mem g hmem)]
      · rw [if_neg hmem]
        by_cases hug : u = g
        · subst hug
          rw [Function.update_self, if_pos List.mem_cons_self]
        · rw [Function.update_of_ne hug, if_neg (by simp [hug, hmem])]

theorem skip (us : List (BitVec arch.ptrBits)) (h : Leaving t b k (us ++ ws) r seg s) :
    Leaving t b (k + us.length) ws r seg (step s (.lea us.length .sp .sp)) where
  mem := h.mem
  flags := h.flags
  sp := by
    rw [State.sp, step_lea_gpr, Function.update_self, ← State.sp, h.sp, slot_slot]
  holds := by
    have hdrop := h.holds.drop
    rwa [slot_slot] at hdrop
  gpr u hu := by
    rw [step_lea_gpr, Function.update_of_ne hu, h.gpr u hu]
  seg := h.seg

/-- **`POPA`** restores the registers from a `struct regs`, the stack pointer apart. -/
theorem popa {f : Regs arch} (h : Leaving t b k ((regsOrder arch).map f ++ ws) r seg s) :
    ∃ r', (∀ g, g ≠ .sp → r' g = f g) ∧
      Leaving t b (k + ngprs arch) ws r' seg (run s (popa arch)) := by
  obtain ⟨below, above, horder, hcode, hall⟩ : ∃ below above : List (Gpr arch),
      regsOrder arch = below ++ (.sp :: above) ∧
      IdtAsm.popa arch = below.map .pop ++ (.lea (1 : Nat) .sp .sp :: above.map .pop) ∧
      ∀ g, g ≠ .sp ↔ g ∈ below ∨ g ∈ above := by
    cases arch with
    | i386 =>
        refine ⟨[.di, .si, .bp], [.bx, .dx, .cx, .ax], rfl, rfl, fun g => ?_⟩
        cases g <;> simp
    | amd64 =>
        refine ⟨[.r15, .r14, .r13, .r12, .r11, .r10, .r9, .r8, .di, .si, .bp],
          [.bx, .dx, .cx, .ax], rfl, rfl, fun g => ?_⟩
        cases g <;> simp
  have hlen : below.length + 1 + above.length = ngprs arch := by
    have hord : (regsOrder arch).length = ngprs arch := by cases arch <;> rfl
    rw [← hord, horder, List.length_append, List.length_cons]
    omega
  rw [horder, List.map_append, List.append_assoc] at h
  have h₁ := h.pops below f fun g hg => (hall g).mpr (.inl hg)
  have h₂ := h₁.skip [f .sp]
  have h₃ := h₂.pops above f fun g hg => (hall g).mpr (.inr hg)
  refine ⟨fun g => if g ∈ above then f g else if g ∈ below then f g else r g, ?_, ?_⟩
  · intro g hg
    by_cases hin : g ∈ above
    · exact if_pos hin
    · refine (if_neg hin).trans (if_pos ?_)
      exact ((hall g).mp hg).resolve_right hin
  · have hk : k + (below.length : Nat) + ([f .sp].length : Nat) + (above.length : Nat) =
        k + (ngprs arch : Nat) := by
      rw [← hlen, List.length_singleton]
      omega
    rw [hcode, run_append, run_cons, ← hk]
    exact h₃

end Leaving

/-- The segment registers `idt_stub_common` restores. -/
def restoredSegs (info : IretInfo arch) (seg : SegReg → BitVec 16) : SegReg → BitVec 16
  | .ds => info.ds.setWidth 16
  | .es => info.es.setWidth 16
  | .fs => info.fs.setWidth 16
  | .gs => info.gs.setWidth 16
  | r => seg r

/-- **The way back up to the jump**: everything but the frame is restored from `iret_info_t`. -/
theorem leaving_restore (t : State arch) (info : IretInfo arch)
    (h : WordsAt t.mem (slot t.sp (unsetArgs arch)) info.words) :
    ∃ r, (∀ g, g ≠ .sp → r g = info.r g) ∧
      Leaving (step t .testEax) t.sp (unsetArgs arch + 4 + ngprs arch + 2) info.frame r
        (restoredSegs info t.seg) (run t (restoreCode arch)) := by
  have h₀ : Leaving (step t .testEax) t.sp (unsetArgs arch) info.words t.gpr t.seg
      (step (step t .testEax) (.lea (unsetArgs arch) .sp .sp)) :=
    { mem := rfl
      flags := rfl
      sp := by
        rw [State.sp, step_lea_gpr, Function.update_self]
        rfl
      holds := h
      gpr := fun g hg => by
        rw [step_lea_gpr, Function.update_of_ne hg]
        rfl
      seg := rfl }
  have h₁ := (((h₀.popSeg .ds).popSeg .es).popSeg .fs).popSeg .gs
  obtain ⟨r, hr, h₂⟩ := h₁.popa
  have h₃ := h₂.skip [info.vector, info.errorCode]
  have hseg : Function.update (Function.update (Function.update (Function.update t.seg .ds
      (info.ds.setWidth 16)) .es (info.es.setWidth 16)) .fs (info.fs.setWidth 16)) .gs
      (info.gs.setWidth 16) = restoredSegs info t.seg := by
    funext sr
    cases sr <;> simp [restoredSegs]
  have hk : unsetArgs arch + 1 + 1 + 1 + 1 + (ngprs arch : Nat) +
      ([info.vector, info.errorCode].length : Nat) =
      unsetArgs arch + 4 + (ngprs arch : Nat) + 2 := by
    rw [List.length_cons, List.length_singleton]
    omega
  rw [hseg, hk] at h₃
  refine ⟨r, hr, ?_⟩
  have hcode : run t (restoreCode arch) = step (run (run (run (run (run (step (step t .testEax)
      (.lea (unsetArgs arch) .sp .sp)) [.pop .ax, .movSeg .ds]) [.pop .ax, .movSeg .es])
      [.pop .ax, .movSeg .fs]) [.pop .ax, .movSeg .gs]) (popa arch)) (.lea 2 .sp .sp) := by
    rw [restoreCode, restoreRegs, run_cons, run_append, run_append]
    rfl
  rw [hcode]
  exact h₃

/-! ## Recovery from exceptions -/

/-- Three words of `xcph_table`. -/
structure XcphEntry (arch : Arch) where
  vector : BitVec arch.ptrBits
  ip : BitVec arch.ptrBits
  target : BitVec arch.ptrBits
  deriving DecidableEq

/-- The default case of `handle_idt`: the first entry of `xcph_table` for the exception gives the
new `info->ip`.  Without one the CPU halts. -/
def xcphSearch (table : List (XcphEntry arch)) (info : IretInfo arch) : Option (IretInfo arch) :=
  let vector := info.vector.setWidth 8
  let exceptionIp := info.ip
  (table.find? fun i => i.vector = vector.setWidth _ ∧ i.ip = exceptionIp).map fun i =>
    { info with ip := i.target }

/-- The vectors that `handle_idt` has a case for. -/
def caseVectors : List (BitVec 8) := [0x02, 0x20, 0x21, 0x22, 0x23, 0x27, 0x2c, 0x54]

/-- What of `handle_idt` is the same in all of its calls. -/
structure IdtEnv (arch : Arch) where
  /-- `g_nmi_opt & SHV_NMI_ENABLE` -/
  nmiEnable : Bool
  /-- `vcpu->idx` -/
  idx : Nat
  /-- `cpuid_ecx(1, 0) & (1U << 5)` -/
  cpuidVmx : Bool
  /-- `xcph_table` -/
  table : List (XcphEntry arch)
  /-- the handlers called in the cases -/
  handler : BitVec 8 → IretInfo arch → Option (IretInfo arch)

/-- `handle_idt`: `info` as it leaves it, and the return value. -/
def handleIdt (env : IdtEnv arch) (ip : BitVec arch.ptrBits) (info : IretInfo arch) :
    Option (IretInfo arch × BitVec 32) := do
  let vector := info.vector.setWidth 8
  let guest := info.vector.getLsbD 8
  cAssert (ip = info.ip)
  -- with `SHV_NMI_ENABLE` there should be as few VM exits as possible
  if !env.nmiEnable then
    cAssert (guest = !env.cpuidVmx)
  let info ← if vector ∈ caseVectors then env.handler vector info else xcphSearch env.table info
  if env.nmiEnable then
    if env.idx = 1 ∧ (vector = 0x02 ∨ vector = 0x21 ∨ vector = 0x54) then
      return (info, 1)
  return (info, 0)

/-! ## There and back -/

/-- Where the stack pointer is after the frame: i386 has no other than the end of it. -/
def returnSp (s : State arch) (info : IretInfo arch) : BitVec arch.ptrBits :=
  match arch with
  | .i386 => frameBase s
  | .amd64 => info.sp

/-- The state that an `iret_info_t` describes, as code interrupted in `s` is gone on with; the flags
in `lost` apart. -/
structure Resumes (s : State arch) (info : IretInfo arch) (lost : List Nat) (u : State arch) :
    Prop where
  rip : u.rip = info.ip
  gpr : ∀ g, g ≠ .sp → u.gpr g = info.r g
  sp : u.sp = returnSp s info
  seg : u.seg = restoredSegs info (handlerSegs (codeSelector arch) s.seg)
  flags : ∀ i, i ∉ lost → u.flags.getLsbD i =
    if (iretMask arch).getLsbD i then info.flags.getLsbD i else s.flags.getLsbD i

/-- `handle_idt` leaves the selectors of the frame, and VM, as `iret` needs them to stay at
privilege level 0. -/
structure KeepsMode (s : State arch) (info : IretInfo arch) : Prop where
  cs : info.cs.setWidth 16 = codeSelector arch
  ss : arch = .amd64 → info.ss.setWidth 16 = s.seg .ss
  vm : info.flags.getLsbD 17 = false

section Return

variable {s e t : State arch} {stub : BitVec 64} {vector : Nat} {rf : Bool}
  {errorCode : BitVec arch.ptrBits} {guest : Bool} {info : IretInfo arch}

theorem interrupt_spec (hv : vector < 256)
    (he : interrupt guest s stub vector rf errorCode = some e) :
    handlerInfo e = infoAt s ∧ slot e.sp (unsetArgs arch) = infoAt s ∧
    e.seg = handlerSegs (codeSelector arch) s.seg ∧
    ∀ i, i ∉ arithmeticFlags → e.flags.getLsbD i =
      if i ∈ [8, 9, 14, 16, 17] then false else s.flags.getLsbD i := by
  obtain ⟨gpr, h, -, hinfo⟩ := interrupt_entering hv he
  refine ⟨hinfo, ?_, h.seg, fun i hi => ?_⟩
  · rw [h.pushed.sp_eq, slot_slot]
    cases arch <;> rfl
  · rw [h.flags i hi]
    simp only [deliver, List.foldl_cons, List.foldl_nil]
    rw [getLsbD_putFlag _ (by omega), getLsbD_putFlag _ (by omega), getLsbD_putFlag _ (by omega),
      getLsbD_putFlag _ (by omega), getLsbD_putFlag _ (by omega)]
    simp only [List.mem_cons, List.not_mem_nil, or_false]
    split_ifs <;> first | rfl | omega

theorem mask_arithmetic {i : Nat} (hi : (iretMask arch).getLsbD i = false)
    (hlt : i < arch.ptrBits) : i ∉ arithmeticFlags ∧ i ∉ [8, 9, 14, 16] := by
  have hall : ∀ i < 64, (BitVec.ofNat 64 0x3d7fd5).getLsbD i = false →
      i ∉ arithmeticFlags ∧ i ∉ [8, 9, 14, 16] := by
    decide
  have h64 : arch.ptrBits ≤ 64 := by cases arch <;> decide
  refine hall i (by omega) ?_
  rw [iretMask, BitVec.getLsbD_ofNat, decide_eq_true hlt, Bool.true_and] at hi
  rw [BitVec.getLsbD_ofNat, hi, Bool.and_false]

theorem testFlags_of_notMem (old : BitVec arch.ptrBits) (v : BitVec 32) {i : Nat}
    (hi : i ∉ arithmeticFlags) : (testFlags old v).getLsbD i = old.getLsbD i := by
  simp only [arithmeticFlags, List.mem_cons, List.not_mem_nil, or_false, not_or] at hi
  simp [testFlags, getLsbD_putFlag, hi]

/-- On the way back: the frame is at the top of the stack, the rest is restored, and the flags that
`iret` does not load are those of the interrupted code. -/
theorem returns_spec (hv : vector < 256) (hvm : s.flags.getLsbD 17 = false)
    (he : interrupt guest s stub vector rf errorCode = some e) (ht : HandlerReturns e t info) :
    (run t (restoreCode arch)).mem = t.mem ∧
    (run t (restoreCode arch)).sp = slot (infoAt s) (4 + ngprs arch + 2) ∧
    WordsAt t.mem (slot (infoAt s) (4 + ngprs arch + 2)) info.frame ∧
    (∀ g, g ≠ .sp → (run t (restoreCode arch)).gpr g = info.r g) ∧
    (run t (restoreCode arch)).seg =
      restoredSegs info (handlerSegs (codeSelector arch) s.seg) ∧
    (run t (restoreCode arch)).flags.getLsbD 14 = false ∧
    ∀ i, (iretMask arch).getLsbD i = false →
      (run t (restoreCode arch)).flags.getLsbD i = s.flags.getLsbD i := by
  obtain ⟨hinfo, hat, hseg, hflags⟩ := interrupt_spec hv he
  have hholds : WordsAt t.mem (slot t.sp (unsetArgs arch)) info.words := by
    rw [ht.sp, hat, ← hinfo]
    exact ht.info
  obtain ⟨r, hr, h⟩ := leaving_restore t info hholds
  have hsp : slot t.sp (unsetArgs arch + 4 + ngprs arch + 2) =
      slot (infoAt s) (4 + ngprs arch + 2) := by
    rw [← hat, ht.sp, slot_slot]
    exact congrArg (slot e.sp) (by omega)
  have htest : (run t (restoreCode arch)).flags = testFlags t.flags (t.gpr.get .ax) := h.flags
  refine ⟨h.mem, h.sp.trans hsp, ?_, fun g hg => (h.gpr g hg).trans (hr g hg), ?_, ?_, ?_⟩
  · rw [← hsp]
    exact h.holds
  · rw [h.seg, ht.seg, hseg]
  · rw [htest, testFlags_of_notMem _ _ (by decide), ht.flags 14 (.inl rfl), hflags 14 (by decide)]
    rfl
  · intro i hi
    by_cases hlt : i < arch.ptrBits
    · obtain ⟨hna, hnc⟩ := mask_arithmetic hi hlt
      rw [htest, testFlags_of_notMem _ _ hna, ht.flags i (.inr hi), hflags i hna]
      by_cases h17 : i = 17
      · subst h17
        rw [if_pos (by decide), hvm]
      · refine if_neg fun hmem => ?_
        simp only [List.mem_cons, List.not_mem_nil, or_false] at hmem hnc
        omega
    · rw [BitVec.getLsbD_of_ge _ _ (Nat.le_of_not_lt hlt),
        BitVec.getLsbD_of_ge _ _ (Nat.le_of_not_lt hlt)]

theorem frame_spec (hv : vector < 256) (hvm : s.flags.getLsbD 17 = false)
    (he : interrupt guest s stub vector rf errorCode = some e) (ht : HandlerReturns e t info)
    (hmode : KeepsMode s info) :
    words (run t (restoreCode arch)) 0 = info.ip ∧
    words (run t (restoreCode arch)) 2 = info.flags ∧
    iretSp (run t (restoreCode arch)) = returnSp s info ∧
    SameSegments (run t (restoreCode arch)) ∧ PlainReturn (run t (restoreCode arch)) := by
  obtain ⟨hmem, hsp, hframe, -, hseg, hnt, -⟩ := returns_spec hv hvm he ht
  have hword : ∀ {d : Nat} {v}, info.frame[d]? = some v →
      words (run t (restoreCode arch)) d = v := by
    intro d v hd
    rw [words, hmem, hsp]
    exact hframe.get hd
  have hsegs : (run t (restoreCode arch)).seg .cs = codeSelector arch ∧
      (run t (restoreCode arch)).seg .ss = s.seg .ss := by
    rw [hseg]
    exact ⟨rfl, rfl⟩
  cases arch with
  | i386 =>
      have hflags := hword (d := 2) (v := info.flags) rfl
      refine ⟨hword (d := 0) rfl, hflags, ?_, ?_, hnt, ?_⟩
      · show slot (run t (restoreCode .i386)).sp 3 = frameBase s
        rw [hsp, slot_slot]
        exact (slot_slot (frameBase s) (-17) 17).trans (slot_zero _)
      · exact (congrArg (BitVec.setWidth 16) (hword (d := 1) rfl)).trans
          (hmode.cs.trans hsegs.1.symm)
      · exact (congrArg (·.getLsbD 17) hflags).trans hmode.vm
  | amd64 =>
      refine ⟨hword (d := 0) rfl, hword (d := 2) rfl, hword (d := 3) rfl, ⟨?_, ?_⟩, hnt⟩
      · exact (congrArg (BitVec.setWidth 16) (hword (d := 1) rfl)).trans
          (hmode.cs.trans hsegs.1.symm)
      · exact (congrArg (BitVec.setWidth 16) (hword (d := 4) rfl)).trans
          ((hmode.ss rfl).trans hsegs.2.symm)

theorem resumes_iretTo (hv : vector < 256) (hvm : s.flags.getLsbD 17 = false)
    (he : interrupt guest s stub vector rf errorCode = some e) (ht : HandlerReturns e t info)
    (hmode : KeepsMode s info) : Resumes s info [] (iretTo (run t (restoreCode arch))) := by
  obtain ⟨-, -, -, hgpr, hseg, -, hflags⟩ := returns_spec hv hvm he ht
  obtain ⟨hip, hfl, hsp, -, -⟩ := frame_spec hv hvm he ht hmode
  refine ⟨?_, fun g hg => ?_, (iretTo_sp _).trans hsp, hseg, fun i _ => ?_⟩
  · rw [← hip, words, slot_zero]
    rfl
  · rw [← hgpr g hg]
    exact Function.update_of_ne hg ..
  · show (iretFlags _ (words (run t (restoreCode arch)) 2)).getLsbD i = _
    rw [hfl, iretFlags, BitVec.getLsbD_or, BitVec.getLsbD_and, BitVec.getLsbD_and,
      BitVec.getLsbD_not]
    by_cases hlt : i < arch.ptrBits
    · cases hmask : (iretMask arch).getLsbD i with
      | true => simp
      | false =>
          simp only [hflags i hmask, hlt, decide_true, Bool.not_false, Bool.and_true,
            Bool.and_false, Bool.false_or, Bool.false_eq_true, if_false]
    · rw [BitVec.getLsbD_of_ge (iretMask arch) _ (Nat.le_of_not_lt hlt),
        BitVec.getLsbD_of_ge s.flags _ (Nat.le_of_not_lt hlt)]
      simp [hlt]

/-- The stack pointer of the frame is where the CPU's alignment leaves it. -/
def Aligned (s : State arch) (info : IretInfo arch) : Prop :=
  arch = .amd64 → info.sp = frameBase s ∨ info.sp = slot (frameBase s) 1

theorem returnFrame_spec (hv : vector < 256) (hvm : s.flags.getLsbD 17 = false)
    (he : interrupt guest s stub vector rf errorCode = some e) (ht : HandlerReturns e t info)
    (hmode : KeepsMode s info) (halign : Aligned s info) :
    ReturnFrame (run t (restoreCode arch)) := by
  obtain ⟨hmem, husp, hframe, -, -, -, -⟩ := returns_spec hv hvm he ht
  obtain ⟨-, -, -, hsame, -⟩ := frame_spec hv hvm he ht hmode
  cases arch with
  | i386 => exact hsame
  | amd64 =>
      have hrsp : words (run t (restoreCode .amd64)) 3 = info.sp := by
        rw [words, hmem, husp]
        exact hframe.get (d := 3) rfl
      have hend : ∀ k, slot (run t (restoreCode .amd64)).sp (5 + k) = slot (frameBase s) k := by
        intro k
        rw [husp, slot_slot, infoAt, slot_slot]
        exact congrArg (slot (frameBase s)) (by simp only [ngprs]; omega)
      refine ⟨hsame, ?_⟩
      rw [hrsp]
      exact (halign rfl).imp (fun h => h.trans ((slot_zero _).symm.trans (hend 0).symm))
        fun h => h.trans (hend 1).symm

theorem resumes_simulatedIret (hv : vector < 256) (hvm : s.flags.getLsbD 17 = false)
    (he : interrupt guest s stub vector rf errorCode = some e) (ht : HandlerReturns e t info)
    (hmode : KeepsMode s info) (halign : Aligned s info) :
    Resumes s info [16, 17, 19, 20] (simulatedIret (run t (restoreCode arch))) ∧
    ∀ a, (returnSp s info - lowestPush (run t (restoreCode arch))).toNat ≤
      (a - lowestPush (run t (restoreCode arch))).toNat →
      (simulatedIret (run t (restoreCode arch))).mem a = t.mem a := by
  obtain ⟨hmem, -, -, hgpr, -, -, -⟩ := returns_spec hv hvm he ht
  obtain ⟨hip, hfl, hsp, -, -⟩ := frame_spec hv hvm he ht hmode
  have hiret := resumes_iretTo hv hvm he ht hmode
  obtain ⟨lo, k, hlow, hend, m', hout, hrun⟩ :=
    (returnFrame_spec hv hvm he ht hmode halign).actsAsIret
  have hto : returnSp s info = slot (run t (restoreCode arch)).sp k := hsp.symm.trans hend
  rw [hrun]
  refine ⟨⟨hip, fun g hg => ?_, ?_, hiret.seg, fun i hi => ?_⟩, fun a ha => ?_⟩
  · exact (Function.update_of_ne hg ..).trans (hgpr g hg)
  · rw [hto]
    exact Function.update_self Gpr.sp _ (run t (restoreCode arch)).gpr
  · refine (popfFlags_eq_iretFlags _ _ hi).trans ?_
    exact hiret.flags i (List.not_mem_nil)
  · rw [← hmem]
    refine hout a ?_
    rwa [← hlow, ← hto]

/-- **What `handle_idt` leaves in its `iret_info_t` is what the interrupted code goes on with.**
With the return value 0 that is exact, otherwise up to RF, VM, VIF and VIP; memory is as
`handle_idt` left it, otherwise but for what lies below the stack pointer returned to. -/
theorem stub_returns (hv : vector < 256) (hvm : s.flags.getLsbD 17 = false)
    (he : interrupt guest s stub vector rf errorCode = some e) (ht : HandlerReturns e t info)
    (hmode : KeepsMode s info) :
    (t.gpr.get .ax = 0 → ∃ u, stubExit t = some u ∧ Resumes s info [] u ∧ u.mem = t.mem) ∧
    (t.gpr.get .ax ≠ 0 → Aligned s info → ∃ u, stubExit t = some u ∧
      Resumes s info [16, 17, 19, 20] u ∧
      ∀ a, (returnSp s info - lowestPush (run t (restoreCode arch))).toNat ≤
        (a - lowestPush (run t (restoreCode arch))).toNat → u.mem a = t.mem a) := by
  have hexit : ∀ b, (t.gpr.get .ax == 0) = b → stubExit t =
      if b then iret (run t (restoreCode arch))
      else some (simulatedIret (run t (restoreCode arch))) := by
    rintro b rfl
    rw [stubExit, restoreCode_zf]
  refine ⟨fun hax => ?_, fun hax halign => ?_⟩
  · obtain ⟨-, -, -, hsame, hplain⟩ := frame_spec hv hvm he ht hmode
    refine ⟨_, ?_, resumes_iretTo hv hvm he ht hmode, (returns_spec hv hvm he ht).1⟩
    rw [hexit true (by simpa using hax), if_pos rfl, iret, if_pos ⟨hsame, hplain⟩]
  · have hres := resumes_simulatedIret hv hvm he ht hmode halign
    refine ⟨_, ?_, hres.1, hres.2⟩
    rw [hexit false (by simpa using hax)]
    rfl

end Return

theorem toNat_and_not_15 (x : BitVec 64) : (x &&& ~~~15#64).toNat = x.toNat / 16 * 16 := by
  have hshift : x &&& ~~~15#64 = x >>> 4 <<< 4 := by
    have hbits : ∀ i < 64, (~~~15#64).getLsbD i = decide (4 ≤ i) := by decide
    apply BitVec.eq_of_getLsbD_eq
    intro i hi
    rw [BitVec.getLsbD_and, hbits i hi, BitVec.getLsbD_shiftLeft, BitVec.getLsbD_ushiftRight]
    by_cases h4 : 4 ≤ i
    · have hadd : 4 + (i - 4) = i := by omega
      simp [h4, hadd, hi, Nat.not_lt.mpr h4]
    · simp [h4, Nat.lt_of_not_le h4]
  rw [hshift, BitVec.toNat_shiftLeft, BitVec.toNat_ushiftRight, Nat.shiftLeft_eq,
    Nat.shiftRight_eq_div_pow]
  omega

/-- A stack pointer on a multiple of 8 is the aligned one, or the word above it. -/
theorem frameBase_amd64 (s : State .amd64) (h : s.sp.toNat % 8 = 0) :
    s.sp = frameBase s ∨ s.sp = slot (frameBase s) 1 := by
  have hlt : s.sp.toNat < 2 ^ 64 := s.sp.isLt
  have hnat : (frameBase s).toNat = s.sp.toNat / 16 * 16 := toNat_and_not_15 s.sp
  by_cases h16 : s.sp.toNat % 16 = 0
  · left
    apply BitVec.eq_of_toNat_eq
    omega
  · right
    have hslot : (slot (frameBase s) 1).toNat = ((frameBase s).toNat + 8) % 2 ^ 64 :=
      BitVec.toNat_add ..
    apply BitVec.eq_of_toNat_eq
    omega

/-- The interrupted code goes on at `ip`, with the registers it had; the flags in `lost` apart. -/
structure GoesOn (s : State arch) (ip : BitVec arch.ptrBits) (lost : List Nat) (u : State arch) :
    Prop where
  rip : u.rip = ip
  gpr : u.gpr = s.gpr
  seg : u.seg = s.seg
  flags : ∀ i, i ∉ lost → u.flags.getLsbD i = s.flags.getLsbD i

theorem setWidth_selector (v : BitVec 16) : (v.setWidth arch.ptrBits).setWidth 16 = v := by
  have hge := ptrBits_ge arch
  rw [BitVec.setWidth_setWidth_of_le v (by omega), BitVec.setWidth_eq]

section GoesOn

variable {s e t u : State arch} {stub : BitVec 64} {vector : Nat} {rf : Bool}
  {errorCode ip : BitVec arch.ptrBits} {guest : Bool} {lost lost' : List Nat}

theorem GoesOn.mono (h : GoesOn s ip lost u) (hsub : ∀ i ∈ lost, i ∈ lost') :
    GoesOn s ip lost' u :=
  ⟨h.rip, h.gpr, h.seg, fun i hi => h.flags i fun hmem => hi (hsub i hmem)⟩

/-- An `iret_info_t` that was left as it was, but for `ip`, describes the interrupted state. -/
theorem Resumes.goesOn (hcs : s.seg .cs = codeSelector arch)
    (h : Resumes s { infoOf guest s vector rf errorCode with ip := ip } lost u) :
    GoesOn s ip (16 :: lost) u := by
  refine ⟨h.rip, funext fun g => ?_, ?_, fun i hi => ?_⟩
  · by_cases hg : g = .sp
    · subst hg
      refine h.sp.trans ?_
      cases arch <;> rfl
    · exact (h.gpr g hg).trans (Function.update_of_ne hg ..)
  · rw [h.seg]
    funext sr
    cases sr with
    | cs => exact hcs.symm
    | ss => rfl
    | _ => exact setWidth_selector _
  · simp only [List.mem_cons, not_or] at hi
    rw [h.flags i hi.2]
    split
    · exact (getLsbD_putFlag _ (by omega) _ _).trans (if_neg hi.1)
    · rfl

theorem keepsMode_infoOf (hcs : s.seg .cs = codeSelector arch)
    (hvm : s.flags.getLsbD 17 = false) :
    KeepsMode s { infoOf guest s vector rf errorCode with ip := ip } := by
  refine ⟨(setWidth_selector _).trans hcs, fun _ => setWidth_selector _, ?_⟩
  refine (getLsbD_putFlag _ (by omega) _ _).trans ?_
  rw [if_neg (by omega), hvm]

/-- **Interrupts are transparent.**  Kernel code is interrupted by any vector, in any state, and
`handle_idt` returns with its `iret_info_t` as it was.  Then the code goes on with the registers,
the segments and the flags it had, RF apart, which is as in the saved flags; the simulated IRET also
loses VM, VIF and VIP, and needs a stack pointer on a multiple of the word size. -/
theorem interrupt_transparent (hv : vector < 256) (hcs : s.seg .cs = codeSelector arch)
    (hvm : s.flags.getLsbD 17 = false) (he : interrupt guest s stub vector rf errorCode = some e)
    (ht : HandlerReturns e t (infoOf guest s vector rf errorCode)) :
    (t.gpr.get .ax = 0 → ∃ u, stubExit t = some u ∧ GoesOn s s.rip [16] u ∧
      u.flags.getLsbD 16 = rf ∧ u.mem = t.mem) ∧
    (t.gpr.get .ax ≠ 0 → s.sp.toNat % (arch.ptrBits / 8) = 0 → ∃ u, stubExit t = some u ∧
      GoesOn s s.rip [16, 17, 19, 20] u ∧
      ∀ a, (s.sp - lowestPush (run t (restoreCode arch))).toNat ≤
        (a - lowestPush (run t (restoreCode arch))).toNat → u.mem a = t.mem a) := by
  have hsp : returnSp s (infoOf guest s vector rf errorCode) = s.sp := by
    cases arch <;> rfl
  obtain ⟨hzero, hone⟩ := stub_returns hv hvm he ht (keepsMode_infoOf hcs hvm)
  refine ⟨fun hax => ?_, fun hax hmul => ?_⟩
  · obtain ⟨u, hu, hres, hmem⟩ := hzero hax
    refine ⟨u, hu, hres.goesOn hcs, ?_, hmem⟩
    have hmask : (iretMask arch).getLsbD 16 = true := by cases arch <;> decide
    rw [hres.flags 16 List.not_mem_nil, if_pos hmask]
    exact (getLsbD_putFlag _ (by omega) _ _).trans (if_pos rfl)
  · have halign : Aligned s (infoOf guest s vector rf errorCode) := by
      rintro rfl
      exact frameBase_amd64 s hmul
    obtain ⟨u, hu, hres, hmem⟩ := hone hax halign
    refine ⟨u, hu, (hres.goesOn hcs).mono fun i hi => ?_, ?_⟩
    · rcases List.mem_cons.mp hi with rfl | hi
      · exact List.mem_cons_self
      · exact hi
    · rwa [hsp] at hmem

/-- Both ways back from a timer interrupt. -/
theorem interrupt_transparent_sample :
    ∃ e, interrupt true kernelState 0x300000#64 0x20 false 0 = some e ∧
      (∃ u, stubExit { e with gpr := Function.update e.gpr .ax 0 } = some u ∧
        GoesOn kernelState 0x200000#64 [16] u) ∧
      ∃ u, stubExit { e with gpr := Function.update e.gpr .ax 1 } = some u ∧
        GoesOn kernelState 0x200000#64 [16, 17, 19, 20] u := by
  have hv : 0x20 < 256 := by decide
  obtain ⟨e, he⟩ : ∃ e, interrupt true kernelState 0x300000#64 0x20 false 0 = some e :=
    ⟨_, interrupt_eq (by decide) _ hv _ _ _⟩
  have hinfo := interrupt_info hv he
  have hone : Regs.get (Function.update e.gpr .ax 1) .ax ≠ 0 := by
    rw [Regs.get, Function.update_self]
    decide
  obtain ⟨u, hu, hgo, -⟩ := (interrupt_transparent hv rfl (by decide) he
    (handlerReturns_of 0 hinfo)).1 (by simp [Regs.get])
  obtain ⟨u', hu', hgo', -⟩ := (interrupt_transparent hv rfl (by decide) he
    (handlerReturns_of 1 hinfo)).2 hone (by decide)
  exact ⟨e, he, ⟨u, hu, hgo⟩, u', hu', hgo'⟩

/-- What `handle_idt` does with an exception that it has no case for: it returns 0 where the table
has an entry, and halts where it has none. -/
theorem handleIdt_default (env : IdtEnv arch) (info : IretInfo arch)
    (hcase : info.vector.setWidth 8 ∉ caseVectors)
    (hguest : env.nmiEnable = true ∨ info.vector.getLsbD 8 = !env.cpuidVmx) :
    handleIdt env info.ip info = (xcphSearch env.table info).map (·, 0) := by
  have hret : ¬ (env.idx = 1 ∧ (info.vector.setWidth 8 = 0x02 ∨ info.vector.setWidth 8 = 0x21 ∨
      info.vector.setWidth 8 = 0x54)) := by
    rintro ⟨-, h | h | h⟩ <;> exact hcase (by rw [h]; decide)
  simp only [handleIdt, if_neg hcase, if_neg hret, decide_true, cAssert_true]
  cases hnmi : env.nmiEnable with
  | true => cases xcphSearch env.table info <;> rfl
  | false =>
      rw [decide_eq_true (hguest.resolve_left (by simp [hnmi]))]
      cases xcphSearch env.table info <;> rfl

theorem xcphSearch_infoOf (hv : vector < 256) (table : List (XcphEntry arch)) :
    xcphSearch table (infoOf guest s vector rf errorCode) =
      (table.find? fun i => i.vector = BitVec.ofNat _ vector ∧ i.ip = s.rip).map fun i =>
        { infoOf guest s vector rf errorCode with ip := i.target } := by
  have hvec : ((infoOf guest s vector rf errorCode).vector.setWidth 8).setWidth arch.ptrBits =
      BitVec.ofNat _ vector := by
    rw [show (infoOf guest s vector rf errorCode).vector.setWidth 8 = _ from
      (vectorWord_spec guest hv).2]
    apply BitVec.eq_of_toNat_eq
    rw [BitVec.toNat_setWidth, BitVec.toNat_ofNat, BitVec.toNat_ofNat,
      Nat.mod_eq_of_lt (show vector < 2 ^ 8 from hv)]
  rw [xcphSearch, hvec]
  rfl

/-- **Exceptions are recovered from.**  `handle_idt` returns from an exception that it has no case
for exactly if `xcph_table` has an entry for it, and then the code that raised it goes on at the
target of the first such entry, with nothing else changed. -/
theorem xcph_recovers (hv : vector < 256) (hcs : s.seg .cs = codeSelector arch)
    (hvm : s.flags.getLsbD 17 = false) (he : interrupt guest s stub vector rf errorCode = some e)
    (env : IdtEnv arch) (hcase : BitVec.ofNat 8 vector ∉ caseVectors)
    (hguest : env.nmiEnable = true ∨ guest = !env.cpuidVmx) :
    ((handleIdt env (handlerIp e) (infoOf guest s vector rf errorCode)).isSome ↔
      ∃ i ∈ env.table, i.vector = BitVec.ofNat _ vector ∧ i.ip = s.rip) ∧
    ∀ info ret, handleIdt env (handlerIp e) (infoOf guest s vector rf errorCode) =
        some (info, ret) →
      ∀ t, HandlerReturns e t info → t.gpr.get .ax = ret →
      ∃ i u, env.table.find? (fun i => i.vector = BitVec.ofNat _ vector ∧ i.ip = s.rip) = some i ∧
        stubExit t = some u ∧ GoesOn s i.target [16] u ∧ u.mem = t.mem := by
  obtain ⟨-, -, hip, -⟩ := interrupt_entering hv he
  have hdefault := handleIdt_default env (infoOf guest s vector rf errorCode)
    (by rwa [show (infoOf guest s vector rf errorCode).vector.setWidth 8 = _ from
      (vectorWord_spec guest hv).2])
    (by rwa [show (infoOf guest s vector rf errorCode).vector.getLsbD 8 = _ from
      (vectorWord_spec guest hv).1])
  rw [hip, show s.rip = (infoOf guest s vector rf errorCode).ip from rfl, hdefault,
    xcphSearch_infoOf hv]
  refine ⟨?_, fun info ret hret t ht hax => ?_⟩
  · rw [Option.isSome_map, Option.isSome_map, List.find?_isSome]
    simp only [decide_eq_true_eq]
    rfl
  · obtain ⟨info', hinfo', heq⟩ := Option.map_eq_some_iff.mp hret
    obtain ⟨rfl, rfl⟩ := Prod.mk.inj heq
    obtain ⟨i, hi, rfl⟩ := Option.map_eq_some_iff.mp hinfo'
    obtain ⟨u, hu, hres, hmem⟩ := (stub_returns hv hvm he ht (keepsMode_infoOf hcs hvm)).1 hax
    exact ⟨i, u, hi, hu, hres.goesOn hcs, hmem⟩

/-- A table with an entry for `#GP` at the instruction `kernelState` is at, behind one for another
instruction. -/
def kernelEnv : IdtEnv .amd64 where
  nmiEnable := false
  idx := 0
  cpuidVmx := true
  table := [⟨13, 0x200008#64, 0x200040#64⟩, ⟨13, 0x200000#64, 0x200080#64⟩]
  handler _ info := some info

/-- An access that raises `#GP`, with an entry for it in the table. -/
theorem xcph_recovers_sample :
    ∃ e t u, interrupt false kernelState 0x300000#64 13 true 0 = some e ∧
      HandlerReturns e t { infoOf false kernelState 13 true 0 with ip := 0x200080#64 } ∧
      stubExit t = some u ∧ GoesOn kernelState 0x200080#64 [16] u := by
  have hv : 13 < 256 := by decide
  have he := interrupt_eq (s := kernelState) (by decide) 0x300000#64 hv true 0 false
  have hip := (interrupt_entering hv he).choose_spec.2.1
  have hset := (interrupt_info hv he).set (wordSize .amd64) (by decide) (d := 22) (by decide)
    0x200080#64
  let info := { infoOf false kernelState 13 true 0 with ip := 0x200080#64 }
  have ht := @handlerReturns_of _ _ info 0 _ hset
  have hret : handleIdt kernelEnv 0x200000#64 (infoOf false kernelState 13 true 0) =
      some ({ infoOf false kernelState 13 true 0 with ip := 0x200080#64 }, 0) := rfl
  obtain ⟨i, u, hi, hu, hgo, -⟩ := (xcph_recovers hv rfl (by decide) he kernelEnv (by decide)
    (.inr rfl)).2 _ _ ((congrArg (handleIdt kernelEnv · _) hip).trans hret) _ ht
    (by simp [Regs.get])
  obtain rfl : (⟨13, 0x200000#64, 0x200080#64⟩ : XcphEntry .amd64) = i := Option.some.inj hi
  exact ⟨_, _, u, he, ht, hu, hgo⟩

end GoesOn

end IdtAsm

end Shv
