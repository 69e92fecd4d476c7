/-
# `Shv.IdtAsm` — the way out of `idt_stub_common` (`idt-asm.S`)

After `handle_idt` the stub restores the registers and executes IRET, or, when `handle_idt`
returned 1, code at label 1 that does what IRET does without unblocking NMIs: it moves the frame
around on the stack so that pops, POPF and RET find each value where they expect it.

The instructions the stub uses are given their meaning on a machine with one stack in a memory
whose addresses wrap (`Shv.Lib.WordStack`).  Displacements count words, as the source's multiples
of `SIZE` do.

The proof runs the code of each architecture with two scratch registers and a stack pointer at a
known slot (`Scratch`), one lemma for each kind of instruction.
-/
import Shv.Vmexit
import Shv.Lib.WordStack

namespace Shv

namespace IdtAsm

open RingMem

variable {arch : Arch}

/-! ## The machine -/

inductive SegReg where
  | cs | ds | es | fs | gs | ss
  deriving DecidableEq, Repr

structure State (arch : Arch) where
  gpr : Regs arch
  rip : BitVec arch.ptrBits
  flags : BitVec arch.ptrBits
  seg : SegReg → BitVec 16
  mem : RingMem arch.ptrBits

def State.sp (s : State arch) : BitVec arch.ptrBits := s.gpr .sp

def State.zf (s : State arch) : Bool := s.flags.getLsbD 6

/-- The flags POPF loads at privilege level 0: CF, PF, AF, ZF, SF, TF, IF, DF, OF, IOPL, NT, AC and
ID. -/
def popfMask (arch : Arch) : BitVec arch.ptrBits := BitVec.ofNat _ 0x247fd5

/-- The flags a 32-bit or 64-bit IRET loads at privilege level 0: RF, VIF and VIP as well. -/
def iretMask (arch : Arch) : BitVec arch.ptrBits := BitVec.ofNat _ 0x3d7fd5

/-- POPF clears RF and keeps VM, VIF, VIP and what is reserved. -/
def popfFlags (old new : BitVec arch.ptrBits) : BitVec arch.ptrBits :=
  (new &&& popfMask arch) ||| (old &&& ~~~(popfMask arch ||| BitVec.ofNat _ 0x10000))

/-- IRET keeps VM and what is reserved. -/
def iretFlags (old new : BitVec arch.ptrBits) : BitVec arch.ptrBits :=
  (new &&& iretMask arch) ||| (old &&& ~~~iretMask arch)

def putFlag (flags : BitVec arch.ptrBits) (i : Nat) (b : Bool) : BitVec arch.ptrBits :=
  if b then flags ||| BitVec.twoPow _ i else flags &&& ~~~BitVec.twoPow _ i

/-- The flags after `test` of a value with itself: CF, PF, ZF, SF and OF.  AF, which is undefined
then, is kept. -/
def testFlags (old : BitVec arch.ptrBits) (v : BitVec 32) : BitVec arch.ptrBits :=
  let even := ((List.range 8).filter v.getLsbD).length % 2 == 0
  putFlag (putFlag (putFlag (putFlag (putFlag old 0 false) 2 even) 6 (v == 0)) 7 v.msb) 11 false

/-- The instructions of the stub that fall through. -/
inductive Instr (arch : Arch) where
  /-- `test %eax, %eax` -/
  | testEax
  | push (src : Gpr arch)
  | pop (dst : Gpr arch)
  /-- `movw %ax, dst` -/
  | movSeg (dst : SegReg)
  /-- `mov SIZE*disp(base), dst` -/
  | load (disp : Int) (base dst : Gpr arch)
  /-- `mov src, SIZE*disp(base)` -/
  | store (src : Gpr arch) (disp : Int) (base : Gpr arch)
  /-- `lea SIZE*disp(base), dst` -/
  | lea (disp : Int) (base dst : Gpr arch)
  | popf

def step (s : State arch) : Instr arch → State arch
  | .testEax => { s with flags := testFlags s.flags (s.gpr.get .ax) }
  | .push src =>
      { s with
        mem := RingMem.store s.mem (slot s.sp (-1)) (s.gpr src)
        gpr := Function.update s.gpr .sp (slot s.sp (-1)) }
  | .pop dst =>
      { s with
        gpr := Function.update (Function.update s.gpr .sp (slot s.sp 1)) dst
          (RingMem.load s.mem s.sp) }
  | .movSeg dst => { s with seg := Function.update s.seg dst ((s.gpr .ax).setWidth 16) }
  | .load disp base dst =>
      { s with gpr := Function.update s.gpr dst (RingMem.load s.mem (slot (s.gpr base) disp)) }
  | .store src disp base =>
      { s with mem := RingMem.store s.mem (slot (s.gpr base) disp) (s.gpr src) }
  | .lea disp base dst =>
      { s with gpr := Function.update s.gpr dst (slot (s.gpr base) disp) }
  | .popf =>
      { s with
        flags := popfFlags s.flags (RingMem.load s.mem s.sp)
        gpr := Function.update s.gpr .sp (slot s.sp 1) }

section

variable (s : State arch) (src dst base : Gpr arch) (disp : Int)

@[simp] theorem step_push_gpr :
    (step s (.push src)).gpr = Function.update s.gpr .sp (slot s.sp (-1)) := rfl

@[simp] theorem step_push_mem :
    (step s (.push src)).mem = RingMem.store s.mem (slot s.sp (-1)) (s.gpr src) := rfl

@[simp] theorem step_pop_gpr :
    (step s (.pop dst)).gpr = Function.update (Function.update s.gpr .sp (slot s.sp 1)) dst
      (RingMem.load s.mem s.sp) := rfl

@[simp] theorem step_load_gpr :
    (step s (.load disp base dst)).gpr =
      Function.update s.gpr dst (RingMem.load s.mem (slot (s.gpr base) disp)) := rfl

@[simp] theorem step_store_mem :
    (step s (.store src disp base)).mem =
      RingMem.store s.mem (slot (s.gpr base) disp) (s.gpr src) := rfl

@[simp] theorem step_lea_gpr :
    (step s (.lea disp base dst)).gpr = Function.update s.gpr dst (slot (s.gpr base) disp) := rfl

end

def run (s : State arch) (code : List (Instr arch)) : State arch := code.foldl step s

theorem run_cons (s : State arch) (i : Instr arch) (code : List (Instr arch)) :
    run s (i :: code) = run (step s i) code := rfl

def ret (s : State arch) : State arch :=
  { s with
    rip := RingMem.load s.mem s.sp
    gpr := Function.update s.gpr .sp (slot s.sp 1) }

/-- Where IRET leaves the stack pointer: amd64 takes it from the frame, i386 has no other than the
end of the frame when the privilege level stays. -/
def iretSp : {arch : Arch} → State arch → BitVec arch.ptrBits
  | .amd64, s => RingMem.load s.mem (slot s.sp 3)
  | .i386, s => slot s.sp 3

/-- The frame has the current code segment, and in amd64 the current stack segment. -/
def SameSegments : {arch : Arch} → State arch → Prop
  | .amd64, s => (RingMem.load s.mem (slot s.sp 1)).setWidth 16 = s.seg .cs ∧
      (RingMem.load s.mem (slot s.sp 4)).setWidth 16 = s.seg .ss
  | .i386, s => (RingMem.load s.mem (slot s.sp 1)).setWidth 16 = s.seg .cs

/-- IRET neither returns from a task (NT), nor, in i386, to virtual-8086 mode (VM of the frame). -/
def PlainReturn : {arch : Arch} → State arch → Prop
  | .amd64, s => s.flags.getLsbD 14 = false
  | .i386, s => s.flags.getLsbD 14 = false ∧
      (RingMem.load s.mem (slot s.sp 2)).getLsbD 17 = false

instance : {arch : Arch} → (s : State arch) → Decidable (SameSegments s)
  | .amd64, _ => inferInstanceAs (Decidable (_ ∧ _))
  | .i386, _ => inferInstanceAs (Decidable (_ = _))

instance : {arch : Arch} → (s : State arch) → Decidable (PlainReturn s)
  | .amd64, _ => inferInstanceAs (Decidable (_ = _))
  | .i386, _ => inferInstanceAs (Decidable (_ ∧ _))

/-- Where IRET returns to. -/
def iretTo (s : State arch) : State arch :=
  { s with
    rip := RingMem.load s.mem s.sp
    flags := iretFlags s.flags (RingMem.load s.mem (slot s.sp 2))
    gpr := Function.update s.gpr .sp (iretSp s) }

@[simp] theorem iretTo_sp (s : State arch) : (iretTo s).sp = iretSp s := by
  simp [iretTo, State.sp]

/-- IRET at privilege level 0, as far as it stays there: to other segments, tasks and modes it does
more than is said here. -/
def iret (s : State arch) : Option (State arch) :=
  if SameSegments s ∧ PlainReturn s then some (iretTo s) else none

/-! ## The code -/

/-- `UNSET_ARGS(2, 1)`: amd64 has one word on the stack, i386 two. -/
def unsetArgs : Arch → Int
  | .amd64 => 1
  | .i386 => 2

/-- `POPA`: `POPAQ`, or the pops of `popal`. -/
def popa : (arch : Arch) → List (Instr arch)
  | .amd64 => [.pop .r15, .pop .r14, .pop .r13, .pop .r12, .pop .r11, .pop .r10, .pop .r9, .pop .r8,
      .pop .di, .pop .si, .pop .bp, .lea 1 .sp .sp, .pop .bx, .pop .dx, .pop .cx, .pop .ax]
  | .i386 => [.pop .di, .pop .si, .pop .bp, .lea 1 .sp .sp, .pop .bx, .pop .dx, .pop .cx, .pop .ax]

/-- The stack, segment registers and general registers are restored, and the error code skipped. -/
def restoreRegs (arch : Arch) : List (Instr arch) :=
  [.lea (unsetArgs arch) .sp .sp,
    .pop .ax, .movSeg .ds, .pop .ax, .movSeg .es, .pop .ax, .movSeg .fs, .pop .ax, .movSeg .gs] ++
  popa arch ++ [.lea 2 .sp .sp]

/-- From the check of the return value to `jne 1f`. -/
def restoreCode (arch : Arch) : List (Instr arch) := .testEax :: restoreRegs arch

/-- Label 1, up to the `ret`. -/
def simulatedIretCode : (arch : Arch) → List (Instr arch)
  | .amd64 => [.push .ax, .push .dx,
      .load 5 .sp .dx,
      .load 2 .sp .ax, .store .ax (-1) .dx,
      .load 4 .sp .ax, .store .ax (-2) .dx,
      .load 1 .sp .ax, .store .ax (-3) .dx,
      .load 0 .sp .ax, .store .ax (-4) .dx,
      .lea (-4) .dx .sp,
      .pop .dx, .pop .ax, .popf]
  | .i386 => [.push .ax,
      .load 3 .sp .ax, .store .ax 2 .sp,
      .load 1 .sp .ax, .store .ax 3 .sp,
      .load 0 .sp .ax, .store .ax 1 .sp,
      .pop .ax, .pop .ax, .popf]

/-- The code at label 1. -/
def simulatedIret (s : State arch) : State arch := ret (run s (simulatedIretCode arch))

/-- The stub from the return of `handle_idt` on, with its return value in EAX. -/
def stubExit (s : State arch) : Option (State arch) :=
  let s := run s (restoreCode arch)
  -- jne 1f
  if s.zf then iret s else some (simulatedIret s)

/-! ## The branch -/

/-- Only `test` and POPF change the flags. -/
def Instr.keepsFlags : Instr arch → Bool
  | .testEax | .popf => false
  | _ => true

theorem run_flags (code : List (Instr arch)) : ∀ s : State arch,
    code.all Instr.keepsFlags = true → (run s code).flags = s.flags := by
  induction code with
  | nil =>
      intro s _
      rfl
  | cons i code ih =>
      intro s h
      rw [List.all_cons, Bool.and_eq_true] at h
      refine (ih (step s i) h.2).trans ?_
      cases i with
      | testEax => cases h.1
      | popf => cases h.1
      | _ => rfl

theorem getLsbD_putFlag (flags : BitVec arch.ptrBits) {i : Nat} (hi : i < 32) (b : Bool) (j : Nat) :
    (putFlag flags i b).getLsbD j = if j = i then b else flags.getLsbD j := by
  have hw : i < arch.ptrBits := lt_of_lt_of_le hi (ptrBits_ge arch)
  by_cases hj : j = i
  · subst hj
    cases b <;> simp [putFlag, hw]
  · have hne : i ≠ j := Ne.symm hj
    cases b with
    | true => simp [putFlag, hj, hne, BitVec.getLsbD_twoPow]
    | false =>
        by_cases hlt : j < arch.ptrBits
        · simp [putFlag, hj, hlt, BitVec.getElem_twoPow]
        · simp [putFlag, BitVec.getLsbD_of_ge _ j (Nat.le_of_not_lt hlt)]

theorem testFlags_zf (old : BitVec arch.ptrBits) (v : BitVec 32) :
    (testFlags old v).getLsbD 6 = (v == 0) := by
  simp [testFlags, getLsbD_putFlag]

/-- **The branch to label 1 is taken exactly when EAX is not 0**: what restores the registers keeps
the flags of the test. -/
theorem restoreCode_zf (s : State arch) : (run s (restoreCode arch)).zf = (s.gpr.get .ax == 0) := by
  have hkeep : (restoreRegs arch).all Instr.keepsFlags = true := by
    cases arch <;> rfl
  rw [State.zf, restoreCode, run_cons, run_flags _ _ hkeep]
  exact testFlags_zf ..

/-! ## Label 1 -/

/-- The scratch registers of the code at label 1. -/
inductive Tmp where
  | ax | dx
  deriving DecidableEq

def Tmp.gpr : Tmp → Gpr arch
  | .ax => .ax
  | .dx => .dx

theorem Tmp.gpr_ne_sp (t : Tmp) : (t.gpr : Gpr arch) ≠ .sp := by
  cases t <;> exact fun h => by cases h

theorem Tmp.gpr_inj {t u : Tmp} : (t.gpr : Gpr arch) = u.gpr ↔ t = u := by
  cases t <;> cases u <;> simp [Tmp.gpr]

/-- Two memories that agree on the bytes that are not in the words from `lo` to `hi`. -/
def SameOutside {w : Nat} (b : BitVec w) (lo hi : Int) (m m' : RingMem w) : Prop :=
  ∀ a, (slot b hi - slot b lo).toNat ≤ (a - slot b lo).toNat → m' a = m a

/-- The words on the stack, numbered from the stack pointer up. -/
def words (s : State arch) (i : Int) : BitVec arch.ptrBits := RingMem.load s.mem (slot s.sp i)

/-- A state `s` on the way from `s₀`: the stack pointer `k` words above where it was, the scratch
registers as in `r`, the words around the old stack pointer as in `c`.  Memory was written from word
`lo` to word `hi` at most, and everything else is unchanged. -/
structure Scratch (s₀ : State arch) (lo hi k : Int) (r : Tmp → BitVec arch.ptrBits)
    (c : Int → BitVec arch.ptrBits) (s : State arch) : Prop where
  window : -2 ≤ lo ∧ hi ≤ 12
  sp : s.sp = slot s₀.sp k
  tmp : ∀ t : Tmp, s.gpr t.gpr = r t
  other : ∀ g, g ≠ .sp → (∀ t : Tmp, g ≠ t.gpr) → s.gpr g = s₀.gpr g
  words : ∀ i, -2 ≤ i → i < 12 → RingMem.load s.mem (slot s₀.sp i) = c i
  outside : SameOutside s₀.sp lo hi s₀.mem s.mem
  flags : s.flags = s₀.flags
  seg : s.seg = s₀.seg

theorem wordSize (arch : Arch) : WordSize arch.ptrBits := by
  cases arch <;> exact ⟨by decide, by decide⟩

namespace Scratch

variable {s₀ s : State arch} {lo hi k j : Int} {r : Tmp → BitVec arch.ptrBits}
  {c : Int → BitVec arch.ptrBits}

theorem start (s : State arch) (h : -2 ≤ lo ∧ hi ≤ 12) :
    Scratch s lo hi 0 (fun t => s.gpr t.gpr) (IdtAsm.words s) s where
  window := h
  sp := (slot_zero _).symm
  tmp _ := rfl
  other _ _ _ := rfl
  words _ _ _ := rfl
  outside _ _ := rfl
  flags := rfl
  seg := rfl

theorem words_store (h : Scratch s₀ lo hi k r c s) (hj : lo ≤ j ∧ j < hi) (v : BitVec arch.ptrBits)
    (i : Int) (h₁ : -2 ≤ i) (h₂ : i < 12) :
    RingMem.load (RingMem.store s.mem (slot s₀.sp j) v) (slot s₀.sp i) =
      Function.update c j v i := by
  have hwin := h.window
  rw [load_store_slot (wordSize arch) _ _ _ (by omega), Function.update_apply, h.words i h₁ h₂]

theorem outside_store (h : Scratch s₀ lo hi k r c s) (hj : lo ≤ j ∧ j < hi)
    (v : BitVec arch.ptrBits) :
    SameOutside s₀.sp lo hi s₀.mem (RingMem.store s.mem (slot s₀.sp j) v) := by
  have hwin := h.window
  intro a ha
  rw [store_slot_of_outside (wordSize arch) _ _ _ hj.1 hj.2 (by omega) ha, h.outside a ha]

theorem push (h : Scratch s₀ lo hi k r c s) (t : Tmp) (hk : lo ≤ k - 1 ∧ k - 1 < hi) :
    Scratch s₀ lo hi (k - 1) r (Function.update c (k - 1) (r t)) (step s (.push t.gpr)) where
  window := h.window
  sp := by
    rw [State.sp, step_push_gpr, Function.update_self, h.sp, slot_slot, Int.sub_eq_add_neg]
  tmp u := by rw [step_push_gpr, Function.update_of_ne u.gpr_ne_sp, h.tmp]
  other g hsp htmp := by rw [step_push_gpr, Function.update_of_ne hsp, h.other g hsp htmp]
  words := by
    rw [step_push_mem, h.sp, h.tmp, slot_slot, ← Int.sub_eq_add_neg]
    exact h.words_store hk (r t)
  outside := by
    rw [step_push_mem, h.sp, h.tmp, slot_slot, ← Int.sub_eq_add_neg]
    exact h.outside_store hk (r t)
  flags := h.flags
  seg := h.seg

theorem pop (h : Scratch s₀ lo hi k r c s) (t : Tmp) (hk : -2 ≤ k ∧ k < 12) :
    Scratch s₀ lo hi (k + 1) (Function.update r t (c k)) c (step s (.pop t.gpr)) where
  window := h.window
  sp := by
    rw [State.sp, step_pop_gpr, Function.update_of_ne t.gpr_ne_sp.symm, Function.update_self, h.sp,
      slot_slot]
  tmp u := by
    rw [step_pop_gpr, h.sp, h.words k hk.1 hk.2]
    by_cases hu : u = t
    · subst hu
      rw [Function.update_self, Function.update_self]
    · rw [Function.update_of_ne (mt Tmp.gpr_inj.mp hu), Function.update_of_ne u.gpr_ne_sp,
        Function.update_of_ne hu, h.tmp]
  other g hsp htmp := by
    rw [step_pop_gpr, Function.update_of_ne (htmp t), Function.update_of_ne hsp,
      h.other g hsp htmp]
  words := h.words
  outside := h.outside
  flags := h.flags
  seg := h.seg

theorem load (h : Scratch s₀ lo hi k r c s) (d : Int) (t : Tmp) (hk : -2 ≤ k + d ∧ k + d < 12) :
    Scratch s₀ lo hi k (Function.update r t (c (k + d))) c (step s (.load d .sp t.gpr)) where
  window := h.window
  sp := by rw [State.sp, step_load_gpr, Function.update_of_ne t.gpr_ne_sp.symm, ← State.sp, h.sp]
  tmp u := by
    rw [step_load_gpr, ← State.sp, h.sp, slot_slot, h.words _ hk.1 hk.2]
    by_cases hu : u = t
    · subst hu
      rw [Function.update_self, Function.update_self]
    · rw [Function.update_of_ne (mt Tmp.gpr_inj.mp hu), Function.update_of_ne hu, h.tmp]
  other g hsp htmp := by rw [step_load_gpr, Function.update_of_ne (htmp t), h.other g hsp htmp]
  words := h.words
  outside := h.outside
  flags := h.flags
  seg := h.seg

theorem store (h : Scratch s₀ lo hi k r c s) (t : Tmp) {d : Int} {base : Gpr arch}
    (hbase : slot (s.gpr base) d = slot s₀.sp j) (hj : lo ≤ j ∧ j < hi) :
    Scratch s₀ lo hi k r (Function.update c j (r t)) (step s (.store t.gpr d base)) where
  window := h.window
  sp := h.sp
  tmp := h.tmp
  other := h.other
  words := by
    rw [step_store_mem, hbase, h.tmp]
    exact h.words_store hj (r t)
  outside := by
    rw [step_store_mem, hbase, h.tmp]
    exact h.outside_store hj (r t)
  flags := h.flags
  seg := h.seg

theorem leaSp (h : Scratch s₀ lo hi k r c s) (t : Tmp) {d : Int}
    (hval : slot (r t) d = slot s₀.sp j) :
    Scratch s₀ lo hi j r c (step s (.lea d t.gpr .sp)) where
  window := h.window
  sp := by rw [State.sp, step_lea_gpr, Function.update_self, h.tmp, hval]
  tmp u := by rw [step_lea_gpr, Function.update_of_ne u.gpr_ne_sp, h.tmp]
  other g hsp htmp := by rw [step_lea_gpr, Function.update_of_ne hsp, h.other g hsp htmp]
  words := h.words
  outside := h.outside
  flags := h.flags
  seg := h.seg

/-- With the scratch registers restored, the registers are those of before, but for the stack
pointer. -/
theorem gpr_eq (h : Scratch s₀ lo hi k r c s) (hr : ∀ t : Tmp, r t = s₀.gpr t.gpr)
    (v : BitVec arch.ptrBits) : Function.update s.gpr .sp v = Function.update s₀.gpr .sp v := by
  funext g
  by_cases hsp : g = .sp
  · rw [hsp, Function.update_self, Function.update_self]
  · rw [Function.update_of_ne hsp, Function.update_of_ne hsp]
    by_cases htmp : ∃ t : Tmp, g = t.gpr
    · obtain ⟨t, rfl⟩ := htmp
      rw [h.tmp, hr]
    · exact h.other g hsp fun t ht => htmp ⟨t, ht⟩

theorem finish (h : Scratch s₀ lo hi k r c s) (hr : ∀ t : Tmp, r t = s₀.gpr t.gpr)
    (hk : -2 ≤ k ∧ k + 1 < 12) :
    ret (step s .popf) =
      { gpr := Function.update s₀.gpr .sp (slot s₀.sp (k + 2))
        rip := c (k + 1)
        flags := popfFlags s₀.flags (c k)
        seg := s₀.seg
        mem := s.mem } := by
  have hret : ret (step s .popf) =
      { gpr := Function.update s.gpr .sp (slot s.sp 2)
        rip := RingMem.load s.mem (slot s.sp 1)
        flags := popfFlags s.flags (RingMem.load s.mem s.sp)
        seg := s.seg
        mem := s.mem } := by
    simp [ret, step, State.sp]
  rw [hret, h.gpr_eq hr, h.sp, slot_slot, slot_slot, h.words k hk.1 (by omega),
    h.words (k + 1) (by omega) hk.2, h.flags, h.seg]

end Scratch

/-- What the code at label 1 does in either architecture, if the frame ends `e` words above the
stack pointer and `lo` is the lowest word pushed. -/
def ActsAsIret (s : State arch) (lo e : Int) (t : State arch) : Prop :=
  ∃ m', SameOutside s.sp lo e s.mem m' ∧ t =
    { gpr := Function.update s.gpr .sp (slot s.sp e)
      rip := words s 0
      flags := popfFlags s.flags (words s 2)
      seg := s.seg
      mem := m' }

theorem simulatedIret_i386 (s : State .i386) : ActsAsIret s (-1) 3 (simulatedIret s) := by
  have hsp : ∀ {r c s'}, Scratch s (-1) 3 (-1) r c s' → ∀ d, slot (s'.gpr .sp) d =
      slot s.sp (-1 + d) := by
    intro r c s' h d
    rw [← State.sp, h.sp, slot_slot]
  have hstart : Scratch s (-1) 3 0 _ _ s := Scratch.start s (by decide)
  have h₀ := hstart.push .ax (by decide)
  have h₁ := h₀.load 3 .ax (by decide)
  have h₂ := h₁.store .ax (hsp h₁ 2) (by decide)
  have h₃ := h₂.load 1 .ax (by decide)
  have h₄ := h₃.store .ax (hsp h₃ 3) (by decide)
  have h₅ := h₄.load 0 .ax (by decide)
  have h₆ := h₅.store .ax (hsp h₅ 1) (by decide)
  have h₇ := (h₆.pop .ax (by decide)).pop .ax (by decide)
  refine ⟨_, h₇.outside, (h₇.finish ?_ (by decide)).trans ?_⟩
  · intro t
    cases t <;> rfl
  · rfl

theorem simulatedIret_amd64 (s : State .amd64) {e : Int} (he : e = 5 ∨ e = 6)
    (hrsp : words s 3 = slot s.sp e) : ActsAsIret s (-2) e (simulatedIret s) := by
  have hstart : Scratch s (-2) e 0 _ _ s := Scratch.start s (by omega)
  have h₀ := hstart.push .ax (by omega)
  have h₁ := (h₀.push .dx (by omega)).load 5 .dx (by decide)
  -- RDX points to the end of the frame from here on
  have hdx : ∀ {r c s'}, Scratch s (-2) e (-2) r c s' → r .dx = words s 3 → ∀ d,
      slot (s'.gpr .dx) d = slot s.sp (e + d) := by
    intro r c s' h hr d
    have hval : s'.gpr .dx = r .dx := h.tmp .dx
    rw [hval, hr, hrsp, slot_slot]
  have h₂ := h₁.load 2 .ax (by decide)
  have h₃ := (h₂.store .ax (hdx h₂ rfl (-1)) (by omega)).load 4 .ax (by decide)
  have h₄ := (h₃.store .ax (hdx h₃ rfl (-2)) (by omega)).load 1 .ax (by decide)
  have h₅ := (h₄.store .ax (hdx h₄ rfl (-3)) (by omega)).load 0 .ax (by decide)
  have h₆ := h₅.store .ax (hdx h₅ rfl (-4)) (by omega)
  have hend : slot (words s 3) (-4) = slot s.sp (e - 4) := by
    rw [hrsp, slot_slot, Int.sub_eq_add_neg]
  have h₇ := ((h₆.leaSp .dx hend).pop .dx (by omega)).pop .ax (by omega)
  refine ⟨_, h₇.outside, (h₇.finish ?_ (by omega)).trans ?_⟩
  · intro t
    rcases he with rfl | rfl <;> cases t <;> rfl
  · rcases he with rfl | rfl <;> rfl

/-! ## Against IRET -/

theorem popfFlags_eq_iretFlags (old new : BitVec arch.ptrBits) {i : Nat}
    (hi : i ∉ [16, 17, 19, 20]) :
    (popfFlags old new).getLsbD i = (iretFlags old new).getLsbD i := by
  have hmask : ∀ i, i < 64 → i ∉ [16, 17, 19, 20] →
      Nat.testBit 0x247fd5 i = Nat.testBit 0x3d7fd5 i ∧ Nat.testBit 0x10000 i = false := by
    decide
  have hw : arch.ptrBits ≤ 64 := by cases arch <;> decide
  by_cases hlt : i < arch.ptrBits
  · obtain ⟨h₁, h₂⟩ := hmask i (by omega) hi
    simp only [popfFlags, iretFlags, popfMask, iretMask, BitVec.getLsbD_or, BitVec.getLsbD_and,
      BitVec.getLsbD_not, BitVec.getLsbD_ofNat, hlt, h₁, h₂, Bool.and_false, Bool.or_false]
  · rw [BitVec.getLsbD_of_ge _ _ (Nat.le_of_not_lt hlt),
      BitVec.getLsbD_of_ge _ _ (Nat.le_of_not_lt hlt)]

/-- The frame label 1 is for: the current segments, and in amd64 a stack pointer to the end of the
frame or to the word above it, which is where the CPU's alignment to 16 bytes leaves it. -/
def ReturnFrame : {arch : Arch} → State arch → Prop
  | .amd64, s => SameSegments s ∧ (words s 3 = slot s.sp 5 ∨ words s 3 = slot s.sp 6)
  | .i386, s => SameSegments s

instance : {arch : Arch} → (s : State arch) → Decidable (ReturnFrame s)
  | .amd64, s => inferInstanceAs (Decidable (SameSegments s ∧ _))
  | .i386, s => inferInstanceAs (Decidable (SameSegments s))

/-- The lowest word the code at label 1 pushes. -/
def lowestPush (s : State arch) : BitVec arch.ptrBits :=
  match arch with
  | .amd64 => slot s.sp (-2)
  | .i386 => slot s.sp (-1)

theorem ReturnFrame.actsAsIret {s : State arch} (h : ReturnFrame s) :
    ∃ lo e, lowestPush s = slot s.sp lo ∧ iretSp s = slot s.sp e ∧
      ActsAsIret s lo e (simulatedIret s) := by
  cases arch with
  | i386 => exact ⟨-1, 3, rfl, rfl, simulatedIret_i386 s⟩
  | amd64 =>
      rcases h.2 with hrsp | hrsp
      · exact ⟨-2, 5, rfl, hrsp, simulatedIret_amd64 s (.inl rfl) hrsp⟩
      · exact ⟨-2, 6, rfl, hrsp, simulatedIret_amd64 s (.inr rfl) hrsp⟩

theorem ReturnFrame.sameSegments {s : State arch} (h : ReturnFrame s) : SameSegments s := by
  cases arch with
  | i386 => exact h
  | amd64 => exact h.1

/-- At or above an address, as far as the stack does not run around the end of the memory. -/
theorem le_sub_of_le {w : Nat} {low sp a : BitVec w} (h₁ : low.toNat ≤ sp.toNat)
    (h₂ : sp.toNat ≤ a.toNat) : (sp - low).toNat ≤ (a - low).toNat := by
  rw [BitVec.toNat_sub_of_le h₁, BitVec.toNat_sub_of_le (Nat.le_trans h₁ h₂)]
  omega

/-- IRET from a frame with the current segments stays at privilege level 0 exactly if NT is clear,
and in i386 VM is clear in the frame.  In the other cases it returns to another task, or to
virtual-8086 mode, which the code at label 1 is not for.  Neither comes up in an interrupt of the
kernel: its delivery clears NT, and the kernel does not run with VM (`frame_spec` in
`Shv.StubAsm`). -/
theorem iret_isSome_iff {s : State arch} (hframe : ReturnFrame s) :
    (iret s).isSome ↔ PlainReturn s := by
  rw [iret]
  split
  next h => exact iff_of_true rfl h.2
  next h => exact iff_of_false Bool.false_ne_true fun hplain => h ⟨hframe.sameSegments, hplain⟩

/-- **The simulated IRET is IRET.**  From every state at label 1 with a frame it is for, the code
reaches what IRET reaches, flags POPF does not load apart, where this is a plain return
(`PlainReturn`, see `iret_isSome_iff`); it writes only between its lowest push and the stack pointer
it ends with; and the stub comes to label 1 exactly when EAX is not 0. -/
theorem simulated_iret (s : State arch) (hframe : ReturnFrame s) :
    (PlainReturn s → (iret s).isSome) ∧
    (∀ u, iret s = some u →
      (simulatedIret s).rip = u.rip ∧ (simulatedIret s).gpr = u.gpr ∧
      (simulatedIret s).seg = u.seg ∧
      (∀ i, i ∉ [16, 17, 19, 20] → (simulatedIret s).flags.getLsbD i = u.flags.getLsbD i) ∧
      (∀ a, (u.sp - lowestPush s).toNat ≤ (a - lowestPush s).toNat →
        (simulatedIret s).mem a = s.mem a) ∧
      ((lowestPush s).toNat ≤ u.sp.toNat → ∀ a, u.sp.toNat ≤ a.toNat →
        (simulatedIret s).mem a = s.mem a)) ∧
    ∀ s' : State arch, stubExit s' =
      if s'.gpr.get .ax = 0 then iret (run s' (restoreCode arch))
      else some (simulatedIret (run s' (restoreCode arch))) := by
  refine ⟨(iret_isSome_iff hframe).mpr, fun u hu => ?_, fun s' => ?_⟩
  · obtain ⟨lo, e, hlow, hend, m', hout, hrun⟩ := hframe.actsAsIret
    rw [iret] at hu
    split at hu
    next =>
        obtain rfl := Option.some.inj hu
        have hmem : ∀ a, (iretSp s - lowestPush s).toNat ≤ (a - lowestPush s).toNat →
            m' a = s.mem a := by
          rw [hlow, hend]
          exact hout
        rw [hrun]
        refine ⟨?_, ?_, rfl, ?_, ?_, ?_⟩
        · show words s 0 = RingMem.load s.mem s.sp
          rw [words, slot_zero]
        · show Function.update _ _ _ = Function.update _ _ _
          rw [hend]
        · intro i hi
          exact popfFlags_eq_iretFlags _ _ hi
        · intro a ha
          rw [iretTo_sp] at ha
          exact hmem a ha
        · intro hle a ha
          rw [iretTo_sp] at hle ha
          exact hmem a (le_sub_of_le hle ha)
    next => cases hu
  · simp only [stubExit, restoreCode_zf, beq_iff_eq]

/-- Memory with one word for each of the first slots of a stack at 0x1000. -/
def stackAt (ws : List (BitVec 64)) : RingMem 64 :=
  (ws.zipIdx).foldl (fun m p => RingMem.store m (slot 0x1000#64 p.2) p.1) fun _ => 0

/-- A frame that the CPU aligned, so that the interrupted stack is a word above its end. -/
def alignedFrame : State .amd64 where
  gpr := Function.update (fun _ => 7#64) .sp 0x1000#64
  rip := 0x200000#64
  flags := 0x46#64
  seg := fun _ => 0x10#16
  mem := stackAt [0x300000#64, 0x10#64, 0x202#64, 0x1030#64, 0x10#64, 0xaa#64]

/-- The aligned frame is returned from. -/
theorem simulated_iret_aligned :
    (iret alignedFrame).isSome ∧ ∀ u, iret alignedFrame = some u →
      (simulatedIret alignedFrame).rip = u.rip ∧ (simulatedIret alignedFrame).gpr = u.gpr :=
  have h := simulated_iret alignedFrame (by decide)
  ⟨h.1 (by decide), fun u hu => ⟨(h.2.1 u hu).1, (h.2.1 u hu).2.1⟩⟩

end IdtAsm

end Shv
