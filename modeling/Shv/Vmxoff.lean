/-
# `Shv.Vmxoff` — leaving VMX operation and coming back (`shv_guest_test_vmxoff`)

The handler of VMCALL 22 takes the VMCS away from the CPU and gives it back: VMCLEAR puts it into
its page, VMXOFF and VMXON follow every other time, and VMPTRLD reads it from the page.  In between
the handler changes a field in the page itself.  For that it has put a number into the ES limit
before, and looks for the page's words that hold it.

How a CPU lays a VMCS out in its page is its own affair.  The code assumes that the ES limit is a
word of it (`VmcsFormat`), and asserts that it has found one word only.
`shv_guest_test_vmxoff_iff` says when the test passes: exactly if from word 2 on no other word of
the page happens to hold the number.  Then the guest goes on with all fields of the VMCS but its
RIP as they were.
-/
import Shv.Lib.Trace
import Shv.Vmcs
import Mathlib.Data.List.Basic

namespace Shv

/-! ## The CPU -/

def vmcsGuestESLimit : Nat := 0x4800

def vmcsGuestRIP : Nat := 0x681e

abbrev PageWords := Nat → BitVec 32

/-- How a CPU keeps a VMCS in its page: what VMCLEAR writes there, and what VMPTRLD makes of it.
The ES limit is a word of its own. -/
structure VmcsFormat (cpu : VmxCpu) where
  write : Vmcs cpu.arch → PageWords → PageWords
  read : PageWords → Vmcs cpu.arch
  esLimitWord : Nat
  esLimitWord_mem : 2 ≤ esLimitWord ∧ esLimitWord < 1024
  write_header : ∀ hw page, write hw page 0 = page 0
  write_esLimit : ∀ hw page, write hw page esLimitWord = (hw vmcsGuestESLimit).setWidth 32
  read_write : ∀ hw page n, (vmcsField n).exist cpu = true →
    read (write hw page) (vmcsField n).encoding = hw (vmcsField n).encoding
  read_esLimit : ∀ page v n, (vmcsField n).exist cpu = true →
    read (Function.update page esLimitWord v) (vmcsField n).encoding =
      (read page).set vmcsGuestESLimit (v.setWidth _) (vmcsField n).encoding

/-- What the handler uses of a `VCPU`, and of the CPU. -/
structure VmxoffVcpu where
  cpu : VmxCpu
  format : VmcsFormat cpu
  /-- `hva2spa(vcpu->my_vmcs)` -/
  myVmcs : BitVec 64
  /-- `hva2spa(vcpu->vmxon_region)` -/
  vmxonRegion : BitVec 64
  /-- `vcpu->vmx_msrs[INDEX_IA32_VMX_BASIC_MSR]` -/
  vmxBasicMsr : BitVec 64

/-- The state: whether the CPU is in VMX operation and with which VMXON region, the address and the
fields of the current VMCS, which VMCSs have been launched, the pages, and `vcpu->vmcs`. -/
structure VmxState (arch : Arch) where
  vmxOn : Bool
  vmxonPtr : BitVec 64
  current : Option (BitVec 64 × Vmcs arch)
  launched : BitVec 64 → Bool
  page : BitVec 64 → PageWords
  vmcs : VmcsFields arch

section Instructions

variable (vcpu : VmxoffVcpu) (s : VmxState vcpu.cpu.arch)

def VmxoffVcpu.revision : BitVec 32 := vcpu.vmxBasicMsr.setWidth 32 &&& 0x7fffffff

/-- `__vmx_vmptrst`.  As below, `#UD` outside VMX operation has no entry in `xcph_table`, so that
the CPU halts; of what the CPU answers, `none` is status 0. -/
def vmxVmptrst : Halting (Option (BitVec 64)) := do
  cAssert s.vmxOn
  match s.current with
  | some (ptr, _) => return some ptr
  | none => return some (-1)

def vmxVmclear (vmcs : BitVec 64) : Halting (Option (VmxState vcpu.cpu.arch)) := do
  cAssert s.vmxOn
  if vmcs = s.vmxonPtr then return none
  let s := { s with launched := Function.update s.launched vmcs false }
  match s.current with
  | some (ptr, hw) =>
      if ptr = vmcs then
        return some { s with
          current := none
          page := Function.update s.page vmcs (vcpu.format.write hw (s.page vmcs)) }
      else return some s
  | none => return some s

def vmxVmptrld (vmcs : BitVec 64) : Halting (Option (VmxState vcpu.cpu.arch)) := do
  cAssert s.vmxOn
  if vmcs = s.vmxonPtr ∨ s.page vmcs 0 ≠ vcpu.revision then return none
  return some { s with current := some (vmcs, vcpu.format.read (s.page vmcs)) }

def vmxVmxoff : Halting (Option (VmxState vcpu.cpu.arch)) := do
  cAssert s.vmxOn
  return some { s with vmxOn := false }

def vmxVmxon (vmxonRegion : BitVec 64) : Halting (Option (VmxState vcpu.cpu.arch)) :=
  if s.vmxOn ∨ s.page vmxonRegion 0 ≠ vcpu.revision then return none
  else return some { s with vmxOn := true, vmxonPtr := vmxonRegion, current := none }

/-- A VMWRITE with the current VMCS, as `__vmx_vmwrite`. -/
def vmxVmwriteCurrent (encoding : Nat) (value : BitVec vcpu.cpu.arch.ptrBits) :
    Halting (Option (VmxState vcpu.cpu.arch)) := do
  cAssert s.vmxOn
  match s.current with
  | some (ptr, hw) =>
      return (vmxVmwrite vcpu.cpu encoding value hw).map fun hw =>
        { s with current := some (ptr, hw) }
  | none => return none

/-- The VMWRITE in assembly: `result` is 1 if it raises `#UD`. -/
def vmwriteUd : BitVec 32 := if s.vmxOn then 0 else 1

/-- VMLAUNCH, with the current VMCS; a failure ends in an assertion. -/
def vmxVmlaunch : Halting (VmxState vcpu.cpu.arch) := do
  cAssert s.vmxOn
  let (ptr, _) ← s.current
  cAssert (!s.launched ptr)
  return { s with launched := Function.update s.launched ptr true }

end Instructions

/-! ## The handler -/

def newEsLimit : BitVec 32 := 0xa69f1c74

section Handler

variable (vcpu : VmxoffVcpu)

/-- `vmcs_dump(vcpu, 0)`; without a current VMCS its first VMREAD fails. -/
def dumpCurrent (s : VmxState vcpu.cpu.arch) : Halting (VmxState vcpu.cpu.arch) := do
  cAssert s.vmxOn
  let (_, hw) ← s.current
  let vmcs ← vmcsDump vcpu.cpu hw s.vmcs
  return { s with vmcs := vmcs }

/-- `old_es_limit = __vmx_vmread32(..)` and the write of `new_es_limit`. -/
def swapEsLimit (s : VmxState vcpu.cpu.arch) :
    Halting (BitVec 32 × VmxState vcpu.cpu.arch) := do
  cAssert s.vmxOn
  let (ptr, hw) ← s.current
  let oldEsLimit ← vmxVmread32 vcpu.cpu hw vmcsGuestESLimit
  let hw ← vmxVmwrite32 vcpu.cpu vmcsGuestESLimit newEsLimit hw
  return (oldEsLimit, { s with current := some (ptr, hw) })

/-- The loop that puts `old_es_limit` back in the page, and `found`. -/
def restoreEsLimit (oldEsLimit : BitVec 32) (page : PageWords) : PageWords × Nat :=
  (List.range' 2 1022).foldl (fun (p : PageWords × Nat) i =>
    if p.1 i = newEsLimit then (Function.update p.1 i oldEsLimit, p.2 + 1) else p) (page, 0)

/-- If `test_vmxoff`, VMXOFF, a VMWRITE that raises `#UD`, and VMXON. -/
def vmxoffVmxon (testVmxoff : Bool) (s : VmxState vcpu.cpu.arch) :
    Halting (VmxState vcpu.cpu.arch) :=
  if testVmxoff then do
    let s ← assertSuccess (vmxVmxoff vcpu s)
    cAssert (vmwriteUd vcpu s == 1)
    assertSuccess (vmxVmxon vcpu s vcpu.vmxonRegion)
  else return s

/-- `ASSERT(!__vmx_vmwrite(0x0000, 0x0000))`. -/
def assertVmwriteFails (s : VmxState vcpu.cpu.arch) : Halting Unit := do
  let status ← vmxVmwriteCurrent vcpu s 0 0
  cAssert status.isNone

/-- The VMCS is given back, and all its fields are compared with the backup. -/
def restoreVmcs (s : VmxState vcpu.cpu.arch) : Halting (VmxState vcpu.cpu.arch) := do
  let s ← assertSuccess (vmxVmclear vcpu s vcpu.myVmcs)
  cAssert (s.page vcpu.myVmcs 0 == vcpu.revision)
  let s ← assertSuccess (vmxVmptrld vcpu s vcpu.myVmcs)
  let a := s.vmcs
  let s ← dumpCurrent vcpu s
  cAssert (vmcsNames.all fun n => a n == s.vmcs n)
  return s

/-- The VMCS is backed up, changed, and taken away; and `old_es_limit`. -/
def takeVmcs (s : VmxState vcpu.cpu.arch) : Halting (BitVec 32 × VmxState vcpu.cpu.arch) := do
  let s ← dumpCurrent vcpu s
  let (oldEsLimit, s) ← swapEsLimit vcpu s
  let vmptr ← assertSuccess (vmxVmptrst vcpu s)
  cAssert (vmptr == vcpu.myVmcs)
  let s ← assertSuccess (vmxVmclear vcpu s vcpu.myVmcs)
  assertVmwriteFails vcpu s
  return (oldEsLimit, s)

/-- The page is corrected, where the number should be once. -/
def correctPage (oldEsLimit : BitVec 32) (s : VmxState vcpu.cpu.arch) :
    Halting (VmxState vcpu.cpu.arch) := do
  let restored := restoreEsLimit oldEsLimit (s.page vcpu.myVmcs)
  let s := { s with page := Function.update s.page vcpu.myVmcs restored.1 }
  cAssert (restored.2 == 1)
  assertVmwriteFails vcpu s
  return s

/-- The guest goes on after the VMCALL. -/
def launchGuest (guestRip : BitVec vcpu.cpu.arch.ptrBits) (instLen : BitVec 32)
    (s : VmxState vcpu.cpu.arch) : Halting (VmxState vcpu.cpu.arch) := do
  let (ptr, hw) ← s.current
  let hw ← vmxVmwriteNW vcpu.cpu vmcsGuestRIP (guestRip + instLen.setWidth _) hw
  vmxVmlaunch vcpu { s with current := some (ptr, hw) }

/-- `shv_guest_test_vmxoff_vmexit_handler` on a VMCALL, up to and with VMLAUNCH. -/
def shvGuestTestVmxoffVmexitHandler (eax ebx : BitVec 32) (guestRip : BitVec vcpu.cpu.arch.ptrBits)
    (instLen : BitVec 32) (s : VmxState vcpu.cpu.arch) : Halting (VmxState vcpu.cpu.arch) := do
  cAssert (eax == 22)
  let testVmxoff := ebx != 0
  let (oldEsLimit, s) ← takeVmcs vcpu s
  let s ← vmxoffVmxon vcpu testVmxoff s
  let s ← correctPage vcpu oldEsLimit s
  let s ← restoreVmcs vcpu s
  launchGuest vcpu guestRip instLen s

def shvUseVmxoff : BitVec 64 := 0x80

def vmcsInfoVmexitInstructionLength : Nat := 0x440c

/-- `shv_guest_test_vmxoff`: its VMCALL, with the RIP and the length that the exit has put into the
VMCS. -/
def shvGuestTestVmxoff (shvOpt : BitVec 64) (testVmxoff : Bool) (s : VmxState vcpu.cpu.arch) :
    Halting (VmxState vcpu.cpu.arch) :=
  if shvOpt &&& shvUseVmxoff ≠ 0 then do
    let (_, hw) ← s.current
    shvGuestTestVmxoffVmexitHandler vcpu 22 (if testVmxoff then 1 else 0)
      ((hw vmcsGuestRIP).setWidth _) ((hw vmcsInfoVmexitInstructionLength).setWidth 32) s
  else return s

/-- What happens between the tests, and the tests: between them the fields of the VMCS, the pages
and `vcpu->vmcs` may change, but not the first words of the pages, where the revision identifiers
are. -/
inductive VmxoffStep (shvOpt : BitVec 64) :
    VmxState vcpu.cpu.arch → Option Bool → VmxState vcpu.cpu.arch → Prop
  | other {s : VmxState vcpu.cpu.arch} {ptr : BitVec 64} {hw hw' : Vmcs vcpu.cpu.arch}
      {launched : BitVec 64 → Bool} {page : BitVec 64 → PageWords} {vmcs : VmcsFields vcpu.cpu.arch}
      (hc : s.current = some (ptr, hw)) (hpage : ∀ a, page a 0 = s.page a 0) :
      VmxoffStep shvOpt s none
        { s with current := some (ptr, hw'), launched := launched, page := page, vmcs := vmcs }
  | test {s s' : VmxState vcpu.cpu.arch} {testVmxoff : Bool}
      (h : shvGuestTestVmxoff vcpu shvOpt testVmxoff s = some s') :
      VmxoffStep shvOpt s (some testVmxoff) s'

end Handler

/-! ## The search of the page -/

/-- `old_es_limit` in the place of every word of a list that holds the number. -/
theorem restore_foldl (old : BitVec 32) {l : List Nat} (hl : l.Nodup) (page : PageWords) (n : Nat) :
    l.foldl (fun (p : PageWords × Nat) i =>
        if p.1 i = newEsLimit then (Function.update p.1 i old, p.2 + 1) else p) (page, n) =
      (fun i => if i ∈ l ∧ page i = newEsLimit then old else page i,
        n + l.countP fun i => page i = newEsLimit) := by
  induction l generalizing page n with
  | nil => simp
  | cons j l ih =>
      obtain ⟨hj, hl⟩ := List.nodup_cons.mp hl
      rw [List.foldl_cons]
      by_cases hnew : page j = newEsLimit
      · rw [if_pos hnew, ih hl]
        have hother : ∀ i ∈ l, Function.update page j old i = page i := fun i hi =>
          Function.update_of_ne (fun h : i = j => hj (h ▸ hi)) ..
        refine Prod.ext (funext fun i => ?_) ?_
        · by_cases hi : i = j
          · subst hi
            simp [hj, hnew]
          · simp [hi]
        · have hcount : l.countP (fun i => decide (Function.update page j old i = newEsLimit)) =
              l.countP fun i => decide (page i = newEsLimit) :=
            List.countP_congr fun i hi => by rw [hother i hi]
          show n + 1 + _ = n + _
          rw [hcount, List.countP_cons_of_pos (by simpa using hnew)]
          omega
      · rw [if_neg hnew, ih hl]
        refine Prod.ext (funext fun i => ?_) ?_
        · by_cases hi : i = j
          · subst hi
            simp [hj, hnew]
          · simp [hi]
        · show n + _ = n + _
          rw [List.countP_cons_of_neg (by simpa using hnew)]

theorem restoreEsLimit_fst (old : BitVec 32) (page : PageWords) (i : Nat) :
    (restoreEsLimit old page).1 i =
      if (2 ≤ i ∧ i < 1024) ∧ page i = newEsLimit then old else page i := by
  rw [restoreEsLimit, restore_foldl old List.nodup_range']
  simp only [List.mem_range'_1]

theorem restoreEsLimit_snd (old : BitVec 32) {page : PageWords} {k : Nat}
    (hk : 2 ≤ k ∧ k < 1024) (hpage : page k = newEsLimit) :
    (restoreEsLimit old page).2 = 1 ↔
      ∀ i, 2 ≤ i → i < 1024 → i ≠ k → page i ≠ newEsLimit := by
  rw [restoreEsLimit, restore_foldl old List.nodup_range', Nat.zero_add]
  dsimp only
  rw [List.countP_eq_length_filter, List.length_eq_one_iff]
  constructor
  · rintro ⟨a, ha⟩ i h2 h1024 hik hi
    have hmem : ∀ j, 2 ≤ j → j < 1024 → page j = newEsLimit → j = a := by
      intro j h2 h1024 hj
      have hin : j ∈ (List.range' 2 1022).filter fun i => page i = newEsLimit :=
        List.mem_filter.mpr ⟨List.mem_range'_1.mpr ⟨h2, h1024⟩, by simpa using hj⟩
      rw [ha] at hin
      exact List.mem_singleton.mp hin
    exact hik ((hmem i h2 h1024 hi).trans (hmem k hk.1 hk.2 hpage).symm)
  · intro h
    refine ⟨k, List.Perm.eq_singleton ?_⟩
    refine (List.perm_ext_iff_of_nodup ((List.nodup_range').filter _) (by simp)).mpr
      fun i => ?_
    rw [List.mem_filter, List.mem_range'_1, List.mem_singleton, decide_eq_true_eq]
    constructor
    · rintro ⟨⟨h2, h1024⟩, hi⟩
      by_contra hik
      exact h i h2 h1024 hik hi
    · rintro rfl
      exact ⟨hk, hpage⟩

/-! ## What the instructions do -/

section Steps

variable {vcpu : VmxoffVcpu} {s : VmxState vcpu.cpu.arch} {ptr : BitVec 64}
  {hw : Vmcs vcpu.cpu.arch}

theorem dumpCurrent_eq (hon : s.vmxOn = true) (hc : s.current = some (ptr, hw)) :
    dumpCurrent vcpu s = some { s with vmcs := dumped vcpu.cpu hw s.vmcs vmcsNames } := by
  rw [dumpCurrent, hon, hc]
  show (vmcsDump vcpu.cpu hw s.vmcs).bind _ = _
  rw [vmcsDump, vmcsDump_eq]
  rfl

theorem dumpCurrent_self (hon : s.vmxOn = true) (hc : s.current = some (ptr, hw))
    (hdump : dumped vcpu.cpu hw s.vmcs vmcsNames = s.vmcs) : dumpCurrent vcpu s = some s := by
  rw [dumpCurrent_eq hon hc, hdump]

theorem vmxVmwriteAssert_rw {n : VmcsName} {index bits : Nat} {cpu : VmxCpu} (hw : Vmcs cpu.arch)
    (hex : (vmcsField n).exist cpu = true) (hro : (vmcsField n).readOnly = false)
    (hindex : (vmcsField n).width.index = index) (hp : bits ≤ cpu.arch.ptrBits)
    (value : BitVec bits) :
    vmxVmwriteAssert index bits cpu (vmcsField n).encoding value hw =
      some (hw.set (vmcsField n).encoding (value.setWidth _)) := by
  obtain ⟨-, hreadOnly, hidx, heven⟩ := vmcsField_encoding n
  have hfield := hasField_of_exist hex
  have hwr : vmwritable cpu (vmcsField n).encoding = true := by
    rw [vmwritable, hfield.full, hreadOnly, hro]
    rfl
  rw [vmxVmwriteAssert, hidx, hindex, beq_self_eq_true, cAssert_true]
  show vmxVmwrite cpu _ _ hw = _
  rw [vmxVmwrite, if_pos hwr, if_pos heven]
  refine congrArg (fun v => some (hw.set (vmcsField n).encoding v)) ?_
  apply BitVec.eq_of_toNat_eq
  rw [BitVec.toNat_setWidth, BitVec.toNat_setWidth, BitVec.toNat_setWidth,
    Nat.mod_eq_of_lt (value.isLt.trans_le (Nat.pow_le_pow_right (by decide) hp))]

theorem swapEsLimit_eq (hon : s.vmxOn = true) (hc : s.current = some (ptr, hw)) :
    swapEsLimit vcpu s = some ((hw vmcsGuestESLimit).setWidth 32,
      { s with current := some (ptr, hw.set vmcsGuestESLimit (newEsLimit.setWidth _)) }) := by
  have hread : vmxVmread32 vcpu.cpu hw vmcsGuestESLimit =
      some ((hw vmcsGuestESLimit).setWidth 32) :=
    vmxVmreadWidth_eq hw (hasField_of_exist (n := .guestESLimit) rfl)
  have hwrite : vmxVmwrite32 vcpu.cpu vmcsGuestESLimit newEsLimit hw =
      some (hw.set vmcsGuestESLimit (newEsLimit.setWidth _)) :=
    vmxVmwriteAssert_rw (n := .guestESLimit) hw rfl rfl rfl (ptrBits_ge _) newEsLimit
  rw [swapEsLimit, hon, hc]
  show (vmxVmread32 vcpu.cpu hw vmcsGuestESLimit).bind _ = _
  rw [hread]
  show (vmxVmwrite32 vcpu.cpu vmcsGuestESLimit newEsLimit hw).bind _ = _
  rw [hwrite]
  rfl

theorem vmxVmptrst_eq (hon : s.vmxOn = true) (hc : s.current = some (ptr, hw)) :
    vmxVmptrst vcpu s = some (some ptr) := by
  rw [vmxVmptrst, hon, hc]
  rfl

theorem vmxVmclear_current (hon : s.vmxOn = true) (hc : s.current = some (ptr, hw))
    (hne : ptr ≠ s.vmxonPtr) : vmxVmclear vcpu s ptr = some (some { s with
      launched := Function.update s.launched ptr false
      current := none
      page := Function.update s.page ptr (vcpu.format.write hw (s.page ptr)) }) := by
  rw [vmxVmclear, hon, hc]
  simp [hne]

theorem vmxVmclear_none (hon : s.vmxOn = true) (hc : s.current = none) (hne : ptr ≠ s.vmxonPtr) :
    vmxVmclear vcpu s ptr =
      some (some { s with launched := Function.update s.launched ptr false }) := by
  rw [vmxVmclear, hon, hc]
  simp [hne]

theorem assertVmwriteFails_eq (hon : s.vmxOn = true) (hc : s.current = none) :
    assertVmwriteFails vcpu s = some () := by
  rw [assertVmwriteFails, vmxVmwriteCurrent, hon, hc]
  rfl

theorem vmxoffVmxon_eq (hon : s.vmxOn = true) (hc : s.current = none)
    (hptr : s.vmxonPtr = vcpu.vmxonRegion) (hrev : s.page vcpu.vmxonRegion 0 = vcpu.revision)
    (testVmxoff : Bool) : vmxoffVmxon vcpu testVmxoff s = some s := by
  cases testVmxoff with
  | false => rfl
  | true => ?_
  have hon' : vmxVmxon vcpu { s with vmxOn := false } vcpu.vmxonRegion = some (some s) := by
    rw [vmxVmxon, if_neg (by simp [hrev]), ← hon, ← hc, ← hptr]
    rfl
  rw [vmxoffVmxon, if_pos rfl, vmxVmxoff, hon]
  show (assertSuccess (vmxVmxon vcpu { s with vmxOn := false } vcpu.vmxonRegion)) = _
  rw [hon']
  rfl

/-- The VMCS is given back with the fields its page says, if the backup says the same. -/
theorem restoreVmcs_eq (hon : s.vmxOn = true) (hc : s.current = none)
    (hne : vcpu.myVmcs ≠ s.vmxonPtr) (hrev : s.page vcpu.myVmcs 0 = vcpu.revision)
    (hsame : ∀ n, (vmcsField n).exist vcpu.cpu = true → s.vmcs n =
      (vcpu.format.read (s.page vcpu.myVmcs) (vmcsField n).encoding).setWidth _) :
    restoreVmcs vcpu s = some { s with
      launched := Function.update s.launched vcpu.myVmcs false
      current := some (vcpu.myVmcs, vcpu.format.read (s.page vcpu.myVmcs)) } := by
  have hdump : dumped vcpu.cpu (vcpu.format.read (s.page vcpu.myVmcs)) s.vmcs vmcsNames =
      s.vmcs := by
    funext n
    unfold dumped
    split
    · rename_i h
      exact (hsame n h.2).symm
    · rfl
  obtain ⟨t, ht⟩ : ∃ t, t = { s with
    launched := Function.update s.launched vcpu.myVmcs false
    current := some (vcpu.myVmcs, vcpu.format.read (s.page vcpu.myVmcs)) } := ⟨_, rfl⟩
  have hld : vmxVmptrld vcpu { s with
      launched := Function.update s.launched vcpu.myVmcs false } vcpu.myVmcs = some (some t) := by
    rw [ht, vmxVmptrld, hon]
    simp [hne, hrev]
  have hdumped : dumpCurrent vcpu t = some t := by
    rw [ht]
    exact dumpCurrent_self hon rfl hdump
  have hall : (vmcsNames.all fun n => t.vmcs n == t.vmcs n) = true := by simp
  rw [restoreVmcs, vmxVmclear_none hon hc hne, ← ht]
  show (cAssert (s.page vcpu.myVmcs 0 == vcpu.revision)).bind _ = _
  rw [hrev, beq_self_eq_true]
  show (assertSuccess (vmxVmptrld vcpu { s with
    launched := Function.update s.launched vcpu.myVmcs false } vcpu.myVmcs)).bind _ = _
  rw [hld]
  show (dumpCurrent vcpu t).bind _ = _
  rw [hdumped]
  show (cAssert (vmcsNames.all fun n => t.vmcs n == t.vmcs n)).bind _ = _
  rw [hall]
  rfl

end Steps

/-! ## The test -/

/-- The state the handler is entered with: the CPU is in VMX operation, with `vcpu->my_vmcs` as its
VMCS, and the pages have the right revision identifier. -/
structure VmxoffReady (vcpu : VmxoffVcpu) (hw : Vmcs vcpu.cpu.arch) (s : VmxState vcpu.cpu.arch) :
    Prop where
  vmxOn : s.vmxOn = true
  vmxonPtr : s.vmxonPtr = vcpu.vmxonRegion
  current : s.current = some (vcpu.myVmcs, hw)
  apart : vcpu.myVmcs ≠ vcpu.vmxonRegion
  myRevision : s.page vcpu.myVmcs 0 = vcpu.revision
  vmxonRevision : s.page vcpu.vmxonRegion 0 = vcpu.revision

/-- The page after VMCLEAR, with `new_es_limit` in it. -/
def clearedPage (vcpu : VmxoffVcpu) (hw : Vmcs vcpu.cpu.arch) (s : VmxState vcpu.cpu.arch) :
    PageWords :=
  vcpu.format.write (hw.set vmcsGuestESLimit (newEsLimit.setWidth _)) (s.page vcpu.myVmcs)

/-- The fields with RIP behind the VMCALL. -/
def behindVmcall (vcpu : VmxoffVcpu) (hw : Vmcs vcpu.cpu.arch) : Vmcs vcpu.cpu.arch :=
  hw.set vmcsGuestRIP (((hw vmcsGuestRIP).setWidth vcpu.cpu.arch.ptrBits +
    ((hw vmcsInfoVmexitInstructionLength).setWidth 32).setWidth _).setWidth _)

/-- The state with the VMCS taken away, and `page` as its page. -/
def takenState (vcpu : VmxoffVcpu) (hw : Vmcs vcpu.cpu.arch) (s : VmxState vcpu.cpu.arch)
    (page : PageWords) : VmxState vcpu.cpu.arch :=
  { s with
    current := none
    launched := Function.update s.launched vcpu.myVmcs false
    page := Function.update s.page vcpu.myVmcs page
    vmcs := dumped vcpu.cpu hw s.vmcs vmcsNames }

section Test

variable {vcpu : VmxoffVcpu} {s : VmxState vcpu.cpu.arch} {hw : Vmcs vcpu.cpu.arch}
  {page : PageWords}

theorem vmwriteFails_taken (h : VmxoffReady vcpu hw s) :
    assertVmwriteFails vcpu (takenState vcpu hw s page) = some () :=
  assertVmwriteFails_eq h.vmxOn rfl

theorem takeVmcs_eq (h : VmxoffReady vcpu hw s) : takeVmcs vcpu s =
    some ((hw vmcsGuestESLimit).setWidth 32, takenState vcpu hw s (clearedPage vcpu hw s)) := by
  have hne : vcpu.myVmcs ≠ s.vmxonPtr := h.vmxonPtr ▸ h.apart
  -- the state with the backup made, and then with the number in the ES limit
  obtain ⟨s₁, hs₁⟩ : ∃ s₁, s₁ = { s with vmcs := dumped vcpu.cpu hw s.vmcs vmcsNames } :=
    ⟨_, rfl⟩
  obtain ⟨s₂, hs₂⟩ : ∃ s₂, s₂ = { s₁ with
    current := some (vcpu.myVmcs, hw.set vmcsGuestESLimit (newEsLimit.setWidth _)) } := ⟨_, rfl⟩
  have hon₁ : s₁.vmxOn = true := by rw [hs₁, h.vmxOn]
  have hon₂ : s₂.vmxOn = true := by rw [hs₂, hon₁]
  have hc₁ : s₁.current = some (vcpu.myVmcs, hw) := by rw [hs₁, h.current]
  have hc₂ : s₂.current =
      some (vcpu.myVmcs, hw.set vmcsGuestESLimit (newEsLimit.setWidth _)) := by rw [hs₂]
  have hne₂ : vcpu.myVmcs ≠ s₂.vmxonPtr := by
    rw [hs₂, hs₁]
    exact hne
  rw [takeVmcs, dumpCurrent_eq h.vmxOn h.current, ← hs₁]
  show (swapEsLimit vcpu s₁).bind _ = _
  rw [swapEsLimit_eq hon₁ hc₁, ← hs₂]
  show (assertSuccess (vmxVmptrst vcpu s₂)).bind _ = _
  rw [vmxVmptrst_eq hon₂ hc₂]
  show (cAssert (vcpu.myVmcs == vcpu.myVmcs)).bind _ = _
  rw [beq_self_eq_true]
  show (assertSuccess (vmxVmclear vcpu s₂ vcpu.myVmcs)).bind _ = _
  rw [vmxVmclear_current hon₂ hc₂ hne₂, hs₂, hs₁]
  show (assertVmwriteFails vcpu (takenState vcpu hw s (clearedPage vcpu hw s))).bind _ = _
  rw [vmwriteFails_taken h]
  rfl

theorem clearedPage_esLimit : clearedPage vcpu hw s vcpu.format.esLimitWord = newEsLimit := by
  rw [clearedPage, vcpu.format.write_esLimit, Vmcs.set_same]
  rfl

/-- The page with its ES limit corrected is the page of the VMCS as it was. -/
theorem read_corrected {n : VmcsName} (hex : (vmcsField n).exist vcpu.cpu = true)
    (hpage : ∀ i, 2 ≤ i → i < 1024 → i ≠ vcpu.format.esLimitWord →
      clearedPage vcpu hw s i ≠ newEsLimit) :
    vcpu.format.read (restoreEsLimit ((hw vmcsGuestESLimit).setWidth 32)
      (clearedPage vcpu hw s)).1 (vmcsField n).encoding = hw (vmcsField n).encoding := by
  have hpages : (restoreEsLimit ((hw vmcsGuestESLimit).setWidth 32) (clearedPage vcpu hw s)).1 =
      Function.update (clearedPage vcpu hw s) vcpu.format.esLimitWord
        ((hw vmcsGuestESLimit).setWidth 32) := by
    funext i
    rw [restoreEsLimit_fst]
    by_cases hi : i = vcpu.format.esLimitWord
    · subst hi
      rw [if_pos ⟨vcpu.format.esLimitWord_mem, clearedPage_esLimit⟩, Function.update_self]
    · rw [Function.update_of_ne hi]
      exact if_neg fun h => hpage i h.1.1 h.1.2 hi h.2
  rw [hpages, vcpu.format.read_esLimit _ _ n hex]
  by_cases hes : (vmcsField n).encoding = vmcsGuestESLimit
  · rw [hes, Vmcs.set_same]
    exact (BitVec.setWidth_eq _).trans (BitVec.setWidth_eq _)
  · rw [Vmcs.set_other _ hes, clearedPage, vcpu.format.read_write _ _ n hex, Vmcs.set_other _ hes]

theorem correctPage_eq (h : VmxoffReady vcpu hw s) (old : BitVec 32) :
    correctPage vcpu old (takenState vcpu hw s page) =
      (cAssert ((restoreEsLimit old page).2 == 1)).map fun _ =>
        takenState vcpu hw s (restoreEsLimit old page).1 := by
  have hpage : (takenState vcpu hw s page).page vcpu.myVmcs = page := Function.update_self ..
  have hstate : { takenState vcpu hw s page with
      page := Function.update (takenState vcpu hw s page).page vcpu.myVmcs
        (restoreEsLimit old page).1 } = takenState vcpu hw s (restoreEsLimit old page).1 := by
    simp only [takenState, Function.update_idem]
  rw [correctPage, hpage]
  show (cAssert ((restoreEsLimit old page).2 == 1)).bind _ = _
  cases hfound : (restoreEsLimit old page).2 == 1 with
  | false => rfl
  | true =>
      show (assertVmwriteFails vcpu { takenState vcpu hw s page with
        page := Function.update (takenState vcpu hw s page).page vcpu.myVmcs
          (restoreEsLimit old page).1 }).bind _ = _
      rw [hstate, vmwriteFails_taken h]
      rfl

theorem vmxoffVmxon_taken (h : VmxoffReady vcpu hw s) (testVmxoff : Bool) :
    vmxoffVmxon vcpu testVmxoff (takenState vcpu hw s page) =
      some (takenState vcpu hw s page) := by
  refine vmxoffVmxon_eq (s := takenState vcpu hw s page) h.vmxOn rfl h.vmxonPtr ?_ testVmxoff
  exact (congrFun (Function.update_of_ne h.apart.symm _ _) 0).trans h.vmxonRevision

theorem launchGuest_eq {s : VmxState vcpu.cpu.arch} (hon : s.vmxOn = true)
    (hc : s.current = some (vcpu.myVmcs, hw)) (hl : s.launched vcpu.myVmcs = false)
    (guestRip : BitVec vcpu.cpu.arch.ptrBits) (instLen : BitVec 32) :
    launchGuest vcpu guestRip instLen s = some { s with
      current := some (vcpu.myVmcs,
        hw.set vmcsGuestRIP ((guestRip + instLen.setWidth _).setWidth _))
      launched := Function.update s.launched vcpu.myVmcs true } := by
  have hwrite : vmxVmwriteNW vcpu.cpu vmcsGuestRIP (guestRip + instLen.setWidth _) hw =
      some (hw.set vmcsGuestRIP ((guestRip + instLen.setWidth _).setWidth _)) :=
    vmxVmwriteAssert_rw (n := .guestRIP) hw rfl rfl rfl (Nat.le_refl _) _
  rw [launchGuest, hc]
  show (vmxVmwriteNW vcpu.cpu vmcsGuestRIP (guestRip + instLen.setWidth _) hw).bind _ = _
  rw [hwrite]
  show vmxVmlaunch vcpu _ = _
  rw [vmxVmlaunch, hon]
  show (cAssert (!s.launched vcpu.myVmcs)).bind _ = _
  rw [hl]
  rfl

theorem restoreVmcs_taken (h : VmxoffReady vcpu hw s) (hrev : page 0 = vcpu.revision)
    (hread : ∀ n, (vmcsField n).exist vcpu.cpu = true →
      vcpu.format.read page (vmcsField n).encoding = hw (vmcsField n).encoding) :
    restoreVmcs vcpu (takenState vcpu hw s page) = some { takenState vcpu hw s page with
      current := some (vcpu.myVmcs, vcpu.format.read page) } := by
  have hpage : (takenState vcpu hw s page).page vcpu.myVmcs = page := Function.update_self ..
  have hne : vcpu.myVmcs ≠ (takenState vcpu hw s page).vmxonPtr := by
    show vcpu.myVmcs ≠ s.vmxonPtr
    rw [h.vmxonPtr]
    exact h.apart
  have hrestore := restoreVmcs_eq (s := takenState vcpu hw s page) h.vmxOn rfl hne
    (by rw [hpage]; exact hrev) fun n hex => by
      rw [hpage, hread n hex]
      show dumped vcpu.cpu hw s.vmcs vmcsNames n = _
      rw [dumped, if_pos ⟨mem_vmcsNames n, hex⟩]
  rw [hrestore, hpage]
  simp only [takenState, Function.update_idem]

theorem handler_eq (h : VmxoffReady vcpu hw s) (ebx : BitVec 32)
    (guestRip : BitVec vcpu.cpu.arch.ptrBits) (instLen : BitVec 32) :
    shvGuestTestVmxoffVmexitHandler vcpu 22 ebx guestRip instLen s =
      (cAssert ((restoreEsLimit ((hw vmcsGuestESLimit).setWidth 32)
        (clearedPage vcpu hw s)).2 == 1)).bind fun _ =>
          (restoreVmcs vcpu (takenState vcpu hw s (restoreEsLimit
            ((hw vmcsGuestESLimit).setWidth 32) (clearedPage vcpu hw s)).1)).bind
              (launchGuest vcpu guestRip instLen) := by
  rw [shvGuestTestVmxoffVmexitHandler, takeVmcs_eq h]
  show (vmxoffVmxon vcpu (ebx != 0) (takenState vcpu hw s (clearedPage vcpu hw s))).bind _ = _
  rw [vmxoffVmxon_taken h, Option.bind_some]
  show (correctPage vcpu ((hw vmcsGuestESLimit).setWidth 32)
    (takenState vcpu hw s (clearedPage vcpu hw s))).bind _ = _
  rw [correctPage_eq h]
  cases cAssert ((restoreEsLimit ((hw vmcsGuestESLimit).setWidth 32)
    (clearedPage vcpu hw s)).2 == 1) <;> rfl

/-- The state after the test: the fields of the VMCS that the CPU has are as in `hw`. -/
structure VmxoffPassed (vcpu : VmxoffVcpu) (hw : Vmcs vcpu.cpu.arch)
    (s s' : VmxState vcpu.cpu.arch) : Prop where
  ready : ∃ hw', VmxoffReady vcpu hw' s' ∧ ∀ n, (vmcsField n).exist vcpu.cpu = true →
    hw' (vmcsField n).encoding = hw (vmcsField n).encoding
  launched : s'.launched = Function.update s.launched vcpu.myVmcs true
  pages : ∀ a, a ≠ vcpu.myVmcs → s'.page a = s.page a

theorem handler_passes (h : VmxoffReady vcpu hw s) (ebx : BitVec 32)
    (guestRip : BitVec vcpu.cpu.arch.ptrBits) (instLen : BitVec 32)
    (hpage : ∀ i, 2 ≤ i → i < 1024 → i ≠ vcpu.format.esLimitWord →
      clearedPage vcpu hw s i ≠ newEsLimit) :
    ∃ s', shvGuestTestVmxoffVmexitHandler vcpu 22 ebx guestRip instLen s = some s' ∧
      VmxoffPassed vcpu
        (hw.set vmcsGuestRIP ((guestRip + instLen.setWidth _).setWidth _)) s s' := by
  have hfound := (restoreEsLimit_snd ((hw vmcsGuestESLimit).setWidth 32)
    vcpu.format.esLimitWord_mem clearedPage_esLimit).mpr hpage
  have hread := fun n hex => read_corrected (n := n) hex hpage
  rw [handler_eq h, hfound]
  generalize hpage' : (restoreEsLimit ((hw vmcsGuestESLimit).setWidth 32)
    (clearedPage vcpu hw s)).1 = page at hread
  have hrev : page 0 = vcpu.revision := by
    rw [← hpage', restoreEsLimit_fst, if_neg (by omega), clearedPage, vcpu.format.write_header]
    exact h.myRevision
  have hlaunch := launchGuest_eq (s := { takenState vcpu hw s page with
    current := some (vcpu.myVmcs, vcpu.format.read page) }) h.vmxOn rfl
    (Function.update_self ..) guestRip instLen
  rw [beq_self_eq_true, cAssert_true, Option.bind_some, restoreVmcs_taken h hrev hread,
    Option.bind_some, hlaunch]
  refine ⟨_, rfl, ⟨_, ⟨h.vmxOn, h.vmxonPtr, rfl, h.apart, ?_, ?_⟩, fun n hex => ?_⟩, ?_,
    fun a ha => Function.update_of_ne ha ..⟩
  · exact (congrFun (Function.update_self ..) 0).trans hrev
  · exact (congrFun (Function.update_of_ne h.apart.symm _ _) 0).trans h.vmxonRevision
  · by_cases hrip : (vmcsField n).encoding = vmcsGuestRIP
    · rw [hrip, Vmcs.set_same, Vmcs.set_same]
    · rw [Vmcs.set_other _ hrip, Vmcs.set_other _ hrip, hread n hex]
  · exact Function.update_idem ..

/-- When the handler goes through: if no word of the page but the ES limit holds the number. -/
theorem shvGuestTestVmxoffVmexitHandler_iff (h : VmxoffReady vcpu hw s) (ebx : BitVec 32)
    (guestRip : BitVec vcpu.cpu.arch.ptrBits) (instLen : BitVec 32) :
    ((∃ s', shvGuestTestVmxoffVmexitHandler vcpu 22 ebx guestRip instLen s = some s') ↔
      ∀ i, 2 ≤ i → i < 1024 → i ≠ vcpu.format.esLimitWord →
        clearedPage vcpu hw s i ≠ newEsLimit) ∧
    ∀ s', shvGuestTestVmxoffVmexitHandler vcpu 22 ebx guestRip instLen s = some s' →
      VmxoffPassed vcpu
        (hw.set vmcsGuestRIP ((guestRip + instLen.setWidth _).setWidth _)) s s' := by
  have hiff : (∃ s', shvGuestTestVmxoffVmexitHandler vcpu 22 ebx guestRip instLen s = some s') ↔
      ∀ i, 2 ≤ i → i < 1024 → i ≠ vcpu.format.esLimitWord →
        clearedPage vcpu hw s i ≠ newEsLimit := by
    constructor
    · rintro ⟨s', hs'⟩
      rw [handler_eq h] at hs'
      obtain ⟨_, hfound, -⟩ := Option.bind_eq_some_iff.mp hs'
      rw [cAssert_eq_some, beq_iff_eq] at hfound
      exact (restoreEsLimit_snd _ vcpu.format.esLimitWord_mem clearedPage_esLimit).mp hfound
    · intro hpage
      obtain ⟨s', hs', -⟩ := handler_passes h ebx guestRip instLen hpage
      exact ⟨s', hs'⟩
  refine ⟨hiff, fun s' hs' => ?_⟩
  obtain ⟨s'', hs'', hpassed⟩ := handler_passes h ebx guestRip instLen (hiff.mp ⟨s', hs'⟩)
  obtain rfl := Option.some.inj (hs'.symm.trans hs'')
  exact hpassed

theorem shvGuestTestVmxoff_eq (h : VmxoffReady vcpu hw s) {shvOpt : BitVec 64}
    (hopt : shvOpt &&& shvUseVmxoff ≠ 0) (testVmxoff : Bool) :
    shvGuestTestVmxoff vcpu shvOpt testVmxoff s =
      shvGuestTestVmxoffVmexitHandler vcpu 22 (if testVmxoff then 1 else 0)
        ((hw vmcsGuestRIP).setWidth _) ((hw vmcsInfoVmexitInstructionLength).setWidth 32) s := by
  rw [shvGuestTestVmxoff, if_pos hopt, h.current]
  rfl

/-- The step lemma: the test can begin after a step if it could before. -/
theorem VmxoffStep.ready {shvOpt : BitVec 64} {l : Option Bool} {s s' : VmxState vcpu.cpu.arch}
    (hs : ∃ hw, VmxoffReady vcpu hw s) (hstep : VmxoffStep vcpu shvOpt s l s') :
    ∃ hw, VmxoffReady vcpu hw s' := by
  obtain ⟨hw, h⟩ := hs
  cases hstep with
  | other hc hpage =>
      obtain ⟨rfl, -⟩ := Prod.mk.inj (Option.some.inj (h.current.symm.trans hc))
      exact ⟨_, h.vmxOn, h.vmxonPtr, rfl, h.apart, (hpage _).trans h.myRevision,
        (hpage _).trans h.vmxonRevision⟩
  | test htest =>
      by_cases hopt : shvOpt &&& shvUseVmxoff ≠ 0
      · rw [shvGuestTestVmxoff_eq h hopt] at htest
        obtain ⟨hw', hready, -⟩ :=
          ((shvGuestTestVmxoffVmexitHandler_iff h _ _ _).2 _ htest).ready
        exact ⟨hw', hready⟩
      · rw [shvGuestTestVmxoff, if_neg hopt] at htest
        obtain rfl := Option.some.inj htest
        exact ⟨hw, h⟩

/-- **When the test passes**: however often the test has been run on a CPU, with whatever in
between, it goes through if and only if no word of the page from word 2 on, the ES limit apart,
holds `new_es_limit`.  Then the guest has been launched again, with all fields of the VMCS that the
CPU has as they were, except that its RIP is behind the VMCALL, and no other page has been
written. -/
theorem shv_guest_test_vmxoff_iff (h : VmxoffReady vcpu hw s) {shvOpt : BitVec 64}
    (hopt : shvOpt &&& shvUseVmxoff ≠ 0) {ls : List (Option Bool)} {t : VmxState vcpu.cpu.arch}
    (hrun : Trace (VmxoffStep vcpu shvOpt) s ls t) (testVmxoff : Bool) :
    ∃ hw', t.current = some (vcpu.myVmcs, hw') ∧
      ((∃ u, shvGuestTestVmxoff vcpu shvOpt testVmxoff t = some u) ↔
        ∀ i, 2 ≤ i → i < 1024 → i ≠ vcpu.format.esLimitWord →
          clearedPage vcpu hw' t i ≠ newEsLimit) ∧
      ∀ u, shvGuestTestVmxoff vcpu shvOpt testVmxoff t = some u →
        VmxoffPassed vcpu (behindVmcall vcpu hw') t u := by
  obtain ⟨hw', ht⟩ := hrun.invariant (I := fun t => ∃ hw, VmxoffReady vcpu hw t)
    VmxoffStep.ready ⟨hw, h⟩
  refine ⟨hw', ht.current, ?_⟩
  rw [shvGuestTestVmxoff_eq ht hopt]
  exact shvGuestTestVmxoffVmexitHandler_iff ht _ _ _

end Test

/-! ## A CPU -/

def fieldEncodings : List Nat := vmcsNames.map fun n => (vmcsField n).encoding

/-- Word `i` of a page in which each field has two words. -/
def twoWordsOf {arch : Arch} (hw : Vmcs arch) (page : PageWords) (i : Nat) : BitVec 32 :=
  if i < 2 then page i
  else match fieldEncodings[(i - 2) / 2]? with
    | some e => (hw e >>> (32 * ((i - 2) % 2))).setWidth 32
    | none => page i

/-- A field from its two words. -/
def ofTwoWords (arch : Arch) (page : PageWords) : Vmcs arch := fun e =>
  (page (2 * fieldEncodings.idxOf e + 3) ++ page (2 * fieldEncodings.idxOf e + 2)).setWidth _

theorem bits_le (arch : Arch) (width : VmcsWidth) : width.bits arch ≤ 64 := by
  cases width <;> cases arch <;> decide

theorem words_append {k : Nat} (hk : k ≤ 64) (x : BitVec k) :
    ((x >>> 32).setWidth 32 ++ (x >>> 0).setWidth 32).setWidth k = x := by
  apply BitVec.eq_of_getLsbD_eq
  intro i hi
  rw [BitVec.getLsbD_setWidth, BitVec.getLsbD_append, BitVec.getLsbD_setWidth,
    BitVec.getLsbD_setWidth, BitVec.getLsbD_ushiftRight, BitVec.getLsbD_ushiftRight]
  by_cases h : i < 32
  · simp [h, hi]
  · have hsub : 32 + (i - 32) = i := by omega
    have hlt : i - 32 < 32 := by omega
    simp [h, hi, hsub, hlt]

theorem twoWordsOf_word {arch : Arch} (hw : Vmcs arch) (page : PageWords) {k e : Nat}
    (hk : fieldEncodings[k]? = some e) {b : Nat} (hb : b < 2) :
    twoWordsOf hw page (2 * k + 2 + b) = (hw e >>> (32 * b)).setWidth 32 := by
  have hdiv : (2 * k + 2 + b - 2) / 2 = k := by omega
  have hmod : (2 * k + 2 + b - 2) % 2 = b := by omega
  rw [twoWordsOf, if_neg (by omega), hdiv, hmod, hk]

theorem ofTwoWords_twoWordsOf {arch : Arch} (hw : Vmcs arch) (page : PageWords) {e : Nat}
    (he : e ∈ fieldEncodings) : ofTwoWords arch (twoWordsOf hw page) e = hw e := by
  have hk := List.getElem?_idxOf he
  have hlow := twoWordsOf_word hw page hk (show 0 < 2 by decide)
  have hhigh := twoWordsOf_word hw page hk (show 1 < 2 by decide)
  rw [ofTwoWords, ← words_append (bits_le arch (encodingWidth e)) (hw e), ← hlow, ← hhigh]

theorem mem_fieldEncodings (n : VmcsName) : (vmcsField n).encoding ∈ fieldEncodings :=
  List.mem_map_of_mem (mem_vmcsNames n)

/-- A CPU that keeps each field in two words. -/
def twoWordsFormat (cpu : VmxCpu) : VmcsFormat cpu where
  write := twoWordsOf
  read := ofTwoWords cpu.arch
  esLimitWord := 184
  esLimitWord_mem := by decide
  write_header _ _ := if_pos (by decide)
  write_esLimit hw page :=
    twoWordsOf_word hw page (k := 91) (e := vmcsGuestESLimit) rfl (show 0 < 2 by decide)
  read_write hw page n _ := ofTwoWords_twoWordsOf hw page (mem_fieldEncodings n)
  read_esLimit page v n _ := by
    have hes : fieldEncodings.idxOf vmcsGuestESLimit = 91 := by decide
    by_cases he : (vmcsField n).encoding = vmcsGuestESLimit
    · have hhigh : Function.update page 184 v (2 * 91 + 3) = page 185 :=
        Function.update_of_ne (show 2 * 91 + 3 ≠ 184 by decide) ..
      have hlow : Function.update page 184 v (2 * 91 + 2) = v := Function.update_self ..
      rw [he, Vmcs.set_same, ofTwoWords, hes, hhigh, hlow]
      show (page 185 ++ v).setWidth 32 = v.setWidth 32
      rw [BitVec.setWidth_eq, BitVec.setWidth_append_eq_right]
    · rw [Vmcs.set_other _ he]
      have hne : fieldEncodings.idxOf (vmcsField n).encoding ≠ 91 := fun h =>
        he ((List.idxOf_inj (mem_fieldEncodings n)).mp (h.trans hes.symm))
      rw [ofTwoWords, ofTwoWords, Function.update_of_ne (by omega),
        Function.update_of_ne (by omega)]

def zeroVmcs (arch : Arch) : Vmcs arch := fun _ => 0

theorem fieldEncodings_esLimit : ∀ k < 167,
    fieldEncodings[k]? = some vmcsGuestESLimit → k = 91 := by
  decide +kernel

/-- In a VMCS whose other fields are all 0 the number is in its word only. -/
theorem twoWordsOf_newEsLimit {arch : Arch} {page : PageWords}
    (hpage : ∀ i, 2 ≤ i → page i = 0) {i : Nat} (h2 : 2 ≤ i) (hi : i ≠ 184) :
    twoWordsOf ((zeroVmcs arch).set vmcsGuestESLimit (newEsLimit.setWidth _)) page i ≠
      newEsLimit := by
  have hzero : (0 : BitVec 32) ≠ newEsLimit := by decide
  cases hk : fieldEncodings[(i - 2) / 2]? with
  | none =>
      rw [twoWordsOf, if_neg (by omega), hk]
      show page i ≠ _
      rw [hpage i h2]
      exact hzero
  | some e =>
      have hword := twoWordsOf_word ((zeroVmcs arch).set vmcsGuestESLimit (newEsLimit.setWidth _))
        page hk (b := (i - 2) % 2) (by omega)
      have hplace : 2 * ((i - 2) / 2) + 2 + (i - 2) % 2 = i := by omega
      rw [hplace] at hword
      rw [hword]
      by_cases he : e = vmcsGuestESLimit
      · subst he
        obtain ⟨hlt, -⟩ := List.getElem?_eq_some_iff.mp hk
        have h91 := fieldEncodings_esLimit _ hlt hk
        have hodd : (i - 2) % 2 = 1 := by omega
        rw [hodd, Vmcs.set_same]
        show (newEsLimit.setWidth 32 >>> (32 * 1)).setWidth 32 ≠ newEsLimit
        decide
      · rw [Vmcs.set_other _ he, zeroVmcs]
        simpa using hzero

/-- A CPU whose VMCS is at `0x1000` and whose VMXON region is at `0x2000`. -/
def sampleVmxoffVcpu : VmxoffVcpu where
  cpu := { arch := .amd64, debugQemu := false, vmxCaps := ⟨0, 0, 0, 0, 0⟩, vmxMisc := 0 }
  format := twoWordsFormat _
  myVmcs := 0x1000
  vmxonRegion := 0x2000
  vmxBasicMsr := 1

def sampleVmxState : VmxState .amd64 where
  vmxOn := true
  vmxonPtr := 0x2000
  current := some (0x1000, zeroVmcs .amd64)
  launched _ := true
  page _ i := if i = 0 then 1 else 0
  vmcs _ := 0

theorem shv_guest_test_vmxoff_iff_sample :
    ∃ u, shvGuestTestVmxoff sampleVmxoffVcpu shvUseVmxoff true sampleVmxState = some u := by
  have hready : VmxoffReady sampleVmxoffVcpu (zeroVmcs .amd64)
      { sampleVmxState with launched := fun _ => false } :=
    ⟨rfl, rfl, rfl, by decide, by decide, by decide⟩
  have hrun : Trace (VmxoffStep sampleVmxoffVcpu shvUseVmxoff)
      { sampleVmxState with launched := fun _ => false } [none] sampleVmxState :=
    .snoc  .nil (.other rfl fun _ => rfl)
  obtain ⟨hw', hc, hiff, -⟩ := shv_guest_test_vmxoff_iff hready (by decide) hrun true
  obtain ⟨-, rfl⟩ := Prod.mk.inj (Option.some.inj (hc.symm.trans rfl))
  exact hiff.mpr fun i h2 _ hi => twoWordsOf_newEsLimit (fun j hj => if_neg (by omega)) h2 hi

end Shv
