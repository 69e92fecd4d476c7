/-
# `Shv.MsrLs` — the test of the MSR lists of VM exit and VM entry

On a VM exit the CPU stores the MSRs of one list and loads those of a second, and on a VM entry it
loads those of a third.  `shv_guest_test_msr_ls` sets the lists up with one VMCALL and checks what
has become of them with another: the first saves nine MSRs and arms the lists, the second compares
and puts everything back.  In between the guest may exit any number of times.

The nine MSRs stand in three rows, the last of machine-check MSRs that not every CPU has.  Column 0
is stored on exit, column 1 loaded on exit, column 2 loaded on entry.  `Armed` is what holds from
the first VMCALL on, whatever exits and entries happen, and `msr_ls_restores` is the result for any
number of runs of the test.
-/
import Shv.Bitfield
import Shv.Lib.Leads
import Mathlib.Logic.Function.Iterate

namespace Shv

open Leads (run_bind)

/-! ## The machine -/

def msrEfer : BitVec 32 := 0xc0000080

def msrIa32Pat : BitVec 32 := 0x277

def shvUseMsrLoad : BitVec 64 := 1

/-- The MSRs of the test: three rows of three. -/
def lsMsr : Nat → Nat → BitVec 32
  | 0, 0 => 0x20a
  | 0, 1 => 0x20b
  | 0, _ => 0x20c
  | 1, 0 => msrEfer
  | 1, 1 => 0xc0000081
  | 1, _ => msrIa32Pat
  | _, 0 => 0x402
  | _, 1 => 0x403
  | _, _ => 0x406

/-- Which MSRs RDMSR and WRMSR accept; the others fault.  Every CPU has the first two rows, and the
two capability MSRs the test reads. -/
structure MsrHardware where
  readable : BitVec 32 → Bool
  writable : BitVec 32 → Bool
  readable_rows : ∀ i < 2, ∀ j < 3, readable (lsMsr i j) = true
  writable_rows : ∀ i < 2, ∀ j < 3, writable (lsMsr i j) = true
  readable_mtrrCap : readable 0xfe = true
  readable_mcgCap : readable 0x179 = true

/-- `msr_entry_t`. -/
structure MsrEntry where
  index : BitVec 32
  data : BitVec 64
  deriving DecidableEq, Repr

/-- `shv_guest_test_msr_ls_data_t`. -/
structure MsrLsData where
  skipMcMsrs : Bool
  mcMsrs : Nat → BitVec 32
  oldVals : Nat → Nat → BitVec 64

/-- The MSRs of the CPU (guest and host share them), the three lists with their counts in the VMCS,
and the variable of the guest that both VMCALLs work on. -/
structure MsrLsState where
  msrs : BitVec 32 → BitVec 64
  vmexitMsrstoreCount : Nat
  vmexitMsrloadCount : Nat
  vmentryMsrloadCount : Nat
  myVmexitMsrstore : Nat → MsrEntry
  myVmexitMsrload : Nat → MsrEntry
  myVmentryMsrload : Nat → MsrEntry
  data : MsrLsData

/-- The first `n` entries of a list are loaded. -/
def loadMsrs (list : Nat → MsrEntry) (n : Nat) (msrs : BitVec 32 → BitVec 64) :
    BitVec 32 → BitVec 64 :=
  (List.range n).foldl (fun msrs i => Function.update msrs (list i).index (list i).data) msrs

/-- A VM exit: the exit-store list is stored, then the exit-load list is loaded. -/
def vmExit (s : MsrLsState) : MsrLsState :=
  { s with
    myVmexitMsrstore := fun i =>
      if i < s.vmexitMsrstoreCount then
        { s.myVmexitMsrstore i with data := s.msrs (s.myVmexitMsrstore i).index }
      else s.myVmexitMsrstore i
    msrs := loadMsrs s.myVmexitMsrload s.vmexitMsrloadCount s.msrs }

/-- A VM entry: the entry-load list is loaded. -/
def vmEntry (s : MsrLsState) : MsrLsState :=
  { s with msrs := loadMsrs s.myVmentryMsrload s.vmentryMsrloadCount s.msrs }

/-! ## The test -/

/-- Code of the hypervisor on this state; `none` is a failed assertion or a fault. -/
abbrev MsrRun := StateT MsrLsState Option

variable (hw : MsrHardware)

def rdmsr64 (index : BitVec 32) : MsrRun (BitVec 64) := fun s =>
  if hw.readable index then some (s.msrs index, s) else none

def wrmsr64 (index : BitVec 32) (value : BitVec 64) : MsrRun Unit := fun s =>
  if hw.writable index then some ((), { s with msrs := Function.update s.msrs index value })
  else none

/-- `_rdmsr_safe`: the value, unless the read faults. -/
def rdmsrSafe (index : BitVec 32) : MsrRun (Option (BitVec 64)) := fun s =>
  some (if hw.readable index then some (s.msrs index) else none, s)

/-- `_wrmsr_safe`: whether the write faults. -/
def wrmsrSafe (index : BitVec 32) (value : BitVec 64) : MsrRun Bool := fun s =>
  if hw.writable index then
    some (false, { s with msrs := Function.update s.msrs index value })
  else some (true, s)

def assertMsr (b : Bool) : MsrRun Unit := fun s => (cAssert b).map fun u => (u, s)

def msrWritable (index : BitVec 32) : MsrRun Bool := do
  match ← rdmsrSafe hw index with
  | none => return false
  | some oldVal =>
      if ← wrmsrSafe hw index (oldVal ^^^ 0x1234abcdbeef6789#64) then
        return false
      else
        let faulted ← wrmsrSafe hw index oldVal
        assertMsr !faulted
        return true

/-- `(rdmsr64(0x179U) & 0xff) > 1 && msr_writable(0x402)`. -/
def mcProbe : MsrRun Bool := do
  let mcgCap ← rdmsr64 hw 0x179
  if mcgCap &&& 0xff#64 > 1#64 then msrWritable hw 0x402 else return false

/-- VMCALL 12: the support of the machine-check MSRs is checked. -/
def checkMcMsrs : MsrRun Unit := do
  if ← mcProbe hw then
    let writable403 ← msrWritable hw 0x403
    assertMsr writable403
    let writable406 ← msrWritable hw 0x406
    assertMsr writable406
    modify fun s => { s with data := { s.data with
      skipMcMsrs := false
      mcMsrs := fun j => if j = 0 then 0x402 else if j = 1 then 0x403 else 0x406 } }
  else
    modify fun s => { s with data := { s.data with skipMcMsrs := true } }

/-- `if (!data->skip_mc_msrs) { … }`. -/
def whenMc (data : MsrLsData) (body : MsrRun Unit) : MsrRun Unit :=
  if !data.skipMcMsrs then body else return

/-- `data->old_vals[i][j] = rdmsr64(index)`. -/
def saveOld (i j : Nat) (index : BitVec 32) : MsrRun Unit := do
  let value ← rdmsr64 hw index
  modify fun s => { s with data := { s.data with
    oldVals := fun i' j' => if i' = i ∧ j' = j then value else s.data.oldVals i' j' } }

def saveOldMsrs : MsrRun Unit := do
  saveOld hw 0 0 0x20a
  saveOld hw 0 1 0x20b
  saveOld hw 0 2 0x20c
  saveOld hw 1 0 msrEfer
  saveOld hw 1 1 0xc0000081
  saveOld hw 1 2 msrIa32Pat
  let data := (← get).data
  whenMc data do
    saveOld hw 2 0 (data.mcMsrs 0)
    saveOld hw 2 1 (data.mcMsrs 1)
    saveOld hw 2 2 (data.mcMsrs 2)

def setCounts (n : Nat) : MsrRun Unit :=
  modify fun s => { s with
    vmexitMsrstoreCount := n
    vmexitMsrloadCount := n
    vmentryMsrloadCount := n }

/-- The experiment is set: the counts and the MSRs. -/
def setExperiment : MsrRun Unit := do
  let data := (← get).data
  setCounts (if !data.skipMcMsrs then 3 else 2)
  let mtrrCap ← rdmsr64 hw 0xfe
  assertMsr (mtrrCap &&& 0xff#64 > 6#64)
  wrmsr64 hw 0x20a 0x00000000aaaaa000#64
  wrmsr64 hw 0x20b 0x00000000deadb000#64
  wrmsr64 hw 0x20c 0x00000000deadc000#64
  whenMc data do
    wrmsr64 hw (data.mcMsrs 0) 0x2222222222222222#64
    wrmsr64 hw (data.mcMsrs 1) 0xdeaddeadbeefbeef#64
    wrmsr64 hw (data.mcMsrs 2) 0xdeaddeadbeefbeef#64
  let pat ← rdmsr64 hw msrIa32Pat
  assertMsr (pat == 0x0007040600070406#64)

def setStore (i : Nat) (entry : MsrEntry) : MsrRun Unit :=
  modify fun s => { s with myVmexitMsrstore := Function.update s.myVmexitMsrstore i entry }

def setLoad (i : Nat) (entry : MsrEntry) : MsrRun Unit :=
  modify fun s => { s with myVmexitMsrload := Function.update s.myVmexitMsrload i entry }

def setEntry (i : Nat) (entry : MsrEntry) : MsrRun Unit :=
  modify fun s => { s with myVmentryMsrload := Function.update s.myVmentryMsrload i entry }

def fillLists : MsrRun Unit := do
  let data := (← get).data
  setStore 0 ⟨0x20a, 0x00000000deada000⟩
  setStore 1 ⟨msrEfer, 0x00000000deada000⟩
  whenMc data do setStore 2 ⟨data.mcMsrs 0, 0xdeaddeadbeefbeef⟩
  setLoad 0 ⟨0x20b, 0x00000000bbbbb000⟩
  setLoad 1 ⟨0xc0000081, 0x0000000011111000⟩
  whenMc data do setLoad 2 ⟨data.mcMsrs 1, 0x3333333333333333⟩
  setEntry 0 ⟨0x20c, 0x00000000ccccc000⟩
  setEntry 1 ⟨msrIa32Pat, 0x0007060400070604⟩
  whenMc data do setEntry 2 ⟨data.mcMsrs 2, 0x6666666666666666⟩

/-- VMCALL 16: the effects are checked. -/
def checkEffects : MsrRun Unit := do
  let s ← get
  assertMsr ((s.myVmexitMsrstore 0).data == 0x00000000aaaaa000#64)
  assertMsr ((← rdmsr64 hw 0x20b) == 0x00000000bbbbb000#64)
  assertMsr ((← rdmsr64 hw 0x20c) == 0x00000000ccccc000#64)
  assertMsr ((s.myVmexitMsrstore 1).data == (← rdmsr64 hw msrEfer))
  assertMsr ((← rdmsr64 hw msrIa32Pat) == 0x0007060400070604#64)
  assertMsr ((← rdmsr64 hw 0xc0000081) == 0x0000000011111000#64)
  whenMc s.data do
    assertMsr ((s.myVmexitMsrstore 2).data == 0x2222222222222222#64)
    assertMsr ((← rdmsr64 hw (s.data.mcMsrs 1)) == 0x3333333333333333#64)
    assertMsr ((← rdmsr64 hw (s.data.mcMsrs 2)) == 0x6666666666666666#64)

def resetState : MsrRun Unit := do
  setCounts 0
  let data := (← get).data
  wrmsr64 hw msrIa32Pat 0x0007040600070406#64
  wrmsr64 hw 0x20a (data.oldVals 0 0)
  wrmsr64 hw 0x20b (data.oldVals 0 1)
  wrmsr64 hw 0x20c (data.oldVals 0 2)
  wrmsr64 hw msrEfer (data.oldVals 1 0)
  wrmsr64 hw 0xc0000081 (data.oldVals 1 1)
  wrmsr64 hw msrIa32Pat (data.oldVals 1 2)
  whenMc data do
    wrmsr64 hw (data.mcMsrs 0) (data.oldVals 2 0)
    wrmsr64 hw (data.mcMsrs 1) (data.oldVals 2 1)
    wrmsr64 hw (data.mcMsrs 2) (data.oldVals 2 2)

/-- `shv_guest_test_msr_ls_vmexit_handler` on a VMCALL. -/
def shvGuestTestMsrLsVmexitHandler (eax : BitVec 32) : MsrRun Unit := do
  if eax = 12#32 then
    checkMcMsrs hw
    saveOldMsrs hw
    setExperiment hw
    fillLists
  else if eax = 16#32 then
    checkEffects hw
    resetState hw
  else
    assertMsr false

/-- A VMCALL of the guest: exit, handler, re-entry. -/
def msrLsVmcall (eax : BitVec 32) : MsrRun Unit := do
  modify vmExit
  shvGuestTestMsrLsVmexitHandler hw eax
  modify vmEntry

/-- `shv_guest_test_msr_ls`, with `exits` other exits and re-entries between the two VMCALLs; the
handler leaves these to `vmexit_handler`.  What `data` holds at first is not defined. -/
def shvGuestTestMsrLs (gShvOpt : BitVec 64) (exits : Nat) (data : MsrLsData) : MsrRun Unit := do
  if gShvOpt &&& shvUseMsrLoad ≠ 0 then
    modify fun s => { s with data := data }
    msrLsVmcall hw 12#32
    modify fun s => (fun s => vmEntry (vmExit s))^[exits] s
    msrLsVmcall hw 16#32

/-! ## The commands -/

section Commands

variable {hw} {s s' : MsrLsState} {index : BitVec 32} {i : Nat} {entry : MsrEntry} {α β : Type}

theorem MsrRun.get_bind (f : MsrLsState → MsrRun β) (s : MsrLsState) :
    ((get : MsrRun MsrLsState) >>= f) s = f s s := rfl

theorem MsrRun.modify_bind (g : MsrLsState → MsrLsState) (f : PUnit → MsrRun β) (s : MsrLsState) :
    ((modify g : MsrRun PUnit) >>= f) s = f ⟨⟩ (g s) := rfl

theorem rdmsr64_run (h : hw.readable index = true) : rdmsr64 hw index s = some (s.msrs index, s) :=
  if_pos h

def MsrLsState.withMsrs (s : MsrLsState) (msrs : BitVec 32 → BitVec 64) : MsrLsState :=
  { s with msrs := msrs }

def MsrLsState.write (s : MsrLsState) (index : BitVec 32) (value : BitVec 64) : MsrLsState :=
  s.withMsrs (Function.update s.msrs index value)

@[simp] theorem MsrLsState.msrs_write (s : MsrLsState) (index : BitVec 32) (value : BitVec 64) :
    (s.write index value).msrs = Function.update s.msrs index value := rfl

@[simp] theorem MsrLsState.data_write (s : MsrLsState) (index : BitVec 32) (value : BitVec 64) :
    (s.write index value).data = s.data := rfl

theorem wrmsr64_run (h : hw.writable index = true) (value : BitVec 64) :
    wrmsr64 hw index value s = some ((), s.write index value) :=
  if_pos h

theorem wrmsr64_three {i₀ i₁ i₂ : BitVec 32} (h₀ : hw.writable i₀ = true)
    (h₁ : hw.writable i₁ = true) (h₂ : hw.writable i₂ = true) (v₀ v₁ v₂ : BitVec 64) :
    (do wrmsr64 hw i₀ v₀; wrmsr64 hw i₁ v₁; wrmsr64 hw i₂ v₂ : MsrRun Unit) s =
      some ((), ((s.write i₀ v₀).write i₁ v₁).write i₂ v₂) := by
  rw [run_bind (wrmsr64_run h₀ _), run_bind (wrmsr64_run h₁ _), wrmsr64_run h₂]

theorem whenMc_skip {data : MsrLsData} {body : MsrRun Unit} (h : data.skipMcMsrs = true) :
    whenMc data body s = some ((), s) := by
  rw [whenMc, h]
  rfl

theorem whenMc_row {data : MsrLsData} {body : MsrRun Unit} (h : data.skipMcMsrs = false) :
    whenMc data body = body := by
  rw [whenMc, h]
  rfl

theorem assertMsr_run {b : Bool} (h : b = true) : assertMsr b s = some ((), s) := by
  rw [h]
  rfl

/-- RDMSR and WRMSR both accept the MSR. -/
def MsrHardware.accessible (hw : MsrHardware) (index : BitVec 32) : Bool :=
  hw.readable index && hw.writable index

theorem msrWritable_run (index : BitVec 32) (s : MsrLsState) :
    msrWritable hw index s = some (hw.accessible index, s) := by
  have hback : Function.update (Function.update s.msrs index
      (s.msrs index ^^^ 0x1234abcdbeef6789#64)) index (s.msrs index) = s.msrs := by
    rw [Function.update_idem, Function.update_eq_self]
  unfold msrWritable rdmsrSafe wrmsrSafe assertMsr MsrHardware.accessible
  cases hr : hw.readable index with
  | false => rfl
  | true =>
      cases hwr : hw.writable index with
      | false => rfl
      | true =>
          exact congrArg (fun msrs => some (true, { s with msrs := msrs })) hback

/-- The probe of the first machine-check MSR. -/
def mcProbeResult (hw : MsrHardware) (msrs : BitVec 32 → BitVec 64) : Bool :=
  decide (msrs 0x179 &&& 0xff#64 > 1#64) && hw.accessible 0x402

theorem mcProbe_run (s : MsrLsState) : mcProbe hw s = some (mcProbeResult hw s.msrs, s) := by
  rw [mcProbe, run_bind (rdmsr64_run hw.readable_mcgCap), mcProbeResult]
  by_cases hcap : s.msrs 0x179 &&& 0xff#64 > 1#64
  · rw [if_pos hcap, msrWritable_run, decide_eq_true hcap, Bool.true_and]
  · rw [if_neg hcap, decide_eq_false hcap, Bool.false_and]
    rfl

/-- The test may use the MSRs of the third row if it does not skip them. -/
def McOk (hw : MsrHardware) (data : MsrLsData) : Prop :=
  data.skipMcMsrs = false →
    ∀ j < 3, data.mcMsrs j = lsMsr 2 j ∧ hw.readable (lsMsr 2 j) = true ∧
      hw.writable (lsMsr 2 j) = true

/-- How many rows the test uses. -/
def MsrLsData.rows (data : MsrLsData) : Nat := if data.skipMcMsrs then 2 else 3

theorem MsrLsData.rows_skip {data : MsrLsData} (h : data.skipMcMsrs = true) : data.rows = 2 :=
  if_pos h

theorem MsrLsData.rows_mc {data : MsrLsData} (h : data.skipMcMsrs = false) : data.rows = 3 :=
  if_neg (Bool.not_eq_true _ ▸ h)

theorem MsrLsData.rows_le (data : MsrLsData) : data.rows ≤ 3 := by
  rw [MsrLsData.rows]
  split <;> decide

theorem MsrLsData.two_le_rows (data : MsrLsData) : 2 ≤ data.rows := by
  rw [MsrLsData.rows]
  split <;> decide

theorem checkMcMsrs_run (hprobe : mcProbeResult hw s.msrs = true →
      hw.accessible 0x403 = true ∧ hw.accessible 0x406 = true) :
    ∃ data, checkMcMsrs hw s = some ((), { s with data := data }) ∧ McOk hw data := by
  rw [checkMcMsrs, run_bind (mcProbe_run s)]
  cases hp : mcProbeResult hw s.msrs with
  | false => exact ⟨_, rfl, fun h => nomatch h⟩
  | true =>
      obtain ⟨h403, h406⟩ := hprobe hp
      have h402 : hw.accessible 0x402 = true := by
        rw [mcProbeResult, Bool.and_eq_true] at hp
        exact hp.2
      have hrow : ∀ j < 3, hw.accessible (lsMsr 2 j) = true := by
        intro j hj
        interval_cases j
        · exact h402
        · exact h403
        · exact h406
      rw [if_pos rfl, run_bind (msrWritable_run _ s), run_bind (assertMsr_run h403),
        run_bind (msrWritable_run _ s), run_bind (assertMsr_run h406)]
      refine ⟨_, rfl, fun _ j hj => ⟨?_, Bool.and_eq_true_iff.mp (hrow j hj)⟩⟩
      interval_cases j <;> rfl

/-- The first two rows can be read and written. -/
structure RowsOk (ok : BitVec 32 → Bool) : Prop where
  physbase5 : ok 0x20a = true
  physmask5 : ok 0x20b = true
  physbase6 : ok 0x20c = true
  efer : ok msrEfer = true
  star : ok 0xc0000081 = true
  pat : ok msrIa32Pat = true

theorem rowsOk_of_forall {ok : BitVec 32 → Bool} (h : ∀ i < 2, ∀ j < 3, ok (lsMsr i j) = true) :
    RowsOk ok :=
  ⟨h 0 (by decide) 0 (by decide), h 0 (by decide) 1 (by decide), h 0 (by decide) 2 (by decide),
    h 1 (by decide) 0 (by decide), h 1 (by decide) 1 (by decide), h 1 (by decide) 2 (by decide)⟩

/-- One saved value more. -/
def saved (old : Nat → Nat → BitVec 64) (i j : Nat) (value : BitVec 64) : Nat → Nat → BitVec 64 :=
  fun i' j' => if i' = i ∧ j' = j then value else old i' j'

theorem saveOld_run (i j : Nat) (h : hw.readable index = true) :
    saveOld hw i j index s = some ((), { s with data := { s.data with
      oldVals := saved s.data.oldVals i j (s.msrs index) } }) :=
  run_bind (rdmsr64_run h)

theorem saveOldMsrs_run (hmc : McOk hw s.data) :
    ∃ old, saveOldMsrs hw s = some ((), { s with data := { s.data with oldVals := old } }) ∧
      ∀ i < s.data.rows, ∀ j < 3, old i j = s.msrs (lsMsr i j) := by
  have hr := rowsOk_of_forall hw.readable_rows
  rw [saveOldMsrs, run_bind (saveOld_run 0 0 hr.physbase5), run_bind (saveOld_run 0 1 hr.physmask5),
    run_bind (saveOld_run 0 2 hr.physbase6), run_bind (saveOld_run 1 0 hr.efer),
    run_bind (saveOld_run 1 1 hr.star), run_bind (saveOld_run 1 2 hr.pat), MsrRun.get_bind]
  dsimp only
  rw [MsrLsData.rows]
  cases hskip : s.data.skipMcMsrs with
  | true =>
      refine ⟨_, whenMc_skip rfl, fun i hi j hj => ?_⟩
      rw [if_pos rfl] at hi
      interval_cases i <;> interval_cases j <;> rfl
  | false =>
      obtain ⟨h0, hr0, -⟩ := hmc hskip 0 (by decide)
      obtain ⟨h1, hr1, -⟩ := hmc hskip 1 (by decide)
      obtain ⟨h2, hr2, -⟩ := hmc hskip 2 (by decide)
      rw [h0, h1, h2, whenMc_row rfl, run_bind (saveOld_run 2 0 hr0),
        run_bind (saveOld_run 2 1 hr1), saveOld_run 2 2 hr2]
      refine ⟨_, rfl, fun i hi j hj => ?_⟩
      rw [if_neg Bool.false_ne_true] at hi
      interval_cases i <;> interval_cases j <;> rfl

/-- What the MSRs of column 0 hold while the lists are armed. -/
def storedVal (msrs : BitVec 32 → BitVec 64) : Nat → BitVec 64
  | 0 => 0x00000000aaaaa000
  | 1 => msrs msrEfer
  | _ => 0x2222222222222222

def MsrLsState.withCounts (s : MsrLsState) (n : Nat) : MsrLsState :=
  { s with vmexitMsrstoreCount := n, vmexitMsrloadCount := n, vmentryMsrloadCount := n }

@[simp] theorem MsrLsState.msrs_withCounts (s : MsrLsState) (n : Nat) :
    (s.withCounts n).msrs = s.msrs := rfl

theorem setCounts_run (n : Nat) : setCounts n s = some ((), s.withCounts n) := rfl

/-- The MSRs once the experiment is set. -/
structure TestVals (n : Nat) (old msrs : BitVec 32 → BitVec 64) : Prop where
  stored : ∀ i < n, msrs (lsMsr i 0) = storedVal old i
  other : ∀ x, (∀ i < n, ∀ j < 3, x ≠ lsMsr i j) → msrs x = old x

theorem update_three {f : BitVec 32 → BitVec 64} {i₀ i₁ i₂ x : BitVec 32} {v₀ v₁ v₂ : BitVec 64}
    (h₀ : x ≠ i₀) (h₁ : x ≠ i₁) (h₂ : x ≠ i₂) :
    Function.update (Function.update (Function.update f i₀ v₀) i₁ v₁) i₂ v₂ x = f x := by
  rw [Function.update_of_ne h₂, Function.update_of_ne h₁, Function.update_of_ne h₀]

theorem ne_row {n i : Nat} {x : BitVec 32} (hx : ∀ i < n, ∀ j < 3, x ≠ lsMsr i j) (hi : i < n) :
    x ≠ lsMsr i 0 ∧ x ≠ lsMsr i 1 ∧ x ≠ lsMsr i 2 :=
  ⟨hx i hi 0 (by decide), hx i hi 1 (by decide), hx i hi 2 (by decide)⟩

theorem setExperiment_run (hmc : McOk hw s.data) (hcap : s.msrs 0xfe &&& 0xff#64 > 6#64)
    (hpat : s.msrs msrIa32Pat = 0x0007040600070406#64) :
    ∃ msrs, setExperiment hw s = some ((), (s.withCounts s.data.rows).withMsrs msrs) ∧
      TestVals s.data.rows s.msrs msrs := by
  have hw' := rowsOk_of_forall hw.writable_rows
  have hr := rowsOk_of_forall hw.readable_rows
  have hcounts : (if !s.data.skipMcMsrs then 3 else 2) = s.data.rows := by
    rw [MsrLsData.rows]
    cases s.data.skipMcMsrs <;> rfl
  rw [setExperiment, MsrRun.get_bind]
  have hcap' : decide ((s.withCounts s.data.rows).msrs 0xfe &&& 0xff#64 > 6#64) = true :=
    decide_eq_true hcap
  rw [hcounts, run_bind (setCounts_run _), run_bind (rdmsr64_run hw.readable_mtrrCap),
    run_bind (assertMsr_run hcap'), run_bind (wrmsr64_run hw'.physbase5 _),
    run_bind (wrmsr64_run hw'.physmask5 _), run_bind (wrmsr64_run hw'.physbase6 _)]
  cases hskip : s.data.skipMcMsrs with
  | true =>
      have hrows := MsrLsData.rows_skip hskip
      rw [run_bind (whenMc_skip hskip), run_bind (rdmsr64_run hr.pat)]
      refine ⟨_, assertMsr_run ?_, fun i hi => ?_, fun x hx => ?_⟩
      · simpa [msrIa32Pat] using hpat
      · rw [hrows] at hi
        interval_cases i <;> simp [lsMsr, storedVal, msrEfer]
      · obtain ⟨h0a, h0b, h0c⟩ := ne_row hx (show 0 < s.data.rows by omega)
        exact update_three h0a h0b h0c
  | false =>
      have hrows := MsrLsData.rows_mc hskip
      obtain ⟨h₀, -, hw₀⟩ := hmc hskip 0 (by decide)
      obtain ⟨h₁, -, hw₁⟩ := hmc hskip 1 (by decide)
      obtain ⟨h₂, -, hw₂⟩ := hmc hskip 2 (by decide)
      rw [whenMc_row hskip, h₀, h₁, h₂, run_bind (wrmsr64_three hw₀ hw₁ hw₂ _ _ _),
        run_bind (rdmsr64_run hr.pat)]
      refine ⟨_, assertMsr_run ?_, fun i hi => ?_, fun x hx => ?_⟩
      · simpa [msrIa32Pat, lsMsr] using hpat
      · rw [hrows] at hi
        interval_cases i <;> simp [lsMsr, storedVal, msrEfer]
      · obtain ⟨h0a, h0b, h0c⟩ := ne_row hx (show 0 < s.data.rows by omega)
        obtain ⟨h2a, h2b, h2c⟩ := ne_row hx (show 2 < s.data.rows by omega)
        exact (update_three h2a h2b h2c).trans (update_three h0a h0b h0c)

/-- What the exit-load list puts into the MSRs of column 1. -/
def loadVal : Nat → BitVec 64
  | 0 => 0x00000000bbbbb000
  | 1 => 0x0000000011111000
  | _ => 0x3333333333333333

/-- What the entry-load list puts into the MSRs of column 2. -/
def entryVal : Nat → BitVec 64
  | 0 => 0x00000000ccccc000
  | 1 => 0x0007060400070604
  | _ => 0x6666666666666666

/-- The lists name the first `n` rows. -/
structure ListsOk (n : Nat) (s : MsrLsState) : Prop where
  store : ∀ i < n, (s.myVmexitMsrstore i).index = lsMsr i 0
  load : ∀ i < n, s.myVmexitMsrload i = ⟨lsMsr i 1, loadVal i⟩
  entry : ∀ i < n, s.myVmentryMsrload i = ⟨lsMsr i 2, entryVal i⟩

/-- The state with an entry of the exit-store list set. -/
def MsrLsState.putStore (s : MsrLsState) (i : Nat) (entry : MsrEntry) : MsrLsState :=
  { s with myVmexitMsrstore := Function.update s.myVmexitMsrstore i entry }

/-- The state with an entry of the exit-load list set. -/
def MsrLsState.putLoad (s : MsrLsState) (i : Nat) (entry : MsrEntry) : MsrLsState :=
  { s with myVmexitMsrload := Function.update s.myVmexitMsrload i entry }

/-- The state with an entry of the entry-load list set. -/
def MsrLsState.putEntry (s : MsrLsState) (i : Nat) (entry : MsrEntry) : MsrLsState :=
  { s with myVmentryMsrload := Function.update s.myVmentryMsrload i entry }

/-- Everything but the lists is as before. -/
structure SameButLists (s s' : MsrLsState) : Prop where
  msrs : s'.msrs = s.msrs
  storeCount : s'.vmexitMsrstoreCount = s.vmexitMsrstoreCount
  loadCount : s'.vmexitMsrloadCount = s.vmexitMsrloadCount
  entryCount : s'.vmentryMsrloadCount = s.vmentryMsrloadCount
  data : s'.data = s.data

theorem SameButLists.refl (s : MsrLsState) : SameButLists s s := ⟨rfl, rfl, rfl, rfl, rfl⟩

theorem SameButLists.putStore (h : SameButLists s s') :
    SameButLists s (s'.putStore i entry) :=
  ⟨h.msrs, h.storeCount, h.loadCount, h.entryCount, h.data⟩

theorem SameButLists.putLoad (h : SameButLists s s') :
    SameButLists s (s'.putLoad i entry) :=
  ⟨h.msrs, h.storeCount, h.loadCount, h.entryCount, h.data⟩

theorem SameButLists.putEntry (h : SameButLists s s') :
    SameButLists s (s'.putEntry i entry) :=
  ⟨h.msrs, h.storeCount, h.loadCount, h.entryCount, h.data⟩

theorem setStore_run (i : Nat) (entry : MsrEntry) :
    setStore i entry s = some ((), s.putStore i entry) := rfl

theorem setLoad_run (i : Nat) (entry : MsrEntry) :
    setLoad i entry s = some ((), s.putLoad i entry) := rfl

theorem setEntry_run (i : Nat) (entry : MsrEntry) :
    setEntry i entry s = some ((), s.putEntry i entry) := rfl

theorem fillLists_run (hmc : McOk hw s.data) :
    ∃ s', fillLists s = some ((), s') ∧ ListsOk s.data.rows s' ∧ SameButLists s s' := by
  rw [fillLists, MsrRun.get_bind, run_bind (setStore_run _ _), run_bind (setStore_run _ _)]
  cases hskip : s.data.skipMcMsrs with
  | true =>
      have hrows := MsrLsData.rows_skip hskip
      rw [run_bind (whenMc_skip hskip), run_bind (setLoad_run _ _), run_bind (setLoad_run _ _),
        run_bind (whenMc_skip hskip), run_bind (setEntry_run _ _), run_bind (setEntry_run _ _),
        whenMc_skip hskip]
      refine ⟨_, rfl, ⟨?_, ?_, ?_⟩,
        .putEntry (.putEntry (.putLoad (.putLoad (.putStore (.putStore (.refl s))))))⟩
      all_goals
        intro i hi
        rw [hrows] at hi
        interval_cases i <;> rfl
  | false =>
      have hrows := MsrLsData.rows_mc hskip
      obtain ⟨h₀, -, -⟩ := hmc hskip 0 (by decide)
      obtain ⟨h₁, -, -⟩ := hmc hskip 1 (by decide)
      obtain ⟨h₂, -, -⟩ := hmc hskip 2 (by decide)
      rw [h₀, h₁, h₂, whenMc_row hskip, run_bind (setStore_run _ _), run_bind (setLoad_run _ _),
        run_bind (setLoad_run _ _), whenMc_row hskip, run_bind (setLoad_run _ _),
        run_bind (setEntry_run _ _), run_bind (setEntry_run _ _), whenMc_row hskip]
      refine ⟨_, rfl, ⟨?_, ?_, ?_⟩,
        .putEntry (.putEntry (.putEntry (.putLoad (.putLoad (.putLoad
          (.putStore (.putStore (.putStore (.refl s)))))))))⟩
      all_goals
        intro i hi
        rw [hrows] at hi
        interval_cases i <;> rfl

end Commands

/-! ## The invariant -/

variable {hw} {s s' : MsrLsState} {old : BitVec 32 → BitVec 64}

/-- **The lists are armed**; `old` is what the MSRs held before the test. -/
structure Armed (hw : MsrHardware) (old : BitVec 32 → BitVec 64) (s : MsrLsState) : Prop where
  mc : McOk hw s.data
  storeCount : s.vmexitMsrstoreCount = s.data.rows
  loadCount : s.vmexitMsrloadCount = s.data.rows
  entryCount : s.vmentryMsrloadCount = s.data.rows
  oldVals : ∀ i < s.data.rows, ∀ j < 3, s.data.oldVals i j = old (lsMsr i j)
  lists : ListsOk s.data.rows s
  vals : TestVals s.data.rows old s.msrs

/-- The last exit has had its effect. -/
structure Exited (old : BitVec 32 → BitVec 64) (s : MsrLsState) : Prop where
  stored : ∀ i < s.data.rows, (s.myVmexitMsrstore i).data = storedVal old i
  loaded : ∀ i < s.data.rows, s.msrs (lsMsr i 1) = loadVal i

/-- The last entry has had its effect. -/
def Entered (s : MsrLsState) : Prop := ∀ i < s.data.rows, s.msrs (lsMsr i 2) = entryVal i

/-- Where an MSR of the test stands. -/
def lsPos (x : BitVec 32) : Nat × Nat :=
  if x = 0x20a then (0, 0) else if x = 0x20b then (0, 1) else if x = 0x20c then (0, 2)
  else if x = msrEfer then (1, 0) else if x = 0xc0000081 then (1, 1)
  else if x = msrIa32Pat then (1, 2) else if x = 0x402 then (2, 0) else if x = 0x403 then (2, 1)
  else (2, 2)

theorem lsPos_lsMsr {i j : Nat} (hi : i < 3) (hj : j < 3) : lsPos (lsMsr i j) = (i, j) := by
  interval_cases i <;> interval_cases j <;> rfl

theorem lsMsr_inj {i j i' j' : Nat} (hi : i < 3) (hj : j < 3) (hi' : i' < 3) (hj' : j' < 3)
    (h : lsMsr i j = lsMsr i' j') : i = i' ∧ j = j' := by
  have hpos := congrArg lsPos h
  rw [lsPos_lsMsr hi hj, lsPos_lsMsr hi' hj'] at hpos
  exact ⟨congrArg Prod.fst hpos, congrArg Prod.snd hpos⟩

theorem loadMsrs_of_ne {list : Nat → MsrEntry} {n : Nat} {msrs : BitVec 32 → BitVec 64}
    {x : BitVec 32} (h : ∀ i < n, x ≠ (list i).index) : loadMsrs list n msrs x = msrs x := by
  induction n with
  | zero => rfl
  | succ n ih =>
      rw [loadMsrs, List.range_succ, List.foldl_append, List.foldl_cons, List.foldl_nil,
        Function.update_of_ne (h n (Nat.lt_succ_self n))]
      exact ih fun i hi => h i (Nat.lt_succ_of_lt hi)

theorem loadMsrs_index {list : Nat → MsrEntry} {n i : Nat} {msrs : BitVec 32 → BitVec 64}
    (hi : i < n) (h : ∀ j < n, (list i).index = (list j).index → i = j) :
    loadMsrs list n msrs (list i).index = (list i).data := by
  induction n with
  | zero => exact absurd hi (Nat.not_lt_zero i)
  | succ n ih =>
      rw [loadMsrs, List.range_succ, List.foldl_append, List.foldl_cons, List.foldl_nil]
      by_cases heq : i = n
      · rw [heq, Function.update_self]
      · rw [Function.update_of_ne fun hidx => heq (h n (Nat.lt_succ_self n) hidx)]
        exact ih (by omega) fun j hj => h j (Nat.lt_succ_of_lt hj)

theorem vmcall12_run (hprobe : mcProbeResult hw s.msrs = true →
      hw.accessible 0x403 = true ∧ hw.accessible 0x406 = true)
    (hcap : s.msrs 0xfe &&& 0xff#64 > 6#64) (hpat : s.msrs msrIa32Pat = 0x0007040600070406#64) :
    ∃ s', shvGuestTestMsrLsVmexitHandler hw 12#32 s = some ((), s') ∧ Armed hw s.msrs s' := by
  obtain ⟨data, hcheck, hmc⟩ := checkMcMsrs_run hprobe
  obtain ⟨oldVals, hsave, hold⟩ := saveOldMsrs_run (s := { s with data := data }) hmc
  obtain ⟨msrs, hset, hvals⟩ := setExperiment_run
    (s := { s with data := { data with oldVals := oldVals } }) hmc hcap hpat
  obtain ⟨s', hfill, hlists, hsame⟩ := fillLists_run (s := MsrLsState.withMsrs
    (MsrLsState.withCounts { s with data := { data with oldVals := oldVals } } data.rows) msrs) hmc
  have hdata : s'.data = { data with oldVals := oldVals } := hsame.data
  have hrows : s'.data.rows = data.rows := by rw [hdata]; rfl
  refine ⟨s', ?_, ?_⟩
  · rw [shvGuestTestMsrLsVmexitHandler, if_pos rfl, run_bind hcheck, run_bind hsave,
      run_bind hset]
    exact hfill
  · refine ⟨?_, ?_, ?_, ?_, ?_, ?_, ?_⟩
    · rw [hdata]
      exact hmc
    · rw [hrows]
      exact hsame.storeCount
    · rw [hrows]
      exact hsame.loadCount
    · rw [hrows]
      exact hsame.entryCount
    · rw [hrows, hdata]
      exact hold
    · rw [hrows]
      exact hlists
    · rw [hrows, hsame.msrs]
      exact hvals

/-! ## Exits and entries -/

theorem loadMsrs_column {list : Nat → MsrEntry} {val : Nat → BitVec 64} {n c i j : Nat}
    (hlist : ∀ k < n, list k = ⟨lsMsr k c, val k⟩) (hn : n ≤ 3) (hc : c < 3) (hi : i < 3)
    (hj : j < 3) (msrs : BitVec 32 → BitVec 64) :
    loadMsrs list n msrs (lsMsr i j) = if j = c ∧ i < n then val i else msrs (lsMsr i j) := by
  have hindex : ∀ k < n, (list k).index = lsMsr k c := fun k hk => by rw [hlist k hk]
  by_cases hij : j = c ∧ i < n
  · obtain ⟨rfl, hrow⟩ := hij
    rw [if_pos ⟨rfl, hrow⟩, ← hindex i hrow, loadMsrs_index hrow, hlist i hrow]
    intro k hk heq
    rw [hindex i hrow, hindex k hk] at heq
    exact (lsMsr_inj hi hj (hk.trans_le hn) hj heq).1
  · rw [if_neg hij]
    refine loadMsrs_of_ne fun k hk heq => hij ?_
    rw [hindex k hk] at heq
    obtain ⟨rfl, rfl⟩ := lsMsr_inj hi hj (hk.trans_le hn) hc heq
    exact ⟨rfl, hk⟩

/-- What loading a column leaves of the test values, if it is not column 0. -/
theorem TestVals.load {n c : Nat} {msrs : BitVec 32 → BitVec 64} {list : Nat → MsrEntry}
    {val : Nat → BitVec 64} (h : TestVals n old msrs) (hn : n ≤ 3) (hc : c < 3) (hc₀ : c ≠ 0)
    (hlist : ∀ k < n, list k = ⟨lsMsr k c, val k⟩) : TestVals n old (loadMsrs list n msrs) := by
  constructor
  · intro i hi
    rw [loadMsrs_column hlist hn hc (hi.trans_le hn) (by decide), if_neg fun hj => hc₀ hj.1.symm]
    exact h.stored i hi
  · intro x hx
    rw [loadMsrs_of_ne fun k hk => by rw [hlist k hk]; exact hx k hk c hc]
    exact h.other x hx

theorem Armed.exit (h : Armed hw old s) : Armed hw old (vmExit s) ∧ Exited old (vmExit s) := by
  have hle := s.data.rows_le
  have hmsrs : (vmExit s).msrs = loadMsrs s.myVmexitMsrload s.data.rows s.msrs := by
    rw [← h.loadCount]
    rfl
  have hstore : ∀ i < s.data.rows, (vmExit s).myVmexitMsrstore i =
      ⟨lsMsr i 0, storedVal old i⟩ := by
    intro i hi
    have hlt : i < s.vmexitMsrstoreCount := h.storeCount ▸ hi
    show (if i < s.vmexitMsrstoreCount then _ else _) = _
    rw [if_pos hlt, h.lists.store i hi, h.vals.stored i hi]
  refine ⟨⟨h.mc, h.storeCount, h.loadCount, h.entryCount, h.oldVals, ⟨?_, h.lists.load,
    h.lists.entry⟩, ?_⟩, ?_, ?_⟩
  · intro i hi
    rw [hstore i hi]
  · rw [hmsrs]
    exact h.vals.load hle (by decide) (by decide) h.lists.load
  · intro i hi
    rw [hstore i hi]
  · intro i hi
    rw [hmsrs, loadMsrs_column h.lists.load hle (by decide) (Nat.lt_of_lt_of_le hi hle)
      (by decide), if_pos ⟨rfl, hi⟩]

theorem Armed.entry (h : Armed hw old s) : Armed hw old (vmEntry s) ∧ Entered (vmEntry s) := by
  have hle := s.data.rows_le
  have hmsrs : (vmEntry s).msrs = loadMsrs s.myVmentryMsrload s.data.rows s.msrs := by
    rw [← h.entryCount]
    rfl
  refine ⟨⟨h.mc, h.storeCount, h.loadCount, h.entryCount, h.oldVals,
    ⟨h.lists.store, h.lists.load, h.lists.entry⟩, ?_⟩, ?_⟩
  · rw [hmsrs]
    exact h.vals.load hle (by decide) (by decide) h.lists.entry
  · intro i hi
    rw [hmsrs, loadMsrs_column h.lists.entry hle (by decide) (Nat.lt_of_lt_of_le hi hle)
      (by decide), if_pos ⟨rfl, hi⟩]

theorem Entered.exit (h : Armed hw old s) (he : Entered s) : Entered (vmExit s) := by
  have hle := s.data.rows_le
  intro i hi
  show loadMsrs s.myVmexitMsrload s.vmexitMsrloadCount s.msrs (lsMsr i 2) = _
  rw [h.loadCount, loadMsrs_column h.lists.load hle (by decide) (Nat.lt_of_lt_of_le hi hle)
    (by decide), if_neg fun hj => absurd hj.1 (by decide)]
  exact he i hi

theorem Armed.iterate (h : Armed hw old s) (he : Entered s) (exits : Nat) :
    Armed hw old ((fun s => vmEntry (vmExit s))^[exits] s) ∧
      Entered ((fun s => vmEntry (vmExit s))^[exits] s) := by
  induction exits with
  | zero => exact ⟨h, he⟩
  | succ exits ih =>
      rw [Function.iterate_succ_apply']
      exact ih.1.exit.1.entry

/-! ## VMCALL 16 -/

theorem checkEffects_run (h : Armed hw old s) (hx : Exited old s) (he : Entered s) :
    checkEffects hw s = some ((), s) := by
  have hr := rowsOk_of_forall hw.readable_rows
  have hrows := s.data.two_le_rows
  have h₀ : 0 < s.data.rows := by omega
  have h₁ : 1 < s.data.rows := by omega
  have hefer : (s.myVmexitMsrstore 1).data = s.msrs msrEfer :=
    (hx.stored 1 h₁).trans (h.vals.stored 1 h₁).symm
  have heffects : ((s.myVmexitMsrstore 0).data == 0x00000000aaaaa000#64) = true ∧
      (s.msrs 0x20b == 0x00000000bbbbb000#64) = true ∧
      (s.msrs 0x20c == 0x00000000ccccc000#64) = true ∧
      ((s.myVmexitMsrstore 1).data == s.msrs msrEfer) = true ∧
      (s.msrs msrIa32Pat == 0x0007060400070604#64) = true ∧
      (s.msrs 0xc0000081 == 0x0000000011111000#64) = true :=
    ⟨beq_iff_eq.mpr (hx.stored 0 h₀), beq_iff_eq.mpr (hx.loaded 0 h₀), beq_iff_eq.mpr (he 0 h₀),
      beq_iff_eq.mpr hefer, beq_iff_eq.mpr (he 1 h₁), beq_iff_eq.mpr (hx.loaded 1 h₁)⟩
  obtain ⟨e₁, e₂, e₃, e₄, e₅, e₆⟩ := heffects
  rw [checkEffects, MsrRun.get_bind, run_bind (assertMsr_run e₁),
    run_bind (rdmsr64_run hr.physmask5), run_bind (assertMsr_run e₂),
    run_bind (rdmsr64_run hr.physbase6), run_bind (assertMsr_run e₃),
    run_bind (rdmsr64_run hr.efer), run_bind (assertMsr_run e₄),
    run_bind (rdmsr64_run hr.pat), run_bind (assertMsr_run e₅),
    run_bind (rdmsr64_run hr.star), run_bind (assertMsr_run e₆)]
  cases hskip : s.data.skipMcMsrs with
  | true => exact whenMc_skip hskip
  | false =>
      have h₂ : 2 < s.data.rows := by rw [MsrLsData.rows_mc hskip]; decide
      obtain ⟨m₁, hr₁, -⟩ := h.mc hskip 1 (by decide)
      obtain ⟨m₂, hr₂, -⟩ := h.mc hskip 2 (by decide)
      have e₇ : ((s.myVmexitMsrstore 2).data == 0x2222222222222222#64) = true :=
        beq_iff_eq.mpr (hx.stored 2 h₂)
      have e₈ : (s.msrs (lsMsr 2 1) == 0x3333333333333333#64) = true :=
        beq_iff_eq.mpr (hx.loaded 2 h₂)
      rw [whenMc_row hskip, m₁, m₂, run_bind (assertMsr_run e₇), run_bind (rdmsr64_run hr₁),
        run_bind (assertMsr_run e₈), run_bind (rdmsr64_run hr₂)]
      exact assertMsr_run (beq_iff_eq.mpr (he 2 h₂))

/-- The MSRs are as before, but for some that are still to be restored. -/
def AgreesBut (todo : List (BitVec 32)) (old msrs : BitVec 32 → BitVec 64) : Prop :=
  ∀ x ∉ todo, msrs x = old x

theorem AgreesBut.restore {todo : List (BitVec 32)} {msrs : BitVec 32 → BitVec 64}
    {index : BitVec 32} {value : BitVec 64} (h : AgreesBut (index :: todo) old msrs)
    (hv : value = old index) : AgreesBut todo old (Function.update msrs index value) := by
  intro x hx
  by_cases heq : x = index
  · rw [heq, Function.update_self, hv]
  · rw [Function.update_of_ne heq]
    exact h x fun hmem => hx ((List.mem_cons.mp hmem).resolve_left heq)

theorem AgreesBut.write {todo : List (BitVec 32)} {msrs : BitVec 32 → BitVec 64}
    {index : BitVec 32} {value : BitVec 64} (h : AgreesBut todo old msrs) (hi : index ∈ todo) :
    AgreesBut todo old (Function.update msrs index value) := by
  intro x hx
  have hne : x ≠ index := fun heq => hx (heq ▸ hi)
  rw [Function.update_of_ne hne]
  exact h x hx

/-- While the lists are armed, only the MSRs of the test are out of place. -/
theorem Armed.agreesBut (h : Armed hw old s) {todo : List (BitVec 32)}
    (htodo : ∀ i < s.data.rows, ∀ j < 3, lsMsr i j ∈ todo) : AgreesBut todo old s.msrs := by
  intro x hx
  exact h.vals.other x fun i hi j hj heq => hx (heq ▸ htodo i hi j hj)

/-- The state when the reset has written the first two rows. -/
def restoredRows (s : MsrLsState) : MsrLsState :=
  (((((((s.withCounts 0).write msrIa32Pat 0x0007040600070406#64).write 0x20a
    (s.data.oldVals 0 0)).write 0x20b (s.data.oldVals 0 1)).write 0x20c
      (s.data.oldVals 0 2)).write msrEfer (s.data.oldVals 1 0)).write 0xc0000081
        (s.data.oldVals 1 1)).write msrIa32Pat (s.data.oldVals 1 2)

theorem resetState_rows (s : MsrLsState) : resetState hw s =
    whenMc s.data (do
      wrmsr64 hw (s.data.mcMsrs 0) (s.data.oldVals 2 0)
      wrmsr64 hw (s.data.mcMsrs 1) (s.data.oldVals 2 1)
      wrmsr64 hw (s.data.mcMsrs 2) (s.data.oldVals 2 2)) (restoredRows s) := by
  have hw' := rowsOk_of_forall hw.writable_rows
  rw [resetState, run_bind (setCounts_run 0), MsrRun.get_bind, run_bind (wrmsr64_run hw'.pat _),
    run_bind (wrmsr64_run hw'.physbase5 _), run_bind (wrmsr64_run hw'.physmask5 _),
    run_bind (wrmsr64_run hw'.physbase6 _), run_bind (wrmsr64_run hw'.efer _),
    run_bind (wrmsr64_run hw'.star _), run_bind (wrmsr64_run hw'.pat _)]
  rfl

/-- After the first two rows, only those of the third are out of place. -/
theorem Armed.restoredRows (h : Armed hw old s) {todo : List (BitVec 32)}
    (htodo : ∀ i < s.data.rows, ∀ j < 3, lsMsr i j ∈
      [0x20a, 0x20b, 0x20c, msrEfer, 0xc0000081, msrIa32Pat] ++ todo) :
    AgreesBut todo old (Shv.restoredRows s).msrs := by
  have hold : ∀ i < 2, ∀ j < 3, s.data.oldVals i j = old (lsMsr i j) := fun i hi j hj =>
    h.oldVals i (hi.trans_le s.data.two_le_rows) j hj
  have hpat : AgreesBut _ old (Function.update s.msrs msrIa32Pat 0x0007040600070406#64) :=
    (h.agreesBut htodo).write (by simp)
  have hrow₀ := ((hpat.restore (hold 0 (by decide) 0 (by decide))).restore
    (hold 0 (by decide) 1 (by decide))).restore (hold 0 (by decide) 2 (by decide))
  exact ((hrow₀.restore (hold 1 (by decide) 0 (by decide))).restore
    (hold 1 (by decide) 1 (by decide))).restore (hold 1 (by decide) 2 (by decide))

theorem resetState_run (h : Armed hw old s) :
    ∃ s', resetState hw s = some ((), s') ∧ s'.msrs = old ∧
      s'.vmexitMsrstoreCount = 0 ∧ s'.vmexitMsrloadCount = 0 ∧ s'.vmentryMsrloadCount = 0 := by
  rw [resetState_rows]
  cases hskip : s.data.skipMcMsrs with
  | true =>
      have hall : AgreesBut [] old (restoredRows s).msrs := h.restoredRows fun i hi j hj => by
        rw [MsrLsData.rows_skip hskip] at hi
        interval_cases i <;> interval_cases j <;> decide
      exact ⟨_, whenMc_skip hskip, funext fun x => hall x List.not_mem_nil, rfl, rfl, rfl⟩
  | false =>
      have hrows := MsrLsData.rows_mc hskip
      obtain ⟨m₀, -, hw₀⟩ := h.mc hskip 0 (by decide)
      obtain ⟨m₁, -, hw₁⟩ := h.mc hskip 1 (by decide)
      obtain ⟨m₂, -, hw₂⟩ := h.mc hskip 2 (by decide)
      have hrow : ∀ j < 3, s.data.oldVals 2 j = old (lsMsr 2 j) := h.oldVals 2 (by omega)
      have hrest : AgreesBut [0x402, 0x403, 0x406] old (restoredRows s).msrs :=
        h.restoredRows fun i hi j hj => by
          rw [hrows] at hi
          interval_cases i <;> interval_cases j <;> decide
      have hall := ((hrest.restore (hrow 0 (by decide))).restore (hrow 1 (by decide))).restore
        (hrow 2 (by decide))
      rw [whenMc_row hskip, m₀, m₁, m₂]
      exact ⟨_, wrmsr64_three hw₀ hw₁ hw₂ _ _ _, funext fun x => hall x List.not_mem_nil, rfl, rfl,
        rfl⟩

theorem vmcall16_run (h : Armed hw old s) (hx : Exited old s) (he : Entered s) :
    ∃ s', shvGuestTestMsrLsVmexitHandler hw 16#32 s = some ((), s') ∧ s'.msrs = old ∧
      s'.vmexitMsrstoreCount = 0 ∧ s'.vmexitMsrloadCount = 0 ∧ s'.vmentryMsrloadCount = 0 := by
  obtain ⟨s', hreset, hs'⟩ := resetState_run h
  refine ⟨s', ?_, hs'⟩
  rw [shvGuestTestMsrLsVmexitHandler, if_neg (by decide), if_pos rfl,
    run_bind (checkEffects_run h hx he)]
  exact hreset

theorem msrLsVmcall_run {eax : BitVec 32}
    (h : shvGuestTestMsrLsVmexitHandler hw eax (vmExit s) = some ((), s')) :
    msrLsVmcall hw eax s = some ((), vmEntry s') := by
  rw [msrLsVmcall, MsrRun.modify_bind, run_bind h]
  rfl

/-! ## The test as a whole -/

def Disarmed (s : MsrLsState) : Prop :=
  s.vmexitMsrstoreCount = 0 ∧ s.vmexitMsrloadCount = 0 ∧ s.vmentryMsrloadCount = 0

/-- What the assertions of VMCALL 12 ask of the MSRs: there are more than 6 variable MTRRs, the PAT
has its usual value, and if one machine-check MSR of the test is there, so are the other two. -/
structure MsrLsReady (hw : MsrHardware) (msrs : BitVec 32 → BitVec 64) : Prop where
  mtrrCap : msrs 0xfe &&& 0xff#64 > 6#64
  pat : msrs msrIa32Pat = 0x0007040600070406#64
  probe : mcProbeResult hw msrs = true → hw.accessible 0x403 = true ∧ hw.accessible 0x406 = true

theorem loadMsrs_zero (list : Nat → MsrEntry) (msrs : BitVec 32 → BitVec 64) :
    loadMsrs list 0 msrs = msrs := rfl

theorem msrs_vmExit (h : Disarmed s) : (vmExit s).msrs = s.msrs := by
  show loadMsrs s.myVmexitMsrload s.vmexitMsrloadCount s.msrs = _
  rw [h.2.1, loadMsrs_zero]

theorem msrs_vmEntry (h : Disarmed s) : (vmEntry s).msrs = s.msrs := by
  show loadMsrs s.myVmentryMsrload s.vmentryMsrloadCount s.msrs = _
  rw [h.2.2, loadMsrs_zero]

theorem shvGuestTestMsrLs_run (hready : MsrLsReady hw s.msrs) (hcounts : Disarmed s)
    (gShvOpt : BitVec 64) (exits : Nat) (data : MsrLsData) :
    ∃ s', shvGuestTestMsrLs hw gShvOpt exits data s = some ((), s') ∧ s'.msrs = s.msrs ∧
      Disarmed s' := by
  unfold shvGuestTestMsrLs
  split
  next =>
      -- VMCALL 12: the exit changes nothing, the entry loads its list
      have hmsrs : (vmExit { s with data := data }).msrs = s.msrs := msrs_vmExit hcounts
      have hready' : MsrLsReady hw (vmExit { s with data := data }).msrs := hmsrs.symm ▸ hready
      obtain ⟨s₁, h₁, harmed⟩ := vmcall12_run hready'.probe hready'.mtrrCap hready'.pat
      rw [hmsrs] at harmed
      obtain ⟨harmed₁, hentered₁⟩ := harmed.entry
      obtain ⟨harmed₂, hentered₂⟩ := harmed₁.iterate hentered₁ exits
      obtain ⟨harmed₃, hexited⟩ := harmed₂.exit
      obtain ⟨s₂, h₂, hback, hzero⟩ := vmcall16_run harmed₃ hexited (hentered₂.exit harmed₂)
      refine ⟨vmEntry s₂, ?_, ?_, hzero⟩
      · rw [MsrRun.modify_bind, run_bind (msrLsVmcall_run h₁), MsrRun.modify_bind]
        exact msrLsVmcall_run h₂
      · rw [msrs_vmEntry hzero, hback]
  next => exact ⟨s, rfl, rfl, hcounts⟩

/-- **The MSR load/store test restores everything it touches**, however often it is run and however
many exits and entries there are in between: no assertion fails, every MSR has its old value, and
the counts are 0. -/
theorem msr_ls_restores (hw : MsrHardware) {s : MsrLsState} (hready : MsrLsReady hw s.msrs)
    (hcounts : Disarmed s) (gShvOpt : BitVec 64) (runs : List (Nat × MsrLsData)) :
    Leads (runs.forM fun run => shvGuestTestMsrLs hw gShvOpt run.1 run.2) s
      fun _ s' => s'.msrs = s.msrs ∧ Disarmed s' := by
  refine Leads.forM (I := fun s' => s'.msrs = s.msrs ∧ Disarmed s') ?_ ⟨rfl, hcounts⟩
  rintro run - t ⟨hmsrs, hzero⟩
  obtain ⟨t', hrun, hback, hzero'⟩ :=
    shvGuestTestMsrLs_run (hmsrs ▸ hready) hzero gShvOpt run.1 run.2
  exact Leads.last hrun ⟨hback.trans hmsrs, hzero'⟩

/-- A CPU that has all the MSRs. -/
def fullHardware : MsrHardware where
  readable := fun _ => true
  writable := fun _ => true
  readable_rows := fun _ _ _ _ => rfl
  writable_rows := fun _ _ _ _ => rfl
  readable_mtrrCap := rfl
  readable_mcgCap := rfl

/-- Its state after a reset: 8 variable MTRRs, 9 machine-check banks. -/
def resetMsrLs : MsrLsState where
  msrs := fun x => if x = 0xfe then 0x508 else if x = 0x179 then 0x9
    else if x = msrIa32Pat then 0x0007040600070406 else 0
  vmexitMsrstoreCount := 0
  vmexitMsrloadCount := 0
  vmentryMsrloadCount := 0
  myVmexitMsrstore := fun _ => ⟨0, 0⟩
  myVmexitMsrload := fun _ => ⟨0, 0⟩
  myVmentryMsrload := fun _ => ⟨0, 0⟩
  data := ⟨false, fun _ => 0, fun _ _ => 0⟩

/-- Two runs on that CPU, the second with three other exits. -/
theorem msr_ls_restores_twice :
    Leads ([(0, ⟨true, fun _ => 7, fun _ _ => 7⟩), (3, ⟨false, fun _ => 0, fun _ _ => 0⟩)].forM
        fun run => shvGuestTestMsrLs fullHardware shvUseMsrLoad run.1 run.2) resetMsrLs
      fun _ s' => s'.msrs = resetMsrLs.msrs ∧ Disarmed s' :=
  msr_ls_restores fullHardware ⟨by decide, by decide, fun _ => ⟨rfl, rfl⟩⟩ ⟨rfl, rfl, rfl⟩ _ _

end Shv
