/-
# `Shv.Madt` — enumerating the processors

`smp_getinfo` walks the records of the MADT, a table the firmware wrote: each record says how long
it is, and those of type 0 with the enabled flag describe processors.  `smp_init` copies what was
found into three parallel tables, and `get_vcpu` looks a CPU up in them by its local APIC id.

The bytes of a table are numbered from its start.  A pass through the record loop notes down which
record bytes it looks at, so that it can be said where they lie.

* `smp_enumeration_exact`: on a table tiled by records everything agrees with the enabled type-0
  records, except that with `SHV_NMI_ENABLE` a CPU can only be looked up if its local APIC is at its
  default address in xAPIC mode.
* `madt_scan_robust_iff`: which tables, of any content, the loop handles.  It trusts the length byte
  of a record, and it looks at a record before it tests whether there is one.
-/
import Shv.Hptw
import Shv.Lib.Loop
import Mathlib.Data.BitVec
import Mathlib.Data.Finite.Prod

namespace Shv

open Relation Loop

/-! ## The tables -/

/-- `sizeof(ACPI_MADT)`. -/
def sizeofAcpiMadt : Nat := 44

def maxPcpuEntries : Nat := 10

def shvStackSize : Nat := 65536

def shvNmiEnable : BitVec 64 := 1

/-- `madt->length`. -/
def madtLength (madt : ByteMem) : Nat := (madt.load 4 4).toNat

/-- `madt->lapicaddress`. -/
def madtLapicaddress (madt : ByteMem) : BitVec 32 := madt.load 36 4

/-- `madtrecordlength`, an unsigned subtraction. -/
def madtRecordLength (madt : ByteMem) : Nat := (madtLength madt + 2 ^ 32 - sizeofAcpiMadt) % 2 ^ 32

structure Pcpu where
  lapicId : BitVec 32
  lapicVer : BitVec 32
  lapicBase : BitVec 32
  isbsp : BitVec 32
  deriving DecidableEq, Repr

structure MidTab where
  cpuLapicId : BitVec 32
  vcpuVaddrPtr : Nat
  deriving DecidableEq, Repr

/-- The fields of a `VCPU` that `smp_init` writes. -/
structure SmpVcpu where
  sp : Nat
  id : BitVec 32
  idx : Nat
  isbsp : Bool
  deriving DecidableEq, Repr

/-! ## The record loop of `smp_getinfo` -/

/-- A computation that looks at bytes of the table and notes down which. -/
abbrev Scan (α : Type) := StateM (List Nat) α

/-- A field of `width` bytes at position `pos` is read. -/
def readField (madt : ByteMem) (pos width : Nat) : Scan (BitVec (8 * width)) := fun seen =>
  (madt.load pos width, seen ++ List.range' pos width)

/-- The variables of the record loop. -/
structure ScanState where
  madtcurrentrecordoffset : Nat
  numPcpus : Nat
  pcpus : Nat → Pcpu
  foundcores : Bool

/-- `apicrecord->type == 0x0 && (apicrecord->flags & 0x1)`. -/
def testProcessor (madt : ByteMem) (apicrecord : Nat) : Scan Bool := do
  let type ← readField madt apicrecord 1
  if type = 0#8 then
    let flags ← readField madt (apicrecord + 4) 4
    return flags &&& 1#32 != 0#32
  else
    return false

/-- `madtcurrentrecordoffset += apicrecord->length` and the test of the loop. -/
def advance (madt : ByteMem) (apicrecord : Nat) (s : ScanState) :
    Scan (Pass ScanState (Halting ScanState)) := do
  let length ← readField madt (apicrecord + 1) 1
  let s' := { s with
    madtcurrentrecordoffset := (s.madtcurrentrecordoffset + length.toNat) % 2 ^ 32 }
  return if s'.madtcurrentrecordoffset < madtRecordLength madt then .again s' else .leave (some s')

/-- What is stored for a processor. -/
def pcpuOf (madt : ByteMem) (i : Nat) (lapicid : BitVec 8) : Pcpu where
  lapicId := lapicid.setWidth 32
  lapicVer := 0
  lapicBase := madtLapicaddress madt
  isbsp := if i = 0 then 1 else 0

/-- A processor is stored in the next entry of `pcpus`. -/
def addPcpu (madt : ByteMem) (lapicid : BitVec 8) (s : ScanState) : ScanState :=
  { s with
    foundcores := true
    pcpus := Function.update s.pcpus s.numPcpus (pcpuOf madt s.numPcpus lapicid)
    numPcpus := s.numPcpus + 1 }

/-- One pass through the record loop; `ASSERT(*num_pcpus < MAX_PCPU_ENTRIES)` may end it. -/
def scanRecord (madt : ByteMem) (s : ScanState) : Scan (Pass ScanState (Halting ScanState)) := do
  let apicrecord := sizeofAcpiMadt + s.madtcurrentrecordoffset
  if ← testProcessor madt apicrecord then
    if s.numPcpus < maxPcpuEntries then
      let lapicid ← readField madt (apicrecord + 3) 1
      advance madt apicrecord (addPcpu madt lapicid s)
    else
      return .leave none
  else
    advance madt apicrecord s

def scanPass (madt : ByteMem) (s : ScanState) : Pass ScanState (Halting ScanState) :=
  (scanRecord madt s []).1

/-- The record bytes a pass examines. -/
def examined (madt : ByteMem) (s : ScanState) : List Nat := (scanRecord madt s []).2

/-- Before the loop; `pcpus` is what the array holds. -/
def scanStart (pcpus : Nat → Pcpu) : ScanState where
  madtcurrentrecordoffset := 0
  numPcpus := 0
  pcpus := pcpus
  foundcores := false

/-- `smp_getinfo` from where the MADT has been found: the loop with some fuel, then
`ASSERT(0 && "ACPI detection failed")` if it found no processor. -/
def smpGetinfo (madt : ByteMem) (pcpus : Nat → Pcpu) (fuel : Nat) : Option (Halting ScanState) :=
  (Loop.run (scanPass madt) fuel (scanStart pcpus)).map fun result => do
    let s ← result
    cAssert s.foundcores
    return s

/-! ## `smp_init` and `get_vcpu` -/

/-- Where the global arrays are: `g_vcpus` and `g_cpu_stack` lie inside the address space. -/
structure SmpLayout (arch : Arch) where
  gVcpus : Nat
  sizeofVcpu : Nat
  gCpuStack : Nat
  vcpus_fit : gVcpus + maxPcpuEntries * sizeofVcpu < 2 ^ arch.ptrBits
  stack_fits : gCpuStack + maxPcpuEntries * shvStackSize < 2 ^ arch.ptrBits

/-- `&g_vcpus[i]`. -/
def SmpLayout.vcpuPtr {arch : Arch} (layout : SmpLayout arch) (i : Nat) : Nat :=
  layout.gVcpus + i * layout.sizeofVcpu

/-- `g_cpu_stack[i]`. -/
def SmpLayout.cpuStack {arch : Arch} (layout : SmpLayout arch) (i : Nat) : Nat :=
  layout.gCpuStack + i * shvStackSize

structure SmpTables where
  gMidtableNumentries : Nat
  gCpumap : Nat → Pcpu
  gMidtable : Nat → MidTab
  gVcpus : Nat → SmpVcpu

variable {arch : Arch}

def smpInitEntry (layout : SmpLayout arch) (g : SmpTables) (i : Nat) : SmpTables :=
  { g with
    gMidtable := Function.update g.gMidtable i
      { cpuLapicId := (g.gCpumap i).lapicId, vcpuVaddrPtr := layout.vcpuPtr i }
    gVcpus := Function.update g.gVcpus i
      { sp := layout.cpuStack (i + 1)
        id := (g.gCpumap i).lapicId
        idx := i
        isbsp := (g.gCpumap i).isbsp != 0 } }

/-- `smp_init` up to the end of its loop. -/
def smpInit (layout : SmpLayout arch) (madt : ByteMem) (g : SmpTables) (fuel : Nat) :
    Option (Halting SmpTables) :=
  (smpGetinfo madt g.gCpumap fuel).map fun result => do
    let s ← result
    return (List.range s.numPcpus).foldl (smpInitEntry layout)
      { g with gMidtableNumentries := s.numPcpus, gCpumap := s.pcpus }

/-- What `get_vcpu` can read of the CPU it runs on: two MSRs and 32-bit words of memory. -/
structure LapicCpu where
  msrApicBase : BitVec 64
  ia32X2apicApicid : BitVec 64
  read32 : Nat → BitVec 32

/-- `~0xFFFUL`, as wide as a `long`. -/
def pageMaskUl (arch : Arch) : BitVec 64 := (~~~(BitVec.ofNat arch.ptrBits 0xfff)).setWidth 64

/-- The APIC base address that `get_vcpu` works with. -/
def apicBaseVal (gNmiOpt : BitVec 64) (cpu : LapicCpu) : BitVec 64 :=
  if gNmiOpt &&& shvNmiEnable ≠ 0 then 0xfee00000#64 else cpu.msrApicBase

/-- The id that `get_vcpu` looks up. -/
def readLapicId (arch : Arch) (gNmiOpt : BitVec 64) (cpu : LapicCpu) : BitVec 32 :=
  let msrVal := apicBaseVal gNmiOpt cpu
  if msrVal.getLsbD 10 then cpu.ia32X2apicApicid.setWidth 32
  else cpu.read32 ((msrVal &&& pageMaskUl arch).toNat + 0x20) >>> 24

/-- `get_vcpu`; it asserts that it finds an entry. -/
def getVcpu (arch : Arch) (gNmiOpt : BitVec 64) (cpu : LapicCpu) (g : SmpTables) : Halting Nat :=
  ((List.range g.gMidtableNumentries).find? fun i =>
    (g.gMidtable i).cpuLapicId == readLapicId arch gNmiOpt cpu).map
      fun i => (g.gMidtable i).vcpuVaddrPtr

/-! ## Records -/

/-- `apicrecord->type` of the record at offset `o` of the record area. -/
def recordType (madt : ByteMem) (o : Nat) : BitVec 8 := madt.load (sizeofAcpiMadt + o) 1

/-- `apicrecord->length`. -/
def recordLength (madt : ByteMem) (o : Nat) : Nat :=
  (madt.load (sizeofAcpiMadt + o + 1) 1 : BitVec 8).toNat

/-- `apicrecord->lapicid`. -/
def recordLapicid (madt : ByteMem) (o : Nat) : BitVec 8 := madt.load (sizeofAcpiMadt + o + 3) 1

/-- `apicrecord->flags`. -/
def recordFlags (madt : ByteMem) (o : Nat) : BitVec 32 := madt.load (sizeofAcpiMadt + o + 4) 4

def isProcessor (madt : ByteMem) (o : Nat) : Bool :=
  recordType madt o == 0#8 && recordFlags madt o &&& 1#32 != 0#32

/-- How many bytes of a record the loop wants: up to the flags, or up to the length. -/
def headerSize (madt : ByteMem) (o : Nat) : Nat := if recordType madt o = 0#8 then 8 else 2

/-- The rest of a pass: on to the record after the one at `o`. -/
def advanced (madt : ByteMem) (o : Nat) (s : ScanState) : Pass ScanState (Halting ScanState) :=
  if (o + recordLength madt o) % 2 ^ 32 < madtRecordLength madt then
    .again { s with madtcurrentrecordoffset := (o + recordLength madt o) % 2 ^ 32 }
  else
    .leave (some { s with madtcurrentrecordoffset := (o + recordLength madt o) % 2 ^ 32 })

theorem advance_eq (madt : ByteMem) {s : ScanState} {o : Nat} (ho : s.madtcurrentrecordoffset = o)
    (seen : List Nat) :
    advance madt (sizeofAcpiMadt + o) s seen =
      (advanced madt o s, seen ++ List.range' (sizeofAcpiMadt + o + 1) 1) := by
  subst ho
  rfl

theorem testProcessor_eq (madt : ByteMem) (o : Nat) (seen : List Nat) :
    testProcessor madt (sizeofAcpiMadt + o) seen =
      (isProcessor madt o, seen ++ List.range' (sizeofAcpiMadt + o) 1 ++
        if recordType madt o = 0#8 then List.range' (sizeofAcpiMadt + o + 4) 4 else []) := by
  by_cases ht : recordType madt o = 0#8
  · have hcond : madt.load (sizeofAcpiMadt + o) 1 = 0#8 := ht
    simp only [testProcessor, readField, isProcessor, ht, beq_self_eq_true, Bool.true_and,
      if_true, bind, StateT.bind, hcond]
    rfl
  · have hcond : ¬ madt.load (sizeofAcpiMadt + o) 1 = 0#8 := ht
    simp only [testProcessor, readField, isProcessor, ht, beq_eq_false_iff_ne.mpr ht,
      Bool.false_and, if_false, bind, StateT.bind, hcond, List.append_nil]
    rfl

theorem scanRecord_eq (madt : ByteMem) {s : ScanState} {o : Nat}
    (ho : s.madtcurrentrecordoffset = o) :
    scanRecord madt s [] =
      if isProcessor madt o then
        if s.numPcpus < maxPcpuEntries then
          (advanced madt o (addPcpu madt (recordLapicid madt o) s),
            List.range' (sizeofAcpiMadt + o) 1 ++ List.range' (sizeofAcpiMadt + o + 4) 4 ++
              List.range' (sizeofAcpiMadt + o + 3) 1 ++ List.range' (sizeofAcpiMadt + o + 1) 1)
        else
          (.leave none,
            List.range' (sizeofAcpiMadt + o) 1 ++ List.range' (sizeofAcpiMadt + o + 4) 4)
      else
        (advanced madt o s,
          List.range' (sizeofAcpiMadt + o) 1 ++
            (if recordType madt o = 0#8 then List.range' (sizeofAcpiMadt + o + 4) 4 else []) ++
              List.range' (sizeofAcpiMadt + o + 1) 1) := by
  subst ho
  simp only [scanRecord, bind, StateT.bind, testProcessor_eq, List.nil_append]
  cases hp : isProcessor madt s.madtcurrentrecordoffset with
  | false =>
      simp only [Bool.false_eq_true, if_false]
      exact advance_eq madt rfl _
  | true =>
      have ht : recordType madt s.madtcurrentrecordoffset = 0#8 := by
        rw [isProcessor, Bool.and_eq_true, beq_iff_eq] at hp
        exact hp.1
      simp only [ht, if_true]
      split
      next => exact advance_eq madt rfl _
      next => rfl

theorem scanPass_eq (madt : ByteMem) {s : ScanState} {o : Nat}
    (ho : s.madtcurrentrecordoffset = o) :
    scanPass madt s =
      if isProcessor madt o then
        if s.numPcpus < maxPcpuEntries then
          advanced madt o (addPcpu madt (recordLapicid madt o) s)
        else .leave none
      else advanced madt o s := by
  rw [scanPass, scanRecord_eq madt ho]
  simp only [apply_ite Prod.fst]

/-- The bytes a pass examines lie in the first `n` of the table exactly if the header of its record
does. -/
theorem examined_lt_iff (madt : ByteMem) (s : ScanState) (n : Nat) :
    (∀ p ∈ examined madt s, p < n) ↔
      sizeofAcpiMadt + s.madtcurrentrecordoffset + headerSize madt s.madtcurrentrecordoffset ≤
        n := by
  generalize ho : s.madtcurrentrecordoffset = o
  rw [examined, scanRecord_eq madt ho, headerSize]
  have hproc : isProcessor madt o = true → recordType madt o = 0#8 := by
    intro h
    rw [isProcessor, Bool.and_eq_true, beq_iff_eq] at h
    exact h.1
  by_cases ht : recordType madt o = 0#8
  · rw [if_pos ht, if_pos ht]
    constructor
    · intro h
      have hlast := h (sizeofAcpiMadt + o + 7) (by split_ifs <;> simp)
      omega
    · intro hle p hp
      split_ifs at hp <;> simp only [List.mem_append, List.mem_range'_1] at hp <;> omega
  · have hno : ¬ isProcessor madt o = true := fun h => ht (hproc h)
    rw [if_neg ht, if_neg hno, if_neg ht]
    simp only [List.append_nil, List.mem_append, List.mem_range'_1]
    constructor
    · intro h
      have hlast := h (sizeofAcpiMadt + o + 1) (by omega)
      omega
    · intro hle p hp
      omega

/-! ## Well-formed tables -/

/-- From offset `o` on, the records at the given offsets tile the record area up to `e`. -/
def Tiles (madt : ByteMem) : Nat → List Nat → Nat → Prop
  | o, [], e => o = e
  | o, r :: records, e =>
      r = o ∧ recordLength madt r ≠ 0 ∧ (recordType madt r = 0#8 → recordLength madt r = 8) ∧
        Tiles madt (r + recordLength madt r) records e

instance decidableTiles (madt : ByteMem) : (o : Nat) → (records : List Nat) → (e : Nat) →
    Decidable (Tiles madt o records e)
  | o, [], e => inferInstanceAs (Decidable (o = e))
  | o, r :: records, e =>
      have := decidableTiles madt (r + recordLength madt r) records e
      inferInstanceAs (Decidable (r = o ∧ recordLength madt r ≠ 0 ∧ (_ → _) ∧ _))

/-- A table whose non-empty record area is tiled by the records at the given offsets. -/
structure WellFormed (madt : ByteMem) (records : List Nat) : Prop where
  header : sizeofAcpiMadt ≤ madtLength madt
  nonempty : records ≠ []
  tiles : Tiles madt 0 records (madtLength madt - sizeofAcpiMadt)

/-- The enabled processors of a table, in table order. -/
def processors (madt : ByteMem) (records : List Nat) : List Nat := records.filter (isProcessor madt)

theorem madtLength_lt (madt : ByteMem) : madtLength madt < 2 ^ 32 := (madt.load 4 4).isLt

theorem madtRecordLength_eq {madt : ByteMem} (h : sizeofAcpiMadt ≤ madtLength madt) :
    madtRecordLength madt = madtLength madt - sizeofAcpiMadt := by
  have hlt := madtLength_lt madt
  unfold madtRecordLength
  unfold sizeofAcpiMadt at *
  omega

theorem Tiles.le {madt : ByteMem} {o e : Nat} {records : List Nat} (h : Tiles madt o records e) :
    o ≤ e := by
  induction records generalizing o with
  | nil => exact Nat.le_of_eq h
  | cons r records ih =>
      obtain ⟨rfl, -, -, hrest⟩ := h
      exact (Nat.le_add_right ..).trans (ih hrest)

def scanOne (madt : ByteMem) (s : ScanState) (o : Nat) : ScanState :=
  if isProcessor madt o then addPcpu madt (recordLapicid madt o) s else s

theorem scanPass_of_room {madt : ByteMem} {s : ScanState} {o : Nat}
    (ho : s.madtcurrentrecordoffset = o)
    (hroom : isProcessor madt o = true → s.numPcpus < maxPcpuEntries) :
    scanPass madt s = advanced madt o (scanOne madt s o) := by
  rw [scanPass_eq madt ho, scanOne]
  by_cases hp : isProcessor madt o = true
  · rw [if_pos hp, if_pos hp, if_pos (hroom hp)]
  · rw [if_neg hp, if_neg hp]

theorem numPcpus_scanOne (madt : ByteMem) (s : ScanState) (o : Nat) :
    (scanOne madt s o).numPcpus = s.numPcpus + if isProcessor madt o then 1 else 0 := by
  cases hp : isProcessor madt o <;> simp [scanOne, addPcpu, hp]

theorem length_processors_cons (madt : ByteMem) (r : Nat) (records : List Nat) :
    (processors madt (r :: records)).length =
      (if isProcessor madt r then 1 else 0) + (processors madt records).length := by
  cases hp : isProcessor madt r with
  | false => simp [processors, hp]
  | true => simp [processors, hp, Nat.add_comm]

theorem foldl_scanOne_offset (madt : ByteMem) (records : List Nat) (s : ScanState) (o : Nat) :
    records.foldl (scanOne madt) { s with madtcurrentrecordoffset := o } =
      { records.foldl (scanOne madt) s with madtcurrentrecordoffset := o } := by
  induction records generalizing s with
  | nil => rfl
  | cons r records ih =>
      have hone : scanOne madt { s with madtcurrentrecordoffset := o } r =
          { scanOne madt s r with madtcurrentrecordoffset := o } := by
        unfold scanOne
        split
        next => rfl
        next => rfl
      rw [List.foldl_cons, List.foldl_cons, hone]
      exact ih _

/-- **The record loop over a tiled area** handles every record in turn, if there is room. -/
theorem leaves_of_tiles {madt : ByteMem} {e : Nat} (he : madtRecordLength madt = e)
    {records : List Nat} (hne : records ≠ []) {s : ScanState}
    (htiles : Tiles madt s.madtcurrentrecordoffset records e)
    (hroom : s.numPcpus + (processors madt records).length ≤ maxPcpuEntries) :
    Leaves (scanPass madt) s
      (some { records.foldl (scanOne madt) s with madtcurrentrecordoffset := e }) := by
  have hlt : e < 2 ^ 32 := he ▸ Nat.mod_lt _ (by decide)
  induction records generalizing s with
  | nil => exact absurd rfl hne
  | cons r records ih =>
      obtain ⟨hr, hlen, -, hrest⟩ := htiles
      rw [length_processors_cons] at hroom
      have hpass : scanPass madt s = advanced madt r (scanOne madt s r) := by
        refine scanPass_of_room hr.symm fun hp => ?_
        rw [hp, if_pos rfl] at hroom
        omega
      have hnext : (r + recordLength madt r) % 2 ^ 32 = r + recordLength madt r :=
        Nat.mod_eq_of_lt (Nat.lt_of_le_of_lt hrest.le hlt)
      rw [advanced, hnext, he] at hpass
      cases records with
      | nil =>
          obtain rfl : r + recordLength madt r = e := hrest
          rw [if_neg (Nat.lt_irrefl _)] at hpass
          exact .leave hpass
      | cons r' records =>
          have hmore : r + recordLength madt r < e := by
            obtain ⟨rfl, hlen', -, hrest'⟩ := hrest
            have hle := hrest'.le
            omega
          rw [if_pos hmore] at hpass
          have hrun := ih (List.cons_ne_nil _ _) (s := { scanOne madt s r with
            madtcurrentrecordoffset := r + recordLength madt r }) hrest (by
              have hnum := numPcpus_scanOne madt s r
              dsimp only
              omega)
          rw [foldl_scanOne_offset] at hrun
          exact .again hpass hrun

theorem foldl_scanOne (madt : ByteMem) (records : List Nat) (s : ScanState) :
    (records.foldl (scanOne madt) s).numPcpus = s.numPcpus + (processors madt records).length ∧
      ((records.foldl (scanOne madt) s).foundcores =
        (s.foundcores || !(processors madt records).isEmpty)) ∧
      (∀ i, i < s.numPcpus → (records.foldl (scanOne madt) s).pcpus i = s.pcpus i) ∧
      ∀ i (hi : i < (processors madt records).length),
        (records.foldl (scanOne madt) s).pcpus (s.numPcpus + i) =
          pcpuOf madt (s.numPcpus + i) (recordLapicid madt (processors madt records)[i]) := by
  induction records generalizing s with
  | nil =>
      refine ⟨rfl, ?_, fun _ _ => rfl, fun i hi => absurd hi (Nat.not_lt_zero i)⟩
      simp [processors]
  | cons r records ih =>
      obtain ⟨hnum, hfound, hold, hnew⟩ := ih (scanOne madt s r)
      rw [List.foldl_cons]
      cases hp : isProcessor madt r with
      | false =>
          have hone : scanOne madt s r = s := by rw [scanOne, hp]; rfl
          have hlist : processors madt (r :: records) = processors madt records := by
            simp [processors, hp]
          simp only [hlist]
          rw [hone] at hnum hfound hold hnew ⊢
          exact ⟨hnum, hfound, hold, hnew⟩
      | true =>
          have hone : scanOne madt s r = addPcpu madt (recordLapicid madt r) s := by
            rw [scanOne, hp]; rfl
          have hlist : processors madt (r :: records) = r :: processors madt records := by
            simp [processors, hp]
          simp only [hlist]
          rw [hone] at hnum hfound hold hnew ⊢
          refine ⟨?_, ?_, fun i hi => ?_, fun i hi => ?_⟩
          · rw [hnum, List.length_cons]
            exact Nat.succ_add_eq_add_succ ..
          · rw [hfound]
            simp [addPcpu]
          · rw [hold i (Nat.lt_succ_of_lt hi)]
            exact Function.update_of_ne (Nat.ne_of_lt hi) ..
          · cases i with
            | zero =>
                rw [Nat.add_zero, hold _ (Nat.lt_succ_self _)]
                exact Function.update_self ..
            | succ i =>
                have hi' : i < (processors madt records).length := Nat.lt_of_succ_lt_succ hi
                have := hnew i hi'
                rw [show (addPcpu madt (recordLapicid madt r) s).numPcpus + i =
                  s.numPcpus + (i + 1) from Nat.succ_add_eq_add_succ ..] at this
                exact this

/-! ## The enumeration -/

theorem foldl_smpInitEntry (layout : SmpLayout arch) (g : SmpTables) (n : Nat) :
    (List.range n).foldl (smpInitEntry layout) g =
      { g with
        gMidtable := fun i => if i < n then
          { cpuLapicId := (g.gCpumap i).lapicId, vcpuVaddrPtr := layout.vcpuPtr i }
          else g.gMidtable i
        gVcpus := fun i => if i < n then
          { sp := layout.cpuStack (i + 1), id := (g.gCpumap i).lapicId, idx := i,
            isbsp := (g.gCpumap i).isbsp != 0 }
          else g.gVcpus i } := by
  induction n with
  | zero => rfl
  | succ n ih =>
      rw [List.range_succ, List.foldl_append, ih, List.foldl_cons, List.foldl_nil, smpInitEntry]
      have hlast : ∀ {α : Type} (f h : Nat → α) (a : α), f n = a →
          Function.update (fun i => if i < n then f i else h i) n a =
            fun i => if i < n + 1 then f i else h i := by
        intro α f h a ha
        funext i
        rcases Nat.lt_trichotomy i n with hlt | rfl | hgt
        · rw [Function.update_of_ne (Nat.ne_of_lt hlt), if_pos hlt, if_pos (by omega)]
        · rw [Function.update_self, if_pos (Nat.lt_succ_self _), ha]
        · rw [Function.update_of_ne (Nat.ne_of_gt hgt), if_neg (by omega), if_neg (by omega)]
      dsimp only
      rw [hlast _ _ _ rfl, hlast _ _ _ rfl]

/-- Entry `i` of the three tables describes the processor of the record at offset `r`. -/
structure Describes (layout : SmpLayout arch) (madt : ByteMem) (g : SmpTables) (i r : Nat) :
    Prop where
  cpumap : g.gCpumap i = pcpuOf madt i (recordLapicid madt r)
  midtable : g.gMidtable i =
    { cpuLapicId := (recordLapicid madt r).setWidth 32, vcpuVaddrPtr := layout.vcpuPtr i }
  vcpu : g.gVcpus i =
    { sp := layout.gCpuStack + (i + 1) * shvStackSize, id := (recordLapicid madt r).setWidth 32,
      idx := i, isbsp := decide (i = 0) }

/-- The `SHV_STACK_SIZE` bytes below `sp` lie inside `g_cpu_stack` and belong to one CPU. -/
def StackOwn (layout : SmpLayout arch) (g : SmpTables) (i : Nat) : Prop :=
  layout.gCpuStack + shvStackSize ≤ (g.gVcpus i).sp ∧
    (g.gVcpus i).sp ≤ layout.gCpuStack + maxPcpuEntries * shvStackSize ∧
    ∀ j, j < i → (g.gVcpus j).sp + (i - j) * shvStackSize = (g.gVcpus i).sp

/-- The CPU has this local APIC id: the x2APIC id MSR says so, or in xAPIC mode the id register at
the APIC base address. -/
def LapicCpu.HasId (cpu : LapicCpu) (id : BitVec 32) : Prop :=
  if cpu.msrApicBase.getLsbD 10 then cpu.ia32X2apicApicid.setWidth 32 = id
  else cpu.read32 ((cpu.msrApicBase &&& ~~~0xfff#64).toNat + 0x20) >>> 24 = id

/-- `get_vcpu` gets at the id register.  With `SHV_NMI_ENABLE` it takes the default address and
xAPIC mode for granted; otherwise a `long` has to hold the APIC base address. -/
def LapicCpu.Reachable (arch : Arch) (gNmiOpt : BitVec 64) (cpu : LapicCpu) : Prop :=
  if gNmiOpt &&& shvNmiEnable ≠ 0 then
    cpu.msrApicBase.getLsbD 10 = false ∧ cpu.msrApicBase &&& ~~~0xfff#64 = 0xfee00000#64
  else cpu.msrApicBase.getLsbD 10 = true ∨ cpu.msrApicBase.toNat < 2 ^ arch.ptrBits

/-- On i386 the mask of a `long` loses nothing of an address below 4 GiB. -/
theorem and_pageMaskUl {x : BitVec 64} (h : x.toNat < 2 ^ arch.ptrBits) :
    x &&& pageMaskUl arch = x &&& ~~~0xfff#64 := by
  cases arch with
  | amd64 => rfl
  | i386 =>
      have hlow : x &&& 0xffffffff#64 = x := by
        apply BitVec.eq_of_toNat_eq
        rw [BitVec.toNat_and]
        exact (Nat.and_two_pow_sub_one_eq_mod _ 32).trans (Nat.mod_eq_of_lt h)
      calc x &&& pageMaskUl .i386 = x &&& (0xffffffff#64 &&& ~~~0xfff#64) := rfl
        _ = x &&& ~~~0xfff#64 := by rw [← BitVec.and_assoc, hlow]

theorem readLapicId_eq {gNmiOpt : BitVec 64} {cpu : LapicCpu} {id : BitVec 32}
    (hid : cpu.HasId id) (hr : cpu.Reachable arch gNmiOpt) :
    readLapicId arch gNmiOpt cpu = id := by
  unfold LapicCpu.Reachable at hr
  unfold LapicCpu.HasId at hid
  unfold readLapicId apicBaseVal
  by_cases hnmi : gNmiOpt &&& shvNmiEnable ≠ 0
  · rw [if_pos hnmi] at hr
    rw [hr.1, if_neg Bool.false_ne_true, hr.2] at hid
    have hmode : (0xfee00000#64).getLsbD 10 = false := by decide
    have haddr : 0xfee00000#64 &&& pageMaskUl arch = 0xfee00000#64 := by
      cases arch <;> decide
    dsimp only
    rw [if_pos hnmi, hmode, if_neg Bool.false_ne_true, haddr]
    exact hid
  · rw [if_neg hnmi] at hr
    dsimp only
    rw [if_neg hnmi]
    by_cases hmode : cpu.msrApicBase.getLsbD 10 = true
    · rw [if_pos hmode] at hid ⊢
      exact hid
    · rw [if_neg hmode] at hid ⊢
      have hlt := hr.resolve_left hmode
      rw [and_pageMaskUl hlt]
      exact hid

/-- `get_vcpu` finds the entry with the CPU's id, if there is one such entry only. -/
theorem getVcpu_eq {g : SmpTables} {gNmiOpt : BitVec 64} {cpu : LapicCpu} {i : Nat}
    (hi : i < g.gMidtableNumentries)
    (hid : (g.gMidtable i).cpuLapicId = readLapicId arch gNmiOpt cpu)
    (hne : ∀ j, j < i → (g.gMidtable j).cpuLapicId ≠ (g.gMidtable i).cpuLapicId) :
    getVcpu arch gNmiOpt cpu g = some (g.gMidtable i).vcpuVaddrPtr := by
  have hfind : ((List.range g.gMidtableNumentries).find? fun i =>
      (g.gMidtable i).cpuLapicId == readLapicId arch gNmiOpt cpu) = some i := by
    rw [List.find?_range_eq_some]
    refine ⟨beq_iff_eq.mpr hid, List.mem_range.mpr hi, fun j hj => ?_⟩
    rw [Bool.not_eq_true', beq_eq_false_iff_ne, ← hid]
    exact hne j hj
  rw [getVcpu, hfind, Option.map_some]

theorem describes_foldl (layout : SmpLayout arch) {madt : ByteMem} (g : SmpTables) {n i r : Nat}
    (hi : i < n) (hcpu : g.gCpumap i = pcpuOf madt i (recordLapicid madt r)) :
    Describes layout madt ((List.range n).foldl (smpInitEntry layout) g) i r := by
  rw [foldl_smpInitEntry]
  refine ⟨hcpu, ?_, ?_⟩
  · dsimp only
    rw [if_pos hi, hcpu]
    rfl
  · dsimp only
    rw [if_pos hi, hcpu]
    cases i <;> rfl

/-- Stack tops `SHV_STACK_SIZE` apart leave each CPU a stack of its own. -/
theorem stackOwn_of_sp {layout : SmpLayout arch} {g : SmpTables} {i : Nat}
    (hi : i < maxPcpuEntries)
    (hsp : ∀ j, j ≤ i → (g.gVcpus j).sp = layout.gCpuStack + (j + 1) * shvStackSize) :
    StackOwn layout g i := by
  unfold StackOwn
  rw [hsp i (Nat.le_refl i)]
  unfold shvStackSize maxPcpuEntries at *
  refine ⟨by omega, by omega, fun j hj => ?_⟩
  rw [hsp j (Nat.le_of_lt hj)]
  omega

theorem midtable_ne {layout : SmpLayout arch} {madt : ByteMem} {g : SmpTables} {i j r r' : Nat}
    (h : Describes layout madt g i r) (h' : Describes layout madt g j r')
    (hne : recordLapicid madt r' ≠ recordLapicid madt r) :
    (g.gMidtable j).cpuLapicId ≠ (g.gMidtable i).cpuLapicId := by
  rw [h.midtable, h'.midtable]
  intro heq
  have hsame := congrArg (BitVec.setWidth 8) heq
  simp only [BitVec.setWidth_setWidth_of_le _ (show 8 ≤ 32 by decide), BitVec.setWidth_eq] at hsame
  exact hne hsame

theorem smpInit_describes (layout : SmpLayout arch) {madt : ByteMem} {records : List Nat}
    (hwf : WellFormed madt records) (hone : processors madt records ≠ [])
    (hmax : (processors madt records).length ≤ maxPcpuEntries) (g₀ : SmpTables) :
    ∃ g, (∃ fuel, ∀ fuel', fuel ≤ fuel' → smpInit layout madt g₀ fuel' = some (some g)) ∧
      g.gMidtableNumentries = (processors madt records).length ∧
      ∀ i (hi : i < (processors madt records).length),
        Describes layout madt g i (processors madt records)[i] := by
  have hleaves := leaves_of_tiles (madtRecordLength_eq hwf.header) hwf.nonempty
    (s := scanStart g₀.gCpumap) hwf.tiles (by rw [scanStart, Nat.zero_add]; exact hmax)
  obtain ⟨hnum, hfound, -, hnew⟩ := foldl_scanOne madt records (scanStart g₀.gCpumap)
  generalize records.foldl (scanOne madt) (scanStart g₀.gCpumap) = s at hleaves hnum hfound hnew
  obtain ⟨fuel, hrun⟩ := hleaves.run
  have hn : s.numPcpus = (processors madt records).length := hnum.trans (Nat.zero_add _)
  have hfoundcores : s.foundcores = true := by
    rw [hfound, List.isEmpty_eq_false_iff.mpr hone]
    rfl
  let g := (List.range s.numPcpus).foldl (smpInitEntry layout)
    { g₀ with gMidtableNumentries := s.numPcpus, gCpumap := s.pcpus }
  have hentries : g.gMidtableNumentries = s.numPcpus :=
    congrArg SmpTables.gMidtableNumentries (foldl_smpInitEntry layout _ _)
  refine ⟨g, ⟨fuel, fun fuel' hle => ?_⟩, hentries.trans hn, fun i hi => ?_⟩
  · rw [smpInit, smpGetinfo, hrun fuel' hle]
    simp only [Option.map_some, Option.bind_eq_bind, Option.bind_some, hfoundcores, cAssert_true]
    rfl
  · have hcpu := hnew i hi
    rw [scanStart, Nat.zero_add] at hcpu
    exact describes_foldl layout _ (hn ▸ hi) hcpu

/-- Each CPU finds itself in tables that describe CPUs of different ids. -/
theorem getVcpu_of_describes {layout : SmpLayout arch} {madt : ByteMem} {g : SmpTables}
    {rs : List Nat} (hentries : g.gMidtableNumentries = rs.length)
    (hdesc : ∀ i (hi : i < rs.length), Describes layout madt g i rs[i])
    (hids : (rs.map (recordLapicid madt)).Nodup) {i : Nat} (hi : i < rs.length)
    {gNmiOpt : BitVec 64} {cpu : LapicCpu}
    (hid : cpu.HasId ((recordLapicid madt rs[i]).setWidth 32))
    (hr : cpu.Reachable arch gNmiOpt) :
    getVcpu arch gNmiOpt cpu g = some (layout.vcpuPtr i) := by
  have hmid := (hdesc i hi).midtable
  have hcode : getVcpu arch gNmiOpt cpu g = some (g.gMidtable i).vcpuVaddrPtr := by
    refine getVcpu_eq (by rw [hentries]; exact hi) ?_ fun j hj => ?_
    · rw [hmid]
      exact (readLapicId_eq hid hr).symm
    · exact midtable_ne (hdesc i hi) (hdesc j (hj.trans hi))
        (List.pairwise_iff_getElem.mp (List.pairwise_map.mp hids) j i (hj.trans hi) hi hj)
  rw [hcode, hmid]

/-- **The CPU enumeration is exact.**  The records of a well-formed table with one to
`MAX_PCPU_ENTRIES` enabled processors of different ids end up in the three tables in table order,
each with a stack of its own, and each CPU finds itself. -/
theorem smp_enumeration_exact (layout : SmpLayout arch) {madt : ByteMem} {records : List Nat}
    (hwf : WellFormed madt records) (hone : processors madt records ≠ [])
    (hmax : (processors madt records).length ≤ maxPcpuEntries)
    (hids : ((processors madt records).map (recordLapicid madt)).Nodup) (g₀ : SmpTables) :
    ∃ g, (∃ fuel, ∀ fuel', fuel ≤ fuel' → smpInit layout madt g₀ fuel' = some (some g)) ∧
      g.gMidtableNumentries = (processors madt records).length ∧
      ∀ i (hi : i < (processors madt records).length),
        Describes layout madt g i (processors madt records)[i] ∧ StackOwn layout g i ∧
          ∀ gNmiOpt (cpu : LapicCpu),
            cpu.HasId ((recordLapicid madt (processors madt records)[i]).setWidth 32) →
            cpu.Reachable arch gNmiOpt →
            getVcpu arch gNmiOpt cpu g = some (layout.vcpuPtr i) := by
  obtain ⟨g, hrun, hentries, hdesc⟩ := smpInit_describes layout hwf hone hmax g₀
  refine ⟨g, hrun, hentries, fun i hi => ⟨hdesc i hi, ?_, fun gNmiOpt cpu hid hr => ?_⟩⟩
  · refine stackOwn_of_sp (hi.trans_le hmax) fun j hj => ?_
    rw [(hdesc j (hj.trans_lt hi)).vcpu]
  · exact getVcpu_of_describes hentries hdesc hids hi hid hr

/-- A table with an I/O APIC record of 12 bytes and one enabled processor with id 3. -/
def ioApicMadt : ByteMem := fun p =>
  if p = 4 then 64 else if p = 44 then 1 else if p = 45 then 12 else if p = 57 then 8
  else if p = 59 then 3 else if p = 60 then 1 else 0

/-- `g_vcpus` at 2 MiB, `g_cpu_stack` at 4 MiB. -/
def smpLowLayout (arch : Arch) : SmpLayout arch where
  gVcpus := 0x200000
  sizeofVcpu := 0x1000
  gCpuStack := 0x400000
  vcpus_fit := by cases arch <;> decide
  stack_fits := by cases arch <;> decide

def zeroTables : SmpTables where
  gMidtableNumentries := 0
  gCpumap := fun _ => ⟨0, 0, 0, 0⟩
  gMidtable := fun _ => ⟨0, 0⟩
  gVcpus := fun _ => ⟨0, 0, 0, false⟩

/-- A CPU with id 3 whose local APIC is in x2APIC mode; there is nothing at its default address. -/
def x2apicCpu : LapicCpu where
  msrApicBase := 0xfee00d00
  ia32X2apicApicid := 3
  read32 := fun _ => 0xffffffff

theorem ioApicMadt_wellFormed : WellFormed ioApicMadt [0, 12] where
  header := by decide
  nonempty := List.cons_ne_nil _ _
  tiles := ⟨rfl, by decide, by decide, rfl, by decide, by decide, rfl⟩

theorem x2apicCpu_hasId : x2apicCpu.HasId ((recordLapicid ioApicMadt 12).setWidth 32) := by
  rw [LapicCpu.HasId, if_pos (by decide)]
  decide

theorem x2apicCpu_reachable : x2apicCpu.Reachable .amd64 0 := by
  rw [LapicCpu.Reachable, if_neg (by decide)]
  exact Or.inl (by decide)

/-- A table with an I/O APIC record and three processors, with ids 3, 5 and 7, of which the second
is not enabled. -/
def fourRecordMadt : ByteMem := fun p =>
  if p = 4 then 80
  else if 44 ≤ p ∧ p < 80 then
    [1, 12, 0, 0, 0, 0, 0, 0, 0, 0, 0, 0,
     0, 8, 0, 3, 1, 0, 0, 0,
     0, 8, 1, 5, 0, 0, 0, 0,
     0, 8, 2, 7, 1, 0, 0, 0].getD (p - 44) 0
  else 0

/-- A CPU with id 7 in xAPIC mode. -/
def xapicCpu : LapicCpu where
  msrApicBase := 0xfee00800
  ia32X2apicApicid := 0
  read32 := fun p => if p = 0xfee00020 then 0x7000000 else 0xffffffff

theorem xapicCpu_hasId : xapicCpu.HasId 7 := by
  rw [LapicCpu.HasId, if_neg (by decide)]
  decide

theorem xapicCpu_reachable : xapicCpu.Reachable .amd64 0 := by
  rw [LapicCpu.Reachable, if_neg (by decide)]
  exact Or.inr (by decide)

/-- The CPU in x2APIC mode and the one in xAPIC mode find their entries, if there are no NMI
experiments. -/
theorem smp_enumeration_exact_x2apic :
    ∃ g, (∃ fuel, ∀ fuel', fuel ≤ fuel' →
        smpInit (smpLowLayout .amd64) fourRecordMadt zeroTables fuel' = some (some g)) ∧
      g.gMidtableNumentries = 2 ∧ g.gCpumap 0 = ⟨3, 0, 0, 1⟩ ∧ g.gCpumap 1 = ⟨7, 0, 0, 0⟩ ∧
      getVcpu .amd64 0 x2apicCpu g = some 0x200000 ∧
      getVcpu .amd64 0 xapicCpu g = some 0x201000 := by
  have hwf : WellFormed fourRecordMadt [0, 12, 20, 28] :=
    { header := by decide
      nonempty := List.cons_ne_nil _ _
      tiles := by decide }
  obtain ⟨g, hrun, hnum, hentry⟩ :=
    smp_enumeration_exact (smpLowLayout .amd64) hwf
    (by decide) (by decide) (by decide) zeroTables
  obtain ⟨hdesc, -, hfind⟩ := hentry 0 (by decide)
  obtain ⟨hdesc', -, hfind'⟩ := hentry 1 (by decide)
  exact ⟨g, hrun, hnum, hdesc.cpumap, hdesc'.cpumap,
    hfind 0 x2apicCpu x2apicCpu_hasId x2apicCpu_reachable,
    hfind' 0 xapicCpu xapicCpu_hasId xapicCpu_reachable⟩

/-- A CPU with id 3 in xAPIC mode whose APIC base has been moved above 4 GiB. -/
def highApicCpu : LapicCpu where
  msrApicBase := 0x1fee00900
  ia32X2apicApicid := 0
  read32 := fun p => if p = 0x1fee00020 then 0x3000000 else 0xffffffff

/-- With `SHV_NMI_ENABLE` the CPU in x2APIC mode does not find itself: `get_vcpu` takes the APIC to
be in xAPIC mode at its default address.  On i386 the other CPU does not, either: the mask of a
`long` takes its APIC base below 4 GiB. -/
theorem smp_enumeration_not_found :
    WellFormed ioApicMadt [0, 12] ∧ processors ioApicMadt [0, 12] = [12] ∧
      x2apicCpu.HasId ((recordLapicid ioApicMadt 12).setWidth 32) ∧
      (smpInit (smpLowLayout .amd64) ioApicMadt zeroTables 2).map
        (Option.map (getVcpu .amd64 shvNmiEnable x2apicCpu)) = some (some none) ∧
      highApicCpu.HasId ((recordLapicid ioApicMadt 12).setWidth 32) ∧
      (smpInit (smpLowLayout .i386) ioApicMadt zeroTables 2).map
        (Option.map (getVcpu .i386 0 highApicCpu)) = some (some none) := by
  have hhigh : highApicCpu.HasId ((recordLapicid ioApicMadt 12).setWidth 32) := by
    rw [LapicCpu.HasId, if_neg (by decide)]
    decide
  exact ⟨ioApicMadt_wellFormed, by decide, x2apicCpu_hasId, by decide, hhigh, by decide⟩

/-! ## Tables of any content -/

/-- The record loop ends, by its test or by its assertion, and all the record bytes it examines lie
within the first `madt->length` bytes of the table. -/
structure ScanRobust (madt : ByteMem) (pcpus : Nat → Pcpu) : Prop where
  ends : ∃ result, Leaves (scanPass madt) (scanStart pcpus) result
  inTable : ∀ s, ReflTransGen (Follows (scanPass madt)) (scanStart pcpus) s →
    ∀ p ∈ examined madt s, p < madtLength madt

/-- A place in the table: the offset of a record, and how many processors come before it. -/
structure RecordPos where
  off : Nat
  cpus : Nat
  deriving DecidableEq, Repr

/-- The record at `x` is followed by one at `y` that starts inside the table, with no more than
`MAX_PCPU_ENTRIES` processors before it.  Offsets have 32 bits. -/
structure NextRecord (madt : ByteMem) (x y : RecordPos) : Prop where
  off : y.off = (x.off + recordLength madt x.off) % 2 ^ 32
  cpus : y.cpus = x.cpus + if isProcessor madt x.off then 1 else 0
  inside : sizeofAcpiMadt + y.off < madtLength madt
  room : y.cpus ≤ maxPcpuEntries

/-- Every record that can be reached from the first, record by record, has its header inside the
table and does not lead back to itself. -/
def RecordsSound (madt : ByteMem) : Prop :=
  ∀ x, ReflTransGen (NextRecord madt) ⟨0, 0⟩ x →
    sizeofAcpiMadt + x.off + headerSize madt x.off ≤ madtLength madt ∧
      ¬ TransGen (NextRecord madt) x x

/-- The place a state of the loop stands for. -/
def ScanState.pos (s : ScanState) : RecordPos := ⟨s.madtcurrentrecordoffset, s.numPcpus⟩

theorem headerSize_ge (madt : ByteMem) (o : Nat) : 2 ≤ headerSize madt o := by
  unfold headerSize
  split <;> omega

theorem follows_iff {madt : ByteMem} {s t : ScanState} :
    Follows (scanPass madt) s t ↔
      (isProcessor madt s.madtcurrentrecordoffset = true → s.numPcpus < maxPcpuEntries) ∧
        t.madtcurrentrecordoffset < madtRecordLength madt ∧
        t = { scanOne madt s s.madtcurrentrecordoffset with madtcurrentrecordoffset :=
          (s.madtcurrentrecordoffset + recordLength madt s.madtcurrentrecordoffset) % 2 ^ 32 } := by
  by_cases hroom : isProcessor madt s.madtcurrentrecordoffset = true →
      s.numPcpus < maxPcpuEntries
  · rw [Follows, scanPass_of_room rfl hroom, advanced]
    constructor
    · intro hpass
      split at hpass
      next hlt =>
          obtain rfl := Pass.again.inj hpass
          exact ⟨hroom, hlt, rfl⟩
      next => cases hpass
    · rintro ⟨-, hlt, rfl⟩
      exact if_pos hlt
  · refine iff_of_false (fun hpass => ?_) fun h => hroom h.1
    rw [Classical.not_imp] at hroom
    rw [Follows, scanPass_eq madt rfl, if_pos hroom.1, if_neg hroom.2] at hpass
    cases hpass

theorem nextRecord_of_follows {madt : ByteMem} {s t : ScanState}
    (hlen : sizeofAcpiMadt ≤ madtLength madt) (hs : s.numPcpus ≤ maxPcpuEntries)
    (h : Follows (scanPass madt) s t) : NextRecord madt s.pos t.pos := by
  obtain ⟨hroom, hlt, rfl⟩ := follows_iff.mp h
  rw [madtRecordLength_eq hlen] at hlt
  refine ⟨rfl, numPcpus_scanOne madt s _, ?_, ?_⟩
  · dsimp only [ScanState.pos] at hlt ⊢
    omega
  · refine (numPcpus_scanOne madt s _).trans_le ?_
    split
    next hp => exact hroom hp
    next => exact hs

theorem follows_of_nextRecord {madt : ByteMem} (hlen : sizeofAcpiMadt ≤ madtLength madt)
    (s : ScanState) (y : RecordPos) (h : NextRecord madt s.pos y) :
    ∃ t, Follows (scanPass madt) s t ∧ t.pos = y := by
  obtain ⟨hoff, hcpus, hin, hroom⟩ := h
  refine ⟨{ scanOne madt s s.madtcurrentrecordoffset with madtcurrentrecordoffset :=
    (s.madtcurrentrecordoffset + recordLength madt s.madtcurrentrecordoffset) % 2 ^ 32 },
    follows_iff.mpr ⟨fun hp => ?_, ?_, rfl⟩, ?_⟩
  · rw [show isProcessor madt s.pos.off = true from hp, if_pos rfl] at hcpus
    exact Nat.lt_of_succ_le (hcpus.symm.trans_le hroom)
  · rw [madtRecordLength_eq hlen]
    refine Nat.lt_sub_of_add_lt ?_
    rw [Nat.add_comm]
    exact hoff ▸ hin
  · exact congrArg₂ RecordPos.mk hoff.symm ((numPcpus_scanOne madt s _).trans hcpus.symm)

theorem reaches_of_scan {madt : ByteMem} {s t : ScanState}
    (hlen : sizeofAcpiMadt ≤ madtLength madt) (hs : s.numPcpus ≤ maxPcpuEntries)
    (h : ReflTransGen (Follows (scanPass madt)) s t) :
    ReflTransGen (NextRecord madt) s.pos t.pos ∧ t.numPcpus ≤ maxPcpuEntries := by
  induction h with
  | refl => exact ⟨.refl, hs⟩
  | tail _ hf ih =>
      have hnext := nextRecord_of_follows hlen ih.2 hf
      exact ⟨ih.1.tail hnext, hnext.room⟩

theorem bounds_of_reaches {madt : ByteMem} {x : RecordPos}
    (h : ReflTransGen (NextRecord madt) ⟨0, 0⟩ x) : x.off < 2 ^ 32 ∧ x.cpus ≤ maxPcpuEntries := by
  cases h with
  | refl => exact ⟨by decide, by decide⟩
  | tail _ hnext => exact ⟨hnext.off ▸ Nat.mod_lt _ (by decide), hnext.room⟩

theorem scan_grows {madt : ByteMem} {s t : ScanState}
    (h : ReflTransGen (Follows (scanPass madt)) s t) :
    t = { s with madtcurrentrecordoffset := t.madtcurrentrecordoffset } ∨
      s.numPcpus < t.numPcpus := by
  induction h with
  | refl => exact Or.inl rfl
  | @tail b c _ hf ih =>
      obtain ⟨-, -, rfl⟩ := follows_iff.mp hf
      cases hp : isProcessor madt b.madtcurrentrecordoffset with
      | true =>
          have hmore : (scanOne madt b b.madtcurrentrecordoffset).numPcpus = b.numPcpus + 1 := by
            rw [numPcpus_scanOne, hp]
            rfl
          refine Or.inr (hmore.symm ▸ Nat.lt_succ_of_le ?_)
          obtain heq | hlt := ih
          · rw [heq]
          · exact Nat.le_of_lt hlt
      | false =>
          have hsame : scanOne madt b b.madtcurrentrecordoffset = b := by
            rw [scanOne, hp]
            rfl
          rw [hsame]
          obtain heq | hlt := ih
          · refine Or.inl ?_
            rw [heq]
          · exact Or.inr hlt

theorem eq_of_pos_eq {madt : ByteMem} {s t : ScanState}
    (h : ReflTransGen (Follows (scanPass madt)) s t) (hpos : t.pos = s.pos) : t = s := by
  have hoff : t.madtcurrentrecordoffset = s.madtcurrentrecordoffset := congrArg RecordPos.off hpos
  have hnum : t.numPcpus = s.numPcpus := congrArg RecordPos.cpus hpos
  obtain heq | hlt := scan_grows h
  · rw [heq, hoff]
  · omega

/-- **Which tables the record loop handles.** -/
theorem madt_scan_robust_iff (madt : ByteMem) (pcpus : Nat → Pcpu) :
    ScanRobust madt pcpus ↔ RecordsSound madt := by
  have hstart : (scanStart pcpus).pos = ⟨0, 0⟩ := rfl
  constructor
  · rintro ⟨⟨result, hends⟩, hin⟩
    have hlen : sizeofAcpiMadt ≤ madtLength madt := by
      have hfirst := (examined_lt_iff ..).mp (hin _ .refl)
      omega
    intro x hx
    rw [← hstart] at hx
    obtain ⟨s, hs, rfl⟩ := exists_reaches (follows_of_nextRecord hlen) hx
    refine ⟨(examined_lt_iff ..).mp (hin s hs), fun hret => ?_⟩
    obtain ⟨t, ht, hpos⟩ := exists_transGen (follows_of_nextRecord hlen) hret
    rw [eq_of_pos_eq ht.to_reflTransGen hpos] at ht
    exact (hends.of_reaches hs).no_return ht
  · intro hsound
    have hlen : sizeofAcpiMadt ≤ madtLength madt := by
      have hfirst := (hsound _ .refl).1
      omega
    have hzero : (scanStart pcpus).numPcpus ≤ maxPcpuEntries := Nat.zero_le _
    constructor
    · refine (leaves_iff_no_return
        (fun s : ScanState => (Fin.ofNat (2 ^ 32) s.madtcurrentrecordoffset,
          Fin.ofNat (maxPcpuEntries + 1) s.numPcpus)) ?_).mpr ?_
      · intro t u ht htu hkey
        have ht' := reaches_of_scan hlen hzero ht
        have hu' := reaches_of_scan hlen hzero (ht.trans htu.to_reflTransGen)
        have hoff := congrArg Fin.val (congrArg Prod.fst hkey)
        have hcpus := congrArg Fin.val (congrArg Prod.snd hkey)
        simp only [Fin.val_ofNat] at hoff hcpus
        have hoff₁ : t.madtcurrentrecordoffset < 2 ^ 32 := (bounds_of_reaches ht'.1).1
        have hoff₂ : u.madtcurrentrecordoffset < 2 ^ 32 := (bounds_of_reaches hu'.1).1
        rw [Nat.mod_eq_of_lt hoff₁, Nat.mod_eq_of_lt hoff₂] at hoff
        rw [Nat.mod_eq_of_lt (Nat.lt_succ_of_le ht'.2),
          Nat.mod_eq_of_lt (Nat.lt_succ_of_le hu'.2)] at hcpus
        exact (eq_of_pos_eq htu.to_reflTransGen (congrArg₂ RecordPos.mk hoff.symm hcpus.symm)).symm
      · intro t ht hret
        have ht' := reaches_of_scan hlen hzero ht
        obtain ⟨u, hf, hback⟩ := TransGen.head'_iff.mp hret
        have hnext := nextRecord_of_follows hlen ht'.2 hf
        exact (hsound _ ht'.1).2
          (TransGen.head' hnext (reaches_of_scan hlen hnext.room hback).1)
    · intro s hs
      rw [examined_lt_iff]
      exact (hsound _ (reaches_of_scan hlen hzero hs).1).1

/-- In a table so short that no offset overflows, only a record of zero length leads back to itself,
and a processor does not: it is stored again until the assertion fails. -/
theorem recordsSound_iff_of_short {madt : ByteMem} (hlen : madtLength madt + 210 < 2 ^ 32) :
    RecordsSound madt ↔
      ∀ x, ReflTransGen (NextRecord madt) ⟨0, 0⟩ x →
        sizeofAcpiMadt + x.off + headerSize madt x.off ≤ madtLength madt ∧
          (isProcessor madt x.off = false → recordLength madt x.off ≠ 0) := by
  constructor
  · intro hsound x hx
    obtain ⟨hfits, hno⟩ := hsound x hx
    refine ⟨hfits, fun hp hzero => hno (.single ⟨?_, ?_, ?_, (bounds_of_reaches hx).2⟩)⟩
    · rw [hzero, Nat.add_zero, Nat.mod_eq_of_lt (bounds_of_reaches hx).1]
    · rw [hp]
      rfl
    · have hsize := headerSize_ge madt x.off
      omega
  · intro hall x hx
    -- every step moves on in the table or stores a processor
    have hstep : ∀ y z, ReflTransGen (NextRecord madt) ⟨0, 0⟩ y → NextRecord madt y z →
        y.cpus < z.cpus ∨ (y.cpus = z.cpus ∧ y.off < z.off) := by
      rintro y z hy ⟨hoff, hcpus, -, -⟩
      obtain ⟨hfits, hpos⟩ := hall y hy
      have hbyte : recordLength madt y.off < 256 := (madt.load _ 1 : BitVec 8).isLt
      have hsize := headerSize_ge madt y.off
      rw [Nat.mod_eq_of_lt (by unfold sizeofAcpiMadt at hfits; omega)] at hoff
      cases hp : isProcessor madt y.off with
      | true =>
          rw [hp, if_pos rfl] at hcpus
          exact Or.inl (by omega)
      | false =>
          have hnz := hpos hp
          rw [hp, if_neg Bool.false_ne_true] at hcpus
          exact Or.inr ⟨hcpus.symm, by omega⟩
    have hrun : ∀ y, TransGen (NextRecord madt) x y →
        x.cpus < y.cpus ∨ (x.cpus = y.cpus ∧ x.off < y.off) := by
      intro y hxy
      induction hxy with
      | single hs => exact hstep _ _ hx hs
      | tail hxy hs ih =>
          have hlast := hstep _ _ (hx.trans hxy.to_reflTransGen) hs
          omega
    refine ⟨(hall x hx).1, fun hret => ?_⟩
    have hself := hrun x hret
    omega

/-- A table of 52 bytes that starts with a record of zero length which is not a processor. -/
def zeroLengthMadt : ByteMem := fun p => if p = 4 then 52 else if p = 44 then 1 else 0

def emptyMadt : ByteMem := fun p => if p = 4 then 44 else 0

theorem zeroLengthMadt_follows (pcpus : Nat → Pcpu) :
    Follows (scanPass zeroLengthMadt) (scanStart pcpus) (scanStart pcpus) := by
  have hproc : ¬ isProcessor zeroLengthMadt 0 = true := by decide
  have hone : scanOne zeroLengthMadt (scanStart pcpus) 0 = scanStart pcpus := if_neg hproc
  have hzero : (0 + recordLength zeroLengthMadt 0) % 2 ^ 32 = 0 := by decide
  refine follows_iff.mpr ⟨fun hp => absurd hp hproc,
    show 0 < madtRecordLength zeroLengthMadt by decide, ?_⟩
  show scanStart pcpus = { scanOne zeroLengthMadt (scanStart pcpus) 0 with
    madtcurrentrecordoffset := (0 + recordLength zeroLengthMadt 0) % 2 ^ 32 }
  rw [hone, hzero]
  rfl

/-- The loop hangs on a record of zero length, and it looks for a record behind a table that has
none. -/
theorem madt_scan_not_robust :
    (¬ ∃ result, Leaves (scanPass zeroLengthMadt) (scanStart fun _ => ⟨0, 0, 0, 0⟩) result) ∧
      ¬ ScanRobust zeroLengthMadt (fun _ => ⟨0, 0, 0, 0⟩) ∧
      ¬ ScanRobust emptyMadt fun _ => ⟨0, 0, 0, 0⟩ := by
  have hhang : ¬ ∃ result,
      Leaves (scanPass zeroLengthMadt) (scanStart fun _ => ⟨0, 0, 0, 0⟩) result := by
    rintro ⟨result, h⟩
    exact h.no_return (.single (zeroLengthMadt_follows _))
  refine ⟨hhang, fun h => hhang h.ends, fun h => ?_⟩
  have hheader := (examined_lt_iff ..).mp (h.inTable _ .refl)
  exact absurd hheader
    (show ¬ sizeofAcpiMadt + 0 + headerSize emptyMadt 0 ≤ madtLength emptyMadt by decide)

end Shv
