/-
# `Shv.AcpiSearch` — how `smp_getinfo` finds the MADT

Before its record loop `smp_getinfo` has to find the table.  `ACPIGetRSDP` tries the 16-byte
boundaries of two areas for an RSDP, whose 20 bytes add up to 0; the RSDP leads to the RSDT, and of
the tables listed there the first with the right signature is the MADT.  Addresses are pointers of
the build, so on i386 a table may run over the end of the address space.

* `smp_getinfo_madt_iff`: for memory of any content, which table is found.  The RSDT is trusted:
  neither its signature nor its checksum is looked at.
* `smp_init_from_memory`: on a machine whose firmware has left well-formed tables `smp_init` fills
  the three tables in with exactly the enabled processors.
-/
import Shv.Madt
import Shv.Lib.WordStack

namespace Shv

variable {arch : Arch}

/-! ## The code -/

def acpiRsdpSignature : BitVec 64 := 0x2052545020445352

def acpiMadtSignature : BitVec 32 := 0x43495041

/-- `sizeof(ACPI_RSDT)`. -/
def sizeofAcpiRsdt : Nat := 36

/-- The bytes of an object, numbered from its start. -/
def objectAt (m : RingMem arch.ptrBits) (p : BitVec arch.ptrBits) : ByteMem := fun i =>
  m (p + BitVec.ofNat arch.ptrBits i)

/-- `_ACPIGetRSDPComputeChecksum`; a `char` has a sign. -/
def acpiGetRsdpComputeChecksum (m : RingMem arch.ptrBits) (spaddr : BitVec arch.ptrBits)
    (size : Nat) : BitVec 32 :=
  ((List.range size).foldl (fun checksum i => checksum + objectAt m spaddr i) 0#8).signExtend 32

/-- The body of the two loops of `ACPIGetRSDP`: whether `found` is set. -/
def tryRsdp (m : RingMem arch.ptrBits) (rsdp : BitVec arch.ptrBits) : Halting Bool :=
  if (objectAt m rsdp).load 0 8 = acpiRsdpSignature then do
    cAssert (rsdp == (rsdp.setWidth 32).setWidth arch.ptrBits)
    return acpiGetRsdpComputeChecksum m rsdp 20 == 0
  else
    return false

/-- One of the loops, over the addresses it tries. -/
def searchRsdp (m : RingMem arch.ptrBits) :
    List (BitVec arch.ptrBits) → Halting (Option (BitVec arch.ptrBits))
  | [] => return none
  | rsdp :: rest => do
      let found ← tryRsdp m rsdp
      if found then return some rsdp else searchRsdp m rest

/-- The values of `i` in `for (i = start; i < bound; i += 16)`. -/
def paragraphs (start bound : Nat) : List Nat := List.range' start ((bound - start + 15) / 16) 16

def ebdaSeg (m : RingMem arch.ptrBits) : BitVec 16 :=
  (objectAt m (BitVec.ofNat _ 0x40e)).load 0 2

def ebdaPhys (m : RingMem arch.ptrBits) : BitVec 32 := (ebdaSeg m).setWidth 32 * 16

/-- `ACPIGetRSDP`, which returns `NULL` if there is none. -/
def acpiGetRsdp (m : RingMem arch.ptrBits) : Halting (BitVec arch.ptrBits) := do
  let inEbda ← searchRsdp m ((paragraphs 0 (1024 - 8)).map fun i =>
    (ebdaPhys m + BitVec.ofNat 32 i).setWidth arch.ptrBits)
  match inEbda with
  | some rsdp => return rsdp
  | none =>
      let inBios ← searchRsdp m ((paragraphs 0xe0000 (0xfffff - 8)).map fun i =>
        (BitVec.ofNat 32 i).setWidth arch.ptrBits)
      return inBios.getD 0

/-- The RSDP `smp_getinfo` goes on with. -/
def smpGetinfoRsdp (m : RingMem arch.ptrBits) (uefiRsdp : BitVec arch.ptrBits) :
    Halting (BitVec arch.ptrBits) :=
  if uefiRsdp = 0 then acpiGetRsdp m
  else do
    cAssert (acpiGetRsdpComputeChecksum m uefiRsdp 20 == 0)
    return uefiRsdp

/-- `(ACPI_RSDT *) (uintptr_t) rsdp->rsdtaddress`. -/
def rsdtAddress (m : RingMem arch.ptrBits) (rsdp : BitVec arch.ptrBits) : BitVec arch.ptrBits :=
  BitVec.setWidth _ ((objectAt m rsdp).load 16 4 : BitVec 32)

/-- `n_rsdt_entries`: a `u32` minus a `size_t`. -/
def nRsdtEntries (m : RingMem arch.ptrBits) (rsdt : BitVec arch.ptrBits) : Nat :=
  (((BitVec.setWidth arch.ptrBits ((objectAt m rsdt).load 4 4 : BitVec 32) -
    BitVec.ofNat arch.ptrBits sizeofAcpiRsdt) / 4).setWidth 32).toNat

/-- `(uintptr_t) rsdtentrylist[i]`. -/
def rsdtEntry (m : RingMem arch.ptrBits) (rsdt : BitVec arch.ptrBits) (i : Nat) :
    BitVec arch.ptrBits :=
  let rsdtentrylist := rsdt + BitVec.ofNat _ sizeofAcpiRsdt
  BitVec.setWidth _ ((objectAt m (rsdtentrylist + BitVec.ofNat _ (4 * i))).load 0 4 : BitVec 32)

/-- `madt->signature == ACPI_MADT_SIGNATURE`. -/
def isMadt (m : RingMem arch.ptrBits) (madt : BitVec arch.ptrBits) : Bool :=
  (objectAt m madt).load 0 4 == acpiMadtSignature

/-- `smp_getinfo` up to where it has found the MADT; both `goto fallthrough` lead to the assertion
at its end. -/
def smpGetinfoMadt (m : RingMem arch.ptrBits) (uefiRsdp : BitVec arch.ptrBits) :
    Halting (BitVec arch.ptrBits) := do
  let rsdp ← smpGetinfoRsdp m uefiRsdp
  cAssert (rsdp != 0)
  let rsdt := rsdtAddress m rsdp
  ((List.range (nRsdtEntries m rsdt)).map (rsdtEntry m rsdt)).find? (isMadt m)

/-- `smp_init` up to the end of its loop, from what is in memory. -/
def smpInitFromMemory (layout : SmpLayout arch) (m : RingMem arch.ptrBits) (g : SmpTables)
    (fuel : Nat) : Option (Halting SmpTables) :=
  match smpGetinfoMadt m 0 with
  | none => some none
  | some madt => smpInit layout (objectAt m madt) g fuel

/-! ## What should be found -/

/-- The bytes of an object add up to 0. -/
def SumsToZero (m : RingMem arch.ptrBits) (a : BitVec arch.ptrBits) (n : Nat) : Prop :=
  ((List.range n).map fun i => (objectAt m a i).toNat).sum % 256 = 0

instance (m : RingMem arch.ptrBits) (a : BitVec arch.ptrBits) (n : Nat) :
    Decidable (SumsToZero m a n) :=
  inferInstanceAs (Decidable (_ = _))

/-- There is an RSDP at this address. -/
def RsdpAt (m : RingMem arch.ptrBits) (a : BitVec arch.ptrBits) : Prop :=
  (objectAt m a).load 0 8 = acpiRsdpSignature ∧ SumsToZero m a 20

instance (m : RingMem arch.ptrBits) (a : BitVec arch.ptrBits) : Decidable (RsdpAt m a) :=
  inferInstanceAs (Decidable (_ ∧ _))

/-- Where an RSDP is looked for: in the first KiB of the EBDA, whose segment is at `40:0e`, and in
the BIOS below 1 MiB. -/
def rsdpPlaces (m : RingMem arch.ptrBits) : List (BitVec arch.ptrBits) :=
  ((paragraphs 0 1016).map ((ebdaSeg m).toNat * 16 + ·) ++ paragraphs 0xe0000 0xffff7).map
    (BitVec.ofNat _)

/-- `a` is the first of some places with a property. -/
def First {α : Type} (places : List α) (P : α → Prop) (a : α) : Prop :=
  ∃ before after, places = before ++ a :: after ∧ P a ∧ ∀ b ∈ before, ¬ P b

/-! ## The RSDP -/

variable {m : RingMem arch.ptrBits}

theorem toNat_foldl_bytes (m : ByteMem) (n : Nat) :
    ((List.range n).foldl (fun checksum i => checksum + m i) 0#8).toNat =
      ((List.range n).map fun i => (m i).toNat).sum % 256 := by
  induction n with
  | zero => rfl
  | succ n ih =>
      rw [List.range_succ, List.foldl_append, List.map_append, List.sum_append]
      simp only [List.foldl_cons, List.foldl_nil, List.map_cons, List.map_nil, List.sum_singleton]
      rw [BitVec.toNat_add, ih]
      omega

theorem checksum_beq_zero (m : RingMem arch.ptrBits) (a : BitVec arch.ptrBits) (n : Nat) :
    (acpiGetRsdpComputeChecksum m a n == 0) = decide (SumsToZero m a n) := by
  have hsign : ∀ c : BitVec 8, (c.signExtend 32 == 0) = decide (c.toNat = 0) := by decide
  rw [acpiGetRsdpComputeChecksum, hsign, toNat_foldl_bytes]
  rfl

theorem tryRsdp_eq {a : BitVec arch.ptrBits} (ha : a.toNat < 2 ^ 32) :
    tryRsdp m a = some (decide (RsdpAt m a)) := by
  have htrunc : (a == (a.setWidth 32).setWidth arch.ptrBits) = true := by
    rw [beq_iff_eq]
    apply BitVec.eq_of_toNat_eq
    rw [BitVec.toNat_setWidth, BitVec.toNat_setWidth, Nat.mod_eq_of_lt ha, Nat.mod_eq_of_lt a.isLt]
  rw [tryRsdp, htrunc, checksum_beq_zero]
  by_cases hsig : (objectAt m a).load 0 8 = acpiRsdpSignature
  · rw [if_pos hsig]
    exact congrArg some (decide_eq_decide.mpr ⟨fun h => ⟨hsig, h⟩, fun h => h.2⟩)
  · rw [if_neg hsig]
    exact congrArg some (decide_eq_false fun h => hsig h.1).symm

theorem searchRsdp_eq {places : List (BitVec arch.ptrBits)}
    (h : ∀ a ∈ places, a.toNat < 2 ^ 32) :
    searchRsdp m places = some (places.find? fun a => RsdpAt m a) := by
  induction places with
  | nil => rfl
  | cons a places ih =>
      rw [searchRsdp, tryRsdp_eq (h a List.mem_cons_self), List.find?_cons]
      cases decide (RsdpAt m a) with
      | true => rfl
      | false => exact ih fun b hb => h b (List.mem_cons_of_mem a hb)

theorem mem_paragraphs {start bound i : Nat} (h : i ∈ paragraphs start bound)
    (hle : start ≤ bound) : i < bound := by
  obtain ⟨k, hk, rfl⟩ := List.mem_range'.mp h
  omega

theorem rsdpPlaces_eq (m : RingMem arch.ptrBits) :
    rsdpPlaces m = (paragraphs 0 (1024 - 8)).map (fun i =>
        (ebdaPhys m + BitVec.ofNat 32 i).setWidth arch.ptrBits) ++
      (paragraphs 0xe0000 (0xfffff - 8)).map fun i =>
        (BitVec.ofNat 32 i).setWidth arch.ptrBits := by
  have hseg : (ebdaSeg m).toNat < 2 ^ 16 := (ebdaSeg m).isLt
  rw [rsdpPlaces, List.map_append, List.map_map]
  congr 1
  · refine List.map_congr_left fun i hi => ?_
    have hlt := mem_paragraphs hi (by decide)
    apply BitVec.eq_of_toNat_eq
    rw [Function.comp_apply, BitVec.toNat_setWidth, BitVec.toNat_add, ebdaPhys, BitVec.toNat_mul,
      BitVec.toNat_setWidth, BitVec.toNat_ofNat, BitVec.toNat_ofNat]
    refine congrArg (· % 2 ^ arch.ptrBits) ?_
    show _ = ((ebdaSeg m).toNat % 2 ^ 32 * 16 % 2 ^ 32 + i % 2 ^ 32) % 2 ^ 32
    omega
  · refine List.map_congr_left fun i hi => ?_
    have hlt := mem_paragraphs hi (by decide)
    apply BitVec.eq_of_toNat_eq
    rw [BitVec.toNat_setWidth, BitVec.toNat_ofNat, BitVec.toNat_ofNat,
      Nat.mod_eq_of_lt (show i < 2 ^ 32 by omega)]

theorem rsdpPlaces_lt {a : BitVec arch.ptrBits} (ha : a ∈ rsdpPlaces m) : a.toNat < 2 ^ 32 := by
  rw [rsdpPlaces_eq, List.mem_append] at ha
  have hlow : ∀ x : BitVec 32, (x.setWidth arch.ptrBits).toNat < 2 ^ 32 := fun x => by
    rw [BitVec.toNat_setWidth]
    exact (Nat.mod_le ..).trans_lt x.isLt
  rcases ha with ha | ha <;> obtain ⟨i, -, rfl⟩ := List.mem_map.mp ha <;> exact hlow _

theorem acpiGetRsdp_eq (m : RingMem arch.ptrBits) :
    acpiGetRsdp m = some (((rsdpPlaces m).find? fun a => RsdpAt m a).getD 0) := by
  have hlow : ∀ a ∈ rsdpPlaces m, a.toNat < 2 ^ 32 := fun a => rsdpPlaces_lt
  rw [rsdpPlaces_eq] at hlow
  rw [acpiGetRsdp, searchRsdp_eq fun a ha => hlow a (List.mem_append_left _ ha),
    searchRsdp_eq fun a ha => hlow a (List.mem_append_right _ ha), rsdpPlaces_eq,
    List.find?_append]
  cases ((paragraphs 0 (1024 - 8)).map fun i =>
      (ebdaPhys m + BitVec.ofNat 32 i).setWidth arch.ptrBits).find? (fun a => RsdpAt m a) with
  | some a => rfl
  | none =>
      cases ((paragraphs 0xe0000 (0xfffff - 8)).map fun i =>
        (BitVec.ofNat 32 i).setWidth arch.ptrBits).find? (fun a => RsdpAt m a) <;> rfl

theorem find?_eq_some_iff_first {α : Type} {places : List α} {P : α → Prop} [DecidablePred P]
    {a : α} : places.find? (fun a => P a) = some a ↔ First places P a := by
  rw [List.find?_eq_some_iff_append]
  simp only [decide_eq_true_eq, Bool.not_eq_true', decide_eq_false_iff_not, First]
  constructor
  · rintro ⟨ha, before, after, heq, hbefore⟩
    exact ⟨before, after, heq, ha, hbefore⟩
  · rintro ⟨before, after, heq, ha, hbefore⟩
    exact ⟨ha, before, after, heq, hbefore⟩

/-- The RSDP `smp_getinfo` should go on with: UEFI's, or the first in memory. -/
def RsdpFor (m : RingMem arch.ptrBits) (uefiRsdp rsdp : BitVec arch.ptrBits) : Prop :=
  if uefiRsdp = 0 then First (rsdpPlaces m) (RsdpAt m) rsdp
  else rsdp = uefiRsdp ∧ SumsToZero m rsdp 20

theorem smpGetinfoRsdp_eq_some_iff {uefiRsdp rsdp : BitVec arch.ptrBits} (hnull : rsdp ≠ 0) :
    smpGetinfoRsdp m uefiRsdp = some rsdp ↔ RsdpFor m uefiRsdp rsdp := by
  rw [smpGetinfoRsdp, RsdpFor]
  by_cases h0 : uefiRsdp = 0
  · rw [if_pos h0, if_pos h0, acpiGetRsdp_eq, ← find?_eq_some_iff_first]
    cases (rsdpPlaces m).find? (fun a => RsdpAt m a) with
    | none => exact iff_of_false (fun h => hnull (Option.some.inj h).symm) nofun
    | some a => rfl
  · rw [if_neg h0, if_neg h0, checksum_beq_zero]
    by_cases hsum : SumsToZero m uefiRsdp 20
    · rw [decide_eq_true hsum]
      constructor
      · intro h
        obtain rfl := Option.some.inj h
        exact ⟨rfl, hsum⟩
      · rintro ⟨rfl, -⟩
        rfl
    · rw [decide_eq_false hsum]
      constructor
      · intro h
        cases h
      · rintro ⟨rfl, h⟩
        exact absurd h hsum

/-! ## The MADT -/

/-- The entry for the MADT. -/
def MadtFor (m : RingMem arch.ptrBits) (rsdp madt : BitVec arch.ptrBits) : Prop :=
  First ((List.range (nRsdtEntries m (rsdtAddress m rsdp))).map (rsdtEntry m (rsdtAddress m rsdp)))
    (fun a => (objectAt m a).load 0 4 = acpiMadtSignature) madt

theorem smpGetinfoMadt_of_rsdp {uefiRsdp rsdp : BitVec arch.ptrBits}
    (hrsdp : smpGetinfoRsdp m uefiRsdp = some rsdp) (hnull : rsdp ≠ 0)
    (madt : BitVec arch.ptrBits) :
    smpGetinfoMadt m uefiRsdp = some madt ↔ MadtFor m rsdp madt := by
  have hne : (rsdp != 0) = true := by rwa [bne_iff_ne]
  rw [smpGetinfoMadt, hrsdp, MadtFor, ← find?_eq_some_iff_first]
  show (cAssert (rsdp != 0)).bind _ = _ ↔ _
  rw [hne]
  rfl

/-- **Which table is the MADT**, for memory of any content: the RSDP is UEFI's, if that is not
`NULL` and its checksum is right, or the first one in the EBDA and the BIOS, and the MADT is the
first entry of its RSDT with the signature.  In all other cases the CPU halts at an assertion, which
is none of those in `ACPIGetRSDP`. -/
theorem smp_getinfo_madt_iff (m : RingMem arch.ptrBits) (uefiRsdp : BitVec arch.ptrBits) :
    (acpiGetRsdp m).isSome ∧
    ∀ madt, smpGetinfoMadt m uefiRsdp = some madt ↔
      ∃ rsdp, rsdp ≠ 0 ∧ RsdpFor m uefiRsdp rsdp ∧ MadtFor m rsdp madt := by
  refine ⟨by rw [acpiGetRsdp_eq]; rfl, fun madt => ⟨fun h => ?_, ?_⟩⟩
  · obtain ⟨rsdp, hrsdp, hrest⟩ := Option.bind_eq_some_iff.mp h
    obtain ⟨_, hne, -⟩ := Option.bind_eq_some_iff.mp hrest
    rw [cAssert_eq_some, bne_iff_ne] at hne
    exact ⟨rsdp, hne, (smpGetinfoRsdp_eq_some_iff hne).mp hrsdp,
      (smpGetinfoMadt_of_rsdp hrsdp hne madt).mp h⟩
  · rintro ⟨rsdp, hnull, hfor, hfirst⟩
    have hrsdp := (smpGetinfoRsdp_eq_some_iff hnull).mpr hfor
    exact (smpGetinfoMadt_of_rsdp hrsdp hnull madt).mpr hfirst

/-- The tables the firmware leaves: a first RSDP not at address 0, an RSDT, and among its entries a
first MADT, at `madt`, that is well formed. -/
structure FirmwareTables (m : RingMem arch.ptrBits) (rsdp madt : BitVec arch.ptrBits)
    (records : List Nat) : Prop where
  firstRsdp : First (rsdpPlaces m) (RsdpAt m) rsdp
  notNull : rsdp ≠ 0
  firstMadt : MadtFor m rsdp madt
  wellFormed : WellFormed (objectAt m madt) records

theorem FirmwareTables.found {rsdp madt : BitVec arch.ptrBits} {records : List Nat}
    (h : FirmwareTables m rsdp madt records) : smpGetinfoMadt m 0 = some madt := by
  have hfor : RsdpFor m 0 rsdp := by
    rw [RsdpFor, if_pos rfl]
    exact h.firstRsdp
  exact (smpGetinfoMadt_of_rsdp ((smpGetinfoRsdp_eq_some_iff h.notNull).mpr hfor) h.notNull
    madt).mpr h.firstMadt

/-- **From the tables in memory to the tables of the CPUs**: `smp_init` finds the MADT that the
firmware has left, and with one to `MAX_PCPU_ENTRIES` enabled processors of different ids in it,
these are what is in `g_cpumap`, `g_midtable` and `g_vcpus`, in table order, and each CPU finds
itself there, if `get_vcpu` can get at its id (`LapicCpu.Reachable`). -/
theorem smp_init_from_memory (layout : SmpLayout arch) {rsdp madt : BitVec arch.ptrBits}
    {records : List Nat} (h : FirmwareTables m rsdp madt records)
    (hone : processors (objectAt m madt) records ≠ [])
    (hmax : (processors (objectAt m madt) records).length ≤ maxPcpuEntries)
    (hids : ((processors (objectAt m madt) records).map (recordLapicid (objectAt m madt))).Nodup)
    (g₀ : SmpTables) :
    ∃ g, (∃ fuel, ∀ fuel', fuel ≤ fuel' → smpInitFromMemory layout m g₀ fuel' = some (some g)) ∧
      g.gMidtableNumentries = (processors (objectAt m madt) records).length ∧
      ∀ i (hi : i < (processors (objectAt m madt) records).length),
        Describes layout (objectAt m madt) g i (processors (objectAt m madt) records)[i] ∧
        ∀ gNmiOpt (cpu : LapicCpu),
          cpu.HasId ((recordLapicid (objectAt m madt)
            (processors (objectAt m madt) records)[i]).setWidth 32) →
          cpu.Reachable arch gNmiOpt → getVcpu arch gNmiOpt cpu g = some (layout.vcpuPtr i) := by
  obtain ⟨g, ⟨fuel, hrun⟩, hentries, hdesc⟩ :=
    smpInit_describes layout h.wellFormed hone hmax g₀
  refine ⟨g, ⟨fuel, fun fuel' hle => ?_⟩, hentries, fun i hi => ⟨hdesc i hi, fun _ _ hid hr => ?_⟩⟩
  · rw [smpInitFromMemory, h.found]
    exact hrun fuel' hle
  · exact getVcpu_of_describes hentries hdesc hids hi hid hr

/-- An RSDP at the start of the EBDA, an RSDT with an entry that is no MADT and one that is, and
`fourRecordMadt`. -/
def acpiMemory : RingMem Arch.amd64.ptrBits := fun a =>
  let p := a.toNat
  if p = 0x40f then 0x9f else if p = 0x40e then 0xc0
  else if 0x9fc00 ≤ p ∧ p < 0x9fc14 then
    [0x52, 0x53, 0x44, 0x20, 0x50, 0x54, 0x52, 0x20, 0xd0, 0, 0, 0, 0, 0, 0, 0, 0, 1, 0x10,
      0].getD (p - 0x9fc00) 0
  else if p = 0x100104 then 44
  else if p = 0x100125 then 2 else if p = 0x100126 then 0x10
  else if p = 0x100129 then 3 else if p = 0x10012a then 0x10
  else if 0x100300 ≤ p ∧ p < 0x100304 then
    [0x41, 0x50, 0x49, 0x43].getD (p - 0x100300) 0
  else if 0x100304 ≤ p then fourRecordMadt (p - 0x100300)
  else 0

/-- Processors 3 and 7 are found, and the second finds itself. -/
theorem smp_init_from_memory_sample :
    ∃ g, (∃ fuel, ∀ fuel', fuel ≤ fuel' →
        smpInitFromMemory (smpLowLayout .amd64) acpiMemory zeroTables fuel' = some (some g)) ∧
      g.gMidtableNumentries = 2 ∧ g.gCpumap 0 = ⟨3, 0, 0, 1⟩ ∧ g.gCpumap 1 = ⟨7, 0, 0, 0⟩ ∧
      getVcpu .amd64 0 xapicCpu g = some 0x201000 := by
  have htables : FirmwareTables acpiMemory (BitVec.ofNat _ 0x9fc00) (BitVec.ofNat _ 0x100300)
      [0, 12, 20, 28] :=
    { firstRsdp := ⟨[], _, rfl, by decide, nofun⟩
      notNull := by decide
      firstMadt := ⟨[BitVec.ofNat _ 0x100200], [], by decide +kernel, by decide,
        List.forall_mem_singleton.mpr (by decide)⟩
      wellFormed :=
        { header := by decide
          nonempty := List.cons_ne_nil _ _
          tiles := by decide } }
  obtain ⟨g, hrun, hnum, hentry⟩ := smp_init_from_memory (smpLowLayout .amd64) htables
    (by decide) (by decide) (by decide) zeroTables
  obtain ⟨hdesc, hfind⟩ := hentry 1 (by decide)
  exact ⟨g, hrun, hnum, (hentry 0 (by decide)).1.cpumap.trans (by decide),
    hdesc.cpumap.trans (by decide), hfind 0 xapicCpu xapicCpu_hasId xapicCpu_reachable⟩

end Shv
