/-
# `Shv.Ept` — `shv-ept.c`

The extended page tables the hypervisor builds for its guests.  As in `Shv.Hptw`
this module is the translation; the theorems are in `Shv.EptPool`,
`Shv.EptBuild` and `Shv.EptTlb`.

**Storage.**  The arrays of the source (`ept_valid`, `ept_root`, `ept_pool`,
`ept_alloc`, `ept_target`, `large_pages`) are regions of one memory, at the
addresses the linker gave them; an `Image` is such a link layout, with what
`linker.ld` and the alignment attributes guarantee as its fields.

**INVEPT.**  `shv_build_ept` reports the operand of the `INVEPT` it executes.  The
operand is a well-formed EPTP, for which the instruction succeeds, so the
`ASSERT` around it is not modelled.
-/
import Shv.Hptw

namespace Shv

open ByteMem

def maxVcpuEntries : Nat := 10
def shvEptCount : Nat := 2
def eptPoolSize : Nat := 128
def pageSize4k : Nat := 4096
def pageSize2m : Nat := 0x200000

def shvUseLargePage : BitVec 64 := 0x100#64

/-! ## The linked image -/

/-- The arrays of `shv-ept.c` as (address, size) pairs. -/
def eptObjects (eptValid eptRoot eptPool eptAlloc eptTarget largePages : Nat) :
    List (Nat × Nat) :=
  [(eptValid, maxVcpuEntries * shvEptCount),
    (eptRoot, maxVcpuEntries * shvEptCount * pageSize4k),
    (eptPool, maxVcpuEntries * shvEptCount * eptPoolSize * pageSize4k),
    (eptAlloc, maxVcpuEntries * shvEptCount * eptPoolSize),
    (eptTarget, 256 * pageSize4k),
    (largePages, 2 * pageSize2m)]

/-- A linked image: where the arrays are, and `_shv_ept_low` and `_shv_ept_high`. -/
structure Image where
  arch : Arch
  /-- what `x >> k` gives for a count of 64 or more, which C leaves open -/
  oobShr : BitVec 64 → BitVec 32 → BitVec 64
  low : Nat
  high : Nat
  eptValid : Nat
  eptRoot : Nat
  eptPool : Nat
  eptAlloc : Nat
  eptTarget : Nat
  largePages : Nat
  low_aligned : low % pageSize4k = 0
  high_aligned : high % pageSize4k = 0
  low_ge : 0x100000 ≤ low
  high_le : high ≤ 0x12340000
  root_aligned : eptRoot % pageSize4k = 0
  pool_aligned : eptPool % pageSize4k = 0
  target_aligned : eptTarget % pageSize4k = 0
  large_aligned : largePages % pageSize2m = 0
  inside : ∀ o ∈ eptObjects eptValid eptRoot eptPool eptAlloc eptTarget largePages,
    low ≤ o.1 ∧ o.1 + o.2 ≤ high
  apart : (eptObjects eptValid eptRoot eptPool eptAlloc eptTarget largePages).Pairwise
    fun a b => Apart a.1 a.2 b.1 b.2

namespace Image

variable (img : Image)

/-- `&ept_valid[idx][r]`. -/
def validAt (idx r : Nat) : Nat := img.eptValid + (idx * shvEptCount + r)

/-- `ept_root[idx][r]`. -/
def rootAt (idx r : Nat) : Nat := img.eptRoot + (idx * shvEptCount + r) * pageSize4k

/-- `ept_pool[idx][r]`. -/
def poolAt (idx r : Nat) : Nat :=
  img.eptPool + (idx * shvEptCount + r) * (eptPoolSize * pageSize4k)

/-- `ept_alloc[idx][r]`. -/
def allocAt (idx r : Nat) : Nat := img.eptAlloc + (idx * shvEptCount + r) * eptPoolSize

/-- `ept_target[n]`. -/
def targetAt (n : Nat) : Nat := img.eptTarget + n * pageSize4k

/-- `large_pages[i]`. -/
def largePage (i : Nat) : Nat := img.largePages + i * pageSize2m

end Image

/-! ## The allocator and the address maps -/

def hva2spa (hva : Nat) : BitVec 64 := BitVec.ofNat 64 hva

/-- `spa2hva`: the cast through `uintptr_t` keeps the low bits. -/
def spa2hva (arch : Arch) (spa : BitVec 64) : Nat := spa.toNat % 2 ^ arch.ptrBits

/-- The loop of `shv_ept_gzp`, `left` iterations before its end. -/
def shvEptGzpLoop (pagePool pageAlloc : Nat) (m : ByteMem) : (left i : Nat) → Nat × ByteMem
  | 0, _ => (0, m)
  | left + 1, i =>
      if m (pageAlloc + i) = 0 then
        (pagePool + i * pageSize4k, m.store (pageAlloc + i) 1 1#8)
      else shvEptGzpLoop pagePool pageAlloc m left (i + 1)

def shvEptGzp (pagePool pageAlloc : Nat) (m : ByteMem) (alignment sz : Nat) :
    Halting (Nat × ByteMem) := do
  cAssert (alignment == pageSize4k)
  cAssert (sz == pageSize4k)
  return shvEptGzpLoop pagePool pageAlloc m eptPoolSize 0

/-- The context `shv_build_ept` sets up for root `r` of CPU `idx`, with `shv_ept_ptr2pa` and
`shv_ept_pa2ptr`. -/
def shvEptCtx (img : Image) (idx r : Nat) : HptwCtx where
  gzp := shvEptGzp (img.poolAt idx r) (img.allocAt idx r)
  pa2ptr spa sz _ _ := (spa2hva img.arch spa, sz)
  ptr2pa := hva2spa
  rootPa := hva2spa (img.rootAt idx r)
  t := .ept

/-! ## Memory types -/

/-- `struct _guestvarmtrrmsrpair`. -/
structure VarMtrr where
  base : BitVec 64
  mask : BitVec 64
  deriving DecidableEq, Repr

/-- The fields of `VCPU` that `shv-ept.c` reads.  `varMtrrs` are the first `var_count`
elements of the array. -/
structure Vcpu where
  idx : Nat
  vmxEptDefaulttype : BitVec 8
  vmxEptMtrrEnable : Bool
  vmxEptFixmtrrEnable : Bool
  fixMtrrs : Nat → BitVec 64
  varMtrrs : List VarMtrr

def mtrrTypeUc : BitVec 32 := 0#32
def mtrrTypeWt : BitVec 32 := 4#32
def mtrrTypeWb : BitVec 32 := 6#32
def mtrrTypeResv : BitVec 32 := 7#32

/-- `start`, `step` and `end` of `fixed_mtrr_prop`, in order. -/
def fixedMtrrProp : List (BitVec 64 × BitVec 64 × BitVec 64) :=
  [(0x00000000, 0x00010000, 0x00080000),
    (0x00080000, 0x00004000, 0x000A0000),
    (0x000A0000, 0x00004000, 0x000C0000),
    (0x000C0000, 0x00001000, 0x000C8000),
    (0x000C8000, 0x00001000, 0x000D0000),
    (0x000D0000, 0x00001000, 0x000D8000),
    (0x000D8000, 0x00001000, 0x000E0000),
    (0x000E0000, 0x00001000, 0x000E8000),
    (0x000E8000, 0x00001000, 0x000F0000),
    (0x000F0000, 0x00001000, 0x000F8000),
    (0x000F8000, 0x00001000, 0x00100000)]

/-- `msr` of `fixed_mtrr_prop`, in the same order. -/
def fixedMtrrMsr : List (BitVec 32) :=
  [0x250, 0x258, 0x259, 0x268, 0x269, 0x26a, 0x26b, 0x26c, 0x26d, 0x26e, 0x26f]

/-- What `shv_ept_init` asks the CPU: `EAX` of CPUID `0x80000000` and `0x80000008`, and MSRs. -/
structure CpuInfo where
  maxExtendedLeaf : BitVec 32
  addressSizes : BitVec 32
  rdmsr : BitVec 32 → BitVec 64

def ia32Mtrrcap : BitVec 32 := 0xfe#32
def ia32MtrrDefType : BitVec 32 := 0x2ff#32
def ia32MtrrPhysbase0 : BitVec 32 := 0x200#32
def ia32MtrrPhysmask0 : BitVec 32 := 0x201#32
def maxVariableMtrrPairs : Nat := 10

/-- `shv_ept_init`.  The fields it sets that nothing reads (`vmx_ept_paddrmask`, `def_type`)
are left out, and `vmx_ept_fixmtrr_support` is local. -/
def shvEptInit (cpu : CpuInfo) (vcpu : Vcpu) : Halting Vcpu := do
  cAssert (decide (0x80000008#32 ≤ cpu.maxExtendedLeaf))
  let eax := cpu.addressSizes &&& 0xff#32
  cAssert (decide (32#32 ≤ eax) && decide (eax < 64#32))
  let cap := cpu.rdmsr ia32Mtrrcap
  let varCount := (cap.setWidth 8).toNat
  let fixmtrrSupport := cap &&& (1#64 <<< 8) != 0
  cAssert (decide (varCount ≤ maxVariableMtrrPairs))
  let defType := cpu.rdmsr ia32MtrrDefType
  let fixmtrrEnable := defType &&& 0x400#64 != 0
  cAssert (fixmtrrSupport || !fixmtrrEnable)
  return { vcpu with
    vmxEptDefaulttype := (defType &&& 0xff#64).setWidth 8
    vmxEptMtrrEnable := defType &&& 0x800#64 != 0
    vmxEptFixmtrrEnable := fixmtrrEnable
    fixMtrrs := fun i =>
      if fixmtrrSupport then (fixedMtrrMsr[i]?.map cpu.rdmsr).getD (vcpu.fixMtrrs i)
      else vcpu.fixMtrrs i
    varMtrrs := (List.range varCount).map fun i =>
      { base := cpu.rdmsr (ia32MtrrPhysbase0 + 2 * BitVec.ofNat 32 i)
        mask := cpu.rdmsr (ia32MtrrPhysmask0 + 2 * BitVec.ofNat 32 i) } }

/-- The loop over `fixed_mtrr_prop`, at index `i`.  `start - pagebaseaddr` is computed in
`u64` and wraps; `index` is a `u32`, and so is `index * 8`. -/
def eptFixedMemType (oobShr : BitVec 64 → BitVec 32 → BitVec 64) (fixMtrrs : Nat → BitVec 64)
    (pagebaseaddr : BitVec 64) : List (BitVec 64 × BitVec 64 × BitVec 64) → Nat →
    Halting (BitVec 8)
  | [], _ => none
  | (start, step, «end») :: props, i =>
      if pagebaseaddr < «end» then
        let index : BitVec 32 := ((start - pagebaseaddr) / step).setWidth 32
        let msrval := fixMtrrs i
        let count := index * 8
        return (if count.toNat < 64 then msrval >>> count.toNat
          else oobShr msrval count).setWidth 8
      else eptFixedMemType oobShr fixMtrrs pagebaseaddr props (i + 1)

/-- How two overlapping variable ranges combine; other pairs halt. -/
def mtrrCombine (prevType curType : BitVec 32) : Halting (BitVec 32) :=
  if prevType = mtrrTypeResv ∨ prevType = curType then return curType
  else if prevType = mtrrTypeUc ∨ curType = mtrrTypeUc then return mtrrTypeUc
  else if prevType = mtrrTypeWb ∧ curType = mtrrTypeWt then return mtrrTypeWt
  else if prevType = mtrrTypeWt ∧ curType = mtrrTypeWb then return mtrrTypeWt
  else none

/-- The loop over the variable MTRRs. -/
def eptVarMemType (pagebaseaddr : BitVec 64) : List VarMtrr → BitVec 32 → Halting (BitVec 32)
  | [], prevType => return prevType
  | v :: vs, prevType =>
      if v.mask &&& (1#64 <<< 11) = 0 then eptVarMemType pagebaseaddr vs prevType
      else
        let curType := (v.base &&& 0xff#64).setWidth 32
        let base := v.base &&& ~~~0xfff#64
        let mask := v.mask &&& ~~~0xfff#64
        if pagebaseaddr &&& mask ≠ base &&& mask then eptVarMemType pagebaseaddr vs prevType
        else do eptVarMemType pagebaseaddr vs (← mtrrCombine prevType curType)

def eptGetMemType (img : Image) (vcpu : Vcpu) (pagebaseaddr : BitVec 64) :
    Halting (BitVec 8) :=
  if !vcpu.vmxEptMtrrEnable then return mtrrTypeUc.setWidth 8
  else if pagebaseaddr < 0x100000#64 ∧ vcpu.vmxEptFixmtrrEnable then
    eptFixedMemType img.oobShr vcpu.fixMtrrs pagebaseaddr fixedMtrrProp 0
  else do
    let prevType ← eptVarMemType pagebaseaddr vcpu.varMtrrs mtrrTypeResv
    if prevType = mtrrTypeResv then return vcpu.vmxEptDefaulttype
    else return prevType.setWidth 8

/-! ## Building -/

/-- `ASSERT(hptw_insert_pmeo_alloc(ctx, pmeo, va) == 0)`. -/
def assertInsert (ctx : HptwCtx) (m : ByteMem) (pmeo : HptPmeo) (va : BitVec 64) :
    Halting ByteMem := do
  let (err, m, _) ← hptwInsertPmeoAlloc ctx m pmeo va
  cAssert (err == 0)
  return m

/-- The loop of `ept_map_continuous_addr`, with `left` pages to go; `pmeo` is the caller's
object, which every iteration edits. -/
def eptMapContinuousAddrLoop (img : Image) (vcpu : Vcpu) (ctx : HptwCtx) :
    (left : Nat) → ByteMem → HptPmeo → (paddr : Nat) → Halting (ByteMem × HptPmeo)
  | 0, m, pmeo, _ => return (m, pmeo)
  | left + 1, m, pmeo, paddr => do
      let pmeo ← pmeo.setcache ((← eptGetMemType img vcpu (BitVec.ofNat 64 paddr)).setWidth 64)
      let pmeo ← pmeo.setAddress (BitVec.ofNat 64 paddr)
      let m ← assertInsert ctx m pmeo (BitVec.ofNat 64 paddr)
      eptMapContinuousAddrLoop img vcpu ctx left m pmeo (paddr + pageSize4k)

/-- `ept_map_continuous_addr`: `for (paddr = low; paddr < high; paddr += 4096)`. -/
def eptMapContinuousAddr (img : Image) (vcpu : Vcpu) (ctx : HptwCtx) (m : ByteMem)
    (pmeo : HptPmeo) (low high : Nat) : Halting (ByteMem × HptPmeo) :=
  eptMapContinuousAddrLoop img vcpu ctx ((high - low + (pageSize4k - 1)) / pageSize4k) m pmeo low

/-- The entry `shv_build_ept` starts from. -/
def eptInitPmeo : Halting HptPmeo := do
  let pmeo : HptPmeo := { pme := 0, t := .ept, lvl := 1 }
  let pmeo ← pmeo.setuser true
  pmeo.setprot hptProtsRwx

/-- The first branch of `shv_build_ept`: a root that is built for the first time. -/
def eptBuildFirst (img : Image) (vcpu : Vcpu) (ctx : HptwCtx) (m : ByteMem) (pmeo : HptPmeo) :
    Halting (ByteMem × HptPmeo) := do
  let (m, pmeo) ← eptMapContinuousAddr img vcpu ctx m pmeo img.low img.high
  let (m, pmeo) ← eptMapContinuousAddr img vcpu ctx m pmeo 0xfee00000 0xfee01000
  let (m, pmeo) ← eptMapContinuousAddr img vcpu ctx m pmeo 0x000b8000 0x000b9000
  eptMapContinuousAddr img vcpu ctx m pmeo 0x00000000 0x00100000

/-- The entry for `0x12340000`. -/
def eptTargetPmeo (img : Image) (eptNum : Nat) (pmeo : HptPmeo) : Halting HptPmeo :=
  if eptNum ≠ 0 then do
    let pmeo ← pmeo.setcache hptPmtWb
    pmeo.setAddress (hva2spa (img.targetAt eptNum))
  else return { pmeo with pme := 0 }

/-- The entry for the swapped large pages, before its address is set. -/
def eptLargePmeo (pmeo : HptPmeo) : Halting HptPmeo := do
  let pmeo := { pmeo with lvl := 2, pme := 0 }
  let pmeo ← pmeo.setPage true
  let pmeo ← pmeo.setuser true
  let pmeo ← pmeo.setprot hptProtsRwx
  pmeo.setcache hptPmtWb

/-- The `SHV_USE_LARGE_PAGE` part of `shv_build_ept`. -/
def eptSwapLargePages (img : Image) (ctx : HptwCtx) (m : ByteMem) (pmeo : HptPmeo) :
    Halting ByteMem := do
  let addr0 := hva2spa (img.largePage 0)
  let addr1 := hva2spa (img.largePage 1)
  cAssert (addr0.toNat % pageSize2m == 0)
  cAssert (addr1.toNat % pageSize2m == 0)
  let pmeo ← eptLargePmeo pmeo
  let pmeo ← pmeo.setAddress addr0
  let m ← assertInsert ctx m pmeo addr1
  let pmeo ← pmeo.setAddress addr1
  let m ← assertInsert ctx m pmeo addr0
  let m := m.fill (img.largePage 0) 16 0x41#8
  return m.fill (img.largePage 1) 16 0x42#8

/-- The part of `shv_build_ept` that every call executes: map `0x12340000` to the target of
`eptNum`, and swap the large pages. -/
def eptRemap (img : Image) (shvOpt : BitVec 64) (ctx : HptwCtx) (eptNum : Nat) (m : ByteMem)
    (pmeo : HptPmeo) : Halting ByteMem := do
  let m := m.fill (img.targetAt eptNum) 16 (BitVec.ofNat 8 eptNum)
  let pmeo ← eptTargetPmeo img eptNum pmeo
  let m ← assertInsert ctx m pmeo 0x12340000#64
  if shvOpt &&& shvUseLargePage ≠ 0 then eptSwapLargePages img ctx m pmeo else return m

/-- What `shv_build_ept` returns and does: the root's physical address, the memory, and the
operand of `INVEPT` if one was executed. -/
structure EptBuilt where
  rootPa : BitVec 64
  mem : ByteMem
  invept : Option (BitVec 64)

/-- The EPTP of a root: the low bits say write-back and a four-level walk. -/
def eptpOf (rootPa : BitVec 64) : BitVec 64 := rootPa ||| 0x1e#64

def shvBuildEpt (img : Image) (shvOpt : BitVec 64) (vcpu : Vcpu) (eptNum : Nat) (m : ByteMem) :
    Halting EptBuilt := do
  let r := eptNum >>> 4
  let ctx := shvEptCtx img vcpu.idx r
  let pmeo ← eptInitPmeo
  let first := m (img.validAt vcpu.idx r) == 0
  let (m, pmeo) ←
    if first then eptBuildFirst img vcpu ctx (m.store (img.validAt vcpu.idx r) 1 1#8) pmeo
    else pure (m, pmeo)
  let m ← eptRemap img shvOpt ctx eptNum m pmeo
  return { rootPa := ctx.rootPa, mem := m,
           invept := if first then none else some (eptpOf ctx.rootPa) }

end Shv
