/-
# `Shv.Hptw` — `hptw.h` and `hptw.c`

The page-table walker.  As in `Shv.Hpt`, this module is the translation and
nothing is proved in it.

**Results.**  `none` is a halted CPU.  A function returning an error code
through `EU_CHK … goto out` returns it: `Checked α` when the only outcomes are
"1" and "0 with a value", an explicit code beside the memory when side effects
survive the error (`hptw_get_pmo_alloc` may have linked tables before it fails).

**Loops.**  A C loop is a recursion on fuel that answers `none` when the fuel is
gone, so running out is never mistaken for a result.  A walk is given one unit
per level and one to stop, a bulk copy one per byte and one to stop; each
iteration of the C loop that does not lower the level, respectively transfers no
byte, would repeat itself forever, so that much fuel loses no behaviour.

**`gzp`.**  Every call of `ctx->gzp` is reported: the last component of an
allocating function's result lists what the calls returned, in order, with `0`
for `NULL`.
-/
import Shv.Hpt

namespace Shv

/-- The `EU_CHK` discipline: `none` is `return 1`, `some` is `return 0` with a value. -/
abbrev Checked (α : Type) := Option α

/-- `hptw_ctx_t`.  `pa2ptr` answers the pointer and `*avail_sz`. -/
structure HptwCtx where
  gzp : ByteMem → (alignment sz : Nat) → Halting (Nat × ByteMem)
  pa2ptr : BitVec 64 → (sz : Nat) → (accessType : BitVec 64) → HptwCpl → Nat × Nat
  ptr2pa : Nat → BitVec 64
  rootPa : BitVec 64
  t : HptType

/-- The two builds; `uintptr_t` and `size_t` differ. -/
inductive Arch where
  | i386
  | amd64
  deriving DecidableEq, Repr

/-- Width of a pointer. -/
def Arch.ptrBits : Arch → Nat
  | .i386 => 32
  | .amd64 => 64

theorem ptrBits_ge (arch : Arch) : 32 ≤ arch.ptrBits := by
  cases arch <;> decide

/-! ## Walking -/

def hptwGetRoot (ctx : HptwCtx) : Halting (Checked HptPmo) := do
  let lvl := hptTypeMaxLvl ctx.t
  let pmSz ← hptPmSize ctx.t lvl
  let (pm, avail) := ctx.pa2ptr ctx.rootPa pmSz hptProtsRw .cpl0
  if pm = 0 then return none
  else if avail ≠ pmSz then return none
  else return some { t := ctx.t, pm := pm, lvl := lvl }

/-- `hptw_next_lvl`: whether it descended, and the page map object it leaves. -/
def hptwNextLvl (ctx : HptwCtx) (m : ByteMem) (pmo : HptPmo) (va : BitVec 64) :
    Halting (Bool × HptPmo) := do
  let pmeo ← hptPmGetPmeoByVa m pmo va
  cAssert (pmo.pm != 0)
  if !(← pmeo.isPresent) || (← pmeo.isPage) then return (false, pmo)
  else
    let pmSz ← hptPmSize pmo.t (pmo.lvl - 1)
    let (pm, avail) := ctx.pa2ptr (← pmeo.getAddress) pmSz hptProtsR .cpl0
    if pm = 0 then return (false, { pm := pm, t := .invalid, lvl := 0 })
    else
      cAssert (avail == pmSz)
      return (true, { pmo with pm := pm, lvl := pmo.lvl - 1 })

def hptwGetPmoLoop (ctx : HptwCtx) (m : ByteMem) (endLvl : Nat) (va : BitVec 64) :
    Nat → HptPmo → Halting HptPmo
  | 0, _ => none
  | fuel + 1, pmo =>
      if pmo.lvl > endLvl then do
        let (walked, pmo) ← hptwNextLvl ctx m pmo va
        if walked then hptwGetPmoLoop ctx m endLvl va fuel pmo else return pmo
      else return pmo

def hptwGetPmo (ctx : HptwCtx) (m : ByteMem) (endLvl : Nat) (va : BitVec 64) : Halting HptPmo := do
  match ← hptwGetRoot ctx with
  | none => none
  | some pmo => hptwGetPmoLoop ctx m endLvl va (pmo.lvl + 1) pmo

def hptwGetPmeo (ctx : HptwCtx) (m : ByteMem) (endLvl : Nat) (va : BitVec 64) :
    Halting HptPmeo := do
  let endPmo ← hptwGetPmo ctx m endLvl va
  hptPmGetPmeoByVa m endPmo va

/-! ## Inserting -/

/-- `hptw_insert_pmeo`: the error code and the memory. -/
def hptwInsertPmeo (ctx : HptwCtx) (m : ByteMem) (pmeo : HptPmeo) (va : BitVec 64) :
    Halting (Nat × ByteMem) := do
  let pmo ← hptwGetPmo ctx m pmeo.lvl va
  if pmo.pm = 0 then return (1, m)
  else if pmo.lvl ≠ pmeo.lvl then return (1, m)
  else return (0, ← hptPmoSetPmeByVa m pmo pmeo va)

/-- The `if (!hpt_pmeo_is_present(&pmeo))` branch of `hptw_get_pmo_alloc`: what `gzp`
returned, and the memory after linking it. -/
def hptwLinkNewPm (ctx : HptwCtx) (m : ByteMem) (pmo : HptPmo) (pmeo : HptPmeo)
    (va : BitVec 64) : Halting (Nat × ByteMem) := do
  let (pm, m) ← ctx.gzp m hptPmSizeBytes (← hptPmSize pmo.t (pmo.lvl - 1))
  if pm = 0 then return (0, m)
  else
    let pmeo ← pmeo.setAddress (ctx.ptr2pa pm)
    let pmeo ← pmeo.setprot hptProtsRwx
    let pmeo ← pmeo.setuser true
    return (pm, ← hptPmoSetPmeByVa m pmo pmeo va)

def hptwGetPmoAllocLoop (ctx : HptwCtx) (endLvl : Nat) (va : BitVec 64) :
    Nat → ByteMem → HptPmo → Halting (Checked HptPmo × ByteMem × List Nat)
  | 0, _, _ => none
  | fuel + 1, m, pmo =>
      if pmo.lvl > endLvl then do
        let pmeo ← hptPmGetPmeoByVa m pmo va
        if ← pmeo.isPage then return (none, m, [])
        else if ← pmeo.isPresent then
          let (walkedNextLvl, pmo) ← hptwNextLvl ctx m pmo va
          cAssert walkedNextLvl
          hptwGetPmoAllocLoop ctx endLvl va fuel m pmo
        else
          let (pm, m) ← hptwLinkNewPm ctx m pmo pmeo va
          if pm = 0 then return (none, m, [0])
          else
            let (walkedNextLvl, pmo) ← hptwNextLvl ctx m pmo va
            cAssert walkedNextLvl
            let (r, m, log) ← hptwGetPmoAllocLoop ctx endLvl va fuel m pmo
            return (r, m, pm :: log)
      else return (some pmo, m, [])

def hptwGetPmoAlloc (ctx : HptwCtx) (m : ByteMem) (endLvl : Nat) (va : BitVec 64) :
    Halting (Checked HptPmo × ByteMem × List Nat) := do
  match ← hptwGetRoot ctx with
  | none => return (none, m, [])
  | some pmo => hptwGetPmoAllocLoop ctx endLvl va (pmo.lvl + 1) m pmo

/-- `hptw_insert_pmeo_alloc`: the error code, the memory, and what `gzp` returned. -/
def hptwInsertPmeoAlloc (ctx : HptwCtx) (m : ByteMem) (pmeo : HptPmeo) (va : BitVec 64) :
    Halting (Nat × ByteMem × List Nat) := do
  let (r, m, log) ← hptwGetPmoAlloc ctx m pmeo.lvl va
  match r with
  | none => return (1, m, log)
  | some pmo =>
      if pmo.pm = 0 then return (1, m, log)
      else if pmo.lvl ≠ pmeo.lvl then return (1, m, log)
      else return (0, ← hptPmoSetPmeByVa m pmo pmeo va, log)

/-! ## Permissions and translation -/

/-- The `do … while` of `hptw_get_effective_prots`. -/
def hptwGetEffectiveProtsLoop (ctx : HptwCtx) (m : ByteMem) (va : BitVec 64) :
    Nat → HptPmo → BitVec 64 → Bool → Halting (HptPmo × BitVec 64 × Bool)
  | 0, _, _, _ => none
  | fuel + 1, pmo, protsRv, userAccessibleRv => do
      let pmeo ← hptPmGetPmeoByVa m pmo va
      let protsRv := protsRv &&& (← pmeo.getprot)
      let userAccessibleRv := userAccessibleRv && (← pmeo.getuser)
      let (walked, pmo) ← hptwNextLvl ctx m pmo va
      if walked then hptwGetEffectiveProtsLoop ctx m va fuel pmo protsRv userAccessibleRv
      else return (pmo, protsRv, userAccessibleRv)

/-- `hptw_get_effective_prots`: the protections, and what it writes to `*user_accessible`
(`none` when it writes nothing). -/
def hptwGetEffectiveProts (ctx : HptwCtx) (m : ByteMem) (va : BitVec 64) :
    Halting (BitVec 64 × Option Bool) := do
  match ← hptwGetRoot ctx with
  | none => return (hptProtsNone, none)
  | some pmo =>
      let (pmo, protsRv, userAccessibleRv) ←
        hptwGetEffectiveProtsLoop ctx m va (pmo.lvl + 1) pmo hptProtsRwx true
      if pmo.t = .invalid then return (hptProtsNone, none)
      else return (protsRv, some userAccessibleRv)

def hptwSetProt (ctx : HptwCtx) (m : ByteMem) (va prot : BitVec 64) : Halting ByteMem := do
  let pmo ← hptwGetPmo ctx m 1 va
  cAssert (pmo.pm != 0)
  cAssert (pmo.lvl == 1)
  let pmeo ← hptPmGetPmeoByVa m pmo va
  let pmeo ← pmeo.setprot prot
  hptPmoSetPmeByVa m pmo pmeo va

def hptwVaToPa (ctx : HptwCtx) (m : ByteMem) (va : BitVec 64) : Halting (BitVec 64) := do
  let pmeo ← hptwGetPmeo ctx m 1 va
  pmeo.vaToPa va

/-- `hptw_gpa_to_spa`: the result goes through `uintptr_t`. -/
def hptwGpaToSpa (arch : Arch) (ctx : HptwCtx) (m : ByteMem) (gpa : BitVec 64) : Halting Nat := do
  let result ← hptwVaToPa ctx m gpa
  return result.toNat % 2 ^ arch.ptrBits

/-- `hptw_access_va`: the pointer and `*avail_sz`. -/
def hptwAccessVa (ctx : HptwCtx) (m : ByteMem) (va : BitVec 64) (requestedSz : Nat) :
    Halting (Nat × Nat) := do
  let pmeo ← hptwGetPmeo ctx m 1 va
  let pa ← pmeo.vaToPa va
  let availSz := min requestedSz (pmeo.remainingOnPage pa)
  return ctx.pa2ptr pa availSz hptProtsR .cpl0

/-- The `do … while` of `hptw_checked_get_pmeo`: `none` when a check failed, else the last
entry read and the page map object `hptw_next_lvl` stopped at. -/
def hptwCheckedGetPmeoLoop (ctx : HptwCtx) (m : ByteMem) (accessType : BitVec 64)
    (cpl : HptwCpl) (va : BitVec 64) : Nat → HptPmo → Halting (Checked (HptPmeo × HptPmo))
  | 0, _ => none
  | fuel + 1, pmo => do
      let pmeo ← hptPmGetPmeoByVa m pmo va
      let prot ← pmeo.getprot
      let user ← pmeo.getuser
      if (accessType &&& prot == accessType) && (cpl == .cpl0 || user) then
        let (walked, pmo) ← hptwNextLvl ctx m pmo va
        if walked then hptwCheckedGetPmeoLoop ctx m accessType cpl va fuel pmo
        else return some (pmeo, pmo)
      else return none

def hptwCheckedGetPmeo (ctx : HptwCtx) (m : ByteMem) (accessType : BitVec 64)
    (cpl : HptwCpl) (va : BitVec 64) : Halting (Checked HptPmeo) := do
  match ← hptwGetRoot ctx with
  | none => return none
  | some pmo =>
      match ← hptwCheckedGetPmeoLoop ctx m accessType cpl va (pmo.lvl + 1) pmo with
      | none => return none
      | some (pmeo, pmo) =>
          if pmo.t = .invalid then return none
          else if !(← pmeo.isPresent) then return none
          else
            cAssert (← pmeo.isPage)
            return some pmeo

/-- `hptw_checked_access_va`: the pointer (`0` on error) and `*avail_sz`. -/
def hptwCheckedAccessVa (ctx : HptwCtx) (m : ByteMem) (accessType : BitVec 64) (cpl : HptwCpl)
    (va : BitVec 64) (requestedSz : Nat) : Halting (Nat × Nat) := do
  match ← hptwCheckedGetPmeo ctx m accessType cpl va with
  | none => return (0, 0)
  | some pmeo =>
      let pa ← pmeo.vaToPa va
      let availSz := min requestedSz (pmeo.remainingOnPage pa)
      return ctx.pa2ptr pa availSz accessType cpl

/-! ## Bulk operations -/

def hptwCheckedCopyFromVaLoop (ctx : HptwCtx) (cpl : HptwCpl) (dst : Nat)
    (srcVaBase : BitVec 64) (len : Nat) : Nat → ByteMem → Nat → Halting (Nat × ByteMem)
  | 0, _, _ => none
  | fuel + 1, m, copied =>
      if copied < len then do
        let srcVa := srcVaBase + BitVec.ofNat 64 copied
        let (src, toCopy) ← hptwCheckedAccessVa ctx m hptProtsR cpl srcVa (len - copied)
        if src = 0 then return (1, m)
        else
          hptwCheckedCopyFromVaLoop ctx cpl dst srcVaBase len fuel
            (m.copy (dst + copied) src toCopy) (copied + toCopy)
      else return (0, m)

/-- `hptw_checked_copy_from_va`: the return code and the memory. -/
def hptwCheckedCopyFromVa (ctx : HptwCtx) (m : ByteMem) (cpl : HptwCpl) (dst : Nat)
    (srcVaBase : BitVec 64) (len : Nat) : Halting (Nat × ByteMem) :=
  hptwCheckedCopyFromVaLoop ctx cpl dst srcVaBase len (len + 1) m 0

def hptwCheckedCopyToVaLoop (ctx : HptwCtx) (cpl : HptwCpl) (dstVaBase : BitVec 64)
    (src len : Nat) : Nat → ByteMem → Nat → Halting (Nat × ByteMem)
  | 0, _, _ => none
  | fuel + 1, m, copied =>
      if copied < len then do
        let dstVa := dstVaBase + BitVec.ofNat 64 copied
        let (dst, toCopy) ← hptwCheckedAccessVa ctx m hptProtsW cpl dstVa (len - copied)
        if dst = 0 then return (1, m)
        else
          hptwCheckedCopyToVaLoop ctx cpl dstVaBase src len fuel
            (m.copy dst (src + copied) toCopy) (copied + toCopy)
      else return (0, m)

def hptwCheckedCopyToVa (ctx : HptwCtx) (m : ByteMem) (cpl : HptwCpl) (dstVaBase : BitVec 64)
    (src len : Nat) : Halting (Nat × ByteMem) :=
  hptwCheckedCopyToVaLoop ctx cpl dstVaBase src len (len + 1) m 0

def hptwCheckedCopyVaToVaLoop (dstCtx : HptwCtx) (dstCpl : HptwCpl) (dstVaBase : BitVec 64)
    (srcCtx : HptwCtx) (srcCpl : HptwCpl) (srcVaBase : BitVec 64) (len : Nat) :
    Nat → ByteMem → Nat → Halting (Nat × ByteMem)
  | 0, _, _ => none
  | fuel + 1, m, copied =>
      if copied < len then do
        let dstVa := dstVaBase + BitVec.ofNat 64 copied
        let srcVa := srcVaBase + BitVec.ofNat 64 copied
        let (dst, toCopy) ← hptwCheckedAccessVa dstCtx m hptProtsW dstCpl dstVa (len - copied)
        if dst = 0 then return (1, m)
        else
          let (src, toCopy) ← hptwCheckedAccessVa srcCtx m hptProtsR srcCpl srcVa toCopy
          if src = 0 then return (1, m)
          else
            hptwCheckedCopyVaToVaLoop dstCtx dstCpl dstVaBase srcCtx srcCpl srcVaBase len fuel
              (m.copy dst src toCopy) (copied + toCopy)
      else return (0, m)

def hptwCheckedCopyVaToVa (dstCtx : HptwCtx) (m : ByteMem) (dstCpl : HptwCpl)
    (dstVaBase : BitVec 64) (srcCtx : HptwCtx) (srcCpl : HptwCpl) (srcVaBase : BitVec 64)
    (len : Nat) : Halting (Nat × ByteMem) :=
  hptwCheckedCopyVaToVaLoop dstCtx dstCpl dstVaBase srcCtx srcCpl srcVaBase len (len + 1) m 0

/-- The loop of `hptw_checked_memset_va`; `c` is the byte `memset` stores. -/
def hptwCheckedMemsetVaLoop (ctx : HptwCtx) (cpl : HptwCpl) (dstVaBase : BitVec 64)
    (c : BitVec 8) (len : Nat) : Nat → ByteMem → Nat → Halting (Nat × ByteMem)
  | 0, _, _ => none
  | fuel + 1, m, set =>
      if set < len then do
        let dstVa := dstVaBase + BitVec.ofNat 64 set
        let (dst, toSet) ← hptwCheckedAccessVa ctx m hptProtsW cpl dstVa (len - set)
        if dst = 0 then return (1, m)
        else hptwCheckedMemsetVaLoop ctx cpl dstVaBase c len fuel (m.fill dst toSet c) (set + toSet)
      else return (0, m)

/-- `hptw_checked_memset_va`; the `int c` is converted to a byte. -/
def hptwCheckedMemsetVa (ctx : HptwCtx) (m : ByteMem) (cpl : HptwCpl) (dstVaBase : BitVec 64)
    (c : BitVec 32) (len : Nat) : Halting (Nat × ByteMem) :=
  hptwCheckedMemsetVaLoop ctx cpl dstVaBase (c.setWidth 8) len (len + 1) m 0

end Shv
