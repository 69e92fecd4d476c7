/-
# `Shv.Hpt` — `hpt.h`, `hpt_consts.h`, `hpt.c` and `hpto.c`

The page-table abstraction: four entry formats behind one set of getters and
setters.  This module is the translation only; what the functions compute is
proved in `Shv.HptSpec`.

Conventions.  `u64` is `BitVec 64`; a C `int lvl` is a `Nat` (no function here
tells a negative level from level 0); a pointer is a `Nat`, `0` being `NULL`;
`assert` failing is `none`.  The name of the bit-position macro a literal stands
for is given beside it.
-/
import Shv.Bitfield
import Shv.Lib.ByteMem

namespace Shv

/-- `hpt_type_t`. -/
inductive HptType where
  | norm
  | pae
  | long
  | ept
  | invalid
  deriving DecidableEq, Repr

/-- `hptw_cpl_t`. -/
inductive HptwCpl where
  | cpl0
  | cpl1
  | cpl2
  | cpl3
  | invalid
  deriving DecidableEq, Repr

/-- `hpt_pmo_t`: a page map with its type and level. -/
structure HptPmo where
  pm : Nat
  t : HptType
  lvl : Nat
  deriving DecidableEq, Repr

/-- `hpt_pmeo_t`: a page map entry with its type and level. -/
structure HptPmeo where
  pme : BitVec 64
  t : HptType
  lvl : Nat
  deriving DecidableEq, Repr

/-! ## Protection masks and memory types -/

def hptProtReadMask : BitVec 64 := 1#64
def hptProtWriteMask : BitVec 64 := 2#64
def hptProtExecMask : BitVec 64 := 4#64

def hptProtsNone : BitVec 64 := 0#64
def hptProtsR : BitVec 64 := hptProtReadMask
def hptProtsW : BitVec 64 := hptProtWriteMask
def hptProtsRw : BitVec 64 := hptProtReadMask ||| hptProtWriteMask
def hptProtsRx : BitVec 64 := hptProtReadMask ||| hptProtExecMask
def hptProtsRwx : BitVec 64 := hptProtReadMask ||| hptProtWriteMask ||| hptProtExecMask

/-- `hpt_pmt_t`.  A word, not an inductive type: `ept_map_continuous_addr` passes whatever
byte an MTRR holds. -/
abbrev HptPmt := BitVec 64

def hptPmtUc : HptPmt := 0#64
def hptPmtWc : HptPmt := 1#64
def hptPmtWt : HptPmt := 4#64
def hptPmtWp : HptPmt := 5#64
def hptPmtWb : HptPmt := 6#64

/-! ## The static tables -/

/-- `HPT_PM_SIZE`. -/
def hptPmSizeBytes : Nat := 4096

def hptPmSizes : HptType → Nat → Nat
  | .norm, 1 | .norm, 2 => hptPmSizeBytes
  | .pae, 1 | .pae, 2 => hptPmSizeBytes
  | .pae, 3 => 4 * 8
  | .long, 1 | .long, 2 | .long, 3 | .long, 4 => hptPmSizeBytes
  | .ept, 1 | .ept, 2 | .ept, 3 | .ept, 4 => hptPmSizeBytes
  | _, _ => 0

/-- `hpt_va_idx_hi`; index 0 is the top bit of the page offset. -/
def hptVaIdxHi : HptType → Nat → Nat
  | .norm, 0 => 11 | .norm, 1 => 21 | .norm, 2 => 31
  | .pae, 0 => 11 | .pae, 1 => 20 | .pae, 2 => 29 | .pae, 3 => 31
  | .long, 0 => 11 | .long, 1 => 20 | .long, 2 => 29 | .long, 3 => 38 | .long, 4 => 47
  | .ept, 0 => 11 | .ept, 1 => 20 | .ept, 2 => 29 | .ept, 3 => 38 | .ept, 4 => 47
  | _, _ => 0

def hptTypeMaxLvl : HptType → Nat
  | .norm => 2
  | .pae => 3
  | .long => 4
  | .ept => 4
  | .invalid => 0

def hptPmSize (t : HptType) (lvl : Nat) : Halting Nat := do
  cAssert (lvl ≤ 4)
  let rv := hptPmSizes t lvl
  cAssert (rv != 0)
  return rv

/-! ## `hpt.c` -/

def hptProtIsValid (t : HptType) (lvl : Nat) (perms : BitVec 64) : Bool :=
  match t with
  | .norm => perms == hptProtsNone || perms == hptProtsRx || perms == hptProtsRwx
  | .pae =>
      perms == hptProtsNone || perms == hptProtsRwx ||
        ((lvl != 3 && perms == hptProtsR) || perms == hptProtsRx || perms == hptProtsRw)
  | .long =>
      perms == hptProtsNone || perms == hptProtsR || perms == hptProtsRx ||
        perms == hptProtsRw || perms == hptProtsRwx
  | .ept => true
  | .invalid => false

def hptLvlIsValid (t : HptType) (lvl : Nat) : Bool := lvl ≤ hptTypeMaxLvl t

def hptTypeIsValid (t : HptType) : Bool := t != .invalid

def hptPmeSetuser (t : HptType) (lvl : Nat) (entry : BitVec 64) (userAccessible : Bool) :
    Halting (BitVec 64) :=
  match t with
  | .norm => return br64SetBit entry 2 userAccessible        -- HPT_NORM_US_L21_MP_BIT
  | .pae =>
      if lvl = 3 then do
        cAssert userAccessible
        return entry
      else return br64SetBit entry 2 userAccessible          -- HPT_PAE_US_L21_MP_BIT
  | .long => return br64SetBit entry 2 userAccessible        -- HPT_LONG_US_L4321_MP_BIT
  | .ept => do
      cAssert userAccessible
      return entry
  | .invalid => none

def hptPmeGetuser (t : HptType) (lvl : Nat) (entry : BitVec 64) : Halting Bool :=
  match t with
  | .norm => return br64GetBit entry 2 != 0
  | .pae => if lvl = 3 then return true else return br64GetBit entry 2 != 0
  | .long => return br64GetBit entry 2 != 0
  | .ept => return true
  | .invalid => none

def hptPmeSetprot (t : HptType) (lvl : Nat) (entry perms : BitVec 64) : Halting (BitVec 64) := do
  cAssert (hptLvlIsValid t lvl)
  cAssert (hptProtIsValid t lvl perms)
  match t with
  | .norm =>
      let rv := br64SetBit entry 0 (perms &&& hptProtReadMask != 0)     -- HPT_NORM_P_L21_MP_BIT
      return br64SetBit rv 1 (perms &&& hptProtWriteMask != 0)          -- HPT_NORM_RW_L21_MP_BIT
  | .pae =>
      let rv := br64SetBit entry 0 (perms &&& hptProtReadMask != 0)     -- HPT_PAE_P_L321_MP_BIT
      if lvl = 2 ∨ lvl = 1 then
        let rv := br64SetBit rv 1 (perms &&& hptProtWriteMask != 0)     -- HPT_PAE_RW_L21_MP_BIT
        return br64SetBit rv 63 (!(perms &&& hptProtExecMask != 0))     -- HPT_PAE_NX_L21_MP_BIT
      else return rv
  | .long =>
      let rv := br64SetBit entry 0 (perms &&& hptProtReadMask != 0)     -- HPT_LONG_P_L4321_MP_BIT
      let rv := br64SetBit rv 1 (perms &&& hptProtWriteMask != 0)       -- HPT_LONG_RW_L4321_MP_BIT
      return br64SetBit rv 63 (!(perms &&& hptProtExecMask != 0))       -- HPT_LONG_NX_L4321_MP_BIT
  | .ept => br64SetHl entry 2 0 perms                                   -- HPT_EPT_PROT_L4321_MP
  | .invalid => none

/-- The tail of `hpt_pme_getprot`: the three truth values as a mask. -/
def hptProtOf (r w x : Bool) : BitVec 64 :=
  let rv := hptProtsNone
  let rv := rv ||| (if r then hptProtReadMask else 0)
  let rv := rv ||| (if w then hptProtWriteMask else 0)
  rv ||| (if x then hptProtExecMask else 0)

def hptPmeGetprot (t : HptType) (lvl : Nat) (entry : BitVec 64) : Halting (BitVec 64) := do
  cAssert (hptLvlIsValid t lvl)
  match t with
  | .norm =>
      let r := entry &&& maskbit64 0 != 0
      let w := entry &&& maskbit64 1 != 0
      return hptProtOf r w r
  | .pae =>
      let r := entry &&& maskbit64 0 != 0
      if lvl = 2 ∨ lvl = 1 then
        let w := entry &&& maskbit64 1 != 0
        let x := !(entry &&& maskbit64 63 != 0)
        return hptProtOf r w x
      else return hptProtOf r r r
  | .long =>
      let r := entry &&& maskbit64 0 != 0
      let w := entry &&& maskbit64 1 != 0
      let x := !(entry &&& maskbit64 63 != 0)
      return hptProtOf r w x
  | .ept =>
      let r := entry &&& maskbit64 0 != 0                               -- HPT_EPT_R_L4321_MP_BIT
      let w := entry &&& maskbit64 1 != 0                               -- HPT_EPT_W_L4321_MP_BIT
      let x := entry &&& maskbit64 2 != 0                               -- HPT_EPT_X_L4321_MP_BIT
      return hptProtOf r w x
  | .invalid => none

/-- `hpt_pme_setunused`.  A negative `hi` passes both assertions, and then `BR64_GET_HL` shifts by
64 bits or more, which is undefined: no result. -/
def hptPmeSetunused (t : HptType) (_lvl : Nat) (entry : BitVec 64) (hi lo : Int)
    (val : BitVec 64) : Halting (BitVec 64) := do
  cAssert (lo < hi)
  if t = .invalid then none
  else do
    cAssert (hi ≤ 2)
    if hi < 0 then none
    else br64CopyBitsHl entry val (min 2 hi).toNat (max 0 lo).toNat 9

/-- `hpt_pme_getunused`.  The copy it makes first is overwritten, but undefined for a negative
`hi`. -/
def hptPmeGetunused (t : HptType) (_lvl : Nat) (entry : BitVec 64) (hi lo : Int) :
    Halting (BitVec 64) := do
  cAssert (lo < hi)
  if t = .invalid then none
  else do
    cAssert (hi ≤ 2)
    if hi < 0 then none
    else return br64GetHl entry ((min 2 hi).toNat + 9) ((max 0 lo).toNat + 9)

def hptPmeIsPresent (t : HptType) (lvl : Nat) (entry : BitVec 64) : Halting Bool := do
  let prot ← hptPmeGetprot t lvl entry
  if t = .ept then return prot &&& hptProtsRwx != 0
  else return prot &&& hptProtReadMask != 0

def hptPmeSetPage (t : HptType) (lvl : Nat) (entry : BitVec 64) (isPage : Bool) :
    Halting (BitVec 64) :=
  if lvl = 1 then do
    cAssert isPage
    return entry
  else match t with
  | .norm => do
      cAssert (lvl ≤ 2)
      return br64SetBit entry 7 isPage                                  -- HPT_NORM_PS_L2_MP_BIT
  | .pae => do
      cAssert (lvl ≤ 3)
      if lvl ≤ 2 then return br64SetBit entry 7 isPage                  -- HPT_PAE_PS_L2_MP_BIT
      else do
        cAssert (!isPage)
        return entry
  | .long => do
      cAssert (lvl ≤ 4)
      if lvl ≤ 3 then return br64SetBit entry 7 isPage                  -- HPT_LONG_PS_L32_MP_BIT
      else do
        cAssert (!isPage)
        return entry
  | .ept => do
      cAssert (lvl ≤ 4)
      if lvl ≤ 3 then return br64SetBit entry 7 isPage                  -- HPT_EPT_PS_L32_MP_BIT
      else do
        cAssert (!isPage)
        return entry
  | .invalid => none

def hptPmeIsPage (t : HptType) (lvl : Nat) (entry : BitVec 64) : Halting Bool :=
  match t with
  | .norm => do
      cAssert (lvl ≤ 2)
      return lvl == 1 || (lvl == 2 && br64GetBit entry 7 != 0)
  | .pae => do
      cAssert (lvl ≤ 3)
      return lvl == 1 || (lvl == 2 && br64GetBit entry 7 != 0)
  | .long => do
      cAssert (lvl ≤ 4)
      return lvl == 1 || ((lvl == 2 || lvl == 3) && br64GetBit entry 7 != 0)
  | .ept => do
      cAssert (lvl ≤ 4)
      return lvl == 1 || ((lvl == 2 || lvl == 3) && br64GetBit entry 7 != 0)
  | .invalid => none

def hptPmeGetAddress (t : HptType) (lvl : Nat) (entry : BitVec 64) : Halting (BitVec 64) :=
  match t with
  | .norm => do
      cAssert (lvl ≤ 2)
      if lvl = 2 then
        if ← hptPmeIsPage t lvl entry then
          -- 4 MB page: `32 - HPT_NORM_ADDR3932_L2_P_LO`, `22 - HPT_NORM_ADDR3122_L2_P_LO`
          let rv ← br64CopyBitsHl 0#64 entry 39 32 (32 - 13)
          br64CopyBitsHl rv entry 31 22 (22 - 22)
        else br64CopyBitsHl 0#64 entry 31 12 0                             -- HPT_NORM_ADDR_L2_M
      else br64CopyBitsHl 0#64 entry 31 12 0                               -- HPT_NORM_ADDR_L1_P
  | .pae => do
      cAssert (lvl ≤ 3)
      if ← hptPmeIsPage t lvl entry then
        if lvl = 1 then br64CopyBitsHl 0#64 entry 51 12 0                  -- HPT_PAE_ADDR_L1_P
        else do
          cAssert (lvl == 2)
          br64CopyBitsHl 0#64 entry 51 13 0                                -- HPT_PAE_ADDR_L2_P
      else br64CopyBitsHl 0#64 entry 51 12 0                               -- HPT_PAE_ADDR_L321_M
  | .long => do
      cAssert (lvl ≤ 4)
      if ← hptPmeIsPage t lvl entry then
        if lvl = 1 then br64CopyBitsHl 0#64 entry 51 12 0                  -- HPT_LONG_ADDR_L1_P
        else br64CopyBitsHl 0#64 entry 51 13 0                             -- HPT_LONG_ADDR_L32_P
      else br64CopyBitsHl 0#64 entry 51 12 0                               -- HPT_LONG_ADDR_L4321_M
  | .ept => do
      cAssert (lvl ≤ 4)
      br64CopyBitsHl 0#64 entry 51 12 0                                    -- HPT_EPT_ADDR_L4321_MP
  | .invalid => none

def hptPmeSetAddress (t : HptType) (lvl : Nat) (entry addr : BitVec 64) : Halting (BitVec 64) :=
  match t with
  | .norm => do
      cAssert (lvl ≤ 2)
      if lvl = 2 then
        if ← hptPmeIsPage t lvl entry then
          -- both copies start from `entry`, so the first one's result is lost
          let _rv ← br64CopyBitsHl entry addr 20 13 (13 - 32)
          br64CopyBitsHl entry addr 31 22 (22 - 22)
        else br64CopyBitsHl entry addr 31 12 0
      else br64CopyBitsHl entry addr 31 12 0
  | .pae => do
      cAssert (lvl ≤ 3)
      if ← hptPmeIsPage t lvl entry then
        if lvl = 1 then br64CopyBitsHl entry addr 51 12 0
        else do
          cAssert (lvl == 2)
          br64CopyBitsHl entry addr 51 13 0
      else br64CopyBitsHl entry addr 51 12 0
  | .long => do
      cAssert (lvl ≤ 4)
      if ← hptPmeIsPage t lvl entry then
        if lvl = 1 then br64CopyBitsHl entry addr 51 12 0
        else br64CopyBitsHl entry addr 51 13 0
      else br64CopyBitsHl entry addr 51 12 0
  | .ept => do
      cAssert (lvl ≤ 4)
      br64CopyBitsHl entry addr 51 12 0
  | .invalid => none

/-- `hpt_pme_set_pat`, the static helper of `hpt_pme_set_pmt`. -/
def hptPmeSetPat (t : HptType) (lvl : Nat) (pme : BitVec 64) (pat : Bool) :
    Halting (BitVec 64) :=
  match t with
  | .norm | .pae => do
      let isPage ← hptPmeIsPage t lvl pme
      if isPage && lvl == 1 then return br64SetBit pme 7 pat            -- HPT_*_PAT_L1_P_BIT
      else if isPage && lvl == 2 then return br64SetBit pme 12 pat      -- HPT_*_PAT_L2_P_BIT
      else do
        cAssert (!pat)
        return pme
  | .long => do
      let isPage ← hptPmeIsPage t lvl pme
      if isPage && lvl == 1 then return br64SetBit pme 7 pat            -- HPT_LONG_PAT_L1_P_BIT
      else if isPage && (lvl == 2 || lvl == 3) then
        return br64SetBit pme 12 pat                                    -- HPT_LONG_PAT_L32_P_BIT
      else do
        cAssert (!pat)
        return pme
  | .ept | .invalid => none

/-- `hpt_pme_get_pat`, which nothing calls. -/
def hptPmeGetPat (t : HptType) (lvl : Nat) (pme : BitVec 64) : Halting Bool :=
  match t with
  | .norm | .pae => do
      let isPage ← hptPmeIsPage t lvl pme
      if isPage && lvl == 1 then return br64GetBit pme 7 != 0
      else if isPage && lvl == 2 then return br64GetBit pme 12 != 0
      else return false
  | .long => do
      let isPage ← hptPmeIsPage t lvl pme
      if isPage && lvl == 1 then return br64GetBit pme 7 != 0
      else if isPage && (lvl == 2 || lvl == 3) then return br64GetBit pme 12 != 0
      else return false
  | .ept | .invalid => none

def hptPmeGetPmt (t : HptType) (lvl : Nat) (pme : BitVec 64) : Halting HptPmt :=
  match t with
  | .ept => do
      cAssert (lvl ≤ 3)
      cAssert (← hptPmeIsPage t lvl pme)
      return br64GetHl pme 5 3                                          -- HPT_EPT_MT_L321_P
  | .norm | .pae | .long =>
      let pcd := br64GetBit pme 4 != 0                                  -- HPT_*_PCD_*_MP_BIT
      let pwt := br64GetBit pme 3 != 0                                  -- HPT_*_PWT_*_MP_BIT
      match pcd, pwt with
      | false, false => return hptPmtWb
      | false, true => return hptPmtWt
      | true, false => return hptPmtWc
      | true, true => return hptPmtUc
  | .invalid => none

/-- The `pcd`/`pwt` pair `hpt_pme_set_pmt` picks; `WP` and unknown types assert. -/
def hptPmtPcdPwt (pmt : HptPmt) : Halting (Bool × Bool) :=
  if pmt = hptPmtUc then return (true, true)
  else if pmt = hptPmtWc then return (true, false)
  else if pmt = hptPmtWt then return (false, true)
  else if pmt = hptPmtWp then none
  else if pmt = hptPmtWb then return (false, false)
  else none

def hptPmeSetPmt (t : HptType) (lvl : Nat) (pme : BitVec 64) (pmt : HptPmt) :
    Halting (BitVec 64) :=
  match t with
  | .ept => do
      cAssert (lvl ≤ 3)
      cAssert (← hptPmeIsPage t lvl pme)
      br64SetHl pme 5 3 pmt
  | .norm | .pae | .long => do
      let (pcd, pwt) ← hptPmtPcdPwt pmt
      let rv ← hptPmeSetPat t lvl pme false
      let rv := br64SetBit rv 4 pcd
      return br64SetBit rv 3 pwt
  | .invalid => none

def hptGetPmIdx (t : HptType) (lvl : Nat) (va : BitVec 64) : Halting Nat := do
  cAssert (hptTypeIsValid t)
  cAssert (hptLvlIsValid t lvl)
  let hi := hptVaIdxHi t lvl
  let lo := hptVaIdxHi t (lvl - 1) + 1
  return (br64GetHl va hi lo).toNat

/-- `hpt_pm_get_pme_by_idx`: `((u64 *) pm)[idx]`, or `((u32 *) pm)[idx]` zero-extended. -/
def hptPmGetPmeByIdx (m : ByteMem) (t : HptType) (pm idx : Nat) : Halting (BitVec 64) :=
  match t with
  | .ept | .pae | .long => return m.load (pm + 8 * idx) 8
  | .norm => return (m.load (pm + 4 * idx) 4).setWidth 64
  | .invalid => none

/-- `hpt_pm_set_pme_by_idx`; a `u32` table keeps the low half of `pme`. -/
def hptPmSetPmeByIdx (m : ByteMem) (t : HptType) (pm idx : Nat) (pme : BitVec 64) :
    Halting ByteMem :=
  match t with
  | .ept | .pae | .long => return m.store (pm + 8 * idx) 8 pme
  | .norm => return m.store (pm + 4 * idx) 4 (pme.setWidth 32)
  | .invalid => none

def hptPmGetPmeByVa (m : ByteMem) (t : HptType) (lvl pm : Nat) (va : BitVec 64) :
    Halting (BitVec 64) := do
  let idx ← hptGetPmIdx t lvl va
  hptPmGetPmeByIdx m t pm idx

def hptPmSetPmeByVa (m : ByteMem) (t : HptType) (lvl pm : Nat) (va pme : BitVec 64) :
    Halting ByteMem := do
  let idx ← hptGetPmIdx t lvl va
  hptPmSetPmeByIdx m t pm idx pme

/-! ## `hpto.c` -/

namespace HptPmeo

def getAddress (pmeo : HptPmeo) : Halting (BitVec 64) :=
  hptPmeGetAddress pmeo.t pmeo.lvl pmeo.pme

def setAddress (pmeo : HptPmeo) (addr : BitVec 64) : Halting HptPmeo := do
  return { pmeo with pme := ← hptPmeSetAddress pmeo.t pmeo.lvl pmeo.pme addr }

def isPresent (pmeo : HptPmeo) : Halting Bool := hptPmeIsPresent pmeo.t pmeo.lvl pmeo.pme

def setPage (pmeo : HptPmeo) (isPage : Bool) : Halting HptPmeo := do
  return { pmeo with pme := ← hptPmeSetPage pmeo.t pmeo.lvl pmeo.pme isPage }

def isPage (pmeo : HptPmeo) : Halting Bool := hptPmeIsPage pmeo.t pmeo.lvl pmeo.pme

def setprot (pmeo : HptPmeo) (perms : BitVec 64) : Halting HptPmeo := do
  return { pmeo with pme := ← hptPmeSetprot pmeo.t pmeo.lvl pmeo.pme perms }

def getprot (pmeo : HptPmeo) : Halting (BitVec 64) := hptPmeGetprot pmeo.t pmeo.lvl pmeo.pme

def getcache (pmeo : HptPmeo) : Halting HptPmt := hptPmeGetPmt pmeo.t pmeo.lvl pmeo.pme

def setcache (pmeo : HptPmeo) (pmt : HptPmt) : Halting HptPmeo := do
  return { pmeo with pme := ← hptPmeSetPmt pmeo.t pmeo.lvl pmeo.pme pmt }

def getuser (pmeo : HptPmeo) : Halting Bool := hptPmeGetuser pmeo.t pmeo.lvl pmeo.pme

def setuser (pmeo : HptPmeo) (user : Bool) : Halting HptPmeo := do
  return { pmeo with pme := ← hptPmeSetuser pmeo.t pmeo.lvl pmeo.pme user }

def vaToPa (pmeo : HptPmeo) (va : BitVec 64) : Halting (BitVec 64) := do
  cAssert (← hptPmeIsPage pmeo.t pmeo.lvl pmeo.pme)
  let base ← pmeo.getAddress
  let offsetHi := hptVaIdxHi pmeo.t (pmeo.lvl - 1)
  let offset := va &&& maskrange64 offsetHi 0
  return base + offset

def pageSizeLog2 (pmeo : HptPmeo) : Nat := hptVaIdxHi pmeo.t (pmeo.lvl - 1) + 1

def remainingOnPage (pmeo : HptPmeo) (va : BitVec 64) : Nat :=
  let pageSizeLog2 := pmeo.pageSizeLog2
  let pageSize := 1 <<< pageSizeLog2
  let offsetOnPage := (va &&& maskrange64 (pageSizeLog2 - 1) 0).toNat
  pageSize - offsetOnPage

end HptPmeo

def hptPmGetPmeoByVa (m : ByteMem) (pmo : HptPmo) (va : BitVec 64) : Halting HptPmeo := do
  return { t := pmo.t, lvl := pmo.lvl, pme := ← hptPmGetPmeByVa m pmo.t pmo.lvl pmo.pm va }

def hptPmoSetPmeByVa (m : ByteMem) (pmo : HptPmo) (pmeo : HptPmeo) (va : BitVec 64) :
    Halting ByteMem :=
  hptPmSetPmeByVa m pmo.t pmo.lvl pmo.pm va pmeo.pme

end Shv
