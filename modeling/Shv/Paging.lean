/-
# `Shv.Paging` — the page tables of the kernel and of user mode

`boot.S` fills the first entries of the amd64 tables before it turns paging on;
`shv_page_table_init` (`paging.c`) checks those and fills the rest, with pages of
2 MB (4 MB in i386 without PAE).  `set_user_mode_page_table` (`shv-user.c`) fills a
second set of tables, with pages of 4 KB.  Both are meant to map every address to
itself.

The arrays lie in memory as the linker has placed them (`Layout`), and what a walk
reads is that memory.  A write outside its array is carried out, like in C, and
remembered in `inside`.
-/
import Shv.Bitfield
import Shv.Lib.PageWalk
import Mathlib.Logic.Function.Iterate

namespace Shv

open ByteMem

/-! ## Arrays of entries -/

/-- Where the linker has placed the arrays `T` of page table entries. -/
structure Layout {T : Type} (P : Paging) (entries alignment limit : T → Nat) where
  base : T → Nat
  aligned : ∀ t, alignment t ∣ base t
  apart : ∀ {t u}, t ≠ u →
    Apart (base t) (P.width * entries t) (base u) (P.width * entries u)
  below : ∀ t, base t + P.width * entries t ≤ limit t

structure PtState where
  mem : ByteMem
  /-- every entry so far was written inside its array -/
  inside : Bool

section Loops

variable {T : Type} {P : Paging} {entries alignment limit : T → Nat}
  (L : Layout P entries alignment limit)

namespace Layout

def get (s : PtState) (t : T) (i : Nat) : BitVec (8 * P.width) :=
  s.mem.load (L.base t + P.width * i) P.width

/-- `t[i] = e`. -/
def put (s : PtState) (t : T) (i : Nat) (e : BitVec (8 * P.width)) : PtState where
  mem := s.mem.store (L.base t + P.width * i) P.width e
  inside := s.inside && decide (i < entries t)

end Layout

/-- `for (...; i < N; i++, paddr += step) t[i] = flags | paddr;` with `n` rounds to go.  An entry
of the non-PAE build keeps the low half. -/
def fillLoop (t : T) (flags step : BitVec 64) : (n i : Nat) → BitVec 64 → PtState → PtState
  | 0, _, _, s => s
  | n + 1, i, paddr, s =>
      fillLoop t flags step n (i + 1) (paddr + step)
        (L.put s t i ((flags ||| paddr).setWidth (8 * P.width)))

/-- The same loop when the first `kept` entries are there already and are only checked. -/
def checkLoop (t : T) (kept : Nat) (expected flags step : BitVec 64) :
    (n i : Nat) → BitVec 64 → PtState → Halting PtState
  | 0, _, _, s => return s
  | n + 1, i, paddr, s => do
      if i < kept then
        cAssert ((0x60#64).setWidth (8 * P.width) ||| L.get s t i ==
          (expected ||| paddr).setWidth (8 * P.width))
        checkLoop t kept expected flags step n (i + 1) (paddr + step) s
      else
        checkLoop t kept expected flags step n (i + 1) (paddr + step)
          (L.put s t i ((flags ||| paddr).setWidth (8 * P.width)))

/-- `paddr` after `n` rounds of a loop over pages. -/
def paddrAfter (n : Nat) (paddr : BitVec 64) : BitVec 64 := (· + 0x1000)^[n] paddr

/-- The two inner loops of `set_user_mode_page_table` in i386: entry `i` of `dir` names table `i`
of `pt`, and `paddr` runs on through the pages of all the tables. -/
def dirLoop (dir pt : T) : (n i : Nat) → BitVec 64 → PtState → PtState
  | 0, _, _, s => s
  | n + 1, i, paddr, s =>
      dirLoop dir pt n (i + 1) (paddrAfter (2 ^ P.bits) paddr)
        (fillLoop L pt 7 0x1000 (2 ^ P.bits) (i * 2 ^ P.bits) paddr
          (L.put s dir i
            ((7 ||| BitVec.ofNat 64 (L.base pt + 0x1000 * i)).setWidth (8 * P.width))))

/-- What the processor may do to the tables while it uses them: set the accessed and dirty bits. -/
def Touched (m m' : ByteMem) : Prop :=
  ∀ t i, i < entries t → ∃ x : BitVec (8 * P.width),
    m'.load (L.base t + P.width * i) P.width =
      m.load (L.base t + P.width * i) P.width ||| x &&& BitVec.ofNat _ 0x60

def Zeroed (m : ByteMem) : Prop :=
  ∀ t i, i < entries t → m.load (L.base t + P.width * i) P.width = 0

end Loops

/-! ## amd64 -/

def p4l : Paging := ⟨8, 9, rfl⟩

inductive P4lTable where
  | shvPml4t
  | shvPdpt
  | shvPdt
  | userPml4t
  | userPdpt
  | userPdt
  | userPt
  deriving DecidableEq, Repr

/-- `PA_PAGE_ALIGN_UP_*(x) >> PAGE_SHIFT_*`. -/
def paPages (shift : Nat) (x : BitVec 64) : Nat :=
  (((x + BitVec.ofNat 64 (2 ^ shift) - 1) &&&
    ~~~ (BitVec.ofNat 64 (2 ^ shift) - 1)) >>> shift).toNat

/-- `P4L_NPLM4T`; `PAGE_SHIFT_256T` is 42. -/
def p4lNplm4t (maxAddr : BitVec 64) : Nat := paPages 42 maxAddr

def p4lNpdpt (maxAddr : BitVec 64) : Nat := paPages 39 maxAddr

def p4lNpdt (maxAddr : BitVec 64) : Nat := paPages 30 maxAddr

def p4lNpt (maxAddr : BitVec 64) : Nat := paPages 21 maxAddr

/-- How the arrays are declared. -/
def p4lEntries (maxAddr : BitVec 64) : P4lTable → Nat
  | .shvPml4t | .userPml4t => p4lNplm4t maxAddr * 512
  | .shvPdpt | .userPdpt => p4lNpdpt maxAddr * 512
  | .shvPdt | .userPdt => p4lNpdt maxAddr * 512
  | .userPt => p4lNpt maxAddr * 512

/-- `boot.S` runs in 32-bit mode and names the first three arrays by 32-bit addresses. -/
def p4lLimit : P4lTable → Nat
  | .shvPml4t | .shvPdpt | .shvPdt => 2 ^ 32
  | .userPml4t | .userPdpt | .userPdt | .userPt => 2 ^ 52

abbrev P4lLayout (maxAddr : BitVec 64) :=
  Layout p4l (p4lEntries maxAddr) (fun _ => 2 ^ 12) p4lLimit

section Amd64

variable {maxAddr : BitVec 64} (L : P4lLayout maxAddr)

/-- `movl %eax, t(, i, 8)`: the upper half of the entry is left as it is. -/
def putLow (s : PtState) (t : P4lTable) (i : Nat) (eax : BitVec 32) : PtState where
  mem := s.mem.store (L.base t + 8 * i) 4 eax
  inside := s.inside && decide (i < p4lEntries maxAddr t)

/-- Entries from `i` on, `eax` growing by `step`.  For the PDPT `boot.S` has the loop unrolled. -/
def bootLoop (t : P4lTable) (step : BitVec 32) : (n i : Nat) → BitVec 32 → PtState → PtState
  | 0, _, _, s => s
  | n + 1, i, eax, s => bootLoop t step n (i + 1) (eax + step) (putLow L s t i eax)

/-- The tables of `_start` in `boot.S`. -/
def bootTables (s : PtState) : PtState :=
  let s := putLow L s .shvPml4t 0 (BitVec.ofNat 32 (L.base .shvPdpt) ||| 3)
  let s := bootLoop L .shvPdpt 0x1000 4 0 (BitVec.ofNat 32 (L.base .shvPdt) ||| 3) s
  bootLoop L .shvPdt 0x200000 2048 0 0x83 s

def shvPageTableInit (s : PtState) : Halting PtState := do
  let s ← checkLoop L .shvPml4t 1 0x63 0x3 0x1000 (p4lNpdpt maxAddr) 0
    (BitVec.ofNat 64 (L.base .shvPdpt)) s
  let s ← checkLoop L .shvPdpt 4 0x63 0x3 0x1000 (p4lNpdt maxAddr) 0
    (BitVec.ofNat 64 (L.base .shvPdt)) s
  checkLoop L .shvPdt 2048 0xe3 0x83 0x200000 (p4lNpt maxAddr) 0 0 s

/-- `set_user_mode_page_table`, the first time it is called. -/
def setUserModePageTable (s : PtState) : PtState :=
  let s := fillLoop L .userPml4t 7 0x1000 (p4lNpdpt maxAddr) 0
    (BitVec.ofNat 64 (L.base .userPdpt)) s
  let s := fillLoop L .userPdpt 7 0x1000 (p4lNpdt maxAddr) 0
    (BitVec.ofNat 64 (L.base .userPdt)) s
  let s := fillLoop L .userPdt 7 0x1000 (p4lNpt maxAddr) 0
    (BitVec.ofNat 64 (L.base .userPt)) s
  fillLoop L .userPt 7 0x1000 (p4lNpt maxAddr * 512) 0 0 s

end Amd64

/-! ## i386 with PAE -/

def pae : Paging := ⟨8, 9, rfl⟩

inductive PaeTable where
  | shvPdpt
  | shvPdt
  | userPdpt
  | userPdt
  | userPt
  deriving DecidableEq, Repr

/-- `PAE_NPDPTE` and `PAE_NPDT` are 4. -/
def paeEntries : PaeTable → Nat
  | .shvPdpt | .userPdpt => 4
  | .shvPdt | .userPdt => 4 * 512
  | .userPt => 4 * 512 * 512

/-- The page directory pointer tables are not pages. -/
def paeAlignment : PaeTable → Nat
  | .shvPdpt | .userPdpt => 32
  | .shvPdt | .userPdt | .userPt => 2 ^ 12

abbrev PaeLayout := Layout pae paeEntries paeAlignment fun _ => 2 ^ 32

namespace PaeLayout

variable (L : PaeLayout)

def shvPageTableInit (s : PtState) : PtState :=
  let s := fillLoop L .shvPdpt 0x1 0x1000 4 0 (BitVec.ofNat 64 (L.base .shvPdt)) s
  fillLoop L .shvPdt 0x83 0x200000 (4 * 512) 0 0 s

/-- The outer loop of `set_user_mode_page_table`; `nept` is `PAE_NEPT`. -/
def pdptLoop (nept : Nat) : (n i : Nat) → BitVec 64 → PtState → PtState
  | 0, _, _, s => s
  | n + 1, i, paddr, s =>
      pdptLoop nept n (i + 1) (paddrAfter (nept * nept) paddr)
        (dirLoop L .userPdt .userPt nept (i * nept) paddr
          (L.put s .userPdpt i
            ((1 ||| BitVec.ofNat 64 (L.base .userPdt + 0x1000 * i)).setWidth 64)))

def setUserModePageTable (s : PtState) : PtState := pdptLoop L 512 4 0 0 s

end PaeLayout

/-! ## i386 without PAE -/

def p32 : Paging := ⟨4, 10, rfl⟩

inductive P32Table where
  | shvPdt
  | userPdt
  | userPt
  deriving DecidableEq, Repr

def p32Entries : P32Table → Nat
  | .shvPdt | .userPdt => 1024
  | .userPt => 1024 * 1024

abbrev P32Layout := Layout p32 p32Entries (fun _ => 2 ^ 12) fun _ => 2 ^ 32

namespace P32Layout

variable (L : P32Layout)

def shvPageTableInit (s : PtState) : PtState :=
  fillLoop L .shvPdt 0x83 0x400000 1024 0 0 s

def setUserModePageTable (s : PtState) : PtState := dirLoop L .userPdt .userPt 1024 0 0 s

end P32Layout

end Shv
