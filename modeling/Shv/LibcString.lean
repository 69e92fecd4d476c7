/-
# `Shv.LibcString` — `memmove` and `memset` of `libc_string.c`

The loops as they are written, one byte at a time, in a memory that also notes every address that
is written.  `memmove_mem` says that the direction `memmove` picks is right: whatever the overlap,
the destination ends up with the bytes the source had.
-/
import Shv.Lib.ByteMem
import Mathlib.Data.Set.Insert

namespace Shv

open ByteMem

/-- A memory and the addresses written so far, the last one first. -/
structure MemLog where
  mem : ByteMem
  written : List Nat

namespace MemLog

variable {m : MemLog} {dst src n a : Nat}

def write (m : MemLog) (a : Nat) (v : BitVec 8) : MemLog where
  mem := Function.update m.mem a v
  written := a :: m.written

@[simp] theorem write_mem (m : MemLog) (a : Nat) (v : BitVec 8) :
    (m.write a v).mem = Function.update m.mem a v := rfl

/-- `while (length--) *dst++ = *src++`. -/
def memmoveForward (dst src : Nat) : Nat → MemLog → MemLog
  | 0, m => m
  | n + 1, m => memmoveForward (dst + 1) (src + 1) n (m.write dst (m.mem src))

/-- `while (length--) *--dst = *--src`. -/
def memmoveBackward (dst src : Nat) : Nat → MemLog → MemLog
  | 0, m => m
  | n + 1, m => memmoveBackward (dst - 1) (src - 1) n (m.write (dst - 1) (m.mem (src - 1)))

def memmove (m : MemLog) (dst src length : Nat) : MemLog :=
  if src < dst ∧ dst < src + length then memmoveBackward (dst + length) (src + length) length m
  else memmoveForward dst src length m

/-- `memset`: `while (len-- > 0) *st++ = (uint8_t) c`. -/
def memset (c : BitVec 8) (st : Nat) : Nat → MemLog → MemLog
  | 0, m => m
  | n + 1, m => memset c (st + 1) n (m.write st c)

/-! ## What they do -/

/-- Copying upwards is right unless the source is overwritten before it is read. -/
theorem memmoveForward_mem : ∀ (n dst src : Nat) (m : MemLog), ¬ (src < dst ∧ dst < src + n) →
    (memmoveForward dst src n m).mem = m.mem.copy dst src n
  | 0, dst, src, m, _ => (copy_zero m.mem dst src).symm
  | n + 1, dst, src, m, h => by
      rw [memmoveForward, memmoveForward_mem n _ _ _ (by omega), write_mem, copy_succ h]

/-- Copying downwards is right when the source is below the destination. -/
theorem memmoveBackward_mem : ∀ (n dst src : Nat) (m : MemLog), src ≤ dst →
    (memmoveBackward (dst + n) (src + n) n m).mem = m.mem.copy dst src n
  | 0, dst, src, m, _ => (copy_zero m.mem dst src).symm
  | n + 1, dst, src, m, h => by
      rw [memmoveBackward, show dst + (n + 1) - 1 = dst + n from rfl,
        show src + (n + 1) - 1 = src + n from rfl, memmoveBackward_mem n _ _ _ h, write_mem,
        copy_succ_last h]

/-- **`memmove` copies**, whatever the overlap. -/
theorem memmove_mem (m : MemLog) (dst src n : Nat) :
    (m.memmove dst src n).mem = m.mem.copy dst src n := by
  rw [memmove]
  split
  next h => exact memmoveBackward_mem n dst src m (Nat.le_of_lt h.1)
  next h => exact memmoveForward_mem n dst src m h

theorem memset_mem (c : BitVec 8) : ∀ (n st : Nat) (m : MemLog),
    (memset c st n m).mem = m.mem.fill st n c
  | 0, st, m => (fill_zero m.mem st c).symm
  | n + 1, st, m => by
      rw [memset, memset_mem c n, write_mem, fill_succ]

/-- Every write so far was inside `s`. -/
def Inside (s : Set Nat) (m : MemLog) : Prop := ∀ a ∈ m.written, a ∈ s

variable {s : Set Nat}

theorem Inside.write (h : m.Inside s) (ha : a ∈ s) (v : BitVec 8) : (m.write a v).Inside s := by
  intro x hx
  rcases List.mem_cons.mp hx with rfl | hx
  · exact ha
  · exact h x hx

theorem Inside.memmoveForward (h : m.Inside s) (hs : span dst n ⊆ s) :
    (memmoveForward dst src n m).Inside s := by
  induction n generalizing dst src m with
  | zero => exact h
  | succ n ih =>
      refine ih (h.write (hs ⟨Nat.le_refl _, by omega⟩) _) fun x hx => hs ?_
      rw [mem_span] at hx ⊢
      omega

theorem Inside.memmoveBackward (h : m.Inside s) (hs : span dst n ⊆ s) :
    (memmoveBackward (dst + n) (src + n) n m).Inside s := by
  induction n generalizing m with
  | zero => exact h
  | succ n ih =>
      refine ih (h.write (hs ⟨?_, ?_⟩) _) fun x hx => hs ?_
      · omega
      · omega
      · rw [mem_span] at hx ⊢
        omega

theorem Inside.memmove (h : m.Inside s) (hs : span dst n ⊆ s) : (m.memmove dst src n).Inside s := by
  rw [MemLog.memmove]
  split
  · exact h.memmoveBackward hs
  · exact h.memmoveForward hs

theorem Inside.memset (c : BitVec 8) (h : m.Inside s) (hs : span dst n ⊆ s) :
    (memset c dst n m).Inside s := by
  induction n generalizing dst m with
  | zero => exact h
  | succ n ih =>
      refine ih (h.write (hs ⟨Nat.le_refl _, by omega⟩) c) fun x hx => hs ?_
      rw [mem_span] at hx ⊢
      omega

end MemLog

end Shv
