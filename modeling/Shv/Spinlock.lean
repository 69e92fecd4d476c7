/-
# `Shv.Spinlock` — `spinlock.c`

`spin_lock` reads the lock word until it is 0 and then exchanges it with 1; it
returns if the exchange found 0 and starts over otherwise.  `spin_unlock`
exchanges the word with 0.  A read and an exchange are one atomic step each, so
the position inside `spin_lock` is part of the state of a CPU.

What the lock is for is that at most one CPU is between the return of `spin_lock`
and the exchange of `spin_unlock`.  `client_mutual_exclusion` says it of CPUs
that lock and unlock as they like, any number of locks, with the one rule that a
CPU unlocks only what it has locked.
-/
import Mathlib.Data.BitVec
import Shv.Lib.Smp

namespace Shv

open Smp

inductive SpinPc where
  /-- at `if (*lock == 0)` -/
  | test
  /-- at the exchange, after the test found 0 -/
  | xchg
  deriving DecidableEq, Repr

/-- One step of `spin_lock`: the lock word after it, and where the CPU is then (`none` when
`spin_lock` has returned). -/
def spinLock (lock : BitVec 32) : SpinPc → BitVec 32 × Option SpinPc
  | .test => (lock, some (if lock = 0 then .xchg else .test))
  | .xchg => (1, if lock = 0 then none else some .test)

def spinUnlock (_lock : BitVec 32) : BitVec 32 := 0

theorem spinLock_returns {lock : BitVec 32} {p : SpinPc} (h : (spinLock lock p).2 = none) :
    lock = 0 := by
  cases p with
  | test => cases h
  | xchg =>
      by_contra hne
      rw [spinLock, if_neg hne] at h
      cases h

/-- A step of `spin_lock`: it enters the critical phase when it returns, and then the word
was 0. -/
theorem spinLock_locked {ι T : Type} [DecidableEq ι] {lock : BitVec 32} {H : T → Prop}
    {f : ι → T} {i : ι} {t : T} (h : Locked lock H f) (p : SpinPc)
    (ht : H t → (spinLock lock p).2 = none ∨ H (f i)) :
    Locked (spinLock lock p).1 H (Function.update f i t) := by
  cases p with
  | test => exact h.stay (fun hH => (ht hH).resolve_left nofun) id
  | xchg =>
      by_cases h0 : lock = 0
      · exact h.take h0 (show (1 : BitVec 32) ≠ 0 by decide)
      · refine h.stay (fun hH => (ht hH).resolve_left fun hnone => ?_) fun h1 => ?_
        · rw [spinLock, if_neg h0] at hnone
          cases hnone
        · exact absurd h1 (show (1 : BitVec 32) ≠ 0 by decide)

/-! ## CPUs that lock and unlock -/

/-- A CPU that uses the locks `L`: where it is in a call of `spin_lock`, if it is in one, and
which locks it has taken and not yet given back. -/
structure Client (L : Type) where
  spinning : Option (L × SpinPc)
  held : L → Bool

variable {ι L : Type} [DecidableEq ι] [DecidableEq L]

inductive LockOp (L : Type) where
  | call (l : L)
  | spin
  | unlock (l : L)

/-- The moves of a CPU: it may call `spin_lock` for any lock, go on with a call, or unlock what
it holds. -/
inductive ClientMove : (L → BitVec 32) → Client L → LockOp L → (L → BitVec 32) → Client L → Prop
  | call {s : L → BitVec 32} {c : Client L} {l : L} :
      c.spinning = none →
      ClientMove s c (.call l) s { c with spinning := some (l, .test) }
  | spin {s : L → BitVec 32} {c : Client L} {l : L} {p p' : SpinPc} :
      c.spinning = some (l, p) → (spinLock (s l) p).2 = some p' →
      ClientMove s c .spin (Function.update s l (spinLock (s l) p).1)
        { c with spinning := some (l, p') }
  | locked {s : L → BitVec 32} {c : Client L} {l : L} {p : SpinPc} :
      c.spinning = some (l, p) → (spinLock (s l) p).2 = none →
      ClientMove s c .spin (Function.update s l (spinLock (s l) p).1)
        { spinning := none, held := Function.update c.held l true }
  | unlock {s : L → BitVec 32} {c : Client L} {l : L} :
      c.spinning = none → c.held l = true →
      ClientMove s c (.unlock l) (Function.update s l (spinUnlock (s l)))
        { c with held := Function.update c.held l false }

def Client.start : Smp ι (L → BitVec 32) (Client L) where
  shared _ := 0
  thread _ := { spinning := none, held := fun _ => false }

/-- Every lock is `Locked` by the CPUs that hold it. -/
def ClientInv (c : Smp ι (L → BitVec 32) (Client L)) : Prop :=
  ∀ l, Locked (c.shared l) (fun t => t.held l = true) c.thread

theorem ClientInv.step {c c' : Smp ι (L → BitVec 32) (Client L)} {a : ι × LockOp L}
    (h : ClientInv c) (hs : Step (fun _ => ClientMove) c a c') : ClientInv c' := by
  cases hs with
  | mk hm =>
      intro l'
      have hl := h l'
      cases hm with
      | call _ => exact hl.stay id id
      | @spin l p p' _ hp =>
          dsimp only
          by_cases heq : l' = l
          · subst heq
            rw [Function.update_self]
            exact spinLock_locked hl p Or.inr
          · rw [Function.update_of_ne heq]
            exact hl.stay id id
      | @locked l p _ hp =>
          dsimp only
          by_cases heq : l' = l
          · subst heq
            rw [Function.update_self]
            exact spinLock_locked hl p fun _ => Or.inl hp
          · rw [Function.update_of_ne heq]
            refine hl.stay (fun hH => ?_) id
            dsimp only at hH
            rwa [Function.update_of_ne heq] at hH
      | @unlock l _ hheld =>
          dsimp only
          by_cases heq : l' = l
          · subst heq
            rw [Function.update_self]
            refine hl.release hheld fun hH => ?_
            dsimp only at hH
            rw [Function.update_self] at hH
            cases hH
          · rw [Function.update_of_ne heq]
            refine hl.stay (fun hH => ?_) id
            dsimp only at hH
            rwa [Function.update_of_ne heq] at hH

/-- Mutual exclusion, for any number of CPUs, any locks and any interleaving. -/
theorem client_mutual_exclusion {ls : List (ι × LockOp L)}
    {c : Smp ι (L → BitVec 32) (Client L)}
    (h : Trace (Step fun _ => ClientMove) Client.start ls c) {l : L} {i j : ι}
    (hi : (c.thread i).held l = true) (hj : (c.thread j).held l = true) : i = j := by
  have hinv : ClientInv c :=
    h.invariant ClientInv.step fun l => Locked.start fun _ => Bool.false_ne_true
  exact (hinv l).unique hi hj

end Shv
