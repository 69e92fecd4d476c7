/-
# `Shv.Pal` — the semaphore of `user_main`

`user_main` lets at most three CPUs run a PAL at once.  The semaphore is the
counter `pal_available` under the lock `pal_lock`; a CPU that finds it 0 gives the
lock back, looks at the counter without the lock for a while and tries again.
`pal_available--` and `pal_available++` are a read and a write each.

The invariant (`PalInv`) has three parts: the lock is held by one CPU at most; the
counter and the CPUs that have taken from it add up to 3; and a value a CPU has
read in order to write it back is still in the counter, because the CPU holds the
lock.  The second part would fail without the third, and the third without the
first.
-/
import Shv.Spinlock

namespace Shv

open Smp

/-! ## The code -/

structure PalVars where
  palLock : BitVec 32
  palAvailable : BitVec 32

/-- The calls of `spin_lock(&pal_lock)`. -/
inductive PalSite where
  | acquire
  /-- in `user_main_pal_demo`, after a PAL has returned an incorrect result -/
  | incorrect
  | release
  deriving DecidableEq, Repr

inductive UserPc where
  /-- not in `user_main` -/
  | outside
  | spin (site : PalSite) (p : SpinPc)
  /-- at `if (pal_available)` -/
  | check
  /-- at the read, respectively the write, of `pal_available--` -/
  | decLoad
  | decStore (value : BitVec 32)
  /-- at the `spin_unlock` of either branch -/
  | unlockTaken
  | unlockFull
  /-- at the condition of the `for` loop -/
  | wait (i : Nat)
  /-- between the two parts that use the semaphore -/
  | pal
  /-- in the endless loop of `user_main_pal_demo`, with the lock held -/
  | stuck
  | incLoad
  | incStore (value : BitVec 32)
  | unlockGiven
  deriving DecidableEq, Repr

/-- Where `spin_lock` returns to. -/
def PalSite.after : PalSite → UserPc
  | .acquire => .check
  | .incorrect => .stuck
  | .release => .incLoad

/-- The moves of `user_main`, one access to shared memory each.  Leaving user mode ends the call,
and the CPU may come back. -/
inductive UserMove : PalVars → UserPc → PalVars → UserPc → Prop
  | enter {v : PalVars} : UserMove v .outside v (.spin .acquire .test)
  | spin {v : PalVars} {site : PalSite} {p p' : SpinPc} :
      (spinLock v.palLock p).2 = some p' →
      UserMove v (.spin site p) { v with palLock := (spinLock v.palLock p).1 } (.spin site p')
  | locked {v : PalVars} {site : PalSite} {p : SpinPc} :
      (spinLock v.palLock p).2 = none →
      UserMove v (.spin site p) { v with palLock := (spinLock v.palLock p).1 } site.after
  | available {v : PalVars} : v.palAvailable ≠ 0 → UserMove v .check v .decLoad
  | exhausted {v : PalVars} : v.palAvailable = 0 → UserMove v .check v .unlockFull
  | decLoad {v : PalVars} : UserMove v .decLoad v (.decStore v.palAvailable)
  | decStore {v : PalVars} {value : BitVec 32} :
      UserMove v (.decStore value) { v with palAvailable := value - 1 } .unlockTaken
  | unlockTaken {v : PalVars} :
      UserMove v .unlockTaken { v with palLock := spinUnlock v.palLock } .pal
  | unlockFull {v : PalVars} :
      UserMove v .unlockFull { v with palLock := spinUnlock v.palLock } (.wait 0)
  | wait {v : PalVars} {i : Nat} :
      i < 4096 ∧ v.palAvailable = 0 → UserMove v (.wait i) v (.wait (i + 1))
  | again {v : PalVars} {i : Nat} :
      ¬ (i < 4096 ∧ v.palAvailable = 0) → UserMove v (.wait i) v (.spin .acquire .test)
  | correct {v : PalVars} : UserMove v .pal v (.spin .release .test)
  | incorrect {v : PalVars} : UserMove v .pal v (.spin .incorrect .test)
  | stuck {v : PalVars} : UserMove v .stuck v .stuck
  | incLoad {v : PalVars} : UserMove v .incLoad v (.incStore v.palAvailable)
  | incStore {v : PalVars} {value : BitVec 32} :
      UserMove v (.incStore value) { v with palAvailable := value + 1 } .unlockGiven
  | unlockGiven {v : PalVars} :
      UserMove v .unlockGiven { v with palLock := spinUnlock v.palLock } .outside

variable {ι : Type}

def UserStep [DecidableEq ι] : Smp ι PalVars UserPc → ι × Unit → Smp ι PalVars UserPc → Prop :=
  Step fun _ v pc _ v' pc' => UserMove v pc v' pc'

/-- The variables as the image is loaded, and no CPU in user mode. -/
def palStart : Smp ι PalVars UserPc where
  shared := { palLock := 0, palAvailable := 3 }
  thread _ := .outside

/-! ## The invariant -/

/-- Between the return of `spin_lock` and the exchange of `spin_unlock`. -/
def UserPc.inLock : UserPc → Bool
  | .check | .decLoad | .decStore _ | .unlockTaken | .unlockFull | .stuck | .incLoad | .incStore _
  | .unlockGiven => true
  | .outside | .spin .. | .wait _ | .pal => false

/-- Has decremented `pal_available` and not yet incremented it. -/
def UserPc.taken : UserPc → Bool
  | .unlockTaken | .pal | .spin .incorrect _ | .stuck | .spin .release _ | .incLoad
  | .incStore _ => true
  | .outside | .spin .acquire _ | .check | .decLoad | .decStore _ | .unlockFull | .wait _
  | .unlockGiven => false

def UserPc.inPal : UserPc → Bool
  | .pal | .spin .incorrect _ | .stuck => true
  | _ => false

/-- What a CPU knows of `pal_available` while it holds the lock. -/
def UserPc.Knows (available : BitVec 32) : UserPc → Prop
  | .decLoad => available ≠ 0
  | .decStore value => value = available ∧ available ≠ 0
  | .incStore value => value = available
  | _ => True

theorem UserPc.knows_of_not_inLock {pc : UserPc} (h : pc.inLock = false) (available : BitVec 32) :
    pc.Knows available := by
  cases pc with
  | decLoad | decStore _ | incStore _ => cases h
  | _ => trivial

theorem UserPc.taken_of_inPal {pc : UserPc} (h : pc.inPal = true) : pc.taken = true := by
  cases pc with
  | pal | stuck => rfl
  | spin site p => cases site <;> first | rfl | cases h
  | _ => cases h

theorem PalSite.after_taken (site : PalSite) (p : SpinPc) :
    site.after.taken = (UserPc.spin site p).taken := by
  cases site <;> rfl

theorem PalSite.after_knows (site : PalSite) (available : BitVec 32) :
    site.after.Knows available := by
  cases site <;> trivial

structure PalInv [Fintype ι] (c : Smp ι PalVars UserPc) : Prop where
  lock : Locked c.shared.palLock (fun pc => pc.inLock = true) c.thread
  count : c.shared.palAvailable.toNat + count (fun pc => pc.taken = true) c.thread = 3
  knows : ∀ i, (c.thread i).Knows c.shared.palAvailable

theorem palInv_start [Fintype ι] : PalInv (palStart : Smp ι PalVars UserPc) where
  lock := Locked.start fun _ => Bool.false_ne_true
  count := by
    have h0 : count (fun pc : UserPc => pc.taken = true) (palStart (ι := ι)).thread = 0 :=
      count_zero fun _ => Bool.false_ne_true
    rw [h0]
    rfl
  knows _ := trivial

theorem PalInv.available_le [Fintype ι] {c : Smp ι PalVars UserPc} (h : PalInv c) :
    c.shared.palAvailable.toNat ≤ 3 := by
  have hsum := h.count
  omega

section Step

variable [Fintype ι] [DecidableEq ι] {c : Smp ι PalVars UserPc} {i : ι} {pc pc' : UserPc}

theorem PalInv.quiet (h : PalInv c) (hpc : c.thread i = pc) {palLock : BitVec 32}
    (hlock : Locked palLock (fun pc => pc.inLock = true) (Function.update c.thread i pc'))
    (htaken : pc'.taken = pc.taken) (hknows : pc'.Knows c.shared.palAvailable) :
    PalInv ⟨{ c.shared with palLock := palLock }, Function.update c.thread i pc'⟩ where
  lock := hlock
  count := by
    have hc := count_update (P := fun pc : UserPc => pc.taken = true) (f := c.thread) i pc'
    rw [hpc, htaken] at hc
    have hsum := h.count
    dsimp only
    omega
  knows := (Function.forall_update_iff _ fun _ pc => UserPc.Knows c.shared.palAvailable pc).mpr
    ⟨hknows, fun j _ => h.knows j⟩

theorem PalInv.local (h : PalInv c) (hpc : c.thread i = pc)
    (hin : pc'.inLock = true → pc.inLock = true) (htaken : pc'.taken = pc.taken)
    (hknows : pc'.Knows c.shared.palAvailable) :
    PalInv ⟨c.shared, Function.update c.thread i pc'⟩ :=
  h.quiet hpc (h.lock.stay (fun hin' => by rw [hpc]; exact hin hin') id) htaken hknows

theorem PalInv.spin (h : PalInv c) (hpc : c.thread i = pc) {p : SpinPc}
    (hin : pc'.inLock = true → (spinLock c.shared.palLock p).2 = none)
    (htaken : pc'.taken = pc.taken) (hknows : pc'.Knows c.shared.palAvailable) :
    PalInv ⟨{ c.shared with palLock := (spinLock c.shared.palLock p).1 },
      Function.update c.thread i pc'⟩ :=
  h.quiet hpc (spinLock_locked h.lock p fun hin' => Or.inl (hin hin')) htaken hknows

theorem PalInv.unlock (h : PalInv c) (hpc : c.thread i = pc) (hin : pc.inLock = true)
    (hout : pc'.inLock = false) (htaken : pc'.taken = pc.taken) :
    PalInv ⟨{ c.shared with palLock := spinUnlock c.shared.palLock },
      Function.update c.thread i pc'⟩ := by
  refine h.quiet hpc (h.lock.release ?_ (Bool.eq_false_iff.mp hout)) htaken
    (UserPc.knows_of_not_inLock hout _)
  rw [hpc]
  exact hin

/-- A write to `pal_available`, by a CPU that holds the lock and keeps it. -/
theorem PalInv.write (h : PalInv c) (hpc : c.thread i = pc) (hin : pc.inLock = true)
    {available : BitVec 32} (hknows : pc'.Knows available)
    (hsum : available.toNat + (if pc'.taken = true then 1 else 0) =
      c.shared.palAvailable.toNat + if pc.taken = true then 1 else 0) :
    PalInv ⟨{ c.shared with palAvailable := available }, Function.update c.thread i pc'⟩ where
  lock := h.lock.stay (fun _ => by rw [hpc]; exact hin) id
  count := by
    have hc := count_update (P := fun pc : UserPc => pc.taken = true) (f := c.thread) i pc'
    rw [hpc] at hc
    have hold := h.count
    dsimp only
    omega
  knows := by
    refine (Function.forall_update_iff _ fun _ pc => UserPc.Knows available pc).mpr
      ⟨hknows, fun j hj => ?_⟩
    -- the others do not hold the lock
    refine UserPc.knows_of_not_inLock (Bool.eq_false_iff.mpr fun hin' => hj ?_) _
    refine h.lock.unique hin' ?_
    rw [hpc]
    exact hin

theorem PalInv.step {c' : Smp ι PalVars UserPc} {a : ι × Unit} (h : PalInv c)
    (hs : UserStep c a c') : PalInv c' := by
  cases hs with
  | @mk i a s' pc' hm =>
      have hknows := h.knows i
      generalize hpc : c.thread i = pc at hm hknows
      cases hm with
      | enter => exact h.local hpc nofun rfl trivial
      | @spin site p p' _ =>
          exact h.spin hpc nofun ((site.after_taken p').symm.trans (site.after_taken p)) trivial
      | @locked site p hp =>
          exact h.spin hpc (fun _ => hp) (site.after_taken p) (site.after_knows _)
      | available hne => exact h.local hpc id rfl hne
      | exhausted _ => exact h.local hpc id rfl trivial
      | decLoad => exact h.local hpc id rfl ⟨rfl, hknows⟩
      | decStore =>
          obtain ⟨rfl, hne⟩ := hknows
          refine h.write hpc rfl trivial ?_
          have hpos : c.shared.palAvailable.toNat ≠ 0 := fun h0 => hne (BitVec.eq_of_toNat_eq h0)
          rw [BitVec.toNat_sub_of_le (by rw [BitVec.le_def]; exact Nat.pos_of_ne_zero hpos)]
          exact Nat.sub_add_cancel (Nat.pos_of_ne_zero hpos)
      | unlockTaken => exact h.unlock hpc rfl rfl rfl
      | unlockFull => exact h.unlock hpc rfl rfl rfl
      | wait _ => exact h.local hpc nofun rfl trivial
      | again _ => exact h.local hpc nofun rfl trivial
      | correct => exact h.local hpc nofun rfl trivial
      | incorrect => exact h.local hpc nofun rfl trivial
      | stuck => exact h.local hpc id rfl trivial
      | incLoad => exact h.local hpc id rfl rfl
      | incStore =>
          obtain rfl := hknows
          refine h.write hpc rfl trivial ?_
          have hle := h.available_le
          rw [BitVec.toNat_add, Nat.mod_eq_of_lt]
          · rfl
          · exact Nat.lt_of_le_of_lt (Nat.add_le_add_right hle 1) (by decide)
      | unlockGiven => exact h.unlock hpc rfl rfl rfl

end Step

/-- The semaphore and its lock, in whatever way the CPUs interleave.  The first part is about all
locks of the program (`ClientMove`); the second about `pal_lock` and `pal_available`, and there
the sum is 3 also while `pal_lock` is taken. -/
theorem lock_and_pal_safety [Fintype ι] [DecidableEq ι] :
    (∀ {L : Type} [DecidableEq L] (ls : List (ι × LockOp L))
        (c : Smp ι (L → BitVec 32) (Client L)),
      Trace (Step fun _ => ClientMove) Client.start ls c →
      ∀ l i j, (c.thread i).held l = true → (c.thread j).held l = true → i = j) ∧
    ∀ (ls : List (ι × Unit)) (c : Smp ι PalVars UserPc), Trace UserStep palStart ls c →
      (∀ i j, (c.thread i).inLock = true → (c.thread j).inLock = true → i = j) ∧
      (c.shared.palLock = 0 → ∀ i, (c.thread i).inLock = false) ∧
      c.shared.palAvailable.toNat + count (fun pc => pc.taken = true) c.thread = 3 ∧
      c.shared.palAvailable.toNat ≤ 3 ∧
      count (fun pc => pc.inPal = true) c.thread ≤ 3 := by
  refine ⟨?_, ?_⟩
  · intro L _ ls c h l i j
    exact client_mutual_exclusion h
  · intro ls c h
    have hinv : PalInv c := h.invariant PalInv.step palInv_start
    have hpal : count (fun pc => pc.inPal = true) c.thread ≤
        count (fun pc => pc.taken = true) c.thread := count_mono fun _ => UserPc.taken_of_inPal
    have hsum := hinv.count
    refine ⟨fun _ _ => hinv.lock.unique, ?_, hsum, hinv.available_le, by omega⟩
    intro h0 i
    exact Bool.eq_false_iff.mpr (hinv.lock.free h0 i)

/-- Two CPUs; one of them has got the semaphore and is still in the lock. -/
theorem lock_and_pal_safety_acquired :
    ∃ (ls : List (Fin 2 × Unit)) (c : Smp (Fin 2) PalVars UserPc),
      Trace UserStep palStart ls c ∧ c.shared.palLock = 1 ∧ c.shared.palAvailable = 2 ∧
        count (fun pc => pc.taken = true) c.thread = 1 := by
  have t0 : Trace UserStep (palStart : Smp (Fin 2) PalVars UserPc) [] palStart := .nil
  have t1 := t0.snoc (.mk (i := 0) (a := ()) UserMove.enter)
  have t2 := t1.snoc (.mk (i := 0) (a := ()) (UserMove.spin rfl))
  have t3 := t2.snoc (.mk (i := 0) (a := ()) (UserMove.locked rfl))
  have t4 := t3.snoc (.mk (i := 0) (a := ()) (UserMove.available (by decide)))
  have t5 := t4.snoc (.mk (i := 0) (a := ()) UserMove.decLoad)
  have t6 := t5.snoc (.mk (i := 0) (a := ()) UserMove.decStore)
  refine ⟨_, _, t6, rfl, rfl, ?_⟩
  have hsum := (lock_and_pal_safety.2 _ _ t6).2.2.1
  exact Nat.add_left_cancel (n := 2) hsum

end Shv
