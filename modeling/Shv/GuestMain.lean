/-
# `Shv.GuestMain` — the barrier in the main loop of the guests

Under XMHF the MTRRs cannot be changed any more once a PAL has run.  With both
`SHV_USE_MSR_LOAD` and `SHV_USER_MODE`, `shv_guest_main` therefore runs
`shv_guest_test_msr_ls`, which changes them, in its first two iterations only, and
`shv_guest_test_user` from the fourth on; the third is a barrier for all CPUs.

The barrier is the counter `arrived` under a lock of its own, and `arrived++` is a
read and a write.  The counter is right because of the lock, and the barrier holds
because of the counter: `guest_barrier_separates` says that from the moment any CPU
is in a user-mode test no CPU is in the MSR test, and `guest_barrier_never_stuck`
that in no state all CPUs wait for one another.
-/
import Shv.Spinlock

namespace Shv

open Smp

/-! ## The main loop -/

/-- What `shv_guest_main` depends on, which is the same for all CPUs. -/
structure MainConfig where
  inXmhf : Bool
  useMsrLoad : Bool
  userMode : Bool
  midtableNumentries : BitVec 32

/-- The static variables of the barrier. -/
structure MainVars where
  lock : BitVec 32
  arrived : BitVec 32

inductive MainPc where
  /-- at `++iter` -/
  | top
  /-- in `shv_guest_test_msr_ls` -/
  | msrLs
  /-- in `spin_lock` -/
  | spin (p : SpinPc)
  /-- at the read, respectively the write, of `arrived++` -/
  | incLoad
  | incStore (value : BitVec 32)
  | unlock
  /-- at the condition of the loop -/
  | wait
  /-- in `shv_guest_test_user`, respectively `shv_guest_test_nested_user` -/
  | user
  | nestedUser
  /-- in the tests that follow -/
  | rest
  /-- `iter` has wrapped around -/
  | halted
  deriving DecidableEq, Repr

structure MainCpu where
  iter : BitVec 64
  pc : MainPc

/-- The condition of the first `if`. -/
def MainConfig.separate (cfg : MainConfig) : Bool := cfg.inXmhf && cfg.useMsrLoad && cfg.userMode

/-- The test an iteration begins with. -/
def mainTest (cfg : MainConfig) (iter : BitVec 64) : MainPc :=
  if cfg.separate then
    if iter < 3 then .msrLs else if iter = 3 then .spin .test else .user
  else .msrLs

def mainStep (cfg : MainConfig) (v : MainVars) (t : MainCpu) : MainVars × MainCpu :=
  match t.pc with
  | .top =>
      if t.iter + 1 > 0 then (v, { iter := t.iter + 1, pc := mainTest cfg (t.iter + 1) })
      else (v, { iter := t.iter + 1, pc := .halted })
  | .msrLs => (v, { t with pc := if cfg.separate then .rest else .user })
  | .spin p =>
      ({ v with lock := (spinLock v.lock p).1 },
        { t with pc := match (spinLock v.lock p).2 with
          | some p' => .spin p'
          | none => .incLoad })
  | .incLoad => (v, { t with pc := .incStore v.arrived })
  | .incStore value => ({ v with arrived := value + 1 }, { t with pc := .unlock })
  | .unlock => ({ v with lock := spinUnlock v.lock }, { t with pc := .wait })
  | .wait => (v, { t with pc := if v.arrived < cfg.midtableNumentries then .wait else .rest })
  | .user => (v, { t with pc := .nestedUser })
  | .nestedUser => (v, { t with pc := .rest })
  | .rest => (v, { t with pc := .top })
  | .halted => (v, t)

/-- The CPUs that `smp_init` has found. -/
abbrev GuestCore (cfg : MainConfig) := Fin cfg.midtableNumentries.toNat

abbrev MainState (cfg : MainConfig) := Smp (GuestCore cfg) MainVars MainCpu

def MainStep (cfg : MainConfig) : MainState cfg → GuestCore cfg × Unit → MainState cfg → Prop :=
  Step fun _ v t _ v' t' => mainStep cfg v t = (v', t')

def mainStart (cfg : MainConfig) : MainState cfg where
  shared := { lock := 0, arrived := 0 }
  thread _ := { iter := 0, pc := .top }

/-! ## The invariant -/

/-- Between the return of `spin_lock` and the exchange of `spin_unlock`. -/
def MainPc.inLock : MainPc → Bool
  | .incLoad | .incStore _ | .unlock => true
  | _ => false

/-- The iterations a CPU can be in at each place. -/
def MainCpu.Placed (t : MainCpu) : Prop :=
  match t.pc with
  | .msrLs => t.iter < 3
  | .spin _ | .incLoad | .incStore _ | .unlock | .wait => t.iter = 3
  | .user | .nestedUser => 3 < t.iter
  | .top | .rest | .halted => True

/-- Has counted itself in. -/
def MainCpu.arrived (t : MainCpu) : Bool :=
  match t.pc with
  | .halted | .unlock | .wait => true
  | .spin _ | .incLoad | .incStore _ => false
  | .top | .msrLs | .user | .nestedUser | .rest => decide (3 ≤ t.iter)

/-- Has left the barrier. -/
def MainCpu.left (t : MainCpu) : Bool :=
  match t.pc with
  | .halted => true
  | .spin _ | .incLoad | .incStore _ | .unlock | .wait => false
  | .top | .msrLs | .user | .nestedUser | .rest => decide (3 ≤ t.iter)

/-- What a CPU knows of `arrived` while it holds the lock. -/
def MainPc.Knows (arrived : BitVec 32) : MainPc → Prop
  | .incStore value => value = arrived
  | _ => True

theorem MainPc.knows_of_not_inLock {pc : MainPc} (h : pc.inLock = false) (arrived : BitVec 32) :
    pc.Knows arrived := by
  cases pc with
  | incStore _ => cases h
  | _ => trivial

structure MainInv (cfg : MainConfig) (c : MainState cfg) : Prop where
  placed : ∀ i, (c.thread i).Placed
  lock : Locked c.shared.lock (fun t : MainCpu => t.pc.inLock = true) c.thread
  /-- the lock is not lost -/
  held : c.shared.lock ≠ 0 → ∃ i, (c.thread i).pc.inLock = true
  knows : ∀ i, (c.thread i).pc.Knows c.shared.arrived
  barrier : Barrier c.shared.arrived.toNat (fun t : MainCpu => t.arrived = true)
    (fun t => t.left = true) c.thread

theorem mainInv_start (cfg : MainConfig) : MainInv cfg (mainStart cfg) where
  placed _ := trivial
  lock := Locked.start fun _ => Bool.false_ne_true
  held h := absurd rfl h
  knows _ := trivial
  barrier := Barrier.start (fun _ => Bool.false_ne_true) fun _ => Bool.false_ne_true

/-- A step to `c'` keeps the invariant, and no CPU goes back behind the barrier. -/
structure MainNext (cfg : MainConfig) (c c' : MainState cfg) : Prop where
  inv : MainInv cfg c'
  arrived : ∀ j, (c.thread j).arrived = true → (c'.thread j).arrived = true

section Step

variable {cfg : MainConfig} {c : MainState cfg} {i : GuestCore cfg} {t t' : MainCpu}

theorem MainInv.update {v' : MainVars} (h : MainInv cfg c) (ht : c.thread i = t)
    (hplaced : t'.Placed)
    (hlock : Locked v'.lock (fun t : MainCpu => t.pc.inLock = true) (Function.update c.thread i t'))
    (hheld : v'.lock ≠ 0 → t'.pc.inLock = true ∨ c.shared.lock ≠ 0 ∧ t.pc.inLock = false)
    (hknows : t'.pc.Knows v'.arrived)
    (hothers : v'.arrived = c.shared.arrived ∨ t.pc.inLock = true)
    (harr : t.arrived = true → t'.arrived = true)
    (hcount : v'.arrived.toNat + (if t.arrived = true then 1 else 0) =
      c.shared.arrived.toNat + if t'.arrived = true then 1 else 0)
    (hleft : t'.left = true → ∀ j, (c.thread j).arrived = true) :
    MainNext cfg c ⟨v', Function.update c.thread i t'⟩ := by
  refine ⟨{ placed := ?_, lock := hlock, held := ?_, knows := ?_, barrier := ?_ }, fun j hj => ?_⟩
  · exact (Function.forall_update_iff _ fun _ t => MainCpu.Placed t).mpr
      ⟨hplaced, fun j _ => h.placed j⟩
  · intro hl
    dsimp only at hl ⊢
    rcases hheld hl with hin | ⟨hold, hout⟩
    · exact ⟨i, by rw [Function.update_self]; exact hin⟩
    · obtain ⟨j, hj⟩ := h.held hold
      have hji : j ≠ i := by
        rintro rfl
        rw [ht, hout] at hj
        cases hj
      exact ⟨j, by rw [Function.update_of_ne hji]; exact hj⟩
  · refine (Function.forall_update_iff _ fun _ (t : MainCpu) => t.pc.Knows v'.arrived).mpr
      ⟨hknows, fun j hj => ?_⟩
    rcases hothers with heq | hin
    · rw [heq]
      exact h.knows j
    · -- the others do not hold the lock
      refine MainPc.knows_of_not_inLock (Bool.eq_false_iff.mpr fun hin' => hj ?_) _
      refine h.lock.unique hin' ?_
      rw [ht]
      exact hin
  · exact h.barrier.move (by rw [ht]; exact harr) (by rw [ht]; exact hcount) hleft
  · dsimp only
    by_cases hji : j = i
    · subst hji
      rw [Function.update_self]
      exact harr (ht ▸ hj)
    · rwa [Function.update_of_ne hji]

theorem MainInv.quiet (h : MainInv cfg c) (ht : c.thread i = t) (hplaced : t'.Placed)
    (hin : t.pc.inLock = false) (hin' : t'.pc.inLock = false) (harr : t'.arrived = t.arrived)
    (hleft : t'.left = true → t.left = true ∨ ∀ j, (c.thread j).arrived = true) :
    MainNext cfg c ⟨c.shared, Function.update c.thread i t'⟩ := by
  refine h.update ht hplaced (h.lock.stay (fun hl => ?_) id) (fun hl => Or.inr ⟨hl, hin⟩)
    (MainPc.knows_of_not_inLock hin' _) (Or.inl rfl) (fun ha => harr.trans ha) (by rw [harr])
    fun hl => ?_
  · rw [hin'] at hl
    cases hl
  · rcases hleft hl with hold | hall
    · refine h.barrier.all (i := i) ?_
      rw [ht]
      exact hold
    · exact hall

theorem spinLock_taken {lock : BitVec 32} {p p' : SpinPc} (h : (spinLock lock p).2 = some p')
    (h' : (spinLock lock p).1 ≠ 0) : lock ≠ 0 := by
  cases p with
  | test => exact h'
  | xchg =>
      rintro rfl
      cases h

theorem le_of_wraps {iter : BitVec 64} (h : ¬ iter + 1 > 0) : 3 ≤ iter := by
  have hb := iter.isLt
  have hz : ¬ 0 < (iter + 1).toNat := h
  rw [BitVec.toNat_add] at hz
  change ¬ 0 < (iter.toNat + 1) % 18446744073709551616 at hz
  show 3 ≤ iter.toNat
  omega

theorem MainInv.top (h : MainInv cfg c) (hsep : cfg.separate = true) (ht : c.thread i = t)
    (hpc : t.pc = .top) (hlt : t.iter + 1 > 0) :
    MainNext cfg c ⟨c.shared, Function.update c.thread i
      { iter := t.iter + 1, pc := mainTest cfg (t.iter + 1) }⟩ := by
  have hnext : (t.iter + 1).toNat = t.iter.toNat + 1 := by
    have hpos : 0 < (t.iter + 1).toNat := hlt
    rw [BitVec.toNat_add] at hpos ⊢
    have hb := t.iter.isLt
    change 0 < (t.iter.toNat + 1) % 18446744073709551616 at hpos
    show (t.iter.toNat + 1) % 18446744073709551616 = _
    omega
  have hin : t.pc.inLock = false := by rw [hpc]; rfl
  have harr : t.arrived = decide (3 ≤ t.iter.toNat) := by rw [MainCpu.arrived, hpc]; rfl
  have hleft : t.left = decide (3 ≤ t.iter.toNat) := by rw [MainCpu.left, hpc]; rfl
  rw [mainTest, if_pos hsep]
  by_cases h3 : t.iter + 1 < 3
  · have h3' : t.iter.toNat + 1 < 3 := hnext ▸ h3
    rw [if_pos h3]
    have hno : decide (3 ≤ t.iter + 1) = false := decide_eq_false (BitVec.not_le.mpr h3)
    refine h.quiet ht h3 hin rfl ?_ fun hl => ?_
    · rw [harr, decide_eq_false (by omega)]
      exact hno
    · cases hno.symm.trans hl
  · rw [if_neg h3]
    have h3' : ¬ t.iter.toNat + 1 < 3 := fun hlt' => h3 (show (t.iter + 1).toNat < 3 by omega)
    by_cases he : t.iter + 1 = 3
    · have he' : t.iter.toNat + 1 = 3 := by
        rw [← hnext, he]
        rfl
      rw [if_pos he]
      refine h.quiet ht he hin rfl ?_ nofun
      rw [harr, decide_eq_false (by omega)]
      rfl
    · have he' : t.iter.toNat + 1 ≠ 3 := fun heq =>
        he (BitVec.eq_of_toNat_eq (hnext.trans heq))
      rw [if_neg he]
      have hyes : decide (3 ≤ t.iter + 1) = true := decide_eq_true (show 3 ≤ (t.iter + 1).toNat by
        omega)
      refine h.quiet ht (show 3 < (t.iter + 1).toNat by omega) hin rfl ?_ fun _ => Or.inl ?_
      · rw [harr, decide_eq_true (by omega)]
        exact hyes
      · rw [hleft, decide_eq_true (by omega)]

theorem MainInv.step {c' : MainState cfg} {a : GuestCore cfg × Unit} (h : MainInv cfg c)
    (hsep : cfg.separate = true) (hs : MainStep cfg c a c') : MainNext cfg c c' := by
  cases hs with
  | @mk i _ v' t' hm =>
      have hplaced := h.placed i
      have hknows := h.knows i
      generalize ht : c.thread i = t at hm hplaced hknows
      obtain ⟨iter, pc⟩ := t
      cases pc with
      | top =>
          dsimp only [mainStep] at hm
          split at hm
          · obtain ⟨rfl, rfl⟩ := Prod.mk.inj hm
            exact h.top hsep ht rfl ‹_›
          · obtain ⟨rfl, rfl⟩ := Prod.mk.inj hm
            have hyes : decide (3 ≤ iter) = true := decide_eq_true (le_of_wraps ‹_›)
            exact h.quiet ht trivial rfl rfl hyes.symm fun _ => Or.inl hyes
      | msrLs =>
          obtain ⟨rfl, rfl⟩ := Prod.mk.inj hm
          dsimp only
          rw [if_pos hsep]
          exact h.quiet ht trivial rfl rfl rfl Or.inl
      | spin p =>
          obtain ⟨rfl, rfl⟩ := Prod.mk.inj hm
          cases hp : (spinLock c.shared.lock p).2 with
          | some p' =>
              refine h.update ht hplaced (spinLock_locked h.lock p fun hin => by cases hin)
                (fun hl => Or.inr ⟨spinLock_taken hp hl, rfl⟩) trivial (Or.inl rfl) id rfl nofun
          | none =>
              exact h.update ht hplaced (spinLock_locked h.lock p fun _ => Or.inl hp)
                (fun _ => Or.inl rfl) trivial (Or.inl rfl) id rfl nofun
      | incLoad =>
          obtain ⟨rfl, rfl⟩ := Prod.mk.inj hm
          exact h.update ht hplaced (h.lock.stay (fun _ => by rw [ht]; rfl) id)
            (fun _ => Or.inl rfl) rfl (Or.inl rfl) id rfl nofun
      | incStore value =>
          obtain ⟨rfl, rfl⟩ := Prod.mk.inj hm
          obtain rfl : value = c.shared.arrived := hknows
          have hlt := h.barrier.lt_of_not (i := i) (by rw [ht]; exact Bool.false_ne_true)
          rw [Fintype.card_fin] at hlt
          have hb := cfg.midtableNumentries.isLt
          have hnext : (c.shared.arrived + 1).toNat = c.shared.arrived.toNat + 1 := by
            rw [BitVec.toNat_add]
            exact Nat.mod_eq_of_lt (show c.shared.arrived.toNat + 1 < 2 ^ 32 by omega)
          exact h.update ht hplaced (h.lock.stay (fun _ => by rw [ht]; rfl) id)
            (fun _ => Or.inl rfl) trivial (Or.inr rfl) (fun _ => rfl) hnext nofun
      | unlock =>
          obtain ⟨rfl, rfl⟩ := Prod.mk.inj hm
          exact h.update ht hplaced (h.lock.release (by rw [ht]; rfl) Bool.false_ne_true)
            (fun hl => absurd rfl hl) trivial (Or.inl rfl) id rfl nofun
      | wait =>
          obtain ⟨rfl, rfl⟩ := Prod.mk.inj hm
          dsimp only
          split
          · exact h.quiet ht hplaced rfl rfl rfl Or.inl
          · obtain rfl : iter = 3 := hplaced
            refine h.quiet ht trivial rfl rfl rfl fun _ => Or.inr (h.barrier.all_of_le ?_)
            rw [Fintype.card_fin]
            exact Nat.le_of_not_lt ‹_›
      | user =>
          obtain ⟨rfl, rfl⟩ := Prod.mk.inj hm
          exact h.quiet ht hplaced rfl rfl rfl Or.inl
      | nestedUser =>
          obtain ⟨rfl, rfl⟩ := Prod.mk.inj hm
          exact h.quiet ht trivial rfl rfl rfl Or.inl
      | rest =>
          obtain ⟨rfl, rfl⟩ := Prod.mk.inj hm
          exact h.quiet ht trivial rfl rfl rfl Or.inl
      | halted =>
          obtain ⟨rfl, rfl⟩ := Prod.mk.inj hm
          exact h.quiet ht trivial rfl rfl rfl Or.inl

theorem mainInv_run {ls : List (GuestCore cfg × Unit)} (hsep : cfg.separate = true)
    (hrun : Trace (MainStep cfg) (mainStart cfg) ls c) : MainInv cfg c :=
  hrun.invariant (fun h hs => (h.step hsep hs).inv) (mainInv_start cfg)

/-! ## What the barrier is for -/

theorem MainCpu.arrived_not_msrLs (h : t.Placed) (ha : t.arrived = true) : t.pc ≠ .msrLs := by
  obtain ⟨iter, pc⟩ := t
  rintro rfl
  have hlt : iter < 3 := h
  exact BitVec.not_le.mpr hlt (of_decide_eq_true ha)

theorem MainCpu.left_of_user (h : t.Placed) (hu : t.pc = .user ∨ t.pc = .nestedUser) :
    t.left = true := by
  obtain ⟨iter, pc⟩ := t
  have hle : ∀ {n : BitVec 64}, 3 < n → decide (3 ≤ n) = true := fun hn =>
    decide_eq_true (BitVec.le_of_lt hn)
  rcases hu with rfl | rfl
  · exact hle h
  · exact hle h

/-- **The barrier separates the tests.**  From the moment some CPU runs a user-mode test, no CPU
is in the MSR test, and none will be. -/
theorem guest_barrier_separates {c' : MainState cfg} {ls ls' : List (GuestCore cfg × Unit)}
    (hsep : cfg.separate = true) (hrun : Trace (MainStep cfg) (mainStart cfg) ls c)
    (hu : (c.thread i).pc = .user ∨ (c.thread i).pc = .nestedUser)
    (hrun' : Trace (MainStep cfg) c ls' c') (j : GuestCore cfg) : (c'.thread j).pc ≠ .msrLs := by
  have h := mainInv_run hsep hrun
  have hall := h.barrier.all (MainCpu.left_of_user (h.placed i) hu)
  obtain ⟨h', hall'⟩ := hrun'.invariant
    (I := fun c => MainInv cfg c ∧ ∀ j, (c.thread j).arrived = true)
    (fun h hs => ⟨(h.1.step hsep hs).inv, fun j => (h.1.step hsep hs).arrived j (h.2 j)⟩) ⟨h, hall⟩
  exact MainCpu.arrived_not_msrLs (h'.placed j) (hall' j)

/-- A CPU waits at the barrier only while another one has not come to it. -/
theorem MainInv.waits (h : MainInv cfg c) (hw : c.shared.arrived < cfg.midtableNumentries) :
    ∃ j, (c.thread j).arrived = false := by
  by_contra hno
  have hall : ∀ j, (c.thread j).arrived = true := fun j =>
    Bool.not_eq_false _ ▸ fun hf => hno ⟨j, hf⟩
  have hcount := h.barrier.count
  rw [count, Finset.filter_true_of_mem fun j _ => hall j, Finset.card_univ,
    Fintype.card_fin] at hcount
  exact Nat.lt_irrefl _ (hcount ▸ (show c.shared.arrived.toNat < _ from hw))

/-- Whether a CPU has anything to do but wait. -/
def Moves (cfg : MainConfig) (v : MainVars) (t : MainCpu) : Prop := mainStep cfg v t ≠ (v, t)

theorem mainTest_ne_top (iter : BitVec 64) : mainTest cfg iter ≠ .top := by
  rw [mainTest]
  split
  · split
    · exact nofun
    · split <;> exact nofun
  · exact nofun

theorem moves_of {v : MainVars} (hh : t.pc ≠ .halted) (hs : ∀ p, t.pc = .spin p → v.lock = 0)
    (hw : t.pc = .wait → ¬ v.arrived < cfg.midtableNumentries) : Moves cfg v t := by
  intro heq
  have hpc : (mainStep cfg v t).2.pc = t.pc := by rw [heq]
  obtain ⟨iter, pc⟩ := t
  cases pc with
  | top =>
      dsimp only [mainStep] at hpc
      split at hpc
      · exact mainTest_ne_top _ hpc
      · cases hpc
  | msrLs =>
      dsimp only [mainStep] at hpc
      split at hpc <;> cases hpc
  | spin p =>
      have h0 := hs p rfl
      cases p with
      | test =>
          simp only [mainStep, spinLock, h0, if_true] at hpc
          cases hpc
      | xchg =>
          simp only [mainStep, spinLock, h0, if_true] at hpc
          cases hpc
  | wait =>
      simp only [mainStep, if_neg (hw rfl)] at hpc
      cases hpc
  | halted => exact hh rfl
  | incLoad | incStore value | unlock | user | nestedUser | rest => cases hpc

/-- **The CPUs never all wait for one another**: in every state that is reached, some CPU has
something to do, or all have stopped because `iter` has wrapped around. -/
theorem guest_barrier_never_stuck {ls : List (GuestCore cfg × Unit)} (hsep : cfg.separate = true)
    (hrun : Trace (MainStep cfg) (mainStart cfg) ls c) :
    (∀ i, (c.thread i).pc = .halted) ∨ ∃ i, Moves cfg c.shared (c.thread i) := by
  have h := mainInv_run hsep hrun
  by_cases hlock : c.shared.lock = 0
  · by_cases hall : ∀ i, (c.thread i).pc = .halted
    · exact Or.inl hall
    · right
      push Not at hall
      obtain ⟨i, hi⟩ := hall
      by_cases hw : (c.thread i).pc = .wait ∧ c.shared.arrived < cfg.midtableNumentries
      · -- the CPU that is missing is neither waiting nor halted
        obtain ⟨j, hj⟩ := h.waits hw.2
        refine ⟨j, moves_of (fun hpc => ?_) (fun _ _ => hlock) fun hpc => ?_⟩
        · rw [MainCpu.arrived, hpc] at hj
          cases hj
        · rw [MainCpu.arrived, hpc] at hj
          cases hj
      · exact ⟨i, moves_of hi (fun _ _ => hlock) fun hpc hlt => hw ⟨hpc, hlt⟩⟩
  · -- the CPU that holds the lock goes on
    right
    obtain ⟨i, hi⟩ := h.held hlock
    refine ⟨i, moves_of (fun hpc => ?_) (fun p hpc => ?_) fun hpc => ?_⟩
    · rw [hpc] at hi
      cases hi
    · rw [hpc] at hi
      cases hi
    · rw [hpc] at hi
      cases hi

/-- The state after a step of CPU `i`. -/
def MainState.go (c : MainState cfg) (i : GuestCore cfg) : MainState cfg :=
  ⟨(mainStep cfg c.shared (c.thread i)).1,
    Function.update c.thread i (mainStep cfg c.shared (c.thread i)).2⟩

theorem trace_go (schedule : List (GuestCore cfg)) :
    Trace (MainStep cfg) c (schedule.map fun i => (i, ())) (schedule.foldl MainState.go c) := by
  induction schedule generalizing c with
  | nil => exact .nil
  | cons i schedule ih => exact Trace.cons (Smp.Step.mk rfl) ih

end Step

/-- Two CPUs under XMHF, with both options. -/
def sampleMain : MainConfig where
  inXmhf := true
  useMsrLoad := true
  userMode := true
  midtableNumentries := 2

def firstCpu : GuestCore sampleMain := ⟨0, by decide⟩

def secondCpu : GuestCore sampleMain := ⟨1, by decide⟩

/-- The first CPU comes to the barrier, and waits. -/
def waitSchedule : List (GuestCore sampleMain) := List.replicate 13 firstCpu

/-- The second comes too, and the first goes on to its fourth iteration. -/
def sampleSchedule : List (GuestCore sampleMain) :=
  waitSchedule ++ List.replicate 12 secondCpu ++ List.replicate 3 firstCpu

theorem guest_barrier_separates_sample :
    ∃ (ls : List (GuestCore sampleMain × Unit)) (c : MainState sampleMain),
      Trace (MainStep sampleMain) (mainStart sampleMain) ls c ∧
      (c.thread firstCpu).pc = .user ∧ (c.thread secondCpu).pc ≠ .msrLs := by
  have hu : ((sampleSchedule.foldl MainState.go (mainStart sampleMain)).thread firstCpu).pc =
      .user := by decide
  exact ⟨_, _, trace_go sampleSchedule, hu,
    guest_barrier_separates rfl (trace_go sampleSchedule) (Or.inl hu) .nil secondCpu⟩

/-- The first CPU waits for the second. -/
theorem guest_barrier_never_stuck_sample :
    ∃ (ls : List (GuestCore sampleMain × Unit)) (c : MainState sampleMain),
      Trace (MainStep sampleMain) (mainStart sampleMain) ls c ∧
      (c.thread firstCpu).pc = .wait ∧
      ((∀ i, (c.thread i).pc = .halted) ∨ ∃ i, Moves sampleMain c.shared (c.thread i)) := by
  have hw : ((waitSchedule.foldl MainState.go (mainStart sampleMain)).thread firstCpu).pc =
      .wait := by decide
  exact ⟨_, _, trace_go waitSchedule, hw, guest_barrier_never_stuck rfl (trace_go waitSchedule)⟩

end Shv
