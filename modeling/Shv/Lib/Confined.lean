/-
# `Confined` — programs that keep to their own part of a shared memory

A program makes one access to the memory at a time, and what it does next may depend
on what it read.  `Prog.exec` is its run alone, with the rules `Does.bind`,
`Does.loop` and so on for what such a run does.

Several programs on one memory are threads in the sense of `Smp`, and their accesses
come in any order.  When each keeps to a region of its own and no two regions meet,
none of them can tell that the others are there: what remains of a program, run alone
from the memory as it is now, comes to what the whole program run alone from the first
memory comes to (`Confined`).
-/
import Mathlib.Logic.Function.Basic
import Shv.Lib.Smp

/-- A program that reads and writes a memory one cell at a time, and may fail. -/
inductive Prog (A V X : Type) where
  | ret (x : X)
  | fail
  | read (a : A) (k : V → Prog A V X)
  | write (a : A) (v : V) (k : Prog A V X)

namespace Prog

variable {A V X Y : Type}

/-! ## Programs -/

def bind : Prog A V X → (X → Prog A V Y) → Prog A V Y
  | ret x, f => f x
  | fail, _ => fail
  | read a k, f => read a fun v => (k v).bind f
  | write a v k, f => write a v (k.bind f)

instance : Monad (Prog A V) where
  pure := ret
  bind := bind

def get (a : A) : Prog A V V := read a ret

def put (a : A) (v : V) : Prog A V Unit := write a v (ret ())

/-- Fail unless a condition holds. -/
def assert (P : Prop) [Decidable P] : Prog A V Unit := if P then ret () else fail

/-- The programs for `0`, …, `n - 1`, one after another. -/
def loop : Nat → (Nat → Prog A V Unit) → Prog A V Unit
  | 0, _ => ret ()
  | n + 1, f => (loop n f).bind fun _ => f n

@[simp] theorem bind_eq (p : Prog A V X) (f : X → Prog A V Y) : p >>= f = p.bind f := rfl

@[simp] theorem pure_eq (x : X) : (pure x : Prog A V X) = ret x := rfl

theorem bind_assoc {Z : Type} (p : Prog A V X) (f : X → Prog A V Y) (g : Y → Prog A V Z) :
    (p.bind f).bind g = p.bind fun x => (f x).bind g := by
  induction p with
  | ret x => rfl
  | fail => rfl
  | read a k ih => exact congrArg (read a) (funext ih)
  | write a v k ih => exact congrArg (write a v) ih

/-! ## Keeping to a region -/

/-- Whatever it reads, the program makes all its accesses in the region. -/
inductive Within (R : A → Prop) : Prog A V X → Prop
  | ret {x : X} : Within R (ret x)
  | fail : Within R fail
  | read {a : A} {k : V → Prog A V X} : R a → (∀ v, Within R (k v)) → Within R (read a k)
  | write {a : A} {v : V} {k : Prog A V X} : R a → Within R k → Within R (write a v k)

namespace Within

variable {R : A → Prop}

theorem bind {p : Prog A V X} {f : X → Prog A V Y} (hp : p.Within R)
    (hf : ∀ x, (f x).Within R) : (p.bind f).Within R := by
  induction hp with
  | ret => exact hf _
  | fail => exact fail
  | read h _ ih => exact read h ih
  | write h _ ih => exact write h ih

theorem get {a : A} (h : R a) : (Prog.get a : Prog A V V).Within R := read h fun _ => ret

theorem put {a : A} {v : V} (h : R a) : (Prog.put a v).Within R := write h ret

theorem assert {C : Prop} [Decidable C] : (Prog.assert C : Prog A V Unit).Within R := by
  rw [Prog.assert]
  split
  · exact ret
  · exact fail

theorem loop {n : Nat} {f : Nat → Prog A V Unit} (h : ∀ i < n, (f i).Within R) :
    (Prog.loop n f).Within R := by
  induction n with
  | zero => exact ret
  | succ n ih =>
      exact (ih fun i hi => h i (Nat.lt_succ_of_lt hi)).bind fun _ => h n (Nat.lt_succ_self n)

end Within

/-! ## Running alone -/

variable [DecidableEq A]

/-- The run of a program that has the memory to itself. -/
def exec : Prog A V X → (A → V) → Option (X × (A → V))
  | ret x, m => some (x, m)
  | fail, _ => none
  | read a k, m => (k (m a)).exec m
  | write a v k, m => k.exec (Function.update m a v)

def step (m : A → V) : Prog A V X → Option ((A → V) × Prog A V X)
  | ret _ => none
  | fail => none
  | read a k => some (m, k (m a))
  | write a v k => some (Function.update m a v, k)

theorem exec_bind (p : Prog A V X) (f : X → Prog A V Y) (m : A → V) :
    (p.bind f).exec m = (p.exec m).bind fun r => (f r.1).exec r.2 := by
  induction p generalizing m with
  | ret x => rfl
  | fail => rfl
  | read a k ih => exact ih (m a) m
  | write a v k ih => exact ih (Function.update m a v)

/-- From a memory with `P` the program comes to its end, with `Q`. -/
def Does (P : (A → V) → Prop) (p : Prog A V X) (Q : X → (A → V) → Prop) : Prop :=
  ∀ m, P m → ∃ x m', p.exec m = some (x, m') ∧ Q x m'

namespace Does

variable {P : (A → V) → Prop} {Q : X → (A → V) → Prop} {R : Y → (A → V) → Prop}
  {p : Prog A V X} {f : X → Prog A V Y} {a : A} {v : V}

theorem ret {x : X} (h : ∀ m, P m → Q x m) : Does P (Prog.ret x) Q := by
  intro m hm
  exact ⟨x, m, rfl, h m hm⟩

theorem bind (hp : Does P p Q) (hf : ∀ x, Does (Q x) (f x) R) : Does P (p.bind f) R := by
  intro m hm
  obtain ⟨x, m', hx, hq⟩ := hp m hm
  obtain ⟨y, m'', hy, hr⟩ := hf x m' hq
  refine ⟨y, m'', ?_, hr⟩
  rw [exec_bind, hx]
  exact hy

/-- The rule of consequence. -/
theorem conseq {P' : (A → V) → Prop} {Q' : X → (A → V) → Prop} (h : Does P p Q)
    (hP : ∀ m, P' m → P m) (hQ : ∀ x m, Q x m → Q' x m) : Does P' p Q' := by
  intro m hm
  obtain ⟨x, m', hx, hq⟩ := h m (hP m hm)
  exact ⟨x, m', hx, hQ x m' hq⟩

theorem bind_eq {x : X} (hp : Does P p fun y m => y = x ∧ P m) (hf : Does P (f x) R) :
    Does P (p.bind f) R := by
  refine hp.bind fun y => ?_
  rintro m ⟨rfl, hm⟩
  exact hf m hm

theorem get {Q : V → (A → V) → Prop} (h : ∀ m, P m → Q (m a) m) : Does P (Prog.get a) Q := by
  intro m hm
  exact ⟨m a, m, rfl, h m hm⟩

theorem put {Q : Unit → (A → V) → Prop} (h : ∀ m, P m → Q () (Function.update m a v)) :
    Does P (Prog.put a v) Q := by
  intro m hm
  exact ⟨(), Function.update m a v, rfl, h m hm⟩

theorem assert {C : Prop} [Decidable C] {Q : Unit → (A → V) → Prop} (hC : C)
    (h : ∀ m, P m → Q () m) : Does P (Prog.assert C) Q := by
  intro m hm
  refine ⟨(), m, ?_, h m hm⟩
  rw [Prog.assert, if_pos hC]
  rfl

/-- The rule for loops: an invariant that knows how often the body has run. -/
theorem loop {I : Nat → (A → V) → Prop} {n : Nat} {f : Nat → Prog A V Unit}
    (h : ∀ i < n, Does (I i) (f i) fun _ => I (i + 1)) :
    Does (I 0) (Prog.loop n f) fun _ => I n := by
  induction n with
  | zero => exact ret fun _ hm => hm
  | succ n ih =>
      exact (ih fun i hi => h i (Nat.lt_succ_of_lt hi)).bind fun _ => h n (Nat.lt_succ_self n)

end Does

/-- What can be seen of the outcome of a run in a region. -/
def seen (R : A → Prop) (o : Option (X × (A → V))) : Option (X × ({a // R a} → V)) :=
  o.map fun r => (r.1, fun a => r.2 a)

/-- A program in a region does the same on memories that are the same there. -/
theorem exec_congr {R : A → Prop} {p : Prog A V X} (hp : p.Within R) {m m' : A → V}
    (h : ∀ a, R a → m a = m' a) : seen R (p.exec m) = seen R (p.exec m') := by
  induction hp generalizing m m' with
  | @ret x =>
      have hm : (fun a : {a // R a} => m a) = fun a : {a // R a} => m' a :=
        funext fun a => h a a.2
      rw [exec, exec, seen, seen, Option.map_some, Option.map_some, hm]
  | fail => rfl
  | @read a k ha _ ih =>
      rw [exec, exec, h a ha]
      exact ih _ h
  | @write a v k _ _ ih =>
      refine ih fun b hb => ?_
      by_cases hba : b = a
      · rw [hba, Function.update_self, Function.update_self]
      · rw [Function.update_of_ne hba, Function.update_of_ne hba, h b hb]

/-! ## Several programs -/

variable {ι : Type}

def move (_ : ι) (m : A → V) (p : Prog A V X) (_ : Unit) (m' : A → V) (p' : Prog A V X) : Prop :=
  p.step m = some (m', p')

/-- No two regions meet. -/
def Apart (R : ι → A → Prop) : Prop := ∀ ⦃i j a⦄, R i a → R j a → i = j

/-- The programs `c` have come to from `c₀` go on as if each were alone. -/
structure Confined (R : ι → A → Prop) (c₀ c : Smp ι (A → V) (Prog A V X)) : Prop where
  within : ∀ i, (c.thread i).Within (R i)
  same : ∀ i, seen (R i) ((c.thread i).exec c.shared) =
    seen (R i) ((c₀.thread i).exec c₀.shared)
  frame : ∀ a, (∀ i, ¬ R i a) → c.shared a = c₀.shared a

namespace Confined

variable {R : ι → A → Prop} {c₀ c c' : Smp ι (A → V) (Prog A V X)}

theorem start (h : ∀ i, (c₀.thread i).Within (R i)) : Confined R c₀ c₀ :=
  ⟨h, fun _ => rfl, fun _ _ => rfl⟩

theorem exec_eq_none (h : Confined R c₀ c) {i : ι} (hi : c.thread i = .fail) :
    (c₀.thread i).exec c₀.shared = none := by
  have hs := h.same i
  rw [hi] at hs
  exact Option.map_eq_none_iff.mp hs.symm

/-- A program that has come to its end has left in its region what it leaves there alone. -/
theorem exec_eq_some (h : Confined R c₀ c) {i : ι} {x : X} (hi : c.thread i = .ret x) :
    ∃ m, (c₀.thread i).exec c₀.shared = some (x, m) ∧ ∀ a, R i a → c.shared a = m a := by
  have hs := h.same i
  rw [hi] at hs
  obtain ⟨⟨y, m⟩, hm, heq⟩ := Option.map_eq_some_iff.mp hs.symm
  obtain ⟨rfl, hfun⟩ := Prod.mk.inj heq
  exact ⟨m, hm, fun a ha => (congrFun hfun ⟨a, ha⟩).symm⟩

variable [DecidableEq ι]

/-- One thread replaces its program by another that has the same outcome from the memory it leaves,
and changes nothing outside its region. -/
theorem update (hR : Apart R) (h : Confined R c₀ c) {i : ι} {m : A → V}
    {p : Prog A V X} (hw : p.Within (R i)) (hm : ∀ a, ¬ R i a → m a = c.shared a)
    (hp : p.exec m = (c.thread i).exec c.shared) :
    Confined R c₀ ⟨m, Function.update c.thread i p⟩ := by
  refine ⟨fun j => ?_, fun j => ?_, fun a ha => ?_⟩
  · show (Function.update c.thread i p j).Within (R j)
    by_cases hj : j = i
    · subst hj
      rwa [Function.update_self]
    · rw [Function.update_of_ne hj]
      exact h.within j
  · show seen (R j) ((Function.update c.thread i p j).exec m) = _
    by_cases hj : j = i
    · subst hj
      rw [Function.update_self, hp]
      exact h.same j
    · rw [Function.update_of_ne hj, ← h.same j]
      exact exec_congr (h.within j) fun a ha => hm a fun hi => hj (hR ha hi)
  · exact (hm a (ha i)).trans (h.frame a ha)

theorem step (hR : Apart R) (h : Confined R c₀ c) {l : ι × Unit}
    (hs : Smp.Step move c l c') : Confined R c₀ c' := by
  cases hs with
  | @mk i a m p hmove =>
      have hw := h.within i
      rw [move] at hmove
      cases hp : c.thread i with
      | ret x =>
          rw [hp] at hmove
          cases hmove
      | fail =>
          rw [hp] at hmove
          cases hmove
      | read b k =>
          rw [hp] at hmove hw
          obtain ⟨rfl, rfl⟩ := Prod.mk.inj (Option.some.inj hmove)
          have hk : ∀ v, (k v).Within (R i) := by
            cases hw with
            | read _ hk => exact hk
          refine h.update hR (hk (c.shared b)) (fun _ _ => rfl) ?_
          rw [hp]
          rfl
      | write b v k =>
          rw [hp] at hmove hw
          obtain ⟨rfl, rfl⟩ := Prod.mk.inj (Option.some.inj hmove)
          obtain ⟨hb, hk⟩ : R i b ∧ k.Within (R i) := by
            cases hw with
            | write hb hk => exact ⟨hb, hk⟩
          have hm : ∀ a, ¬ R i a → Function.update c.shared b v a = c.shared a := by
            intro a ha
            refine Function.update_of_ne ?_ _ _
            rintro rfl
            exact ha hb
          refine h.update hR hk hm ?_
          rw [hp]
          rfl

/-- The rule: in every run, in every order. -/
theorem run (hR : Apart R) (h₀ : ∀ i, (c₀.thread i).Within (R i))
    {ls : List (ι × Unit)} (h : Trace (Smp.Step move) c₀ ls c) : Confined R c₀ c :=
  h.invariant (fun hI hs => hI.step hR hs) (start h₀)

end Confined

theorem fail_stays [DecidableEq ι] {c c' : Smp ι (A → V) (Prog A V X)} {i : ι}
    (hi : c.thread i = .fail) {ls : List (ι × Unit)} (h : Trace (Smp.Step move) c ls c') :
    c'.thread i = .fail := by
  refine h.invariant (I := fun c => c.thread i = .fail) ?_ hi
  intro c l c' hc hs
  cases hs with
  | @mk j a m p hmove =>
      by_cases hj : i = j
      · subst hj
        rw [move, hc] at hmove
        cases hmove
      · exact (Function.update_of_ne hj ..).trans hc

/-- Whatever has happened, a thread that goes on comes to the end of its program. -/
theorem finishes [DecidableEq ι] (c : Smp ι (A → V) (Prog A V X)) (i : ι) :
    ∃ ls c', Trace (Smp.Step move) c ls c' ∧ (c'.thread i = .fail ∨ ∃ x, c'.thread i = .ret x) := by
  have hgo : ∀ (p : Prog A V X) (c : Smp ι (A → V) (Prog A V X)), c.thread i = p →
      ∃ ls c', Trace (Smp.Step move) c ls c' ∧
        (c'.thread i = .fail ∨ ∃ x, c'.thread i = .ret x) := by
    intro p
    induction p with
    | ret x => exact fun c hp => ⟨[], c, .nil, .inr ⟨x, hp⟩⟩
    | fail => exact fun c hp => ⟨[], c, .nil, .inl hp⟩
    | read a k ih =>
        intro c hp
        have hs : move i c.shared (c.thread i) () c.shared (k (c.shared a)) := by
          rw [hp]
          rfl
        obtain ⟨ls, c', hrun, hend⟩ := ih (c.shared a)
          ⟨c.shared, Function.update c.thread i (k (c.shared a))⟩
          (Function.update_self ..)
        exact ⟨_, c', hrun.cons (.mk hs), hend⟩
    | write a v k ih =>
        intro c hp
        have hs : move i c.shared (c.thread i) () (Function.update c.shared a v) k := by
          rw [hp]
          rfl
        obtain ⟨ls, c', hrun, hend⟩ := ih
          ⟨Function.update c.shared a v, Function.update c.thread i k⟩
          (Function.update_self ..)
        exact ⟨_, c', hrun.cons (.mk hs), hend⟩
  exact hgo _ c rfl

end Prog
