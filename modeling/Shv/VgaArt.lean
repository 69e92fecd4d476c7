/-
# `Shv.VgaArt` — the windows of `shv-console.c` and what the timers draw there

The screen is divided into windows of 40 columns and 3 rows, one for the host and one
for the guest of each CPU.  `shv_main` and `shv_guest_main` clear the window of theirs
and fill two rows with the digit of the CPU, and from then on each timer interrupt
draws in one of these rows: `update_screen` writes a digit and, half a row further on,
a blank, so that a bar of 20 digits goes round.

The CPUs draw at the same time and take no lock.  `console_windows` says why they need
none: the windows do not meet, so the assertions hold whatever the order of the
accesses, and the rest of the screen stays as it was.  `console_art` says what is in a
window when its CPU has handled any number of interrupts, whatever the others do.
-/
import Shv.Lib.ByteMem
import Shv.Lib.Confined

namespace Shv

open Prog

/-! ## `shv-console.c` -/

def consoleMemBase : Nat := 0xb8000

def consoleWidth : Int := 80

def consoleHeight : Int := 25

def consoleMaxCpu : Int := 8

/-- `console_vc_t`. -/
structure ConsoleVc where
  left : Int
  top : Int
  width : Int
  height : Int
  color : BitVec 8

abbrev OnScreen (X : Type) := Prog Nat (BitVec 8) X

/-- `console_get_mmio` where `vc` is `NULL`. -/
def consoleGetMmioScreen (x y : Int) : OnScreen Nat := do
  assert (0 ≤ x ∧ x < consoleWidth)
  assert (0 ≤ y ∧ y < consoleHeight)
  return consoleMemBase + (2 * (x + consoleWidth * y)).toNat

def consoleGetMmio (vc : ConsoleVc) (x y : Int) : OnScreen Nat := do
  assert (0 ≤ x ∧ x < vc.width)
  assert (0 ≤ y ∧ y < vc.height)
  consoleGetMmioScreen (x + vc.left) (y + vc.top)

def blank : BitVec 8 := 32#8

def digitZero : BitVec 8 := 48#8

def consoleClear (vc : ConsoleVc) : OnScreen Unit :=
  loop vc.width.toNat fun i => loop vc.height.toNat fun j => do
    let p ← consoleGetMmio vc i j
    put p blank
    put (p + 1) vc.color

def consoleGetChar (vc : ConsoleVc) (x y : Int) : OnScreen (BitVec 8) := do
  let p ← consoleGetMmio vc x y
  get p

def consolePutChar (vc : ConsoleVc) (x y : Int) (c : BitVec 8) : OnScreen Unit := do
  let p ← consoleGetMmio vc x y
  put p c

def consoleGetVc (num : Int) (guest : Bool) : OnScreen ConsoleVc := do
  assert (0 ≤ num ∧ num < consoleMaxCpu)
  return {
    left := consoleWidth.tdiv 2 * guest.toInt
    top := consoleHeight.tdiv consoleMaxCpu * num
    width := consoleWidth.tdiv 2
    height := consoleHeight.tdiv consoleMaxCpu
    color := BitVec.ofInt 8 ((1 + num * 2 + guest.toInt).tmod 7 + 9) }

/-! ## Its callers -/

/-- The fields of `VCPU` that say which CPU it is. -/
structure ConsoleCpu where
  id : BitVec 32
  idx : BitVec 32

/-- What `shv_main`, respectively `shv_guest_main`, does to its window; the assertion on the height
is in `shv_main` only. -/
def consoleFill (vcpu : ConsoleCpu) (guest : Bool) : OnScreen Unit := do
  let vc ← consoleGetVc vcpu.idx.toInt guest
  consoleClear vc
  (if guest then pure () else assert (vc.height ≥ 2))
  loop vc.width.toNat fun i => loop 2 fun j => do
    let c ← consoleGetChar vc i j
    assert (c = blank)
    consolePutChar vc i j (digitZero + vcpu.id.setWidth 8)

/-- `!"update digit"`, which is false as the string is not `NULL`. -/
def updateDigit : Bool := false

/-- `update_screen`, which returns the new `*x`. -/
def updateScreen (vcpu : ConsoleCpu) (x : Int) (y : Int) (guest : Bool) : OnScreen Int := do
  let vc ← consoleGetVc vcpu.idx.toInt guest
  let x := (x + vc.width).tmod vc.width
  (if updateDigit then do
    let c ← consoleGetChar vc x y
    let c := c - digitZero
    let c := c + 1
    let c := BitVec.ofInt 8 (c.toInt.tmod 10)
    let c := c + digitZero
    consolePutChar vc x y c
  else do
    consolePutChar vc x y (digitZero + vcpu.idx.setWidth 8)
    consolePutChar vc ((x + vc.width.tdiv 2).tmod vc.width) y blank)
  return (x + 1).tmod vc.width

/-- `shv_pit_x` and `shv_lapic_x` of a CPU, for the host or for the guest. -/
structure ArtX where
  pit : Int
  lapic : Int

/-- What `handle_timer_interrupt` does to the screen. -/
def timerArt (vcpu : ConsoleCpu) (guest : Bool) (xs : ArtX) (vector : BitVec 8) :
    OnScreen ArtX := do
  if vector = 0x20 then
    let x ← updateScreen vcpu xs.pit 0 guest
    return { xs with pit := x }
  else if vector = 0x22 then
    let x ← updateScreen vcpu xs.lapic 1 guest
    return { xs with lapic := x }
  else
    assert False
    return xs

def timerArts (vcpu : ConsoleCpu) (guest : Bool) : ArtX → List (BitVec 8) → OnScreen ArtX
  | xs, [] => pure xs
  | xs, v :: vs => do
      let xs ← timerArt vcpu guest xs v
      timerArts vcpu guest xs vs

/-- All that is done to the window of a CPU's host, respectively its guest. -/
def windowMain (vcpu : ConsoleCpu) (guest : Bool) (vectors : List (BitVec 8)) :
    OnScreen ArtX := do
  consoleFill vcpu guest
  timerArts vcpu guest ⟨0, 0⟩ vectors

/-! ## What a window should show -/

/-- The address of the character in a column and a row of a window. -/
def cellAt (idx : Nat) (guest : Bool) (x y : Nat) : Nat :=
  consoleMemBase + 2 * ((x + 40 * guest.toNat) + 80 * (y + 3 * idx))

/-- What `console_get_vc` fills in. -/
def windowVc (num : Int) (guest : Bool) : ConsoleVc where
  left := 40 * guest.toInt
  top := 3 * num
  width := 40
  height := 3
  color := BitVec.ofInt 8 ((1 + num * 2 + guest.toInt).tmod 7 + 9)

/-- The bytes of a window; a CPU the screen has no room for has none. -/
def InWindow (w : BitVec 32 × Bool) (a : Nat) : Prop :=
  w.1.toNat < 8 ∧ ∃ x y, x < 40 ∧ y < 3 ∧
    (a = cellAt w.1.toNat w.2 x y ∨ a = cellAt w.1.toNat w.2 x y + 1)

/-- The characters of a window are `f` column by column, all in its colour. -/
def WindowShows (w : BitVec 32 × Bool) (f : Nat → Nat → BitVec 8) (m : ByteMem) : Prop :=
  ∀ x y, x < 40 → y < 3 → m (cellAt w.1.toNat w.2 x y) = f x y ∧
    m (cellAt w.1.toNat w.2 x y + 1) = (windowVc w.1.toNat w.2).color

/-- How many interrupts ago the bar had its head in column `x`, after `n` of them. -/
def artAge (n x : Nat) : Nat := (n + 39 - x) % 40

/-- A row after `n` interrupts: the bar of 20 digits behind its head, blanks behind the bar, and
before the first interrupt the digit of `vcpu->id`. -/
def artChar (vcpu : ConsoleCpu) (n x : Nat) : BitVec 8 :=
  if artAge n x < 20 then
    if artAge n x < n then digitZero + vcpu.idx.setWidth 8 else digitZero + vcpu.id.setWidth 8
  else
    if artAge n x - 20 < n then blank else digitZero + vcpu.id.setWidth 8

/-- A window after `n` interrupts of the PIT and `k` of the LAPIC timer. -/
def artShown (vcpu : ConsoleCpu) (n k : Nat) (x y : Nat) : BitVec 8 :=
  if y = 0 then artChar vcpu n x else if y = 1 then artChar vcpu k x else blank

/-- The contents `f` of a window with one character replaced. -/
def setChar (f : Nat → Nat → BitVec 8) (x y : Nat) (c : BitVec 8) : Nat → Nat → BitVec 8 :=
  fun x' y' => if x' = x ∧ y' = y then c else f x' y'

theorem artChar_succ (vcpu : ConsoleCpu) (n : Nat) {x : Nat} (hx : x < 40) :
    artChar vcpu (n + 1) x =
      if x = (n % 40 + 20) % 40 then blank
      else if x = n % 40 then digitZero + vcpu.idx.setWidth 8 else artChar vcpu n x := by
  have hage : artAge (n + 1) x = (artAge n x + 1) % 40 := by
    simp only [artAge]
    omega
  have hlt : artAge n x < 40 := Nat.mod_lt _ (by omega)
  have htail : x = (n % 40 + 20) % 40 ↔ artAge n x = 19 := by
    simp only [artAge]
    omega
  have hhead : x = n % 40 ↔ artAge n x = 39 := by
    simp only [artAge]
    omega
  rw [artChar, artChar, hage, if_congr htail rfl rfl, if_congr hhead rfl rfl]
  generalize artAge n x = age at hlt
  split_ifs <;> first | rfl | omega

/-! ## Windows -/

theorem cellAt_inj {idx idx' : Nat} {guest guest' : Bool} {x x' y y' : Nat} (hx : x < 40)
    (hx' : x' < 40) (hy : y < 3) (hy' : y' < 3) (h : cellAt idx guest x y / 2 =
      cellAt idx' guest' x' y' / 2) : idx = idx' ∧ guest = guest' ∧ x = x' ∧ y = y' := by
  simp only [cellAt, consoleMemBase] at h
  cases guest <;> cases guest' <;> simp only [Bool.toNat_true, Bool.toNat_false] at h <;>
    simp <;> omega

theorem windows_apart : Apart InWindow := by
  rintro ⟨idx, guest⟩ ⟨idx', guest'⟩ a ⟨-, x, y, hx, hy, ha⟩ ⟨-, x', y', hx', hy', ha'⟩
  have hdiv : cellAt idx.toNat guest x y / 2 = cellAt idx'.toNat guest' x' y' / 2 := by
    simp only [cellAt, consoleMemBase] at ha ha' ⊢
    omega
  obtain ⟨hidx, hguest, -, -⟩ := cellAt_inj hx hx' hy hy' hdiv
  rw [BitVec.eq_of_toNat_eq hidx, hguest]

/-! ## The functions on a window -/

theorem toInt_idx {idx : BitVec 32} (h : idx.toNat < 8) : idx.toInt = idx.toNat :=
  BitVec.toInt_eq_toNat_of_lt (by omega)

theorem consoleGetVc_of_lt {idx : BitVec 32} (h : idx.toNat < 8) (guest : Bool) :
    consoleGetVc idx.toInt guest = ret (windowVc idx.toNat guest) := by
  have hnum : 0 ≤ (idx.toNat : Int) ∧ (idx.toNat : Int) < consoleMaxCpu := by
    simp only [consoleMaxCpu]
    omega
  rw [toInt_idx h, consoleGetVc, assert, if_pos hnum]
  rfl

theorem consoleGetVc_of_le {idx : BitVec 32} (h : 8 ≤ idx.toNat) (guest : Bool) :
    consoleGetVc idx.toInt guest = fail := by
  have hnum : ¬ (0 ≤ idx.toInt ∧ idx.toInt < consoleMaxCpu) := by
    rw [BitVec.toInt_eq_toNat_cond]
    simp only [consoleMaxCpu]
    split <;> omega
  rw [consoleGetVc, assert, if_neg hnum]
  rfl

theorem consoleGetMmio_eq {idx x y : Nat} (hidx : idx < 8) (hx : x < 40) (hy : y < 3)
    (guest : Bool) : consoleGetMmio (windowVc idx guest) x y = ret (cellAt idx guest x y) := by
  have hleft : guest.toInt = guest.toNat := by cases guest <;> rfl
  have hnat : guest.toNat ≤ 1 := Bool.toNat_le guest
  rw [consoleGetMmio, assert, if_pos (by simp only [windowVc]; omega), assert,
    if_pos (by simp only [windowVc]; omega), consoleGetMmioScreen, assert,
    if_pos (by simp only [windowVc, consoleWidth, hleft]; omega), assert,
    if_pos (by simp only [windowVc, consoleHeight]; omega)]
  refine congrArg ret ?_
  simp only [windowVc, cellAt, consoleWidth, hleft]
  omega

/-- What is done with the result of `console_get_mmio` is done inside the window. -/
theorem within_mmio {X : Type} {R : Nat → Prop} {idx : Nat} {guest : Bool} {f : Nat → OnScreen X}
    (hidx : idx < 8)
    (h : ∀ x y, x < 40 → y < 3 → (f (cellAt idx guest x y)).Within R) (x y : Int) :
    ((consoleGetMmio (windowVc idx guest) x y).bind f).Within R := by
  by_cases hin : (0 ≤ x ∧ x < 40) ∧ 0 ≤ y ∧ y < 3
  · obtain ⟨⟨hx₀, hx⟩, hy₀, hy⟩ := hin
    obtain ⟨x, rfl⟩ := Int.eq_ofNat_of_zero_le hx₀
    obtain ⟨y, rfl⟩ := Int.eq_ofNat_of_zero_le hy₀
    rw [consoleGetMmio_eq hidx (by omega) (by omega)]
    exact h x y (by omega) (by omega)
  · have hfail : consoleGetMmio (windowVc idx guest) x y = fail := by
      rw [consoleGetMmio]
      by_cases hx : 0 ≤ x ∧ x < (windowVc idx guest).width
      · have hy : ¬ (0 ≤ y ∧ y < (windowVc idx guest).height) := fun hy => hin ⟨hx, hy⟩
        rw [assert, if_pos hx, assert, if_neg hy]
        rfl
      · rw [assert, if_neg hx]
        rfl
    rw [hfail]
    exact .fail

section Ops

variable {idx : BitVec 32} {guest : Bool} {f : Nat → Nat → BitVec 8} {x y : Nat}

theorem inWindow_char (hidx : idx.toNat < 8) (hx : x < 40) (hy : y < 3) :
    InWindow (idx, guest) (cellAt idx.toNat guest x y) :=
  ⟨hidx, x, y, hx, hy, .inl rfl⟩

theorem inWindow_color (hidx : idx.toNat < 8) (hx : x < 40) (hy : y < 3) :
    InWindow (idx, guest) (cellAt idx.toNat guest x y + 1) :=
  ⟨hidx, x, y, hx, hy, .inr rfl⟩

theorem within_getChar (hidx : idx.toNat < 8) (x y : Int) :
    (consoleGetChar (windowVc idx.toNat guest) x y).Within (InWindow (idx, guest)) :=
  within_mmio hidx (fun _ _ hx hy => .get (inWindow_char hidx hx hy)) x y

theorem within_putChar (hidx : idx.toNat < 8) (x y : Int) (c : BitVec 8) :
    (consolePutChar (windowVc idx.toNat guest) x y c).Within (InWindow (idx, guest)) :=
  within_mmio hidx (fun _ _ hx hy => .put (inWindow_char hidx hx hy)) x y

theorem within_clear (hidx : idx.toNat < 8) :
    (consoleClear (windowVc idx.toNat guest)).Within (InWindow (idx, guest)) := by
  refine .loop fun i _ => .loop fun j _ => within_mmio hidx (fun x y hx hy => ?_) i j
  exact .bind (.put (inWindow_char hidx hx hy)) fun _ => .put (inWindow_color hidx hx hy)

theorem consoleGetChar_eq (hidx : idx.toNat < 8) (hx : x < 40) (hy : y < 3) :
    consoleGetChar (windowVc idx.toNat guest) x y = get (cellAt idx.toNat guest x y) := by
  rw [consoleGetChar, consoleGetMmio_eq hidx hx hy]
  rfl

theorem consolePutChar_eq (hidx : idx.toNat < 8) (hx : x < 40) (hy : y < 3) (c : BitVec 8) :
    consolePutChar (windowVc idx.toNat guest) x y c = put (cellAt idx.toNat guest x y) c := by
  rw [consolePutChar, consoleGetMmio_eq hidx hx hy]
  rfl

theorem does_getChar (hidx : idx.toNat < 8) (hx : x < 40) (hy : y < 3) :
    Does (WindowShows (idx, guest) f) (consoleGetChar (windowVc idx.toNat guest) x y)
      fun c m => c = f x y ∧ WindowShows (idx, guest) f m := by
  rw [consoleGetChar_eq hidx hx hy]
  exact .get fun m hm => ⟨(hm x y hx hy).1, hm⟩

theorem does_putChar (hidx : idx.toNat < 8) (hx : x < 40) (hy : y < 3) (c : BitVec 8) :
    Does (WindowShows (idx, guest) f) (consolePutChar (windowVc idx.toNat guest) x y c)
      fun _ => WindowShows (idx, guest) (setChar f x y c) := by
  rw [consolePutChar_eq hidx hx hy]
  refine .put fun m hm x' y' hx' hy' => ?_
  have hcolor : cellAt idx.toNat guest x' y' + 1 ≠ cellAt idx.toNat guest x y := by
    simp only [cellAt, consoleMemBase]
    omega
  refine ⟨?_, ?_⟩
  · by_cases h : x' = x ∧ y' = y
    · obtain ⟨rfl, rfl⟩ := h
      rw [setChar, if_pos ⟨rfl, rfl⟩]
      exact Function.update_self ..
    · have hne : cellAt idx.toNat guest x' y' ≠ cellAt idx.toNat guest x y := by
        intro heq
        exact h (cellAt_inj hx' hx hy' hy (congrArg (· / 2) heq)).2.2
      rw [setChar, if_neg h, ← (hm x' y' hx' hy').1]
      exact Function.update_of_ne hne ..
  · rw [← (hm x' y' hx' hy').2]
    exact Function.update_of_ne hcolor ..

/-- The cells of the columns before `i`, and `j` of those of column `i`, are blank. -/
def Cleared (w : BitVec 32 × Bool) (i j : Nat) (m : ByteMem) : Prop :=
  ∀ x y, x < 40 → y < 3 → x < i ∨ x = i ∧ y < j → m (cellAt w.1.toNat w.2 x y) = blank ∧
    m (cellAt w.1.toNat w.2 x y + 1) = (windowVc w.1.toNat w.2).color

theorem does_clear_cell (hidx : idx.toNat < 8) (hx : x < 40) (hy : y < 3) :
    Does (Cleared (idx, guest) x y)
      ((consoleGetMmio (windowVc idx.toNat guest) x y).bind fun p =>
        (put p blank).bind fun _ => put (p + 1) (windowVc idx.toNat guest).color)
      fun _ => Cleared (idx, guest) x (y + 1) := by
  rw [consoleGetMmio_eq hidx hx hy]
  show Does _ ((put (cellAt idx.toNat guest x y) blank).bind _) _
  have hput : Does (Cleared (idx, guest) x y) (put (cellAt idx.toNat guest x y) blank)
      fun _ m => Cleared (idx, guest) x y m ∧ m (cellAt idx.toNat guest x y) = blank := by
    refine .put fun m hm => ⟨?_, Function.update_self ..⟩
    intro x' y' hx' hy' h
    have hne : cellAt idx.toNat guest x' y' ≠ cellAt idx.toNat guest x y := by
      intro heq
      have := (cellAt_inj hx' hx hy' hy (congrArg (· / 2) heq)).2.2
      omega
    have hcolor : cellAt idx.toNat guest x' y' + 1 ≠ cellAt idx.toNat guest x y := by
      simp only [cellAt, consoleMemBase]
      omega
    rw [Function.update_of_ne hne, Function.update_of_ne hcolor]
    exact hm x' y' hx' hy' h
  refine hput.bind fun _ => .put ?_
  rintro m ⟨hm, hchar⟩ x' y' hx' hy' h
  have hchar' : cellAt idx.toNat guest x' y' ≠ cellAt idx.toNat guest x y + 1 := by
    simp only [cellAt, consoleMemBase]
    omega
  rw [Function.update_of_ne hchar']
  by_cases hxy : x' = x ∧ y' = y
  · obtain ⟨rfl, rfl⟩ := hxy
    exact ⟨hchar, Function.update_self ..⟩
  · have hne : cellAt idx.toNat guest x' y' + 1 ≠ cellAt idx.toNat guest x y + 1 := by
      intro heq
      exact hxy (cellAt_inj hx' hx hy' hy (congrArg (· / 2) (Nat.succ.inj heq))).2.2
    rw [Function.update_of_ne hne]
    exact hm x' y' hx' hy' (by omega)

theorem does_clear (hidx : idx.toNat < 8) :
    Does (fun _ => True) (consoleClear (windowVc idx.toNat guest))
      fun _ => WindowShows (idx, guest) fun _ _ => blank := by
  have hcol : ∀ i < 40, Does (Cleared (idx, guest) i 0)
      (loop 3 fun j => (consoleGetMmio (windowVc idx.toNat guest) i j).bind fun p =>
        (put p blank).bind fun _ => put (p + 1) (windowVc idx.toNat guest).color)
      fun _ => Cleared (idx, guest) (i + 1) 0 := by
    intro i hi
    refine (Does.loop (I := Cleared (idx, guest) i)
      fun j hj => does_clear_cell hidx hi hj).conseq (fun _ hm => hm) ?_
    intro _ m hm x y hx hy h
    exact hm x y hx hy (by omega)
  refine (Does.loop (I := fun i => Cleared (idx, guest) i 0) hcol).conseq ?_ ?_
  · intro m _ x y _ _ h
    omega
  · intro _ m hm x y hx hy
    exact hm x y hx hy (.inl hx)

end Ops

/-! ## What is drawn -/

section Draw

variable {vcpu : ConsoleCpu} {guest : Bool} {f : Nat → Nat → BitVec 8}

theorem within_fill (hidx : vcpu.idx.toNat < 8) :
    (consoleFill vcpu guest).Within (InWindow (vcpu.idx, guest)) := by
  rw [consoleFill, consoleGetVc_of_lt hidx]
  simp only [bind_eq, Prog.bind]
  refine (within_clear hidx).bind fun _ => .bind ?_ fun _ => .loop fun i _ => .loop fun j _ => ?_
  · split
    · exact .ret
    · exact .assert
  · exact (within_getChar hidx i j).bind fun c => Within.assert.bind fun _ =>
      within_putChar hidx i j _

theorem updateScreen_eq (hidx : vcpu.idx.toNat < 8) (x y : Int) :
    updateScreen vcpu x y guest =
      (consolePutChar (windowVc vcpu.idx.toNat guest) ((x + 40).tmod 40) y
        (digitZero + vcpu.idx.setWidth 8)).bind fun _ =>
      (consolePutChar (windowVc vcpu.idx.toNat guest) (((x + 40).tmod 40 + 20).tmod 40) y
        blank).bind fun _ => ret (((x + 40).tmod 40 + 1).tmod 40) := by
  rw [updateScreen, consoleGetVc_of_lt hidx]
  simp only [bind_eq, Prog.bind, updateDigit, Bool.false_eq_true, if_false, bind_assoc, pure_eq]
  rfl

theorem within_updateScreen (hidx : vcpu.idx.toNat < 8) (x y : Int) :
    (updateScreen vcpu x y guest).Within (InWindow (vcpu.idx, guest)) := by
  rw [updateScreen_eq hidx]
  exact (within_putChar hidx _ y _).bind fun _ => (within_putChar hidx _ y _).bind fun _ => .ret

theorem within_timerArt (hidx : vcpu.idx.toNat < 8) (xs : ArtX) (vector : BitVec 8) :
    (timerArt vcpu guest xs vector).Within (InWindow (vcpu.idx, guest)) := by
  rw [timerArt]
  split
  · exact (within_updateScreen hidx xs.pit 0).bind fun _ => .ret
  · split
    · exact (within_updateScreen hidx xs.lapic 1).bind fun _ => .ret
    · exact Within.assert.bind fun _ => .ret

theorem within_timerArts (hidx : vcpu.idx.toNat < 8) (vectors : List (BitVec 8)) (xs : ArtX) :
    (timerArts vcpu guest xs vectors).Within (InWindow (vcpu.idx, guest)) := by
  induction vectors generalizing xs with
  | nil => exact .ret
  | cons v vs ih => exact (within_timerArt hidx xs v).bind ih

theorem windowMain_of_le (hidx : 8 ≤ vcpu.idx.toNat) (vectors : List (BitVec 8)) :
    windowMain vcpu guest vectors = fail := by
  rw [windowMain, consoleFill, consoleGetVc_of_le hidx]
  rfl

theorem within_windowMain (vcpu : ConsoleCpu) (guest : Bool) (vectors : List (BitVec 8)) :
    (windowMain vcpu guest vectors).Within (InWindow (vcpu.idx, guest)) := by
  by_cases hidx : vcpu.idx.toNat < 8
  · exact (within_fill hidx).bind fun _ => within_timerArts hidx vectors _
  · rw [windowMain_of_le (Nat.le_of_not_lt hidx)]
    exact .fail

theorem WindowShows.congr {w : BitVec 32 × Bool} {g : Nat → Nat → BitVec 8} {m : ByteMem}
    (h : WindowShows w f m) (hfg : ∀ x y, x < 40 → y < 3 → f x y = g x y) :
    WindowShows w g m := by
  intro x y hx hy
  rw [← hfg x y hx hy]
  exact h x y hx hy

/-- A window whose first two rows hold the digit in the columns before `i`, and in `j` rows of
column `i`. -/
def filled (vcpu : ConsoleCpu) (i j x y : Nat) : BitVec 8 :=
  if y < 2 ∧ (x < i ∨ x = i ∧ y < j) then digitZero + vcpu.id.setWidth 8 else blank

/-- The body of the loops of `shv_main` and `shv_guest_main`: the cell is blank, so the assertion
holds. -/
theorem does_fill_cell (hidx : vcpu.idx.toNat < 8) {i j : Nat} (hi : i < 40) (hj : j < 2) :
    Does (WindowShows (vcpu.idx, guest) (filled vcpu i j))
      ((consoleGetChar (windowVc vcpu.idx.toNat guest) i j).bind fun c =>
        (assert (c = blank)).bind fun _ =>
          consolePutChar (windowVc vcpu.idx.toNat guest) i j (digitZero + vcpu.id.setWidth 8))
      fun _ => WindowShows (vcpu.idx, guest) (filled vcpu i (j + 1)) := by
  have hblank : filled vcpu i j i j = blank := if_neg (by omega)
  refine (does_getChar hidx hi (by omega)).bind_eq ?_
  refine Does.bind (Q := fun _ => WindowShows (vcpu.idx, guest) (filled vcpu i j))
    (.assert hblank fun _ hm => hm) fun _ => ?_
  refine (does_putChar hidx hi (by omega) _).conseq (fun _ hm => hm) fun _ m hm => hm.congr ?_
  intro x y hx hy
  rw [setChar, filled, filled]
  split_ifs <;> first | rfl | omega

/-- `shv_main` and `shv_guest_main` leave the window as it is before the first interrupt. -/
theorem does_fill (hidx : vcpu.idx.toNat < 8) :
    Does (fun _ => True) (consoleFill vcpu guest)
      fun _ => WindowShows (vcpu.idx, guest) (artShown vcpu 0 0) := by
  have hcol : ∀ i < 40, Does (WindowShows (vcpu.idx, guest) (filled vcpu i 0))
      (loop 2 fun j => (consoleGetChar (windowVc vcpu.idx.toNat guest) i j).bind fun c =>
        (assert (c = blank)).bind fun _ =>
          consolePutChar (windowVc vcpu.idx.toNat guest) i j (digitZero + vcpu.id.setWidth 8))
      fun _ => WindowShows (vcpu.idx, guest) (filled vcpu (i + 1) 0) := by
    intro i hi
    refine (Does.loop (I := fun j => WindowShows (vcpu.idx, guest) (filled vcpu i j))
      fun j hj => does_fill_cell hidx hi hj).conseq (fun _ hm => hm) fun _ m hm => hm.congr ?_
    intro x y hx hy
    rw [filled, filled]
    split_ifs <;> first | rfl | omega
  have hheight : Does (WindowShows (vcpu.idx, guest) fun _ _ => blank)
      (if guest then pure () else assert ((windowVc vcpu.idx.toNat guest).height ≥ 2))
      fun _ => WindowShows (vcpu.idx, guest) fun _ _ => blank := by
    cases guest
    · exact Does.assert (show (3 : Int) ≥ 2 by omega) fun _ hm => hm
    · exact Does.ret fun _ hm => hm
  rw [consoleFill, consoleGetVc_of_lt hidx]
  simp only [bind_eq, Prog.bind]
  refine (does_clear hidx).bind fun _ => hheight.bind fun _ => ?_
  refine (Does.loop (I := fun i => WindowShows (vcpu.idx, guest) (filled vcpu i 0)) hcol).conseq
    (fun m hm => hm.congr ?_) fun _ m hm => hm.congr ?_
  · intro x y _ _
    exact (if_neg (by omega)).symm
  · intro x y hx hy
    obtain rfl | rfl | rfl : y = 0 ∨ y = 1 ∨ y = 2 := by omega
    · rw [filled, if_pos (by omega), artShown, artChar]
      split_ifs <;> first | rfl | omega
    · rw [filled, if_pos (by omega), artShown, artChar]
      split_ifs <;> first | rfl | omega
    · rw [filled, if_neg (by omega)]
      rfl

/-- `update_screen` writes the digit and, 20 columns further on, the blank. -/
theorem does_updateScreen (hidx : vcpu.idx.toNat < 8) {y : Nat} (hy : y < 3) (n : Nat) :
    Does (WindowShows (vcpu.idx, guest) f) (updateScreen vcpu ((n % 40 : Nat) : Int) y guest)
      fun x m => x = ((n + 1) % 40 : Nat) ∧ WindowShows (vcpu.idx, guest)
        (setChar (setChar f (n % 40) y (digitZero + vcpu.idx.setWidth 8))
          ((n % 40 + 20) % 40) y blank) m := by
  have hhead : (((n % 40 : Nat) : Int) + 40).tmod 40 = (n % 40 : Nat) := by
    show ((((n % 40 + 40) % 40 : Nat)) : Int) = _
    congr 1
    omega
  have htail : (((n % 40 : Nat) : Int) + 20).tmod 40 = ((n % 40 + 20) % 40 : Nat) := rfl
  have hnext : (((n % 40 : Nat) : Int) + 1).tmod 40 = ((n + 1) % 40 : Nat) := by
    show ((((n % 40 + 1) % 40 : Nat)) : Int) = _
    congr 1
    omega
  rw [updateScreen_eq hidx, hhead, htail, hnext]
  refine (does_putChar hidx (Nat.mod_lt _ (by omega)) hy _).bind fun _ => ?_
  refine (does_putChar hidx (Nat.mod_lt _ (by omega)) hy _).bind fun _ => ?_
  exact .ret fun m hm => ⟨rfl, hm⟩

/-- The positions after `n` interrupts of the PIT and `k` of the LAPIC timer. -/
def artXs (n k : Nat) : ArtX := ⟨(n % 40 : Nat), (k % 40 : Nat)⟩

theorem setChar_pit (vcpu : ConsoleCpu) (n k : Nat) {x y : Nat} (hx : x < 40) :
    setChar (setChar (artShown vcpu n k) (n % 40) 0 (digitZero + vcpu.idx.setWidth 8))
      ((n % 40 + 20) % 40) 0 blank x y = artShown vcpu (n + 1) k x y := by
  rw [setChar, setChar, artShown, artShown, artChar_succ vcpu n hx]
  by_cases hy : y = 0 <;> simp [hy]

theorem setChar_lapic (vcpu : ConsoleCpu) (n k : Nat) {x y : Nat} (hx : x < 40) :
    setChar (setChar (artShown vcpu n k) (k % 40) 1 (digitZero + vcpu.idx.setWidth 8))
      ((k % 40 + 20) % 40) 1 blank x y = artShown vcpu n (k + 1) x y := by
  rw [setChar, setChar, artShown, artShown, artChar_succ vcpu k hx]
  by_cases hy : y = 1 <;> simp [hy]

theorem does_timerArt (hidx : vcpu.idx.toNat < 8) {vector : BitVec 8}
    (hv : vector = 0x20 ∨ vector = 0x22) (n k : Nat) :
    Does (WindowShows (vcpu.idx, guest) (artShown vcpu n k))
      (timerArt vcpu guest (artXs n k) vector) fun xs m =>
        xs = artXs (n + [vector].count 0x20) (k + [vector].count 0x22) ∧
        WindowShows (vcpu.idx, guest)
          (artShown vcpu (n + [vector].count 0x20) (k + [vector].count 0x22)) m := by
  rcases hv with rfl | rfl
  · refine Does.bind (does_updateScreen hidx (y := 0) (by omega) n) fun x => .ret ?_
    rintro m ⟨rfl, hm⟩
    exact ⟨rfl, hm.congr fun x y hx _ => setChar_pit vcpu n k hx⟩
  · refine Does.bind (does_updateScreen hidx (y := 1) (by omega) k) fun x => .ret ?_
    rintro m ⟨rfl, hm⟩
    exact ⟨rfl, hm.congr fun x y hx _ => setChar_lapic vcpu n k hx⟩

theorem does_timerArts (hidx : vcpu.idx.toNat < 8) {vectors : List (BitVec 8)}
    (hv : ∀ v ∈ vectors, v = 0x20 ∨ v = 0x22) (n k : Nat) :
    Does (WindowShows (vcpu.idx, guest) (artShown vcpu n k))
      (timerArts vcpu guest (artXs n k) vectors) fun _ => WindowShows (vcpu.idx, guest)
        (artShown vcpu (n + vectors.count 0x20) (k + vectors.count 0x22)) := by
  induction vectors generalizing n k with
  | nil => exact .ret fun _ hm => hm
  | cons v vs ih =>
      refine Does.bind (does_timerArt hidx (hv v List.mem_cons_self) n k) fun xs => ?_
      rintro m ⟨rfl, hm⟩
      have hvs : ∀ u ∈ vs, u = 0x20 ∨ u = 0x22 := fun u hu => hv u (List.mem_cons_of_mem v hu)
      obtain ⟨xs, m', hrun, hm'⟩ := ih hvs _ _ m hm
      refine ⟨xs, m', hrun, ?_⟩
      have hcount : ∀ u : BitVec 8, (v :: vs).count u = [v].count u + vs.count u := by
        intro u
        rw [← List.count_append]
        rfl
      rw [hcount, hcount, ← Nat.add_assoc, ← Nat.add_assoc]
      exact hm'

theorem does_windowMain (hidx : vcpu.idx.toNat < 8) {vectors : List (BitVec 8)}
    (hv : ∀ v ∈ vectors, v = 0x20 ∨ v = 0x22) :
    Does (fun _ => True) (windowMain vcpu guest vectors) fun _ => WindowShows (vcpu.idx, guest)
      (artShown vcpu (vectors.count 0x20) (vectors.count 0x22)) := by
  refine Does.bind (does_fill hidx) fun _ => ?_
  have hrun : Does _ (timerArts vcpu guest (artXs 0 0) vectors) _ := does_timerArts hidx hv 0 0
  rwa [Nat.zero_add, Nat.zero_add] at hrun

end Draw

/-! ## All windows at once -/

/-- The system: the video memory, and for the host and the guest of each CPU what is done to its
window; `id` gives the `vcpu->id` of a CPU. -/
def artStart (id : BitVec 32 → BitVec 32) (vectors : BitVec 32 × Bool → List (BitVec 8))
    (m : ByteMem) : Smp (BitVec 32 × Bool) ByteMem (OnScreen ArtX) where
  shared := m
  thread w := windowMain ⟨id w.1, w.1⟩ w.2 (vectors w)

section Run

variable {id : BitVec 32 → BitVec 32} {vectors : BitVec 32 × Bool → List (BitVec 8)} {m : ByteMem}
  {ls : List ((BitVec 32 × Bool) × Unit)} {c : Smp (BitVec 32 × Bool) ByteMem (OnScreen ArtX)}

theorem confined_art (h : Trace (Smp.Step Prog.move) (artStart id vectors m) ls c) :
    Confined InWindow (artStart id vectors m) c :=
  .run windows_apart (fun w => within_windowMain ⟨id w.1, w.1⟩ w.2 (vectors w)) h

theorem draws_of_lt (hv : ∀ w, ∀ v ∈ vectors w, v = 0x20 ∨ v = 0x22) {w : BitVec 32 × Bool}
    (hidx : w.1.toNat < 8) :
    Does (fun _ => True) (windowMain ⟨id w.1, w.1⟩ w.2 (vectors w)) fun _ => WindowShows w
      (artShown ⟨id w.1, w.1⟩ ((vectors w).count 0x20) ((vectors w).count 0x22)) :=
  does_windowMain hidx (hv w)

theorem fail_iff (hv : ∀ w, ∀ v ∈ vectors w, v = 0x20 ∨ v = 0x22)
    (h : Trace (Smp.Step Prog.move) (artStart id vectors m) ls c) (w : BitVec 32 × Bool) :
    c.thread w = fail ↔ 8 ≤ w.1.toNat := by
  constructor
  · intro hw
    by_contra hidx
    obtain ⟨xs, m', hrun, -⟩ := draws_of_lt hv (Nat.lt_of_not_le hidx) m trivial
    have hnone : (windowMain ⟨id w.1, w.1⟩ w.2 (vectors w)).exec m = none :=
      (confined_art h).exec_eq_none hw
    rw [hrun] at hnone
    cases hnone
  · intro hidx
    have hfail : windowMain ⟨id w.1, w.1⟩ w.2 (vectors w) = fail := windowMain_of_le hidx _
    exact fail_stays hfail h

end Run

/-- The CPUs draw without a lock, in any order, and no assertion fails, except the one in
`console_get_vc` on a CPU the screen has no window for.  Every other CPU comes to the end of what it
has to draw, and what is not in a window stays as it is. -/
theorem console_windows (id : BitVec 32 → BitVec 32)
    {vectors : BitVec 32 × Bool → List (BitVec 8)}
    (hv : ∀ w, ∀ v ∈ vectors w, v = 0x20 ∨ v = 0x22) {m : ByteMem}
    {ls : List ((BitVec 32 × Bool) × Unit)} {c : Smp (BitVec 32 × Bool) ByteMem (OnScreen ArtX)}
    (h : Trace (Smp.Step Prog.move) (artStart id vectors m) ls c) :
    (∀ w, c.thread w = fail ↔ 8 ≤ w.1.toNat) ∧
    (∀ a, (∀ w, ¬ InWindow w a) → c.shared a = m a) ∧
    ∀ w, w.1.toNat < 8 → ∃ ls' c' xs,
      Trace (Smp.Step Prog.move) c ls' c' ∧ c'.thread w = ret xs := by
  refine ⟨fail_iff hv h, (confined_art h).frame, fun w hidx => ?_⟩
  obtain ⟨ls', c', hrun, hend | ⟨xs, hend⟩⟩ := finishes c w
  · have hle := (fail_iff hv (h.append hrun) w).mp hend
    omega
  · exact ⟨ls', c', xs, hrun, hend⟩

/-- Two CPUs, with interrupts of both timers, when nothing has been drawn yet. -/
theorem console_windows_sample :
    let vectors : BitVec 32 × Bool → List (BitVec 8) := fun w =>
      if w.1 = 1 then [0x20, 0x22] else [0x22]
    (∀ w, (artStart id vectors fun _ => 0).thread w = fail ↔ 8 ≤ w.1.toNat) ∧
      ∃ ls c xs, Trace (Smp.Step Prog.move) (artStart id vectors fun _ => 0) ls c ∧
        c.thread (1, true) = ret xs := by
  intro vectors
  have hv : ∀ w, ∀ v ∈ vectors w, v = 0x20 ∨ v = 0x22 := by
    intro w v hv
    simp only [vectors] at hv
    split at hv <;> simp at hv <;> tauto
  obtain ⟨hfail, -, hend⟩ := console_windows id hv (m := fun _ => 0) .nil
  exact ⟨hfail, hend (1, true) (by decide)⟩

/-- What a window shows when its CPU has handled its interrupts, whatever the others have done
meanwhile and are about to do. -/
theorem console_art (id : BitVec 32 → BitVec 32)
    {vectors : BitVec 32 × Bool → List (BitVec 8)}
    (hv : ∀ w, ∀ v ∈ vectors w, v = 0x20 ∨ v = 0x22) {m : ByteMem}
    {ls : List ((BitVec 32 × Bool) × Unit)} {c : Smp (BitVec 32 × Bool) ByteMem (OnScreen ArtX)}
    (h : Trace (Smp.Step Prog.move) (artStart id vectors m) ls c) {w : BitVec 32 × Bool}
    {xs : ArtX} (hw : c.thread w = ret xs) :
    WindowShows w (artShown ⟨id w.1, w.1⟩ ((vectors w).count 0x20) ((vectors w).count 0x22))
      c.shared := by
  have hidx : w.1.toNat < 8 := by
    refine Nat.lt_of_not_le fun hle => ?_
    have hfail := (fail_iff hv h w).mpr hle
    rw [hw] at hfail
    cases hfail
  obtain ⟨m', hrun, hsame⟩ := (confined_art h).exec_eq_some hw
  obtain ⟨xs', m'', hrun', hshows⟩ := draws_of_lt hv hidx m trivial
  obtain ⟨-, rfl⟩ := Prod.mk.inj (Option.some.inj (hrun.symm.trans hrun'))
  intro x y hx hy
  rw [hsame _ (inWindow_char hidx hx hy), hsame _ (inWindow_color hidx hx hy)]
  exact hshows x y hx hy

/-- The guest of CPU 2 after two interrupts of the PIT: the bar is at the first two columns. -/
theorem console_art_sample :
    ∃ ls c xs, Trace (Smp.Step Prog.move) (artStart id (fun _ => [0x20, 0x22, 0x20]) fun _ => 0)
      ls c ∧ c.thread (2, true) = ret xs ∧ c.shared (cellAt 2 true 1 0) = 50#8 ∧
      c.shared (cellAt 2 true 21 0) = 32#8 := by
  have hv : ∀ w : BitVec 32 × Bool, ∀ v ∈ (fun _ => [0x20, 0x22, 0x20] :
      BitVec 32 × Bool → List (BitVec 8)) w, v = 0x20 ∨ v = 0x22 := by
    intro w v hv
    simp at hv
    tauto
  obtain ⟨ls, c, hrun, hend⟩ := finishes (artStart id (fun _ => [0x20, 0x22, 0x20]) fun _ => 0)
    ((2, true) : BitVec 32 × Bool)
  obtain ⟨xs, hend⟩ : ∃ xs, c.thread (2, true) = ret xs := by
    refine hend.resolve_left fun hfail => ?_
    have hle := (fail_iff hv hrun _).mp hfail
    exact absurd hle (by decide)
  have hshows := console_art id hv hrun hend
  refine ⟨ls, c, xs, hrun, hend, ?_, ?_⟩
  · exact (hshows 1 0 (by decide) (by decide)).1.trans (by decide)
  · exact (hshows 21 0 (by decide) (by decide)).1.trans (by decide)

end Shv
