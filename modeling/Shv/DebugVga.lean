/-
# `Shv.DebugVga` — the debug terminal of `debug-vga.c`

The terminal keeps a cursor and the video memory, and when the cursor would leave the last row it
moves the rows up one.  What it shows is the end of everything it was ever given: the transcript
broken into lines, the last 25 of them, from the top.

The invariant (`Shows`) is that the memory holds exactly the window onto the lines fed so far and
the cursor is at its end.  One character keeps it (`Shows.putc`): a character is one more in the
last line of the window, and a new line either goes below it or, in a full window, takes the place
of the first one, which is what the overlapping `memmove` does to the memory.
-/
import Shv.LibcString
import Shv.Lib.Lines

namespace Shv

open ByteMem Lines

/-! ## The code -/

def vgaCols : Nat := 80

def vgaRows : Nat := 25

def vgaAttr : BitVec 8 := 7#8

def vidmem : Nat := 0xb8000

structure Vga where
  mem : MemLog
  vidX : Nat
  vidY : Nat

def vgamemNewln (v : Vga) : Vga :=
  if v.vidY + 1 ≥ vgaRows then
    let mem := v.mem.memmove vidmem (vidmem + 2 * vgaCols) ((vgaRows - 1) * 2 * vgaCols)
    { mem := mem.memset 0 (vidmem + (vgaRows - 1) * 2 * vgaCols) (2 * vgaCols)
      vidX := 0
      vidY := vgaRows - 1 }
  else { v with vidX := 0, vidY := v.vidY + 1 }

def newline : BitVec 8 := 10#8

def dbgX86VgamemPutc (v : Vga) (c : BitVec 8) : Vga :=
  if c = newline then vgamemNewln v
  else
    let mem := v.mem.write (vidmem + (v.vidX + v.vidY * vgaCols) * 2) (c &&& 0xff#8)
    let mem := mem.write (vidmem + ((v.vidX + v.vidY * vgaCols) * 2 + 1)) vgaAttr
    let v := { v with mem := mem, vidX := v.vidX + 1 }
    if v.vidX ≥ vgaCols then vgamemNewln v else v

def dbgX86VgamemInit (v : Vga) : Vga where
  mem := v.mem.memset 0 vidmem (vgaCols * vgaRows * 2)
  vidX := 0
  vidY := 0

/-! ## What it should show -/

/-- The character and the attribute at a place of the screen. -/
def cellOf (m : ByteMem) (row col : Nat) : BitVec 8 × BitVec 8 :=
  (m (vidmem + (col + row * vgaCols) * 2), m (vidmem + ((col + row * vgaCols) * 2 + 1)))

/-- What is there if the screen shows these lines from the top. -/
def refCell (ls : List (List (BitVec 8))) (row col : Nat) : BitVec 8 × BitVec 8 :=
  match ls[row]?.bind (·[col]?) with
  | some c => (c, vgaAttr)
  | none => (0, 0)

/-- The lines a terminal shows of a transcript: the last 25, the one being written included. -/
def refLines (t : List (BitVec 8)) : List (List (BitVec 8)) :=
  (breakLines newline vgaCols t).rtake vgaRows

/-- Where the cursor is then: at the end of the last line. -/
def refCursor (t : List (BitVec 8)) : Nat × Nat :=
  (((refLines t).getLast?.getD []).length, (refLines t).length - 1)

/-! ## Cells -/

/-- The video memory holds these lines. -/
def Holds (m : ByteMem) (ls : List (List (BitVec 8))) : Prop :=
  ∀ row col, row < vgaRows → col < vgaCols → cellOf m row col = refCell ls row col

theorem refCell_of_length_le {ls : List (List (BitVec 8))} {row : Nat} (h : ls.length ≤ row)
    (col : Nat) : refCell ls row col = (0, 0) := by
  rw [refCell, List.getElem?_eq_none h]
  rfl

theorem refCell_append_nil (ls : List (List (BitVec 8))) (row col : Nat) :
    refCell (ls ++ [[]]) row col = refCell ls row col := by
  by_cases hrow : row < ls.length
  · rw [refCell, refCell, List.getElem?_append_left hrow]
  · have hge := Nat.le_of_not_lt hrow
    rw [refCell_of_length_le hge, refCell, List.getElem?_append_right hge]
    cases row - ls.length <;> simp

theorem refCell_tail (ls : List (List (BitVec 8))) (row col : Nat) :
    refCell ls.tail row col = refCell ls (row + 1) col := by
  rw [refCell, refCell, List.getElem?_tail]

theorem refCell_append_char (ls : List (List (BitVec 8))) (l : List (BitVec 8)) (c : BitVec 8)
    (row col : Nat) :
    refCell (ls ++ [l ++ [c]]) row col =
      if row = ls.length ∧ col = l.length then (c, vgaAttr) else refCell (ls ++ [l]) row col := by
  by_cases hrow : row = ls.length
  · subst hrow
    rw [refCell, refCell, List.getElem?_concat_length, List.getElem?_concat_length]
    by_cases hcol : col = l.length
    · subst hcol
      simp
    · rw [if_neg (fun h => hcol h.2)]
      by_cases hlt : col < l.length
      · simp [List.getElem?_append_left hlt]
      · have hge : (l ++ [c]).length ≤ col := by
          rw [List.length_append, List.length_singleton]
          omega
        simp only [Option.bind_some]
        rw [List.getElem?_eq_none hge, List.getElem?_eq_none (Nat.le_of_not_lt hlt)]
  · rw [if_neg (fun h => hrow h.1), refCell, refCell]
    by_cases hlt : row < ls.length
    · rw [List.getElem?_append_left hlt, List.getElem?_append_left hlt]
    · have hge : ls.length + 1 ≤ row := by omega
      rw [List.getElem?_eq_none (by simpa using hge), List.getElem?_eq_none (by simpa using hge)]

/-! ## One character -/

/-- The screen, and the lines that are done with the one being written. -/
structure Shows (v : Vga) (page : List (List (BitVec 8)) × List (BitVec 8)) : Prop where
  holds : Holds v.mem.mem (page.1.rtake 24 ++ [page.2])
  vidX : v.vidX = page.2.length
  vidY : v.vidY = (page.1.rtake 24).length
  short : page.2.length < vgaCols

theorem length_rtake_le {α : Type} (l : List α) (n : Nat) : (l.rtake n).length ≤ n := by
  rw [List.rtake, List.length_drop]
  omega

/-- The memory with the rows moved up and the last one cleared. -/
def scrolled (m : ByteMem) : ByteMem :=
  (m.copy vidmem (vidmem + 2 * vgaCols) ((vgaRows - 1) * 2 * vgaCols)).fill
    (vidmem + (vgaRows - 1) * 2 * vgaCols) (2 * vgaCols) 0

theorem scrolled_below (m : ByteMem) {i : Nat} (hi : i < 3840) :
    scrolled m (vidmem + i) = m (vidmem + (i + 160)) := by
  have hpos : vidmem + 2 * vgaCols + (vidmem + i - vidmem) = vidmem + (i + 160) := by
    simp only [vgaCols]
    omega
  rw [scrolled, fill_of_notMem (by simp only [mem_span, vidmem, vgaRows, vgaCols]; omega),
    copy_of_mem (by simp only [mem_span, vidmem, vgaRows, vgaCols]; omega), hpos]

theorem scrolled_last (m : ByteMem) {i : Nat} (hlo : 3840 ≤ i) (hhi : i < 4000) :
    scrolled m (vidmem + i) = 0 := by
  rw [scrolled, fill_of_mem (by simp only [mem_span, vidmem, vgaRows, vgaCols]; omega)]

/-- Moving the rows up and clearing the last one drops the first line. -/
theorem Holds.scroll {m : ByteMem} {ls : List (List (BitVec 8))} (h : Holds m ls)
    (hlen : ls.length ≤ vgaRows) : Holds (scrolled m) ls.tail := by
  intro row col hrow hcol
  simp only [vgaRows, vgaCols] at hrow hcol hlen
  by_cases hlast : row < 24
  · have hbelow : (col + row * vgaCols) * 2 + 160 = (col + (row + 1) * vgaCols) * 2 := by
      simp only [vgaCols]
      omega
    have hrow' := h (row + 1) col (by simp only [vgaRows]; omega) hcol
    rw [refCell_tail, ← hrow', cellOf, cellOf, scrolled_below _ (by simp only [vgaCols]; omega),
      scrolled_below _ (by simp only [vgaCols]; omega), Nat.add_right_comm _ 1, hbelow]
  · rw [refCell_of_length_le (by rw [List.length_tail]; omega), cellOf,
      scrolled_last _ (by simp only [vgaCols]; omega) (by simp only [vgaCols]; omega),
      scrolled_last _ (by simp only [vgaCols]; omega) (by simp only [vgaCols]; omega)]

theorem Holds.write {m : MemLog} {ls : List (List (BitVec 8))} {l : List (BitVec 8)}
    (h : Holds m.mem (ls ++ [l])) (hl : l.length < vgaCols) (c : BitVec 8) :
    Holds ((m.write (vidmem + (l.length + ls.length * vgaCols) * 2) c).write
      (vidmem + ((l.length + ls.length * vgaCols) * 2 + 1)) vgaAttr).mem (ls ++ [l ++ [c]]) := by
  intro row col hrow hcol
  rw [refCell_append_char]
  simp only [vgaCols] at hl hcol
  split
  next hat =>
      obtain ⟨rfl, rfl⟩ := hat
      rw [cellOf, MemLog.write_mem, MemLog.write_mem, Function.update_self,
        Function.update_of_ne (by omega), Function.update_self]
  next hat =>
      have hne : col + row * 80 ≠ l.length + ls.length * 80 := by omega
      rw [← h row col hrow hcol, cellOf, cellOf, MemLog.write_mem, MemLog.write_mem]
      simp only [vgaCols]
      rw [Function.update_of_ne (by omega), Function.update_of_ne (by omega),
        Function.update_of_ne (by omega), Function.update_of_ne (by omega)]

theorem vgamemNewln_of_room {v : Vga} (h : v.vidY + 1 < vgaRows) :
    vgamemNewln v = { v with vidX := 0, vidY := v.vidY + 1 } :=
  if_neg (Nat.not_le.mpr h)

theorem vgamemNewln_of_full {v : Vga} (h : vgaRows ≤ v.vidY + 1) :
    (vgamemNewln v).vidX = 0 ∧ (vgamemNewln v).vidY = vgaRows - 1 ∧
      (vgamemNewln v).mem.mem = scrolled v.mem.mem := by
  rw [vgamemNewln, if_pos h]
  refine ⟨rfl, rfl, ?_⟩
  rw [MemLog.memset_mem, MemLog.memmove_mem]
  rfl

/-- `vgamem_newln` ends the line being written, and begins an empty one below it. -/
theorem Shows.newln {v : Vga} {done : List (List (BitVec 8))} {l : List (BitVec 8)}
    (hm : Holds v.mem.mem (done.rtake 24 ++ [l])) (hy : v.vidY = (done.rtake 24).length) :
    Shows (vgamemNewln v) (done ++ [l], []) := by
  have hle := length_rtake_le done 24
  have hempty : ([] : List (BitVec 8)).length < vgaCols := by decide
  by_cases hroom : (done.rtake 24).length < 24
  · have hlines : (done ++ [l]).rtake 24 = done.rtake 24 ++ [l] := by
      rw [rtake_concat (by decide), if_pos hroom]
    rw [vgamemNewln_of_room (by simp only [vgaRows]; omega)]
    refine ⟨fun row col hrow hcol => ?_, rfl, ?_, hempty⟩
    · rw [hlines, refCell_append_nil]
      exact hm row col hrow hcol
    · rw [hlines, hy, List.length_append, List.length_singleton]
  · -- the window is full
    have hlines : (done ++ [l]).rtake 24 = (done.rtake 24 ++ [l]).tail := by
      rw [rtake_concat (by decide), if_neg hroom, List.tail_append_of_ne_nil]
      intro hnil
      rw [hnil] at hroom
      exact hroom (by decide)
    have hlen : (done.rtake 24 ++ [l]).length = vgaRows := by
      rw [List.length_append, List.length_singleton, vgaRows]
      omega
    obtain ⟨hvx, hvy, hmem⟩ := vgamemNewln_of_full (v := v) (by simp only [vgaRows]; omega)
    refine ⟨fun row col hrow hcol => ?_, hvx, ?_, hempty⟩
    · rw [hmem, hlines, refCell_append_nil]
      exact hm.scroll (Nat.le_of_eq hlen) row col hrow hcol
    · rw [hvy, hlines, List.length_tail, hlen]

theorem Shows.putc {v : Vga} {page : List (List (BitVec 8)) × List (BitVec 8)} (h : Shows v page)
    (c : BitVec 8) : Shows (dbgX86VgamemPutc v c) (feed newline vgaCols page c) := by
  obtain ⟨done, l⟩ := page
  have hm : Holds v.mem.mem (done.rtake 24 ++ [l]) := h.holds
  have hx : v.vidX = l.length := h.vidX
  have hy : v.vidY = (done.rtake 24).length := h.vidY
  have hl : l.length < vgaCols := h.short
  rw [dbgX86VgamemPutc, feed]
  split
  · exact Shows.newln hm hy
  · have hand : c &&& 0xff#8 = c := BitVec.and_allOnes
    have hput := hm.write hl c
    rw [← hx, ← hy] at hput
    simp only [hand]
    have hend : v.vidX + 1 ≥ vgaCols ↔ l.length + 1 = vgaCols := by omega
    split
    next hge =>
        rw [if_pos (hend.mp hge)]
        exact Shows.newln hput hy
    next hge =>
        rw [if_neg (fun he => hge (hend.mpr he))]
        refine ⟨hput, ?_, hy, ?_⟩
        · simpa using hx
        · simp only [List.length_append, List.length_singleton]
          omega

/-! ## Where it writes -/

def screen : Set Nat := span vidmem (vgaCols * vgaRows * 2)

theorem span_subset_screen {off n : Nat} (h : off + n ≤ vgaCols * vgaRows * 2) :
    span (vidmem + off) n ⊆ screen := by
  intro x hx
  rw [mem_span] at hx
  rw [screen, mem_span]
  omega

theorem vgamemNewln_inside {v : Vga} (h : v.mem.Inside screen) :
    (vgamemNewln v).mem.Inside screen := by
  rw [vgamemNewln]
  split
  · have hrows : span (vidmem + 0) ((vgaRows - 1) * 2 * vgaCols) ⊆ screen :=
      span_subset_screen (by decide)
    exact (h.memmove hrows).memset 0 (span_subset_screen (by decide))
  · exact h

theorem dbgX86VgamemPutc_inside {v : Vga} (h : v.mem.Inside screen) (hx : v.vidX < vgaCols)
    (hy : v.vidY < vgaRows) (c : BitVec 8) : (dbgX86VgamemPutc v c).mem.Inside screen := by
  have hat : ∀ i, i < 2 → vidmem + ((v.vidX + v.vidY * vgaCols) * 2 + i) ∈ screen := by
    intro i hi
    simp only [screen, mem_span, vgaCols, vgaRows] at hx hy ⊢
    omega
  have hput := (h.write (hat 0 (by decide)) (c &&& 0xff#8)).write (hat 1 (by decide)) vgaAttr
  rw [dbgX86VgamemPutc]
  split
  · exact vgamemNewln_inside h
  · dsimp only
    split
    · exact vgamemNewln_inside hput
    · exact hput

theorem dbgX86VgamemInit_inside {v : Vga} (h : v.mem.Inside screen) :
    (dbgX86VgamemInit v).mem.Inside screen := by
  dsimp only [dbgX86VgamemInit]
  apply MemLog.Inside.memset 0 h
  exact Set.Subset.refl screen

/-! ## A transcript -/

theorem Shows.vidY_lt {v : Vga} {page : List (List (BitVec 8)) × List (BitVec 8)}
    (h : Shows v page) : v.vidY < vgaRows := by
  rw [h.vidY]
  exact Nat.lt_succ_of_le (length_rtake_le page.1 24)

/-- Any number of characters keeps the screen and the transcript together, and writes nowhere
else. -/
theorem Shows.run (t : List (BitVec 8)) :
    ∀ {v : Vga} {page : List (List (BitVec 8)) × List (BitVec 8)}, Shows v page →
      v.mem.Inside screen → Shows (t.foldl dbgX86VgamemPutc v)
        (t.foldl (feed newline vgaCols) page) ∧ (t.foldl dbgX86VgamemPutc v).mem.Inside screen := by
  induction t with
  | nil => exact fun h hin => ⟨h, hin⟩
  | cons c cs ih =>
      intro v page h hin
      refine ih (h.putc c) (dbgX86VgamemPutc_inside hin ?_ h.vidY_lt c)
      rw [h.vidX]
      exact h.short

theorem shows_init (v : Vga) : Shows (dbgX86VgamemInit v) ([], []) := by
  refine ⟨fun row col hrow hcol => ?_, rfl, rfl, show 0 < vgaCols by decide⟩
  have hzero : ∀ i, i < 4000 → (dbgX86VgamemInit v).mem.mem (vidmem + i) = 0 := by
    intro i hi
    rw [dbgX86VgamemInit, MemLog.memset_mem,
      fill_of_mem (by simp only [mem_span, vgaRows, vgaCols]; omega)]
  simp only [vgaRows, vgaCols] at hrow hcol
  rw [cellOf, hzero _ (by simp only [vgaCols]; omega), hzero _ (by simp only [vgaCols]; omega)]
  show _ = refCell ([] ++ [[]]) row col
  rw [refCell_append_nil, refCell_of_length_le (Nat.zero_le _)]

/-- **The terminal shows the end of its transcript**: after every sequence of characters the cursor
is on the screen, everything written so far was on the screen, and screen and cursor are those of
the last 25 lines. -/
theorem vga_shows_tail (m₀ : ByteMem) (x₀ y₀ : Nat) (t : List (BitVec 8)) :
    let v := t.foldl dbgX86VgamemPutc (dbgX86VgamemInit ⟨⟨m₀, []⟩, x₀, y₀⟩)
    v.vidX < vgaCols ∧ v.vidY < vgaRows ∧
    (∀ a ∈ v.mem.written, vidmem ≤ a ∧ a < vidmem + vgaCols * vgaRows * 2) ∧
    (v.vidX, v.vidY) = refCursor t ∧
    ∀ row col, row < vgaRows → col < vgaCols →
      cellOf v.mem.mem row col = refCell (refLines t) row col := by
  intro v
  have hin := dbgX86VgamemInit_inside (v := ⟨⟨m₀, []⟩, x₀, y₀⟩)
    fun a ha => absurd ha List.not_mem_nil
  obtain ⟨hshows, hinside⟩ := (shows_init ⟨⟨m₀, []⟩, x₀, y₀⟩).run t hin
  have hlines : refLines t = (t.foldl (feed newline vgaCols) ([], [])).1.rtake 24 ++
      [(t.foldl (feed newline vgaCols) ([], [])).2] := by
    rw [refLines, breakLines_eq_foldl]
    exact List.rtake_concat_succ ..
  refine ⟨?_, hshows.vidY_lt, hinside, ?_, ?_⟩
  · rw [hshows.vidX]
    exact hshows.short
  · rw [refCursor, hlines, List.getLast?_concat, List.length_append, List.length_singleton,
      Nat.add_sub_cancel, hshows.vidX, hshows.vidY]
    rfl
  · rw [hlines]
    exact hshows.holds

end Shv
