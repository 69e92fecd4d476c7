/-
# `Shv.Stdio` — `kvprintf` and the functions over it

`kvprintf` reads its format a character at a time.  Between directives it copies; after a `%`
it collects flags, widths and sizes until a conversion ends the directive; an unknown character
has the directive copied as it stands, and everything after it too.  Each character of the
output goes through `PCHAR`, which is what the callers differ in: `vprintf` prints it,
`vsnprintf` stores it while there is room, `vsprintf` stores it anyway.

The model is that loop: `KvState.step` is what one character of the format does.  The variables of
`kvprintf` are `int`s; where one overflows, C says nothing of what happens, and the model stops.
-/
import Shv.Hptw
import Shv.Strtoul
import Shv.Lib.Reader
import Shv.Lib.ByteMem
import Mathlib.Data.List.GetD
import Mathlib.Data.List.Induction

namespace Shv.Stdio

/-! ## Output -/

/-- The size of the integer `%n` writes through its pointer. -/
inductive StoreSize where
  | intmax | quad | long | size | short | char | int
  deriving DecidableEq, Repr

/-- Where the output goes: `PCHAR(c)`, `*(va_arg(ap, T *)) = retval` for a size and a variable, and
`retval` itself. -/
structure Sink (O : Type) where
  put : O → Nat → O
  store : O → StoreSize → Nat → O
  retval : O → Nat

variable {O : Type} (k : Sink O)

/-- `while (n-- > 0) PCHAR(c);` -/
def padding (c : Nat) : Nat → O → O
  | 0, o => o
  | n + 1, o => padding c n (k.put o c)

/-- `for (; *p; p++) PCHAR(*p);` -/
def putText : List Nat → O → O
  | [], o => o
  | c :: cs, o => putText cs (k.put o c)

/-! ## Integers -/

/-- Why `kvprintf` does not return. -/
inductive KvStop where
  /-- a character past the NUL of the format was read -/
  | overread
  /-- an argument is missing, is not of the type it is read with, or is not valid -/
  | argument
  /-- the value of an expression does not fit its type, which leaves it undefined -/
  | overflow
  deriving DecidableEq, Repr

def InInt (x : Int) : Prop := -2147483648 ≤ x ∧ x ≤ 2147483647

instance : DecidablePred InInt := fun _ => inferInstanceAs (Decidable (_ ∧ _))

/-- An expression of type `int`. -/
def cInt (x : Int) : Except KvStop Int := if InInt x then .ok x else .error .overflow

theorem cInt_eq_ok {x y : Int} : cInt x = .ok y ↔ InInt x ∧ x = y := by
  rw [cInt]
  split
  next h => simp [h]
  next h => simp [h]

/-- The value of an argument, if it is there. -/
def orArgument {α : Type} (v : Option α) : Except KvStop α := v.elim (.error .argument) .ok

/-! ## Numbers -/

def hex2ascii (d : Nat) : Nat := if d < 10 then 48 + d else 87 + d

def toupper (c : Nat) : Nat := if 97 ≤ c ∧ c ≤ 122 then c - 0x20 else c

/-- The loop of `ksprintn`; `nbuf` is what it has written so far. -/
def ksprintnLoop (base : Nat) (upper : Bool) : Nat → Nat → List Nat → List Nat
  | 0, _, nbuf => nbuf
  | fuel + 1, num, nbuf =>
    let c := hex2ascii (num % base)
    let nbuf := nbuf ++ [if upper then toupper c else c]
    if num / base ≠ 0 then ksprintnLoop base upper fuel (num / base) nbuf else nbuf

/-- `ksprintn`: the buffer up to the last character written.  A `uintmax_t` has at most 64
digits. -/
def ksprintn (num base : Nat) (upper : Bool) : List Nat := ksprintnLoop base upper 64 num [0]

/-- `while (*p) PCHAR(*p--);`, where `p` is an index into `nbuf`. -/
def putBack (nbuf : List Nat) : Nat → O → O
  | 0, o => o
  | p + 1, o =>
    if nbuf.getD (p + 1) 0 = 0 then o
    else putBack nbuf p (k.put o (nbuf.getD (p + 1) 0))

/-- The variables a directive sets. -/
structure Flags where
  padc : Nat := 32
  width : BitVec 32 := 0
  dwidth : BitVec 32 := 0
  ladjust : Bool := false
  sharpflag : Bool := false
  sign : Bool := false
  dot : Bool := false
  upper : Bool := false
  cflag : Bool := false
  hflag : Bool := false
  jflag : Bool := false
  lflag : Bool := false
  qflag : Bool := false
  tflag : Bool := false
  zflag : Bool := false
  deriving DecidableEq

/-- What `#` puts before a number. -/
def sharpText (base : Nat) : List Nat :=
  if base = 8 then [48] else if base = 16 then [48, 120] else []

/-- `width` and `dwidth` once they are what is left to fill, for `n` digits. -/
def numberRoom (fl : Flags) (neg : Bool) (pre : List Nat) (n : Nat) :
    Except KvStop (Int × Int) := do
  let tmp : Int := pre.length + if neg then 1 else 0
  let dwidth ← cInt (if !fl.ladjust && fl.padc == 48 then fl.width.toInt - tmp else fl.dwidth.toInt)
  let body ← cInt (tmp + max dwidth n)
  let width ← cInt (fl.width.toInt - body)
  let dwidth ← cInt (dwidth - n)
  -- the loops count down once more than they go round
  let _ ← cInt (width - 1)
  let _ ← cInt (dwidth - 1)
  return (width, dwidth)

/-- The characters of a number, once `width` and `dwidth` are what is left to fill. -/
def putNumber (ladjust neg : Bool) (pre : List Nat) (width dwidth : Int) (nbuf : List Nat)
    (o : O) : O :=
  let o := if ladjust then o else padding k 32 width.toNat o
  let o := if neg then k.put o 45 else o
  let o := putText k pre o
  let o := padding k 48 dwidth.toNat o
  let o := putBack k nbuf (nbuf.length - 1) o
  if ladjust then padding k 32 width.toNat o else o

def number (fl : Flags) (num : BitVec 64) (base : Nat) (o : O) : Except KvStop O :=
  let neg := fl.sign && num.msb
  -- `-(intmax_t) num`
  if neg && num == BitVec.intMin 64 then .error .overflow
  else
    let num := if neg then -num else num
    let nbuf := ksprintn num.toNat base fl.upper
    let pre := if fl.sharpflag ∧ num ≠ 0 then sharpText base else []
    (numberRoom fl neg pre (nbuf.length - 1)).map fun r =>
      putNumber k fl.ladjust neg pre r.1 r.2 nbuf o

/-! ## Arguments -/

inductive VaArg (arch : Arch) where
  /-- `int`, and what is promoted to it -/
  | int (v : BitVec 32)
  /-- `long`, `size_t`, `ptrdiff_t`, `void *` -/
  | word (v : BitVec arch.ptrBits)
  /-- `intmax_t`, `quad_t` -/
  | wide (v : BitVec 64)
  /-- `char *`, which may be `NULL`: the characters in front of the NUL -/
  | text (s : Option (List Nat))
  /-- `u_char *` -/
  | bytes (b : List Nat)
  /-- a pointer to an integer variable -/
  | object (i : Nat)

variable {arch : Arch}

/-- `va_arg(ap, int)`. -/
def vaInt : List (VaArg arch) → Option (BitVec 32 × List (VaArg arch))
  | .int v :: ap => some (v, ap)
  | _ => none

/-- `va_arg(ap, void *)`, as a number. -/
def vaPointer : List (VaArg arch) → Option (BitVec arch.ptrBits × List (VaArg arch))
  | .word v :: ap => some (v, ap)
  | _ => none

def vaText : List (VaArg arch) → Option (Option (List Nat) × List (VaArg arch))
  | .text p :: ap => some (p, ap)
  | _ => none

def vaBytes : List (VaArg arch) → Option (List Nat × List (VaArg arch))
  | .bytes up :: ap => some (up, ap)
  | _ => none

/-- The pointer of `%n`. -/
def vaObject : List (VaArg arch) → Option (Nat × List (VaArg arch))
  | .object i :: ap => some (i, ap)
  | _ => none

/-- `handle_nosign`: `num` for the sizes given. -/
def handleNosign (fl : Flags) : List (VaArg arch) → Option (BitVec 64 × List (VaArg arch))
  | .wide v :: ap => if fl.jflag || fl.qflag then some (v, ap) else none
  | .word v :: ap =>
    if fl.jflag || fl.qflag then none
    else if fl.tflag then some (v.signExtend 64, ap)
    else if fl.lflag || fl.zflag then some (v.setWidth 64, ap)
    else none
  | .int v :: ap =>
    if fl.jflag || fl.qflag || fl.tflag || fl.lflag || fl.zflag then none
    else if fl.hflag then some ((v.setWidth 16).setWidth 64, ap)
    else if fl.cflag then some ((v.setWidth 8).setWidth 64, ap)
    else some (v.setWidth 64, ap)
  | _ => none

def handleSign (fl : Flags) : List (VaArg arch) → Option (BitVec 64 × List (VaArg arch))
  | .wide v :: ap => if fl.jflag || fl.qflag then some (v, ap) else none
  | .word v :: ap =>
    if fl.jflag || fl.qflag then none
    else if fl.tflag || fl.lflag || fl.zflag then some (v.signExtend 64, ap)
    else none
  | .int v :: ap =>
    if fl.jflag || fl.qflag || fl.tflag || fl.lflag || fl.zflag then none
    else if fl.hflag then some ((v.setWidth 16).signExtend 64, ap)
    else if fl.cflag then some ((v.setWidth 8).signExtend 64, ap)
    else some (v.signExtend 64, ap)
  | _ => none

/-! ## Conversions -/

/-- The loop of `%b` over the names.  `name` is whether it is in a name, and then whether that is
printed; `tmp` whether one has been. -/
def bitNames (num : BitVec 32) : List Nat → Option Bool → Bool → O → Option O
  | [], _, tmp, o => some (if tmp then k.put o 62 else o)
  | c :: cs, name, tmp, o =>
    if name ≠ none ∧ 32 < c ∧ c < 128 then
      bitNames num cs name tmp (if name = some true then k.put o c else o)
    -- `n = *p++`, the number of a bit from 1 on; for 32, `1 << 31` is what GCC makes of it
    else if 1 ≤ c ∧ c ≤ 32 then
      if num.getLsbD (c - 1) then
        bitNames num cs (some true) true (k.put o (if tmp then 44 else 60))
      else bitNames num cs (some false) tmp o
    else none

def convB (num : BitVec 32) (p : Option (List Nat)) (o : O) : Option O :=
  match p with
  | none | some [] => none
  | some (base :: p) =>
    if 2 ≤ base ∧ base ≤ 36 then
      let nbuf := ksprintn num.toNat base false
      let o := putBack k nbuf (nbuf.length - 1) o
      if num = 0 then some o else bitNames k num p none false o
    else none

/-- The loop of `%D`. -/
def hexdump (p : List Nat) : Nat → List Nat → O → Option O
  | 0, _, o => some o
  | _ + 1, [], _ => none
  | width + 1, b :: up, o =>
    let o := k.put (k.put o (hex2ascii (b / 16))) (hex2ascii (b % 16))
    hexdump p width up (if width ≠ 0 then putText k p o else o)

/-- `%D`; a negative `width` would be counted down from. -/
def convD (fl : Flags) (up : List Nat) (p : Option (List Nat)) (o : O) : Except KvStop O :=
  match p with
  | none => .error .argument
  | some p =>
    if fl.width.toInt < 0 then .error .overflow
    else orArgument (hexdump k p (if fl.width = 0 then 16 else fl.width.toNat) up o)

/-- `"(null)"`. -/
def nullText : List Nat := [40, 110, 117, 108, 108, 41]

/-- `n` of `%s`: an `int` that takes the low bits of what `strlen` returns, and if it is negative is
counted down from. -/
def textLength (fl : Flags) (p : List Nat) : Except KvStop Nat :=
  if fl.dot then .ok (min p.length fl.dwidth.toInt.toNat)
  else (cInt (p.length % 2 ^ 32 : Nat)).map Int.toNat

def convS (fl : Flags) (p : Option (List Nat)) (o : O) : Except KvStop O := do
  let p := p.getD nullText
  let n ← textLength fl p
  let width ← cInt (fl.width.toInt - n)
  let o := if !fl.ladjust then padding k fl.padc width.toNat o else o
  let o := putText k (p.take n) o
  return if fl.ladjust then padding k fl.padc width.toNat o else o

/-- The size `%n` goes by. -/
def storeSize (fl : Flags) : StoreSize :=
  if fl.jflag then .intmax
  else if fl.qflag then .quad
  else if fl.lflag then .long
  else if fl.zflag then .size
  else if fl.hflag then .short
  else if fl.cflag then .char
  else .int

/-- The cases of the switch that set flags. -/
inductive Flag where
  | dot | sharp | plus | minus | h | j | l | q | t | z
  deriving DecidableEq, Repr

/-- The cases that end a directive. -/
inductive Conv where
  | percent | b | c | D | d | n | o | p | r | s | u | X | x | y
  deriving DecidableEq, Repr

inductive Case where
  | flag (flag : Flag)
  | star
  | zero
  | digit
  | conv (conv : Conv)
  | default
  deriving DecidableEq, Repr

def caseOf (ch : Nat) : Case :=
  match ch with
  -- `.`, `#`, `+`, `-`, `%`, `*` and the digits
  | 46 => .flag .dot
  | 35 => .flag .sharp
  | 43 => .flag .plus
  | 45 => .flag .minus
  | 37 => .conv .percent
  | 42 => .star
  | 48 => .zero
  | 49 | 50 | 51 | 52 | 53 | 54 | 55 | 56 | 57 => .digit
  -- `b`, `c`, `D`, `d`, `i`
  | 98 => .conv .b
  | 99 => .conv .c
  | 68 => .conv .D
  | 100 | 105 => .conv .d
  -- `h`, `j`, `l`, `n`, `o`, `p`, `q`, `r`, `s`, `t`, `u`
  | 104 => .flag .h
  | 106 => .flag .j
  | 108 => .flag .l
  | 110 => .conv .n
  | 111 => .conv .o
  | 112 => .conv .p
  | 113 => .flag .q
  | 114 => .conv .r
  | 115 => .conv .s
  | 116 => .flag .t
  | 117 => .conv .u
  -- `X`, `x`, `y`, `z`
  | 88 => .conv .X
  | 120 => .conv .x
  | 121 => .conv .y
  | 122 => .flag .z
  | _ => .default

def Flags.set (fl : Flags) : Flag → Flags
  | .dot => { fl with dot := true }
  | .sharp => { fl with sharpflag := true }
  | .plus => { fl with sign := true }
  | .minus => { fl with ladjust := true }
  | .h => if fl.hflag then { fl with hflag := false, cflag := true } else { fl with hflag := true }
  | .j => { fl with jflag := true }
  | .l => if fl.lflag then { fl with lflag := false, qflag := true } else { fl with lflag := true }
  | .q => { fl with qflag := true }
  | .t => { fl with tflag := true }
  | .z => { fl with zflag := true }

def Flags.star (fl : Flags) (v : BitVec 32) : Except KvStop Flags :=
  if fl.dot then .ok { fl with dwidth := v }
  else if v.toInt < 0 then
    (cInt (-v.toInt)).map fun width =>
      { fl with width := BitVec.ofInt 32 width, ladjust := !fl.ladjust }
  else .ok { fl with width := v }

def Flags.digits (fl : Flags) (n : Nat) : Flags :=
  if fl.dot then { fl with dwidth := BitVec.ofNat 32 n } else { fl with width := BitVec.ofNat 32 n }

/-- A conversion with a number, from `handle_nosign` or `handle_sign` on. -/
def convNumber (fl : Flags) (base : Nat) (o : O) (ap : List (VaArg arch)) :
    Except KvStop (O × List (VaArg arch)) := do
  let num ← orArgument (if fl.sign then handleSign fl ap else handleNosign fl ap)
  let o ← number k fl num.1 base o
  return (o, num.2)

/-- The cases that end a directive. -/
def convert (radix : Nat) (fl : Flags) (o : O) (ap : List (VaArg arch)) :
    Conv → Except KvStop (O × List (VaArg arch))
  | .percent => return (k.put o 37, ap)
  | .b => do
    let num ← orArgument (vaInt ap)
    let p ← orArgument (vaText num.2)
    let o ← orArgument (convB k num.1 p.1 o)
    return (o, p.2)
  | .c => do
    let v ← orArgument (vaInt ap)
    return (k.put o (v.1.toNat % 256), v.2)
  | .D => do
    let up ← orArgument (vaBytes ap)
    let p ← orArgument (vaText up.2)
    let o ← convD k fl up.1 p.1 o
    return (o, p.2)
  | .d => convNumber k { fl with sign := true } 10 o ap
  | .n => do
    let i ← orArgument (vaObject ap)
    return (k.store o (storeSize fl) i.1, i.2)
  | .o => convNumber k { fl with sign := false } 8 o ap
  | .p => do
    let v ← orArgument (vaPointer ap)
    let o ← number k { fl with sharpflag := fl.width == 0, sign := false } (v.1.setWidth 64) 16 o
    return (o, v.2)
  | .r => convNumber k fl radix o ap
  | .s => do
    let p ← orArgument (vaText ap)
    let o ← convS k fl p.1 o
    return (o, p.2)
  | .u => convNumber k { fl with sign := false } 10 o ap
  | .X => convNumber k { fl with sign := false, upper := true } 16 o ap
  | .x => convNumber k { fl with sign := false } 16 o ap
  | .y => convNumber k { fl with sign := true } 16 o ap

/-! ## The loop -/

inductive KvPc where
  /-- between directives -/
  | text
  /-- at `reswitch` -/
  | reswitch
  /-- in the loop over the digits of a number, which is `n` so far -/
  | digits (n : Nat)
  deriving DecidableEq

/-- The state of `kvprintf`: the output, the arguments left, whether an unknown directive has been
found, and in a directive, its characters so far and its flags. -/
structure KvState (arch : Arch) (O : Type) where
  out : O
  ap : List (VaArg arch)
  stop : Bool := false
  pc : KvPc := .text
  percent : List Nat := []
  fl : Flags := {}

/-- The switch at `reswitch`, for the character `ch`. -/
def KvState.reswitch (radix : Nat) (s : KvState arch O) (ch : Nat) :
    Except KvStop (KvState arch O) :=
  let percent := s.percent ++ [ch]
  match caseOf ch with
  | .flag flag => .ok { s with pc := .reswitch, percent := percent, fl := s.fl.set flag }
  | .star => do
    let v ← orArgument (vaInt s.ap)
    let fl ← s.fl.star v.1
    return { s with ap := v.2, pc := .reswitch, percent := percent, fl := fl }
  | .zero =>
    let pc := if s.fl.dot then .digits (ch - 48) else .reswitch
    let fl := if s.fl.dot then s.fl else { s.fl with padc := 48 }
    .ok { s with pc := pc, percent := percent, fl := fl }
  | .digit => .ok { s with pc := .digits (ch - 48), percent := percent }
  | .conv conv => (convert k radix s.fl s.out s.ap conv).map fun r =>
    { out := r.1, ap := r.2, stop := s.stop }
  | .default => .ok { out := putText k percent s.out, ap := s.ap, stop := true }

/-- What `kvprintf` does with the next character of the format, `retval` apart. -/
def KvState.next (radix : Nat) (s : KvState arch O) (ch : Nat) : Except KvStop (KvState arch O) :=
  match s.pc with
  | .text =>
    if ch ≠ 37 ∨ s.stop then .ok { s with out := k.put s.out ch }
    else .ok { s with pc := .reswitch, percent := [ch], fl := {} }
  | .reswitch => s.reswitch k radix ch
  | .digits n =>
    if 48 ≤ ch ∧ ch ≤ 57 then
      (cInt (n * 10 + ch)).map fun _ =>
        { s with pc := .digits (n * 10 + ch - 48), percent := s.percent ++ [ch] }
    else
      { s with fl := s.fl.digits n }.reswitch k radix ch

/-- What `kvprintf` does with the next character of the format.  `retval` has been counted up for
what has been put out; that it is an `int` is looked at once for all of this. -/
def KvState.step (radix : Nat) (s : KvState arch O) (ch : Nat) :
    Except KvStop (KvState arch O) := do
  let s ← s.next k radix ch
  let _ ← cInt (k.retval s.out)
  return s

/-- The NUL of the format.  In a directive it is an unknown character, and what comes next is read
from behind it. -/
def KvState.atNul (s : KvState arch O) : Except KvStop (KvState arch O) :=
  match s.pc with
  | .text => .ok s
  | _ => .error .overread

/-- `"(fmt null)\n"`. -/
def nullFmt : List Nat := [40, 102, 109, 116, 32, 110, 117, 108, 108, 41, 10]

def KvState.start (o : O) (ap : List (VaArg arch)) : KvState arch O := { out := o, ap := ap }

/-- The radix `%r` prints with. -/
def clampRadix (radix : Nat) : Nat := if radix < 2 ∨ 36 < radix then 10 else radix

/-- `kvprintf`, for the characters in front of the NUL of a format; the result has the output and the
arguments that have not been read. -/
def kvprintf (fmt : Option (List Nat)) (radix : Nat) (ap : List (VaArg arch)) (o : O) :
    Except KvStop (KvState arch O) :=
  (Reader.run (KvState.step k (clampRadix radix)) (KvState.start o ap) (fmt.getD nullFmt)).bind
    KvState.atNul

/-! ## Callers -/

/-- What `func` works on, `retval`, and what `%n` has stored. -/
structure Out (S : Type) where
  arg : S
  retval : Nat := 0
  stores : List (StoreSize × Nat × Nat) := []
  deriving DecidableEq

/-- The output through `func`. -/
def Sink.ofFunc {S : Type} (func : S → Nat → S) : Sink (Out S) where
  put o c := { o with arg := func o.arg c, retval := o.retval + 1 }
  store o w i := { o with stores := o.stores ++ [(w, i, o.retval)] }
  retval o := o.retval

/-- A character as it is stored. -/
def storeChar (m : ByteMem) (a c : Nat) : ByteMem := Function.update m a (BitVec.ofNat 8 c)

/-- `struct snprintf_arg`, and the memory `str` points into. -/
structure SnprintfArg where
  mem : ByteMem
  str : Nat
  remain : Nat

def snprintfFunc (info : SnprintfArg) (ch : Nat) : SnprintfArg :=
  if 2 ≤ info.remain then ⟨storeChar info.mem info.str ch, info.str + 1, info.remain - 1⟩ else info

/-- `vsnrprintf`: the memory and the value returned. -/
def vsnrprintf (m : ByteMem) (str size radix : Nat) (fmt : Option (List Nat))
    (ap : List (VaArg arch)) : Except KvStop (ByteMem × Nat) :=
  (kvprintf (Sink.ofFunc snprintfFunc) fmt radix ap { arg := ⟨m, str, size⟩ }).map fun s =>
    let info := s.out.arg
    (if 1 ≤ info.remain then storeChar info.mem info.str 0 else info.mem, s.out.retval)

def vsnprintf (m : ByteMem) (str size : Nat) (fmt : Option (List Nat)) (ap : List (VaArg arch)) :
    Except KvStop (ByteMem × Nat) :=
  vsnrprintf m str size 10 fmt ap

/-- `*d++ = cc`, for a memory and `d`. -/
def storeFunc (md : ByteMem × Nat) (ch : Nat) : ByteMem × Nat :=
  (storeChar md.1 md.2 ch, md.2 + 1)

/-- `vsprintf`, where `func` is `NULL`. -/
def vsprintf (m : ByteMem) (buf : Nat) (fmt : Option (List Nat)) (ap : List (VaArg arch)) :
    Except KvStop (ByteMem × Nat) :=
  (kvprintf (Sink.ofFunc storeFunc) fmt 10 ap { arg := (m, buf) }).map fun s =>
    (storeChar s.out.arg.1 (buf + s.out.retval) 0, s.out.retval)

/-! ## The text printed

What `kvprintf` passes to `func` does not depend on `func`. -/

/-- The text itself, and what `%n` has stored. -/
structure Text where
  text : List Nat := []
  stores : List (StoreSize × Nat × Nat) := []
  deriving DecidableEq

def Sink.text : Sink Text where
  put o c := { o with text := o.text ++ [c] }
  store o w i := { o with stores := o.stores ++ [(w, i, o.text.length)] }
  retval o := o.text.length

/-- What a format and its arguments print. -/
def formatted (radix : Nat) (fmt : Option (List Nat)) (ap : List (VaArg arch)) :
    Except KvStop (List Nat) :=
  (kvprintf Sink.text fmt radix ap {}).map fun s => s.out.text

variable {O' : Type} {k' : Sink O'} {f : O → O'}

/-- One output is a function of another. -/
structure Sink.Hom (k : Sink O) (k' : Sink O') (f : O → O') : Prop where
  put : ∀ o c, k'.put (f o) c = f (k.put o c)
  store : ∀ o w i, k'.store (f o) w i = f (k.store o w i)
  retval : ∀ o, k'.retval (f o) = k.retval o

def KvState.map (f : O → O') (s : KvState arch O) : KvState arch O' := { s with out := f s.out }

variable {k : Sink O} (hf : k.Hom k' f)

include hf

theorem padding_map (c n : Nat) (o : O) :
    padding k' c n (f o) = f (padding k c n o) := by
  induction n generalizing o with
  | zero => rfl
  | succ n ih => rw [padding, padding, hf.put, ih]

theorem putText_map (t : List Nat) (o : O) :
    putText k' t (f o) = f (putText k t o) := by
  induction t generalizing o with
  | nil => rfl
  | cons c t ih => rw [putText, putText, hf.put, ih]

theorem putBack_map (nbuf : List Nat) (p : Nat) (o : O) :
    putBack k' nbuf p (f o) = f (putBack k nbuf p o) := by
  induction p generalizing o with
  | zero => rfl
  | succ p ih =>
      rw [putBack, putBack]
      split
      · rfl
      · rw [hf.put, ih]

theorem putNumber_map (ladjust neg : Bool) (pre : List Nat) (width dwidth : Int)
    (nbuf : List Nat) (o : O) :
    putNumber k' ladjust neg pre width dwidth nbuf (f o) =
      f (putNumber k ladjust neg pre width dwidth nbuf o) := by
  cases ladjust <;> cases neg <;>
    simp [putNumber, padding_map hf, putText_map hf, putBack_map hf, hf.put]

theorem number_map (fl : Flags) (num : BitVec 64) (base : Nat) (o : O) :
    number k' fl num base (f o) = (number k fl num base o).map f := by
  rw [number, number]
  split
  · rfl
  · simp only [putNumber_map hf]
    cases numberRoom fl _ _ _ <;> rfl

theorem bitNames_map (num : BitVec 32) (p : List Nat) (name : Option Bool) (tmp : Bool)
    (o : O) :
    bitNames k' num p name tmp (f o) = (bitNames k num p name tmp o).map (f) := by
  induction p generalizing name tmp o with
  | nil =>
      rw [bitNames, bitNames]
      split <;> simp [hf.put]
  | cons c p ih =>
      rw [bitNames, bitNames]
      split_ifs <;> first | rw [hf.put, ih] | rw [ih] | rfl

theorem convB_map (num : BitVec 32) (p : Option (List Nat)) (o : O) :
    convB k' num p (f o) = (convB k num p o).map (f) := by
  rcases p with _ | _ | ⟨base, p⟩
  · rfl
  · rfl
  · simp only [convB, putBack_map hf, bitNames_map hf]
    split_ifs <;> rfl

theorem hexdump_map (p : List Nat) (width : Nat) (up : List Nat) (o : O) :
    hexdump k' p width up (f o) = (hexdump k p width up o).map (f) := by
  induction width generalizing up o with
  | zero => rfl
  | succ width ih =>
      cases up with
      | nil => rfl
      | cons b up =>
          simp only [hexdump, hf.put, putText_map hf]
          split_ifs <;> rw [ih]

theorem convD_map (fl : Flags) (up : List Nat) (p : Option (List Nat)) (o : O) :
    convD k' fl up p (f o) = (convD k fl up p o).map f := by
  cases p with
  | none => rfl
  | some p =>
      simp only [convD, hexdump_map hf]
      split
      · rfl
      · cases hexdump k p _ up o <;> rfl

omit hf in
theorem bind_map {A B B' : Type} {g : A → Except KvStop B} {g' : A → Except KvStop B'} {h : B → B'}
    (x : Except KvStop A) (hg : ∀ a, g' a = (g a).map h) : (x >>= g') = (x >>= g).map h := by
  cases x with
  | error e => rfl
  | ok a => exact hg a

theorem convS_map (fl : Flags) (p : Option (List Nat)) (o : O) :
    convS k' fl p (f o) = (convS k fl p o).map f := by
  refine bind_map _ fun n => bind_map _ fun width => ?_
  cases fl.ladjust <;> simp [padding_map hf, putText_map hf] <;> rfl

omit hf in
theorem with_args_map {A : Type} (x : Except KvStop O) (ap : A) :
    (do let o ← x.map f; return (o, ap)) = (do let o ← x; return (o, ap)).map (Prod.map f id) := by
  cases x <;> rfl

theorem convNumber_map (fl : Flags) (base : Nat) (o : O) (ap : List (VaArg arch)) :
    convNumber k' fl base (f o) ap = (convNumber k fl base o ap).map (Prod.map f id) := by
  simp only [convNumber, number_map hf]
  exact bind_map _ fun num => with_args_map ..

theorem convert_map (radix : Nat) (fl : Flags) (o : O) (ap : List (VaArg arch))
    (conv : Conv) :
    convert k' radix fl (f o) ap conv = (convert k radix fl o ap conv).map (Prod.map f id) := by
  cases conv with
  | d | o | r | u | X | x | y => exact convNumber_map hf ..
  | percent =>
      rw [convert, convert, hf.put]
      rfl
  | c =>
      simp only [convert, hf.put]
      exact bind_map _ fun v => rfl
  | p =>
      simp only [convert, number_map hf]
      exact bind_map _ fun v => with_args_map ..
  | s =>
      simp only [convert, convS_map hf]
      exact bind_map _ fun p => with_args_map ..
  | n =>
      simp only [convert, hf.store]
      exact bind_map _ fun i => rfl
  | b =>
      simp only [convert, convB_map hf]
      refine bind_map _ fun num => bind_map _ fun p => ?_
      cases convB k num.1 p.1 o <;> rfl
  | D =>
      simp only [convert, convD_map hf]
      exact bind_map _ fun up => bind_map _ fun p => with_args_map ..

theorem reswitch_map (radix : Nat) (s : KvState arch O) (ch : Nat) :
    (s.map f).reswitch k' radix ch = (s.reswitch k radix ch).map (KvState.map f) := by
  rw [KvState.reswitch, KvState.reswitch]
  cases caseOf ch with
  | flag _ => rfl
  | star =>
      dsimp only [KvState.map]
      exact bind_map _ fun v => bind_map _ fun fl => rfl
  | zero | digit => rfl
  | conv conv =>
      dsimp only [KvState.map]
      rw [convert_map hf]
      cases convert k radix s.fl s.out s.ap conv <;> rfl
  | default =>
      dsimp only [KvState.map]
      rw [putText_map hf]
      rfl

theorem next_map (radix : Nat) (s : KvState arch O) (ch : Nat) :
    (s.map f).next k' radix ch = (s.next k radix ch).map (KvState.map f) := by
  obtain ⟨out, ap, stop, pc, percent, fl⟩ := s
  cases pc with
  | text =>
      simp only [KvState.next, KvState.map, hf.put]
      split <;> rfl
  | reswitch => exact reswitch_map hf ..
  | digits n =>
      by_cases hch : 48 ≤ ch ∧ ch ≤ 57
      · simp only [KvState.next, KvState.map, if_pos hch]
        cases cInt (n * 10 + ch) <;> rfl
      · simp only [KvState.next, KvState.map, if_neg hch]
        exact reswitch_map hf radix ⟨out, ap, stop, .digits n, percent, fl.digits n⟩ ch

theorem step_map (radix : Nat) (s : KvState arch O) (ch : Nat) :
    (s.map f).step k' radix ch = (s.step k radix ch).map (KvState.map f) := by
  rw [KvState.step, KvState.step, next_map hf]
  cases s.next k radix ch with
  | error e => rfl
  | ok s =>
      show (cInt (k'.retval (f s.out))).bind _ = ((cInt (k.retval s.out)).bind _).map _
      rw [hf.retval]
      cases cInt (k.retval s.out) <;> rfl

/-- Where one output is a function of another, so is what `kvprintf` makes of it. -/
theorem kvprintf_map (fmt : Option (List Nat)) (radix : Nat) (ap : List (VaArg arch))
    (o : O) :
    kvprintf k' fmt radix ap (f o) =
      (kvprintf k fmt radix ap o).map (KvState.map f) := by
  have hrun := Reader.run_map (KvState.map f) (step_map hf (clampRadix radix)) (KvState.start o ap)
    (fmt.getD nullFmt)
  rw [kvprintf, kvprintf]
  change (Reader.run _ ((KvState.start o ap).map f) _).bind _ = _
  rw [hrun]
  cases Reader.run (KvState.step k (clampRadix radix)) (KvState.start o ap) (fmt.getD nullFmt) with
  | error e => rfl
  | ok s =>
      show KvState.atNul (s.map f) = s.atNul.map (KvState.map f)
      obtain ⟨out, ap, stop, pc, percent, fl⟩ := s
      cases pc <;> rfl

omit hf

/-- **The output through any `func`** is what it makes of the text. -/
theorem kvprintf_ofFunc {S : Type} (func : S → Nat → S) (a : S) (fmt : Option (List Nat))
    (radix : Nat) (ap : List (VaArg arch)) :
    kvprintf (Sink.ofFunc func) fmt radix ap { arg := a } =
      (kvprintf Sink.text fmt radix ap {}).map
        (KvState.map fun o => ⟨o.text.foldl func a, o.text.length, o.stores⟩) := by
  have hom : Sink.text.Hom (Sink.ofFunc func)
      fun o => ⟨o.text.foldl func a, o.text.length, o.stores⟩ :=
    { put := fun o c => by simp [Sink.ofFunc, Sink.text]
      store := fun _ _ _ => rfl
      retval := fun _ => rfl }
  exact kvprintf_map hom fmt radix ap {}

/-! ## Buffers -/

def writeText (m : ByteMem) (a : Nat) (t : List Nat) : ByteMem := fun x =>
  if a ≤ x ∧ x < a + t.length then BitVec.ofNat 8 (t.getD (x - a) 0) else m x

@[simp] theorem writeText_nil (m : ByteMem) (a : Nat) : writeText m a [] = m := by
  funext x
  exact if_neg (by simp)

theorem storeChar_writeText (m : ByteMem) (a c : Nat) (t : List Nat) :
    storeChar (writeText m a t) (a + t.length) c = writeText m a (t ++ [c]) := by
  funext x
  rw [storeChar, Function.update_apply, writeText, writeText, List.length_append,
    List.length_singleton]
  by_cases hx : x = a + t.length
  · rw [if_pos hx, if_pos (by omega), List.getD_append_right _ _ _ _ (by omega)]
    simp [hx]
  · rw [if_neg hx]
    by_cases hin : a ≤ x ∧ x < a + t.length
    · rw [if_pos hin, if_pos (by omega), List.getD_append _ _ _ _ (by omega)]
    · rw [if_neg hin, if_neg (by omega)]

theorem foldl_storeFunc (m : ByteMem) (a : Nat) (t : List Nat) :
    t.foldl storeFunc (m, a) = (writeText m a t, a + t.length) := by
  induction t using List.reverseRecOn with
  | nil => simp
  | append_singleton t c ih =>
      rw [List.foldl_append, ih, List.foldl_cons, List.foldl_nil, storeFunc, storeChar_writeText]
      simp [Nat.add_assoc]

/-- The room that is left is one byte, for the NUL, once `size - 1` characters are stored. -/
theorem foldl_snprintfFunc (m : ByteMem) (a size : Nat) (t : List Nat) :
    t.foldl snprintfFunc ⟨m, a, size⟩ =
      ⟨writeText m a (t.take (size - 1)), a + min t.length (size - 1),
        size - min t.length (size - 1)⟩ := by
  induction t using List.reverseRecOn with
  | nil => simp
  | append_singleton t c ih =>
      rw [List.foldl_append, ih, List.foldl_cons, List.foldl_nil, snprintfFunc,
        List.length_append, List.length_singleton]
      by_cases hroom : t.length < size - 1
      · have hmin : min t.length (size - 1) = t.length := by omega
        have hmin' : min (t.length + 1) (size - 1) = t.length + 1 := by omega
        rw [hmin, hmin', if_pos (by simp only; omega), List.take_of_length_le (by omega),
          List.take_of_length_le (by simp; omega), storeChar_writeText]
        simp only [SnprintfArg.mk.injEq, true_and]
        omega
      · have hmin : min (t.length + 1) (size - 1) = min t.length (size - 1) := by omega
        rw [hmin, if_neg (by simp only; omega), List.take_append_of_le_length (by omega)]

theorem retval_of_step {radix : Nat} {s s' : KvState arch Text} {ch : Nat}
    (h : s.step Sink.text radix ch = .ok s') : s'.out.text.length < 2 ^ 31 := by
  obtain ⟨u, -, hret⟩ := Reader.bind_eq_ok.mp h
  obtain ⟨n, hn, heq⟩ := Reader.bind_eq_ok.mp hret
  obtain rfl := Except.ok.inj heq
  have hint := (cInt_eq_ok.mp hn).1
  simp only [InInt, Sink.text] at hint
  omega

theorem length_formatted {radix : Nat} {fmt : Option (List Nat)} {ap : List (VaArg arch)}
    {t : List Nat} (h : formatted radix fmt ap = .ok t) : t.length < 2 ^ 31 := by
  obtain ⟨s, hs, rfl⟩ := Reader.map_eq_ok.mp h
  obtain ⟨u, hu, hnul⟩ := Reader.bind_eq_ok.mp hs
  have hlen : u.out.text.length < 2 ^ 31 :=
    Reader.run_invariant (fun _ hstep => retval_of_step hstep)
      (show ([] : List Nat).length < 2 ^ 31 by decide) hu
  rw [KvState.atNul] at hnul
  split at hnul <;> cases hnul
  exact hlen

/-- Where a format ends: between directives, in one, or after an unknown one. -/
inductive Place where
  | text
  | directive
  | copied
  deriving DecidableEq, Repr

def Place.next : Place → Nat → Place
  | .text, c => if c = 37 then .directive else .text
  | .directive, c =>
    match caseOf c with
    | .conv _ => .text
    | .default => .copied
    | _ => .directive
  | .copied, _ => .copied

def placeAfter (t : List Nat) : Place := t.foldl Place.next .text

/-- A state of `kvprintf` at a place of the format. -/
def KvState.At (s : KvState arch O) : Place → Prop
  | .text => s = KvState.start s.out s.ap
  | .directive => s.pc ≠ .text ∧ s.stop = false
  | .copied => s.pc = .text ∧ s.stop = true

variable {radix : Nat} {s s' : KvState arch O} {ch : Nat}

theorem next_digit (h : 48 ≤ ch ∧ ch ≤ 57) : Place.directive.next ch = .directive := by
  obtain ⟨n, rfl⟩ := Nat.exists_eq_add_of_le h.1
  have hn : n < 10 := by omega
  interval_cases n <;> rfl

theorem reswitch_at (hstop : s.stop = false) (h : s.reswitch k radix ch = .ok s') :
    s'.At (Place.directive.next ch) := by
  rw [KvState.reswitch] at h
  rw [Place.next]
  cases hcase : caseOf ch with
  | flag flag =>
      rw [hcase] at h
      cases h
      exact ⟨nofun, hstop⟩
  | star =>
      rw [hcase] at h
      obtain ⟨v, -, hv⟩ := Reader.bind_eq_ok.mp h
      obtain ⟨fl, -, hfl⟩ := Reader.bind_eq_ok.mp hv
      cases hfl
      exact ⟨nofun, hstop⟩
  | zero =>
      rw [hcase] at h
      cases h
      refine ⟨?_, hstop⟩
      show (if s.fl.dot then KvPc.digits (ch - 48) else KvPc.reswitch) ≠ .text
      split <;> nofun
  | digit =>
      rw [hcase] at h
      cases h
      exact ⟨nofun, hstop⟩
  | conv conv =>
      rw [hcase] at h
      obtain ⟨r, -, rfl⟩ := Reader.map_eq_ok.mp h
      rw [hstop]
      rfl
  | default =>
      rw [hcase] at h
      cases h
      exact ⟨rfl, rfl⟩

theorem next_at {p : Place} (hs : s.At p) (h : s.next k radix ch = .ok s') :
    s'.At (p.next ch) := by
  obtain ⟨out, ap, stop, pc, percent, fl⟩ := s
  cases p with
  | text =>
      cases hs
      rw [KvState.next, Place.next] at *
      by_cases hch : ch = 37
      · rw [if_neg (by simp [hch])] at h
        cases h
        rw [if_pos hch]
        exact ⟨nofun, rfl⟩
      · rw [if_pos (Or.inl hch)] at h
        cases h
        rw [if_neg hch]
        rfl
  | directive =>
      obtain ⟨hpc, hstop⟩ := hs
      cases pc with
      | text => exact absurd rfl hpc
      | reswitch => exact reswitch_at hstop h
      | digits n =>
          rw [KvState.next] at h
          dsimp only at h
          split at h
          · next hdigit =>
            obtain ⟨_, -, rfl⟩ := Reader.map_eq_ok.mp h
            rw [next_digit hdigit]
            exact ⟨nofun, hstop⟩
          · exact @reswitch_at _ _ _ _ ⟨out, ap, stop, .digits n, percent, fl.digits n⟩ _ _ hstop h
  | copied =>
      obtain ⟨hpc, hstop⟩ := hs
      cases hpc
      cases hstop
      rw [KvState.next, if_pos (Or.inr rfl)] at h
      cases h
      exact ⟨rfl, rfl⟩

theorem step_at {p : Place} (hs : s.At p) (h : s.step k radix ch = .ok s') :
    s'.At (p.next ch) := by
  obtain ⟨u, hnext, hret⟩ := Reader.bind_eq_ok.mp h
  obtain ⟨_, -, heq⟩ := Reader.bind_eq_ok.mp hret
  obtain rfl := Except.ok.inj heq
  exact next_at hs hnext

theorem run_at {o : O} {ap : List (VaArg arch)} {t : List Nat}
    (h : Reader.run (KvState.step k radix) (KvState.start o ap) t = .ok s) :
    s.At (placeAfter t) :=
  Reader.run_abstract (fun p s => s.At p) Place.next (fun hs h => step_at hs h)
    (show (KvState.start o ap).At .text from rfl) h

/-- **Formats can be put together**: where the first one does not end in a directive and has no
unknown one, printing the two at once prints one after the other. -/
theorem kvprintf_append (k : Sink O) (radix : Nat) {t : List Nat} (u : List Nat)
    (ap : List (VaArg arch)) (o : O) (ht : placeAfter t = .text) :
    kvprintf k (some (t ++ u)) radix ap o =
      (kvprintf k (some t) radix ap o).bind fun s => kvprintf k (some u) radix s.ap s.out := by
  rw [kvprintf, kvprintf, Option.getD_some, Option.getD_some, Reader.run_append]
  cases hrun : Reader.run (KvState.step k (clampRadix radix)) (KvState.start o ap) t with
  | error e => rfl
  | ok s =>
      have hs : s = KvState.start s.out s.ap := by
        have hat := run_at hrun
        rwa [ht] at hat
      have hnul : s.atNul = .ok s := by rw [hs]; rfl
      simp only [Except.bind, hnul, kvprintf, Option.getD_some]
      rw [← hs]

theorem kvprintf_append_sample :
    kvprintf Sink.text (some ([37, 100] ++ [37, 115])) 10
        [(.int 42 : VaArg .amd64), .text (some [33])] {} =
      (kvprintf Sink.text (some [37, 100]) 10 [(.int 42 : VaArg .amd64), .text (some [33])] {}).bind
        fun s => kvprintf Sink.text (some [37, 115]) 10 s.ap s.out :=
  kvprintf_append Sink.text 10 [37, 115] _ {} rfl

/-! ### Reading past the NUL -/

/-- The format has not been read past its NUL. -/
structure NoOverread {A : Type} (x : Except KvStop A) : Prop where
  ne : x ≠ .error .overread

theorem noOverread_orArgument {A : Type} (v : Option A) : NoOverread (orArgument v) := by
  cases v <;> exact ⟨nofun⟩

theorem noOverread_cInt (x : Int) : NoOverread (cInt x) := by
  rw [cInt]
  split <;> exact ⟨nofun⟩

theorem NoOverread.bind {A B : Type} {x : Except KvStop A} {g : A → Except KvStop B}
    (hx : NoOverread x) (hg : ∀ a, NoOverread (g a)) : NoOverread (x >>= g) := by
  cases x with
  | error e => exact ⟨fun h => hx.ne (congrArg _ (Except.error.inj h))⟩
  | ok a => exact hg a

theorem NoOverread.map {A B : Type} {x : Except KvStop A} (hx : NoOverread x) (f : A → B) :
    NoOverread (x.map f) :=
  ⟨fun h => hx.ne (Reader.map_eq_error.mp h)⟩

theorem noOverread_numberRoom (fl : Flags) (neg : Bool) (pre : List Nat) (n : Nat) :
    NoOverread (numberRoom fl neg pre n) :=
  (noOverread_cInt _).bind fun _ => (noOverread_cInt _).bind fun _ =>
    (noOverread_cInt _).bind fun _ => (noOverread_cInt _).bind fun _ =>
      (noOverread_cInt _).bind fun _ => (noOverread_cInt _).bind fun _ => ⟨nofun⟩

theorem noOverread_number (k : Sink O) (fl : Flags) (num : BitVec 64) (base : Nat) (o : O) :
    NoOverread (number k fl num base o) := by
  rw [number]
  split
  · exact ⟨nofun⟩
  · exact (noOverread_numberRoom ..).map _

theorem noOverread_convNumber (k : Sink O) (fl : Flags) (base : Nat) (o : O)
    (ap : List (VaArg arch)) : NoOverread (convNumber k fl base o ap) :=
  (noOverread_orArgument _).bind fun _ =>
    (noOverread_number ..).bind fun _ => ⟨nofun⟩

theorem noOverread_convD (k : Sink O) (fl : Flags) (up : List Nat) (p : Option (List Nat))
    (o : O) : NoOverread (convD k fl up p o) := by
  cases p with
  | none => exact ⟨nofun⟩
  | some p =>
      rw [convD]
      split
      · exact ⟨nofun⟩
      · exact noOverread_orArgument _

theorem noOverread_convS (k : Sink O) (fl : Flags) (p : Option (List Nat)) (o : O) :
    NoOverread (convS k fl p o) := by
  refine NoOverread.bind ?_ fun _ => (noOverread_cInt _).bind fun _ => ⟨nofun⟩
  rw [textLength]
  split
  · exact ⟨nofun⟩
  · exact (noOverread_cInt _).map _

theorem noOverread_convert (k : Sink O) (radix : Nat) (fl : Flags) (o : O) (ap : List (VaArg arch))
    (conv : Conv) : NoOverread (convert k radix fl o ap conv) := by
  have harg := @noOverread_orArgument
  cases conv with
  | d | o | r | u | X | x | y => exact noOverread_convNumber ..
  | percent => exact ⟨nofun⟩
  | c | n => exact (harg _).bind fun _ => ⟨nofun⟩
  | b =>
      exact (harg _).bind fun _ => (harg _).bind fun _ =>
        (harg _).bind fun _ => ⟨nofun⟩
  | D =>
      exact (harg _).bind fun _ => (harg _).bind fun _ =>
        (noOverread_convD ..).bind fun _ => ⟨nofun⟩
  | p => exact (harg _).bind fun _ => (noOverread_number ..).bind fun _ => ⟨nofun⟩
  | s => exact (harg _).bind fun _ => (noOverread_convS ..).bind fun _ => ⟨nofun⟩

theorem noOverread_star (fl : Flags) (v : BitVec 32) : NoOverread (fl.star v) := by
  rw [Flags.star]
  split
  · exact ⟨nofun⟩
  · split
    · exact (noOverread_cInt _).map _
    · exact ⟨nofun⟩

theorem noOverread_reswitch (s : KvState arch O) (ch : Nat) :
    NoOverread (s.reswitch k radix ch) := by
  rw [KvState.reswitch]
  cases caseOf ch with
  | star =>
      exact (noOverread_orArgument _).bind fun _ =>
        (noOverread_star ..).bind fun _ => ⟨nofun⟩
  | conv conv => exact (noOverread_convert ..).map _
  | _ => exact ⟨nofun⟩

theorem noOverread_step (s : KvState arch O) (ch : Nat) :
    NoOverread (s.step k radix ch) := by
  refine NoOverread.bind ?_ fun _ => (noOverread_cInt _).bind fun _ => ⟨nofun⟩
  rw [KvState.next]
  split
  · split <;> exact ⟨nofun⟩
  · exact noOverread_reswitch ..
  · split
    · exact (noOverread_cInt _).map _
    · exact noOverread_reswitch ..

theorem step_error {s : KvState arch O} {ch : Nat} {e : KvStop}
    (h : s.step k radix ch = .error e) : e ≠ .overread := by
  rintro rfl
  exact (noOverread_step s ch).ne h

/-- **A format is read past its NUL** exactly if it ends in a directive, provided that the arguments
it has read by then are there and that no `int` has overflowed.  Otherwise `kvprintf` returns. -/
theorem kvprintf_overread_iff (k : Sink O) (radix : Nat) (t : List Nat) (ap : List (VaArg arch))
    (o : O) (hap : kvprintf k (some t) radix ap o ≠ .error .argument)
    (hint : kvprintf k (some t) radix ap o ≠ .error .overflow) :
    (kvprintf k (some t) radix ap o = .error .overread ↔ placeAfter t = .directive) ∧
      ((∃ s, kvprintf k (some t) radix ap o = .ok s) ↔ placeAfter t ≠ .directive) := by
  rw [kvprintf, Option.getD_some] at *
  cases hrun : Reader.run (KvState.step k (clampRadix radix)) (KvState.start o ap) t with
  | error e =>
      have he : e ≠ .overread := Reader.run_error step_error hrun
      rw [hrun] at hap hint
      cases e with
      | overread => exact absurd rfl he
      | argument => exact absurd rfl hap
      | overflow => exact absurd rfl hint
  | ok s =>
      have hat := run_at hrun
      rw [show (Except.ok s).bind KvState.atNul = s.atNul from rfl, KvState.atNul]
      cases hp : placeAfter t with
      | directive =>
          rw [hp] at hat
          cases hpc : s.pc with
          | text => exact absurd hpc hat.1
          | _ => simp
      | text =>
          rw [hp] at hat
          rw [hat]
          simp [KvState.start]
      | copied =>
          rw [hp] at hat
          rw [hat.1]
          simp

theorem kvprintf_overread_iff_sample :
    (kvprintf Sink.text (some [37, 108]) 10 ([] : List (VaArg .amd64)) {} = .error .overread ↔
        placeAfter [37, 108] = .directive) ∧
      ((∃ s, kvprintf Sink.text (some [37, 108]) 10 ([] : List (VaArg .amd64)) {} = .ok s) ↔
        placeAfter [37, 108] ≠ .directive) :=
  kvprintf_overread_iff Sink.text 10 [37, 108] [] {} (fun h => nomatch h) fun h => nomatch h

end Shv.Stdio
