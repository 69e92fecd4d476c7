/-
# `Shv.TimerInit` — `timer_init` of `shv-timer.c`

The boot processor programs the PIT with `TIMER_RATE * g_timer_ms / 1000` cycles, and every CPU its
local APIC timer with `g_timer_ms * 1000000`.  `g_timer_ms` is whatever the command line says.  The
one check is that the number of cycles fits in 16 bits, and it comes after the product: a period
whose product wraps is accepted when it wraps to a small number.  And nothing asks for a period
other than 0.  `timer_exact_iff` says that these two are all that can go wrong.
-/
import Shv.Bitfield
import Shv.Cmdline
import Shv.Madt

namespace Shv

/-! ## The code -/

inductive TimerOp where
  | outb (port : BitVec 16) (val : BitVec 8)
  | stiHltCli
  | writeLapic (reg val : BitVec 32)
  deriving DecidableEq, Repr

def timerRate : BitVec 64 := 1193182#64

def timerPeriodIoPort : BitVec 16 := 0x40#16

def timerModeIoPort : BitVec 16 := 0x43#16

def timerSquareWave : BitVec 8 := 0x36#8
def timerOneShot : BitVec 8 := 0x30#8

def lapicSvr : BitVec 32 := 0x0f0#32
def lapicLvtTimer : BitVec 32 := 0x320#32
def lapicTimerInit : BitVec 32 := 0x380#32
def lapicTimerDiv : BitVec 32 := 0x3e0#32
def lapicEnable : BitVec 32 := 0x00000100#32

def shvNoInterrupt : BitVec 64 := 0x200#64

/-- `LAPIC_PERIOD`, 64 bits wide. -/
def lapicPeriod (timerMs : BitVec 64) : BitVec 64 := timerMs * 1000000#64

/-- `ncycles`, in the width of `g_timer_ms`. -/
def ncyclesOf (timerMs : BitVec 64) : BitVec 64 := timerRate * timerMs / 1000#64

/-- The boot processor's part of `timer_init`. -/
def pitInit (shvOpt timerMs : BitVec 64) : Halting (List TimerOp) := do
  let ncycles := ncyclesOf timerMs
  cAssert (ncycles == (ncycles.setWidth 16).setWidth 64)
  if shvOpt &&& shvNoInterrupt ≠ 0 then
    return [.outb timerModeIoPort timerOneShot, .outb timerPeriodIoPort 1,
      .outb timerPeriodIoPort 0, .stiHltCli]
  else
    return [.outb timerModeIoPort timerSquareWave, .outb timerPeriodIoPort (ncycles.setWidth 8),
      .outb timerPeriodIoPort ((ncycles >>> 8).setWidth 8)]

/-- The rest of `timer_init`, where reading `LAPIC_SVR` gives `svr`: every other processor enables
its local APIC, and the timer is programmed on all.  `write_lapic` takes a `u32`. -/
def lapicInit (isbsp : Bool) (shvOpt nmiOpt timerMs : BitVec 64) (svr : BitVec 32) :
    List TimerOp :=
  (if isbsp then [] else [.writeLapic lapicSvr (svr ||| lapicEnable)]) ++
    if shvOpt &&& shvNoInterrupt = 0 ∧ nmiOpt &&& shvNmiEnable = 0 then
      [.writeLapic lapicTimerDiv 0x0000000b,
        .writeLapic lapicTimerInit ((lapicPeriod timerMs).setWidth 32),
        .writeLapic lapicLvtTimer 0x00020022]
    else []

def timerInit (isbsp : Bool) (shvOpt nmiOpt timerMs : BitVec 64) (svr : BitVec 32) :
    Halting (List TimerOp) := do
  let pit ← if isbsp then pitInit shvOpt timerMs else pure []
  return pit ++ lapicInit isbsp shvOpt nmiOpt timerMs svr

/-! ## What the devices are set to -/

/-- The byte an operation sends to the PIT's period port. -/
def TimerOp.periodByte : TimerOp → Option (BitVec 8)
  | .outb port val => if port = timerPeriodIoPort then some val else none
  | _ => none

/-- The initial count an operation gives the local APIC timer. -/
def TimerOp.initialCount : TimerOp → Option (BitVec 32)
  | .writeLapic reg val => if reg = lapicTimerInit then some val else none
  | _ => none

/-- The bytes of the PIT's reload value, low byte first. -/
def periodBytes (ops : List TimerOp) : List (BitVec 8) := ops.filterMap TimerOp.periodByte

/-- The initial counts the local APIC timer is given. -/
def initialCounts (ops : List TimerOp) : List (BitVec 32) := ops.filterMap TimerOp.initialCount

/-- If the boot processor gets past its assertion, the PIT and every local APIC count what
`timerMs` milliseconds are. -/
def TimerExact (shvOpt nmiOpt timerMs : BitVec 64) : Prop :=
  ∀ svr ops, timerInit true shvOpt nmiOpt timerMs svr = some ops →
    (∃ lo hi, periodBytes ops = [lo, hi] ∧ lo.toNat + 256 * hi.toNat ≠ 0 ∧
      lo.toNat + 256 * hi.toNat = 1193182 * timerMs.toNat / 1000) ∧
    ∀ isbsp svr' ops', timerInit isbsp shvOpt nmiOpt timerMs svr' = some ops' →
      ∀ c ∈ initialCounts ops', c.toNat = timerMs.toNat * 1000000

variable {shvOpt nmiOpt timerMs : BitVec 64}

theorem ncyclesOf_toNat (timerMs : BitVec 64) :
    (ncyclesOf timerMs).toNat = 1193182 * timerMs.toNat % 2 ^ 64 / 1000 := by
  rw [ncyclesOf, BitVec.toNat_udiv, BitVec.toNat_mul]
  rfl

theorem ncycles_fits (n : BitVec 64) :
    (n == (n.setWidth 16).setWidth 64) = decide (n.toNat < 65536) := by
  rw [Bool.eq_iff_iff, beq_iff_eq, decide_eq_true_eq, ← BitVec.toNat_inj, BitVec.toNat_setWidth,
    BitVec.toNat_setWidth]
  omega

/-- The boot processor passes when the product, as far as 64 bits hold it, is small; the two bytes
then are the quotient. -/
theorem pitInit_eq (h : shvOpt &&& shvNoInterrupt = 0) :
    pitInit shvOpt timerMs =
      if 1193182 * timerMs.toNat % 2 ^ 64 < 65536000 then
        some [.outb timerModeIoPort timerSquareWave,
          .outb timerPeriodIoPort ((ncyclesOf timerMs).setWidth 8),
          .outb timerPeriodIoPort ((ncyclesOf timerMs >>> 8).setWidth 8)]
      else none := by
  have hnum := ncyclesOf_toNat timerMs
  rw [pitInit, ncycles_fits]
  by_cases hlt : 1193182 * timerMs.toNat % 2 ^ 64 < 65536000
  · have hfits : (ncyclesOf timerMs).toNat < 65536 := by omega
    rw [if_pos hlt, decide_eq_true hfits, h]
    rfl
  · have hbig : ¬ (ncyclesOf timerMs).toNat < 65536 := by omega
    rw [if_neg hlt, decide_eq_false hbig]
    rfl

theorem bytes_of_cycles {n : BitVec 64} (h : n.toNat < 65536) :
    (n.setWidth 8).toNat + 256 * ((n >>> 8).setWidth 8).toNat = n.toNat := by
  rw [BitVec.toNat_setWidth, BitVec.toNat_setWidth, BitVec.toNat_ushiftRight,
    Nat.shiftRight_eq_div_pow]
  omega

theorem periodBytes_lapicInit (isbsp : Bool) (svr : BitVec 32) :
    periodBytes (lapicInit isbsp shvOpt nmiOpt timerMs svr) = [] := by
  by_cases hon : shvOpt &&& shvNoInterrupt = 0 ∧ nmiOpt &&& shvNmiEnable = 0
  · rw [lapicInit, if_pos hon]
    cases isbsp <;> rfl
  · rw [lapicInit, if_neg hon]
    cases isbsp <;> rfl

/-- The local APIC part writes no other initial count than the low half of `LAPIC_PERIOD`. -/
theorem mem_initialCounts_lapicInit {isbsp : Bool} {svr c : BitVec 32}
    (hc : c ∈ initialCounts (lapicInit isbsp shvOpt nmiOpt timerMs svr)) :
    c.toNat = timerMs.toNat * 1000000 % 2 ^ 32 := by
  have hval : ((lapicPeriod timerMs).setWidth 32).toNat = timerMs.toNat * 1000000 % 2 ^ 32 := by
    rw [BitVec.toNat_setWidth, lapicPeriod, BitVec.toNat_mul]
    exact Nat.mod_mod_of_dvd _ (by decide)
  by_cases hon : shvOpt &&& shvNoInterrupt = 0 ∧ nmiOpt &&& shvNmiEnable = 0
  · have hcounts : initialCounts (lapicInit isbsp shvOpt nmiOpt timerMs svr) =
        [(lapicPeriod timerMs).setWidth 32] := by
      rw [lapicInit, if_pos hon]
      cases isbsp <;> rfl
    rw [hcounts, List.mem_singleton] at hc
    rw [hc, hval]
  · have hcounts : initialCounts (lapicInit isbsp shvOpt nmiOpt timerMs svr) = [] := by
      rw [lapicInit, if_neg hon]
      cases isbsp <;> rfl
    rw [hcounts] at hc
    cases hc

/-- The boot processor programs the PIT with the quotient of the product as 64 bits hold it. -/
theorem timerInit_isbsp (h : shvOpt &&& shvNoInterrupt = 0) {svr : BitVec 32} {ops : List TimerOp}
    (hrun : timerInit true shvOpt nmiOpt timerMs svr = some ops) :
    1193182 * timerMs.toNat % 2 ^ 64 < 65536000 ∧ ∃ lo hi, periodBytes ops = [lo, hi] ∧
      lo.toNat + 256 * hi.toNat = 1193182 * timerMs.toNat % 2 ^ 64 / 1000 := by
  rw [timerInit, if_pos rfl, pitInit_eq h] at hrun
  split at hrun
  next hlt =>
      have hfits : (ncyclesOf timerMs).toNat < 65536 := by
        rw [ncyclesOf_toNat]
        omega
      obtain rfl := Option.some.inj hrun
      refine ⟨hlt, (ncyclesOf timerMs).setWidth 8, (ncyclesOf timerMs >>> 8).setWidth 8, ?_, ?_⟩
      · rw [periodBytes, List.filterMap_append, ← periodBytes, ← periodBytes,
          periodBytes_lapicInit, List.append_nil]
        rfl
      · rw [bytes_of_cycles hfits, ncyclesOf_toNat]
  next => cases hrun

/-- No processor writes another initial count than the low half of `LAPIC_PERIOD`. -/
theorem mem_initialCounts (h : shvOpt &&& shvNoInterrupt = 0) {isbsp : Bool} {svr : BitVec 32}
    {ops : List TimerOp} (hrun : timerInit isbsp shvOpt nmiOpt timerMs svr = some ops)
    {c : BitVec 32} (hc : c ∈ initialCounts ops) :
    c.toNat = timerMs.toNat * 1000000 % 2 ^ 32 := by
  cases isbsp with
  | false =>
      obtain rfl := Option.some.inj hrun
      exact mem_initialCounts_lapicInit hc
  | true =>
      rw [timerInit, if_pos rfl, pitInit_eq h] at hrun
      split at hrun
      next =>
          obtain rfl := Option.some.inj hrun
          rw [initialCounts, List.filterMap_append, List.mem_append] at hc
          exact hc.elim (fun hpit => by cases hpit) mem_initialCounts_lapicInit
      next => cases hrun

/-- **Timer programming is exact or refused** for every period but 0 and those whose product with
`TIMER_RATE` wraps to a number the assertion lets pass. -/
theorem timer_exact_iff (h : shvOpt &&& shvNoInterrupt = 0) (nmiOpt timerMs : BitVec 64) :
    TimerExact shvOpt nmiOpt timerMs ↔
      timerMs ≠ 0 ∧ (1193182 * timerMs.toNat < 2 ^ 64 ∨
        65536000 ≤ 1193182 * timerMs.toNat % 2 ^ 64) := by
  have hzero : timerMs ≠ 0 ↔ timerMs.toNat ≠ 0 := by
    rw [ne_eq, ne_eq, ← BitVec.toNat_inj]
    rfl
  rw [hzero]
  constructor
  · intro hexact
    by_cases hlt : 1193182 * timerMs.toNat % 2 ^ 64 < 65536000
    · obtain ⟨ops, hops⟩ : ∃ ops, timerInit true shvOpt nmiOpt timerMs 0 = some ops := by
        rw [timerInit, if_pos rfl, pitInit_eq h, if_pos hlt]
        exact ⟨_, rfl⟩
      obtain ⟨⟨lo, hi, hbytes, hne, heq⟩, -⟩ := hexact 0 ops hops
      obtain ⟨-, lo', hi', hbytes', heq'⟩ := timerInit_isbsp h hops
      obtain ⟨rfl, rfl⟩ : lo = lo' ∧ hi = hi' := by simpa [hbytes] using hbytes'
      -- two bytes are less than 65536, so the product is small
      have hsmall : 1193182 * timerMs.toNat / 1000 < 65536 := by omega
      refine ⟨fun h0 => hne ?_, Or.inl (lt_trans (Nat.lt_mul_of_div_lt hsmall (by decide)) ?_)⟩
      · rw [heq, h0]
      · decide
    · refine ⟨fun h0 => hlt ?_, Or.inr (Nat.le_of_not_lt hlt)⟩
      rw [h0]
      decide
  · rintro ⟨hne, hcond⟩ svr ops hops
    obtain ⟨hlt, lo, hi, hbytes, heq⟩ := timerInit_isbsp h hops
    have hnowrap : 1193182 * timerMs.toNat % 2 ^ 64 = 1193182 * timerMs.toNat :=
      Nat.mod_eq_of_lt (hcond.resolve_right (Nat.not_le.mpr hlt))
    rw [hnowrap] at hlt heq
    refine ⟨⟨lo, hi, hbytes, by omega, heq⟩, ?_⟩
    intro isbsp svr' ops' hops' c hc
    rw [mem_initialCounts h hops' hc]
    exact Nat.mod_eq_of_lt (by omega)

/-- The default of 50 ms is programmed exactly. -/
theorem timer_exact_default : TimerExact 0#64 0#64 50#64 :=
  (timer_exact_iff (by decide) 0#64 50#64).mpr (by decide)

/-- `timer_ms=0` gives the PIT, on either architecture, the reload value 0, and on amd64
`timer_ms=9223372036854775858`, 2^63 more than the default, programs the default. -/
theorem timer_not_exact :
    ¬ TimerExact 0#64 0#64 0#64 ∧ ¬ TimerExact 0#64 0#64 9223372036854775858#64 ∧
    (∀ arch, (parseCmdline arch (chars "timer_ms=0") fun _ => 50).map (· .timerMs) = .ok 0) ∧
    (parseCmdline .amd64 (chars "timer_ms=9223372036854775858") fun _ => 50).map (· .timerMs) =
      .ok 9223372036854775858 ∧
    timerInit true 0#64 0#64 0#64 0#32 =
      some [.outb 0x43 0x36, .outb 0x40 0, .outb 0x40 0, .writeLapic 0x3e0 0xb,
        .writeLapic 0x380 0, .writeLapic 0x320 0x20022] ∧
    timerInit true 0#64 0#64 9223372036854775858#64 0#32 = timerInit true 0#64 0#64 50#64 0#32 := by
  have hzero : timerInit true 0#64 0#64 0#64 0#32 =
      some [.outb 0x43 0x36, .outb 0x40 0, .outb 0x40 0, .writeLapic 0x3e0 0xb,
        .writeLapic 0x380 0, .writeLapic 0x320 0x20022] := by decide
  have hwrap : timerInit true 0#64 0#64 9223372036854775858#64 0#32 =
      some [.outb 0x43 0x36, .outb 0x40 0x0b, .outb 0x40 0xe9, .writeLapic 0x3e0 0xb,
        .writeLapic 0x380 50000000, .writeLapic 0x320 0x20022] := by decide
  refine ⟨?_, ?_, ?_, ?_, hzero, ?_⟩
  · intro hexact
    obtain ⟨⟨lo, hi, hbytes, hne, -⟩, -⟩ := hexact _ _ hzero
    have hnil : [lo, hi] = [0, 0] := hbytes.symm.trans (by decide)
    rw [List.cons.injEq, List.cons.injEq] at hnil
    rw [hnil.1, hnil.2.1] at hne
    exact hne rfl
  · intro hexact
    obtain ⟨-, hcount⟩ := hexact _ _ hwrap
    have hc := hcount true _ _ hwrap 50000000 (by decide)
    revert hc
    decide
  · intro arch
    cases arch <;> decide
  · decide
  · rw [hwrap]
    decide

end Shv
