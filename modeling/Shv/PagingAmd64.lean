/-
# `Shv.PagingAmd64` — the tables of amd64

`boot.S` fills 2048 entries of `shv_pdt`, the 4 GB it needs, whatever
`AMD64_MAX_ADDR` is; the length of that array and everything else follow the limit.
So below 3 GB `boot.S` writes outside the array, between 3 GB and 4 GB the kernel
maps more than user mode, and from then on both map what the limit asks for
(`amd64_agree_iff`).

An address is the 48 bits that the tables translate.
-/
import Shv.PagingRows

namespace Shv

open ByteMem Paging

/-! ## The numbers of tables -/

theorem and_not_mask_shift (y : BitVec 64) {s : Nat} (hs : s < 64) :
    (y &&& ~~~ (BitVec.ofNat 64 (2 ^ s) - 1)) >>> s = y >>> s := by
  have hpow : 2 ^ s < 2 ^ 64 := Nat.pow_lt_pow_right (by decide) hs
  have hpos := Nat.two_pow_pos s
  have hmask : (BitVec.ofNat 64 (2 ^ s) - 1).toNat = 2 ^ s - 1 := by
    rw [BitVec.toNat_sub_of_le, BitVec.toNat_ofNat, Nat.mod_eq_of_lt hpow]
    · rfl
    · rw [BitVec.le_def, BitVec.toNat_ofNat, Nat.mod_eq_of_lt hpow]
      exact hpos
  apply BitVec.eq_of_getLsbD_eq
  intro i hi
  rw [BitVec.getLsbD_ushiftRight, BitVec.getLsbD_ushiftRight, BitVec.getLsbD_and,
    BitVec.getLsbD_not]
  have hbit : (BitVec.ofNat 64 (2 ^ s) - 1).getLsbD (s + i) = false := by
    rw [BitVec.getLsbD, hmask, Nat.testBit_two_pow_sub_one]
    exact decide_eq_false (by omega)
  rw [hbit]
  by_cases hlt : s + i < 64
  · rw [decide_eq_true hlt, Bool.not_false, Bool.and_true, Bool.and_true]
  · rw [BitVec.getLsbD_of_ge _ _ (by omega), Bool.false_and]

theorem paPages_eq {x : BitVec 64} (hx : x.toNat ≤ 2 ^ 48) {s : Nat} (hs : s ≤ 42) :
    paPages s x = (x.toNat + 2 ^ s - 1) / 2 ^ s := by
  have hpow : 2 ^ s ≤ 2 ^ 42 := Nat.pow_le_pow_right (by decide) hs
  have hpos := Nat.two_pow_pos s
  have hadd : (x + BitVec.ofNat 64 (2 ^ s)).toNat = x.toNat + 2 ^ s := by
    rw [BitVec.toNat_add, BitVec.toNat_ofNat, Nat.add_mod_mod, Nat.mod_eq_of_lt (by omega)]
  have hsub : (x + BitVec.ofNat 64 (2 ^ s) - 1).toNat = x.toNat + 2 ^ s - 1 := by
    rw [BitVec.toNat_sub_of_le, hadd]
    · rfl
    · rw [BitVec.le_def, hadd]
      exact Nat.le_trans hpos (Nat.le_add_left _ _)
  rw [paPages, and_not_mask_shift _ (by omega), BitVec.toNat_ushiftRight, hsub,
    Nat.shiftRight_eq_div_pow]

/-- The limits between which the counts are used. -/
structure Counts (maxAddr : BitVec 64) : Prop where
  pos : 0 < maxAddr.toNat
  le : maxAddr.toNat ≤ 2 ^ 48

namespace Counts

variable {maxAddr : BitVec 64} (h : Counts maxAddr)

include h

theorem nplm4t_pos : 1 ≤ p4lNplm4t maxAddr := by
  have hpos := h.pos
  rw [p4lNplm4t, paPages_eq h.le (by decide)]
  omega

theorem npdpt_bounds : 1 ≤ p4lNpdpt maxAddr ∧ p4lNpdpt maxAddr ≤ 512 := by
  have hpos := h.pos
  have hle := h.le
  rw [p4lNpdpt, paPages_eq h.le (by decide)]
  omega

theorem npdt_le : p4lNpdt maxAddr ≤ p4lNpdpt maxAddr * 512 := by
  rw [p4lNpdt, p4lNpdpt, paPages_eq h.le (by decide), paPages_eq h.le (by decide)]
  omega

theorem npt_le : p4lNpt maxAddr ≤ p4lNpdt maxAddr * 512 := by
  rw [p4lNpt, p4lNpdt, paPages_eq h.le (by decide), paPages_eq h.le (by decide)]
  omega

theorem npt_lt : p4lNpt maxAddr ≤ 2 ^ 27 := by
  have hle := h.le
  rw [p4lNpt, paPages_eq h.le (by decide)]
  omega

theorem le_npt : 2048 ≤ p4lNpt maxAddr ↔ 2 ^ 32 - 2 ^ 21 < maxAddr.toNat := by
  rw [p4lNpt, paPages_eq h.le (by decide)]
  omega

end Counts

/-! ## amd64: the kernel's rows -/

section Amd64

variable {maxAddr : BitVec 64} {L : P4lLayout maxAddr} {s s' : PtState} {t u : P4lTable}

/-- No entry of the array has been written. -/
def Untouched (L : P4lLayout maxAddr) (s : PtState) (t : P4lTable) : Prop :=
  ∀ k < p4lEntries maxAddr t, L.get s t k = 0

theorem Untouched.row (h : Untouched L s t) (p : Nat → Nat) (f : Nat) : Row L s t 0 p f := by
  refine ⟨fun i hi => absurd hi (Nat.not_lt_zero i), fun i _ hi => ⟨0, by decide, ?_, rfl⟩⟩
  rw [h i hi]
  rfl

theorem Filled.untouched {n base size f : Nat} (h : Filled L t n base size f s s') (hu : u ≠ t)
    (h0 : Untouched L s u) : Untouched L s' u := by
  intro k hk
  rw [h.other u hu k hk]
  exact h0 k hk

theorem Filled.keep {n base size f n' f' : Nat} {p : Nat → Nat} (h : Filled L t n base size f s s')
    (hu : u ≠ t) (hrow : Row L s u n' p f') (hn : n' ≤ p4lEntries maxAddr u) :
    Row L s' u n' p f' :=
  hrow.keep hn (h.other u hu)

theorem bootEntry_toNat {eax step : BitVec 32} {a size k : Nat} (heax : eax.toNat = a)
    (hstep : step.toNat = size) (hlt : a + k * size < 2 ^ 32) :
    (bootEntry step eax k).toNat = a + k * size := by
  show ((eax + BitVec.ofNat 32 k * step).setWidth 64).toNat = a + k * size
  rw [BitVec.toNat_setWidth, paddr_toNat heax hstep hlt,
    Nat.mod_eq_of_lt (Nat.lt_trans hlt (by decide))]

theorem bootLoop_filled {eax step : BitVec 32} {base size f n : Nat} (heax : eax.toNat = base + f)
    (hstep : step.toNat = size) (hf : f < 2 ^ 12)
    (hfits : ∀ k < n, base + f + k * size < 2 ^ 32) (hn : n ≤ p4lEntries maxAddr t)
    (h0 : Untouched L s t) : Filled L t n base size f s (bootLoop L t step n 0 eax s) := by
  have hw := bootLoop_wrote (L := L) (t := t) step eax (n := n) (i := 0) (s := s)
    (by rwa [Nat.zero_add]) fun k _ hk => h0 k (by omega)
  rw [show eax + BitVec.ofNat 32 0 * step = eax by
    rw [show BitVec.ofNat 32 0 = 0#32 from rfl, BitVec.zero_mul, BitVec.add_zero],
    Nat.zero_add] at hw
  have hrow := (h0.row (fun k => base + k * size) f).extend (Nat.zero_le _) hw fun k _ hk => by
    refine ⟨f, hf, ?_, rfl⟩
    rw [bootEntry_toNat heax hstep (hfits k hk), Nat.add_right_comm]
  rw [Nat.zero_max] at hrow
  exact ⟨hw.inside, hrow, fun u hu i hi => hw.old u i hi fun hut => absurd hut hu⟩

/-- The kernel's tables, with so many entries present in each. -/
structure KernelRows (L : P4lLayout maxAddr) (s : PtState) (n4 n3 n2 : Nat) : Prop where
  pml4t : Row L s .shvPml4t n4 (fun k => L.base .shvPdpt + k * 0x1000) 3
  pdpt : Row L s .shvPdpt n3 (fun k => L.base .shvPdt + k * 0x1000) 3
  pdt : Row L s .shvPdt n2 (fun k => 0 + k * 0x200000) 0x83

def P4lTable.isUser : P4lTable → Bool
  | .userPml4t | .userPdpt | .userPdt | .userPt => true
  | .shvPml4t | .shvPdpt | .shvPdt => false

theorem or_three {base : Nat} (hlt : base < 2 ^ 32) (hdvd : 2 ^ 12 ∣ base) :
    (BitVec.ofNat 32 base ||| 3).toNat = base + 3 := by
  obtain ⟨q, rfl⟩ := hdvd
  rw [BitVec.toNat_or, BitVec.toNat_ofNat, Nat.mod_eq_of_lt hlt]
  exact (Nat.two_pow_add_eq_or_of_lt (by decide) q).symm

theorem bootTables_rows (hc : Counts maxAddr) (h4 : 4 ≤ p4lNpdt maxAddr) (hin : s.inside = true)
    (h0 : ∀ t, Untouched L s t) :
    (bootTables L s).inside = true ∧ KernelRows L (bootTables L s) 1 4 2048 ∧
      ∀ t, t.isUser = true → Untouched L (bootTables L s) t := by
  have h512 := hc.npdpt_bounds
  have hml4 := hc.nplm4t_pos
  have hpdpt : L.base .shvPdpt + 8 * (p4lNpdpt maxAddr * 512) ≤ 2 ^ 32 := L.below .shvPdpt
  have hpdt : L.base .shvPdt + 8 * (p4lNpdt maxAddr * 512) ≤ 2 ^ 32 := L.below .shvPdt
  have hroom4 : 1 ≤ p4lEntries maxAddr .shvPml4t := by simp only [p4lEntries]; omega
  have hroom3 : 4 ≤ p4lEntries maxAddr .shvPdpt := by simp only [p4lEntries]; omega
  have hroom2 : 2048 ≤ p4lEntries maxAddr .shvPdt := by simp only [p4lEntries]; omega
  -- the first store is a loop of one round
  have f₁ : Filled L .shvPml4t 1 (L.base .shvPdpt) 0x1000 3 s
      (bootLoop L .shvPml4t 0x1000 1 0 (BitVec.ofNat 32 (L.base .shvPdpt) ||| 3) s) :=
    bootLoop_filled (or_three (by omega) (L.aligned .shvPdpt)) rfl (by decide) (by omega) hroom4
      (h0 .shvPml4t)
  generalize hs₁ : bootLoop L .shvPml4t 0x1000 1 0 (BitVec.ofNat 32 (L.base .shvPdpt) ||| 3) s = s₁
    at f₁
  have f₂ : Filled L .shvPdpt 4 (L.base .shvPdt) 0x1000 3 s₁
      (bootLoop L .shvPdpt 0x1000 4 0 (BitVec.ofNat 32 (L.base .shvPdt) ||| 3) s₁) :=
    bootLoop_filled (or_three (by omega) (L.aligned .shvPdt)) rfl (by decide) (by omega) hroom3
      (f₁.untouched (by decide) (h0 .shvPdpt))
  generalize hs₂ : bootLoop L .shvPdpt 0x1000 4 0 (BitVec.ofNat 32 (L.base .shvPdt) ||| 3) s₁ = s₂
    at f₂
  have f₃ : Filled L .shvPdt 2048 0 0x200000 0x83 s₂
      (bootLoop L .shvPdt 0x200000 2048 0 0x83 s₂) :=
    bootLoop_filled rfl rfl (by decide) (by omega) hroom2
      (f₂.untouched (by decide) (f₁.untouched (by decide) (h0 .shvPdt)))
  have heq : bootTables L s = bootLoop L .shvPdt 0x200000 2048 0 0x83 s₂ := by
    rw [← hs₂, ← hs₁]
    rfl
  rw [heq]
  refine ⟨?_, ⟨?_, ?_, f₃.row⟩, ?_⟩
  · exact f₃.inside.trans (f₂.inside.trans (f₁.inside.trans hin))
  · exact f₃.keep (by decide) (f₂.keep (by decide) f₁.row hroom4) hroom4
  · exact f₃.keep (by decide) f₂.row hroom3
  · intro t ht
    have hne : ∀ u, u.isUser = false → t ≠ u := fun u hu heq => by
      rw [heq, hu] at ht
      cases ht
    exact f₃.untouched (hne _ rfl) (f₂.untouched (hne _ rfl) (f₁.untouched (hne _ rfl) (h0 t)))

/-- The rows of user mode before anything is written there. -/
def UserBlank (L : P4lLayout maxAddr) (s : PtState) : Prop :=
  ∀ t, t.isUser = true → ∀ p f, Row L s t 0 p f

theorem Filled.userBlank {n base size f : Nat} (h : Filled L t n base size f s s')
    (ht : t.isUser = false) (hu : UserBlank L s) : UserBlank L s' := by
  intro u hu' p f'
  refine h.keep (fun heq => ?_) (hu u hu' p f') (Nat.zero_le _)
  rw [heq, ht] at hu'
  cases hu'

theorem KernelRows.touch (h : KernelRows L s 1 4 2048) (hc : Counts maxAddr)
    (h4 : 4 ≤ p4lNpdt maxAddr) (ht : Touched L s.mem s'.mem) : KernelRows L s' 1 4 2048 := by
  have h512 := hc.npdpt_bounds
  have hml4 := hc.nplm4t_pos
  refine ⟨h.pml4t.touch ?_ ?_ (by decide) ht, h.pdpt.touch ?_ ?_ (by decide) ht,
    h.pdt.touch ?_ ?_ (by decide) ht⟩
  · simp only [p4lEntries]
    omega
  · exact fun i _ => Nat.dvd_add (L.aligned .shvPdpt) (Nat.dvd_mul_left _ _)
  · simp only [p4lEntries]
    omega
  · exact fun i _ => Nat.dvd_add (L.aligned .shvPdt) (Nat.dvd_mul_left _ _)
  · simp only [p4lEntries]
    omega
  · exact fun i _ => Nat.dvd_add (Nat.dvd_zero _) (Nat.dvd_mul_left_of_dvd (by decide) _)

theorem KernelRows.keep {n4 n3 n2 : Nat} (h : KernelRows L s n4 n3 n2)
    (h4 : ∀ i < p4lEntries maxAddr .shvPml4t, L.get s' .shvPml4t i = L.get s .shvPml4t i)
    (h3 : ∀ i < p4lEntries maxAddr .shvPdpt, L.get s' .shvPdpt i = L.get s .shvPdpt i)
    (h2 : ∀ i < p4lEntries maxAddr .shvPdt, L.get s' .shvPdt i = L.get s .shvPdt i)
    (r4 : n4 ≤ p4lEntries maxAddr .shvPml4t) (r3 : n3 ≤ p4lEntries maxAddr .shvPdpt)
    (r2 : n2 ≤ p4lEntries maxAddr .shvPdt) : KernelRows L s' n4 n3 n2 :=
  ⟨h.pml4t.keep r4 h4, h.pdpt.keep r3 h3, h.pdt.keep r2 h2⟩

theorem loopArgs_dir {flags : BitVec 64} {f n : Nat} (hf : flags.toNat = f) (hlt : f < 2 ^ 12)
    (hn : n * 512 ≤ p4lEntries maxAddr t) :
    LoopArgs p4l flags 0x1000 (BitVec.ofNat 64 (L.base t)) (L.base t) 0x1000 f n := by
  have hbelow : L.base t + 8 * p4lEntries maxAddr t ≤ p4lLimit t := L.below t
  have hlimit : p4lLimit t ≤ 2 ^ 52 := by cases t <;> decide
  refine ⟨?_, rfl, hf, hlt, L.aligned t, Nat.dvd_refl _, fun k hk => ?_, by decide⟩
  · rw [BitVec.toNat_ofNat, Nat.mod_eq_of_lt (by omega)]
  · show L.base t + k * 0x1000 + 2 ^ 12 ≤ 2 ^ 64
    omega

theorem shvPageTableInit_rows (hc : Counts maxAddr) (h4 : 4 ≤ p4lNpdt maxAddr)
    (h : KernelRows L s 1 4 2048) (hu : UserBlank L s) :
    ∃ s', shvPageTableInit L s = some s' ∧ s'.inside = s.inside ∧
      KernelRows L s' (p4lNpdpt maxAddr) (p4lNpdt maxAddr) (max 2048 (p4lNpt maxAddr)) ∧
      UserBlank L s' := by
  have h512 := hc.npdpt_bounds
  have hml4 := hc.nplm4t_pos
  have hpdt := hc.npdt_le
  have hpt := hc.npt_le
  have hlt := hc.npt_lt
  have e4 : p4lEntries maxAddr .shvPml4t = p4lNplm4t maxAddr * 512 := rfl
  have e3 : p4lEntries maxAddr .shvPdpt = p4lNpdpt maxAddr * 512 := rfl
  have e2 : p4lEntries maxAddr .shvPdt = p4lNpdt maxAddr * 512 := rfl
  have m4 : max 1 (p4lNpdpt maxAddr) = p4lNpdpt maxAddr := Nat.max_eq_right h512.1
  have m3 : max 4 (p4lNpdt maxAddr) = p4lNpdt maxAddr := Nat.max_eq_right h4
  have a4 : LoopArgs p4l 0x3 0x1000 (BitVec.ofNat 64 (L.base .shvPdpt)) (L.base .shvPdpt) 0x1000 3
      (max 1 (p4lNpdpt maxAddr)) := loopArgs_dir rfl (by decide) (by rw [m4, e3])
  have a3 : LoopArgs p4l 0x3 0x1000 (BitVec.ofNat 64 (L.base .shvPdt)) (L.base .shvPdt) 0x1000 3
      (max 4 (p4lNpdt maxAddr)) := loopArgs_dir rfl (by decide) (by rw [m3, e2])
  have a2 : LoopArgs p4l 0x83 0x200000 0 0 0x200000 0x83 (max 2048 (p4lNpt maxAddr)) := by
    refine ⟨rfl, rfl, rfl, by decide, Nat.dvd_zero _, by decide, fun k hk => ?_, by decide⟩
    show 0 + k * 0x200000 + 2 ^ 12 ≤ 2 ^ 64
    omega
  obtain ⟨s₁, hrun₁, f₁⟩ := checkLoop_filled a4 (by omega) (by omega)
    (show (0x63 : BitVec 64).toNat = _ from rfl) h.pml4t
  obtain ⟨s₂, hrun₂, f₂⟩ := checkLoop_filled a3 (by omega) (by omega)
    (show (0x63 : BitVec 64).toNat = _ from rfl) (f₁.keep (by decide) h.pdpt (by omega))
  obtain ⟨s₃, hrun₃, f₃⟩ := checkLoop_filled a2 (by omega) (by omega)
    (show (0xe3 : BitVec 64).toNat = _ from rfl)
    (f₂.keep (by decide) (f₁.keep (by decide) h.pdt (by omega)) (by omega))
  rw [m4] at f₁
  rw [m3] at f₂
  refine ⟨s₃, ?_, ?_, ⟨?_, ?_, f₃.row⟩, ?_⟩
  · rw [shvPageTableInit, hrun₁, Option.bind_eq_bind, Option.bind_some, hrun₂, Option.bind_some]
    exact hrun₃
  · rw [f₃.inside, f₂.inside, f₁.inside]
  · exact f₃.keep (by decide) (f₂.keep (by decide) f₁.row (by omega)) (by omega)
  · exact f₃.keep (by decide) f₂.row (by omega)
  · exact f₃.userBlank rfl (f₂.userBlank rfl (f₁.userBlank rfl hu))

structure UserRows (L : P4lLayout maxAddr) (s : PtState) (n4 n3 n2 n1 : Nat) : Prop where
  pml4t : Row L s .userPml4t n4 (fun k => L.base .userPdpt + k * 0x1000) 7
  pdpt : Row L s .userPdpt n3 (fun k => L.base .userPdt + k * 0x1000) 7
  pdt : Row L s .userPdt n2 (fun k => L.base .userPt + k * 0x1000) 7
  pt : Row L s .userPt n1 (fun k => 0 + k * 0x1000) 7

theorem setUserModePageTable_rows (hc : Counts maxAddr) (hu : UserBlank L s) :
    (setUserModePageTable L s).inside = s.inside ∧
      UserRows L (setUserModePageTable L s) (p4lNpdpt maxAddr) (p4lNpdt maxAddr) (p4lNpt maxAddr)
        (p4lNpt maxAddr * 512) ∧
      ∀ u, u.isUser = false → ∀ i < p4lEntries maxAddr u,
        L.get (setUserModePageTable L s) u i = L.get s u i := by
  have h512 := hc.npdpt_bounds
  have hml4 := hc.nplm4t_pos
  have hpdt := hc.npdt_le
  have hpt := hc.npt_le
  have hlt := hc.npt_lt
  have e4 : p4lEntries maxAddr .userPml4t = p4lNplm4t maxAddr * 512 := rfl
  have e3 : p4lEntries maxAddr .userPdpt = p4lNpdpt maxAddr * 512 := rfl
  have e2 : p4lEntries maxAddr .userPdt = p4lNpdt maxAddr * 512 := rfl
  have e1 : p4lEntries maxAddr .userPt = p4lNpt maxAddr * 512 := rfl
  have a4 : LoopArgs p4l 7 0x1000 (BitVec.ofNat 64 (L.base .userPdpt)) (L.base .userPdpt) 0x1000 7
      (p4lNpdpt maxAddr) := loopArgs_dir rfl (by decide) (by rw [e3])
  have a3 : LoopArgs p4l 7 0x1000 (BitVec.ofNat 64 (L.base .userPdt)) (L.base .userPdt) 0x1000 7
      (p4lNpdt maxAddr) := loopArgs_dir rfl (by decide) (by rw [e2])
  have a2 : LoopArgs p4l 7 0x1000 (BitVec.ofNat 64 (L.base .userPt)) (L.base .userPt) 0x1000 7
      (p4lNpt maxAddr) := loopArgs_dir rfl (by decide) (by rw [e1])
  have a1 : LoopArgs p4l 7 0x1000 0 0 0x1000 7 (p4lNpt maxAddr * 512) := by
    refine ⟨rfl, rfl, rfl, by decide, Nat.dvd_zero _, by decide, fun k hk => ?_, by decide⟩
    show 0 + k * 0x1000 + 2 ^ 12 ≤ 2 ^ 64
    omega
  have f₁ := fillLoop_filled (L := L) (t := .userPml4t) a4 (by omega) (hu _ rfl _ _)
  generalize hs₁ : fillLoop L .userPml4t 7 0x1000 (p4lNpdpt maxAddr) 0
    (BitVec.ofNat 64 (L.base .userPdpt)) s = s₁ at f₁
  have f₂ := fillLoop_filled (L := L) (t := .userPdpt) a3 (by omega)
    (f₁.keep (by decide) (hu _ rfl _ _) (Nat.zero_le _))
  generalize hs₂ : fillLoop L .userPdpt 7 0x1000 (p4lNpdt maxAddr) 0
    (BitVec.ofNat 64 (L.base .userPdt)) s₁ = s₂ at f₂
  have f₃ := fillLoop_filled (L := L) (t := .userPdt) a2 (by omega)
    (f₂.keep (by decide) (f₁.keep (by decide) (hu _ rfl _ _) (Nat.zero_le _)) (Nat.zero_le _))
  generalize hs₃ : fillLoop L .userPdt 7 0x1000 (p4lNpt maxAddr) 0
    (BitVec.ofNat 64 (L.base .userPt)) s₂ = s₃ at f₃
  have f₄ := fillLoop_filled (L := L) (t := .userPt) a1 (by omega)
    (f₃.keep (by decide) (f₂.keep (by decide) (f₁.keep (by decide) (hu _ rfl _ _) (Nat.zero_le _))
      (Nat.zero_le _)) (Nat.zero_le _))
  generalize hs₄ : fillLoop L .userPt 7 0x1000 (p4lNpt maxAddr * 512) 0 0 s₃ = s₄ at f₄
  have heq : setUserModePageTable L s = s₄ := by
    simp only [setUserModePageTable, hs₁, hs₂, hs₃, hs₄]
  rw [heq]
  refine ⟨?_, ⟨?_, ?_, ?_, f₄.row⟩, ?_⟩
  · rw [f₄.inside, f₃.inside, f₂.inside, f₁.inside]
  · exact f₄.keep (by decide)
      (f₃.keep (by decide) (f₂.keep (by decide) f₁.row (by omega)) (by omega)) (by omega)
  · exact f₄.keep (by decide) (f₃.keep (by decide) f₂.row (by omega)) (by omega)
  · exact f₄.keep (by decide) f₃.row (by omega)
  · intro u hu' i hi
    have hne : ∀ v, v.isUser = true → u ≠ v := fun v hv h => by
      rw [h, hv] at hu'
      cases hu'
    rw [f₄.other u (hne _ rfl) i hi, f₃.other u (hne _ rfl) i hi, f₂.other u (hne _ rfl) i hi,
      f₁.other u (hne _ rfl) i hi]

/-! ## amd64: what the rows map -/

theorem p4l_table : 2 ^ p4l.bits = 512 := by
  rw [show p4l.bits = 9 from rfl]
  norm_num

theorem p4lLimit_le (t : P4lTable) : p4lLimit t ≤ 2 ^ 52 := by
  cases t <;> norm_num [p4lLimit]

def kernelTab : Nat → P4lTable
  | 0 | 1 => .shvPdt
  | 2 => .shvPdpt
  | _ => .shvPml4t

theorem KernelRows.walk_eq {n4 n3 n2 : Nat} (h : KernelRows L s n4 n3 n2)
    (h3 : n4 * 512 ≤ p4lEntries maxAddr .shvPdpt) (h2 : n3 * 512 ≤ p4lEntries maxAddr .shvPdt)
    (r3 : n3 ≤ n4 * 512) (r2 : n2 ≤ n3 * 512) (htop : 512 ≤ p4lEntries maxAddr .shvPml4t)
    {va : Nat} (hva : va < 2 ^ 48) :
    p4l.walk s.mem va 3 (L.base .shvPml4t) = if va / 2 ^ 21 < n2 then some va else none := by
  have s1 : p4l.shift 1 = 21 := rfl
  have s3 : p4l.shift 3 = 39 := rfl
  have s4 : p4l.shift (3 + 1) = 48 := rfl
  have hw := walk_of_rows (L := L) (s := s) 1 3 kernelTab (byLevel 0 n2 n3 n4)
    (byLevel 0 0x83 3 3) (by decide) ?_ ?_ ?_ ?_ ?_ p4lLimit_le ?_ ?_ (Or.inr rfl) (by decide) va
    (by omega) (by rwa [s4]) ?_
  · rw [s1] at hw
    exact hw
  · have hpdt := h.pdt
    rw [s1]
    exact hpdt
  · intro l hl ht
    interval_cases l
    · exact h.pdpt
    · exact h.pml4t
  · intro l hl ht
    rw [p4l_table]
    interval_cases l
    · exact h2
    · exact h3
  · intro l hl ht
    rw [p4l_table]
    interval_cases l
    · exact r2
    · exact r3
  · intro l hl ht
    exact L.aligned _
  · intro l hl ht
    interval_cases l <;> rfl
  · intro l hl ht
    interval_cases l <;> rfl
  · rw [s3]
    exact Nat.lt_of_lt_of_le (by omega) htop

def userTab : Nat → P4lTable
  | 0 => .userPt
  | 1 => .userPdt
  | 2 => .userPdpt
  | _ => .userPml4t

theorem UserRows.walk_eq {n4 n3 n2 n1 : Nat} (h : UserRows L s n4 n3 n2 n1)
    (h3 : n4 * 512 ≤ p4lEntries maxAddr .userPdpt) (h2 : n3 * 512 ≤ p4lEntries maxAddr .userPdt)
    (h1 : n2 * 512 ≤ p4lEntries maxAddr .userPt) (r3 : n3 ≤ n4 * 512) (r2 : n2 ≤ n3 * 512)
    (r1 : n1 ≤ n2 * 512) (htop : 512 ≤ p4lEntries maxAddr .userPml4t)
    {va : Nat} (hva : va < 2 ^ 48) :
    p4l.walk s.mem va 3 (L.base .userPml4t) = if va / 2 ^ 12 < n1 then some va else none := by
  have s0 : p4l.shift 0 = 12 := rfl
  have s3 : p4l.shift 3 = 39 := rfl
  have s4 : p4l.shift (3 + 1) = 48 := rfl
  have hw := walk_of_rows (L := L) (s := s) 0 3 userTab (byLevel n1 n2 n3 n4)
    (byLevel 7 7 7 7) (by decide) ?_ ?_ ?_ ?_ ?_ p4lLimit_le ?_ ?_ (Or.inl rfl) (by decide) va
    (by omega) (by rwa [s4]) ?_
  · rw [s0] at hw
    exact hw
  · have hpt := h.pt
    rw [s0]
    exact hpt
  · intro l hl ht
    interval_cases l
    · exact h.pdt
    · exact h.pdpt
    · exact h.pml4t
  · intro l hl ht
    rw [p4l_table]
    interval_cases l
    · exact h1
    · exact h2
    · exact h3
  · intro l hl ht
    rw [p4l_table]
    interval_cases l
    · exact r1
    · exact r2
    · exact r3
  · intro l hl ht
    exact L.aligned _
  · intro l hl ht
    interval_cases l <;> rfl
  · intro l hl ht
    interval_cases l <;> rfl
  · rw [s3]
    exact Nat.lt_of_lt_of_le (by omega) htop

/-- What is asked of the tables of amd64: whatever accessed and dirty bits the processor sets
between `boot.S` and `shv_page_table_init`, no assertion fails, every entry is written inside its
array, and the kernel and user mode map the same addresses, each to itself. -/
def P4lAgree (L : P4lLayout maxAddr) (m₀ : ByteMem) : Prop :=
  ∀ m, Touched L (bootTables L ⟨m₀, true⟩).mem m →
    ∃ s, shvPageTableInit L ⟨m, (bootTables L ⟨m₀, true⟩).inside⟩ = some s ∧
      (setUserModePageTable L s).inside = true ∧
      SameIdentity p4l (setUserModePageTable L s).mem (2 ^ 48) 3 (L.base .shvPml4t)
        (L.base .userPml4t)

/-- From 3 GB on `shv_pdt` has room for what `boot.S` writes; then the kernel maps at least 4 GB,
and user mode what `AMD64_MAX_ADDR` asks for. -/
theorem amd64_walks (hc : Counts maxAddr) (h4 : 4 ≤ p4lNpdt maxAddr) {m₀ m : ByteMem}
    (h0 : Zeroed L m₀) (ht : Touched L (bootTables L ⟨m₀, true⟩).mem m) :
    ∃ s, shvPageTableInit L ⟨m, (bootTables L ⟨m₀, true⟩).inside⟩ = some s ∧
      (setUserModePageTable L s).inside = true ∧ ∀ va < 2 ^ 48,
        p4l.walk (setUserModePageTable L s).mem va 3 (L.base .shvPml4t) =
          (if va / 2 ^ 21 < max 2048 (p4lNpt maxAddr) then some va else none) ∧
        p4l.walk (setUserModePageTable L s).mem va 3 (L.base .userPml4t) =
          if va / 2 ^ 12 < p4lNpt maxAddr * 512 then some va else none := by
  have hblank : ∀ t, Untouched L ⟨m₀, true⟩ t := fun t k hk => h0 t k hk
  obtain ⟨hin, hk, hu⟩ := bootTables_rows hc h4 rfl hblank
  generalize bootTables L ⟨m₀, true⟩ = sb at hin hk hu ht ⊢
  have hk' : KernelRows L ⟨m, sb.inside⟩ 1 4 2048 := hk.touch hc h4 ht
  have hu' : UserBlank L ⟨m, sb.inside⟩ := fun t htu p f =>
    ((hu t htu).row p f).touch (Nat.zero_le _) (fun i hi => absurd hi (Nat.not_lt_zero i))
      (by decide) ht
  obtain ⟨s, hrun, hins, hrows, hub⟩ := shvPageTableInit_rows hc h4 hk' hu'
  obtain ⟨hui, hur, hsame⟩ := setUserModePageTable_rows hc hub
  refine ⟨s, hrun, ?_, ?_⟩
  · rw [hui, hins]
    exact hin
  · generalize setUserModePageTable L s = s₂ at hui hur hsame ⊢
    have h512 := hc.npdpt_bounds
    have hml4 := hc.nplm4t_pos
    have hpdt := hc.npdt_le
    have hpt := hc.npt_le
    have hmax : max 2048 (p4lNpt maxAddr) ≤ p4lNpdt maxAddr * 512 := by omega
    have hroom4 : 512 ≤ p4lNplm4t maxAddr * 512 := by omega
    have hrows₂ := hrows.keep (hsame _ rfl) (hsame _ rfl) (hsame _ rfl)
      (by rw [p4lEntries]; omega) (by rw [p4lEntries]; exact hpdt) (by rw [p4lEntries]; exact hmax)
    intro va hva
    refine ⟨hrows₂.walk_eq ?_ ?_ hpdt hmax ?_ hva, hur.walk_eq ?_ ?_ ?_ hpdt hpt ?_ ?_ hva⟩
    · rw [p4lEntries]
    · rw [p4lEntries]
    · rw [p4lEntries]
      exact hroom4
    · rw [p4lEntries]
    · rw [p4lEntries]
    · rw [p4lEntries]
    · exact Nat.le_refl _
    · rw [p4lEntries]
      exact hroom4

/-! ## amd64: a write outside its array -/

theorem fillLoop_inside (t : P4lTable) (flags step : BitVec 64) :
    ∀ {n i : Nat} {paddr : BitVec 64} {s : PtState},
      (fillLoop L t flags step n i paddr s).inside = true → s.inside = true := by
  intro n
  induction n with
  | zero => exact fun h => h
  | succ n ih =>
      intro i paddr s h
      exact (Bool.and_eq_true_iff.mp (ih h)).1

theorem checkLoop_inside (t : P4lTable) (kept : Nat) (expected flags step : BitVec 64) :
    ∀ {n i : Nat} {paddr : BitVec 64} {s s' : PtState},
      checkLoop L t kept expected flags step n i paddr s = some s' → s'.inside = true →
        s.inside = true := by
  intro n
  induction n with
  | zero =>
      intro i paddr s s' hrun h
      obtain rfl : s = s' := Option.some.inj hrun
      exact h
  | succ n ih =>
      intro i paddr s s' hrun h
      rw [checkLoop] at hrun
      split at hrun
      · obtain ⟨_, _, hrun⟩ := Option.bind_eq_some_iff.mp hrun
        exact ih hrun h
      · exact (Bool.and_eq_true_iff.mp (ih hrun h)).1

theorem bootLoop_inside (t : P4lTable) (step : BitVec 32) :
    ∀ {n i : Nat} {eax : BitVec 32} {s : PtState},
      (bootLoop L t step n i eax s).inside = true →
        s.inside = true ∧ ∀ k, i ≤ k → k < i + n → k < p4lEntries maxAddr t := by
  intro n
  induction n with
  | zero => exact fun h => ⟨h, fun k h₁ h₂ => absurd h₂ (Nat.not_lt.mpr h₁)⟩
  | succ n ih =>
      intro i eax s h
      obtain ⟨hput, hrest⟩ := ih h
      obtain ⟨hs, hi⟩ := Bool.and_eq_true_iff.mp hput
      refine ⟨hs, fun k h₁ h₂ => ?_⟩
      rcases Nat.lt_or_eq_of_le h₁ with hlt | rfl
      · exact hrest k hlt (by omega)
      · exact of_decide_eq_true hi

theorem bootTables_outside (h : p4lNpdt maxAddr < 4) : (bootTables L s).inside = false := by
  rw [← Bool.not_eq_true, bootTables]
  intro hin
  have hlast := (bootLoop_inside .shvPdt 0x200000 hin).2 2047 (by decide) (by decide)
  rw [p4lEntries] at hlast
  omega

theorem Touched.refl {m : ByteMem} : Touched L m m := by
  intro t i _
  refine ⟨0, ?_⟩
  rw [BitVec.ofNat_eq_ofNat, BitVec.zero_and, BitVec.or_zero]

theorem not_agree_of_npdt {m₀ : ByteMem} (h : p4lNpdt maxAddr < 4) : ¬ P4lAgree L m₀ := by
  intro hagree
  obtain ⟨s, hrun, hin, -⟩ := hagree _ Touched.refl
  have hs : s.inside = true :=
    fillLoop_inside _ _ _ (fillLoop_inside _ _ _ (fillLoop_inside _ _ _
      (fillLoop_inside _ _ _ hin)))
  have hout : (bootTables L ⟨m₀, true⟩).inside = false := bootTables_outside h
  generalize bootTables L ⟨m₀, true⟩ = sb at hout hrun
  obtain ⟨s₁, hrun₁, hrun⟩ := Option.bind_eq_some_iff.mp hrun
  obtain ⟨s₂, hrun₂, hrun₃⟩ := Option.bind_eq_some_iff.mp hrun
  have hboot : sb.inside = true := checkLoop_inside _ _ _ _ _ hrun₁
    (checkLoop_inside _ _ _ _ _ hrun₂ (checkLoop_inside _ _ _ _ _ hrun₃ hs))
  rw [hout] at hboot
  cases hboot

/-- Between 3 GB and 4 GB the kernel maps pages that user mode does not. -/
theorem not_agree_of_npt (hc : Counts maxAddr) (h4 : 4 ≤ p4lNpdt maxAddr)
    (h : p4lNpt maxAddr < 2048) {m₀ : ByteMem} (h0 : Zeroed L m₀) : ¬ P4lAgree L m₀ := by
  intro hagree
  obtain ⟨s, hrun, -, hsame⟩ := hagree _ Touched.refl
  obtain ⟨s', hrun', -, hwalk⟩ := amd64_walks hc h4 h0 Touched.refl
  obtain rfl : s = s' := Option.some.inj (hrun.symm.trans hrun')
  generalize p4lNpt maxAddr = npt at h hwalk
  have hva : npt * 2 ^ 21 < 2 ^ 48 := by omega
  obtain ⟨hk, hu⟩ := hwalk _ hva
  have heq := (hsame _ hva).1
  rw [hk, hu, if_pos (by omega), if_neg (by omega)] at heq
  cases heq

theorem agree_of_npt (hc : Counts maxAddr) (h : 2048 ≤ p4lNpt maxAddr) {m₀ : ByteMem}
    (h0 : Zeroed L m₀) : P4lAgree L m₀ := by
  have h4 : 4 ≤ p4lNpdt maxAddr := by
    have hpt := hc.npt_le
    omega
  intro m ht
  obtain ⟨s, hrun, hin, hwalk⟩ := amd64_walks hc h4 h0 ht
  refine ⟨s, hrun, hin, ?_⟩
  generalize p4lNpt maxAddr = npt at h hwalk
  intro va hva
  obtain ⟨hk, hu⟩ := hwalk va hva
  have hiff : va / 2 ^ 21 < max 2048 npt ↔ va / 2 ^ 12 < npt * 512 := by omega
  rw [hk, hu]
  refine ⟨if_congr hiff rfl rfl, fun pa hpa => ?_⟩
  split at hpa
  · exact (Option.some.inj hpa).symm
  · cases hpa

/-- The tables of amd64 agree exactly when the limit rounds up to 4 GB at least. -/
theorem amd64_agree_iff (hpos : 0 < maxAddr.toNat) (hle : maxAddr.toNat ≤ 2 ^ 48) {m₀ : ByteMem}
    (h0 : Zeroed L m₀) : P4lAgree L m₀ ↔ 2 ^ 32 - 2 ^ 21 < maxAddr.toNat := by
  have hc : Counts maxAddr := ⟨hpos, hle⟩
  rw [← hc.le_npt]
  constructor
  · intro hagree
    by_contra hlt
    by_cases h4 : 4 ≤ p4lNpdt maxAddr
    · exact not_agree_of_npt hc h4 (Nat.lt_of_not_le hlt) h0 hagree
    · exact not_agree_of_npdt (Nat.lt_of_not_le h4) hagree
  · intro h
    exact agree_of_npt hc h h0

end Amd64

end Shv
