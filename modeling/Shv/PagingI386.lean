/-
# `Shv.PagingI386` — the tables of i386

All 4 GB are mapped by both sets of tables, with PAE (`pae_agree`) and without
(`p32_agree`).  The loops of user mode are nested here: one address runs through
the pages of all the tables.
-/
import Shv.PagingRows

namespace Shv

open ByteMem Paging

/-! ## PAE -/

section Pae

variable {L : PaeLayout} {s s' : PtState} {t u : PaeTable}

theorem pae_table : 2 ^ pae.bits = 512 := by
  rw [show pae.bits = 9 from rfl]
  norm_num

/-- `s'` is `s` with the entries `[a, b)` of `user_pdpt` and everything below them set. -/
structure PdptWrote (L : PaeLayout) (nept a b : Nat) (s s' : PtState) : Prop where
  inside : s'.inside = s.inside
  pdpt : ∀ k, a ≤ k → k < b →
    L.get s' .userPdpt k = loopEntry pae 1 0x1000 (BitVec.ofNat 64 (L.base .userPdt)) k
  pdt : ∀ k, a * nept ≤ k → k < b * nept →
    L.get s' .userPdt k = loopEntry pae 7 0x1000 (BitVec.ofNat 64 (L.base .userPt)) k
  pt : ∀ k, a * nept * nept ≤ k → k < b * nept * nept →
    L.get s' .userPt k = loopEntry pae 7 0x1000 0 k
  old : ∀ u k, k < paeEntries u → (u = .userPdpt → k < a ∨ b ≤ k) →
    (u = .userPdt → k < a * nept ∨ b * nept ≤ k) →
    (u = .userPt → k < a * nept * nept ∨ b * nept * nept ≤ k) → L.get s' u k = L.get s u k

/-- One entry of `user_pdpt` with everything below it, and the run that follows. -/
theorem PdptWrote.cons {nept i b : Nat} (hnept : 2 ^ pae.bits = nept) {s₁ : PtState} (hlt : i < b)
    (hpdpt : b ≤ paeEntries .userPdpt) (hpdt : b * nept ≤ paeEntries .userPdt)
    (hpt : b * nept * nept ≤ paeEntries .userPt)
    (hdir : DirWrote L .userPdt .userPt (i * nept) ((i + 1) * nept)
      (L.put s .userPdpt i (loopEntry pae 1 0x1000 (BitVec.ofNat 64 (L.base .userPdt)) i)) s₁)
    (h : PdptWrote L nept (i + 1) b s₁ s') : PdptWrote L nept i b s s' := by
  have hi : i < paeEntries .userPdpt := Nat.lt_of_lt_of_le hlt hpdpt
  have hstep : i * nept ≤ (i + 1) * nept := Nat.mul_le_mul_right _ (Nat.le_succ i)
  have hend : (i + 1) * nept ≤ b * nept := Nat.mul_le_mul_right _ hlt
  subst hnept
  refine ⟨?_, ?_, ?_, ?_, ?_⟩
  · rw [h.inside, hdir.inside]
    exact (congrArg (s.inside && ·) (decide_eq_true hi)).trans (Bool.and_true _)
  · intro k hk hk'
    rcases Nat.lt_or_eq_of_le hk with hlt | rfl
    · exact h.pdpt k hlt hk'
    · rw [h.old .userPdpt i hi (fun _ => Or.inl (Nat.lt_succ_self i)) nofun nofun,
        hdir.old .userPdpt i hi nofun nofun]
      exact Layout.get_put_self _
  · intro k hk hk'
    by_cases hlt : k < (i + 1) * 2 ^ pae.bits
    · rw [h.old .userPdt k (Nat.lt_of_lt_of_le hk' hpdt) nofun (fun _ => Or.inl hlt) nofun]
      exact hdir.newDir k hk hlt
    · exact h.pdt k (Nat.le_of_not_lt hlt) hk'
  · intro k hk hk'
    by_cases hlt : k < (i + 1) * 2 ^ pae.bits * 2 ^ pae.bits
    · rw [h.old .userPt k (Nat.lt_of_lt_of_le hk' hpt) nofun nofun fun _ => Or.inl hlt]
      exact hdir.newPt k hk hlt
    · exact h.pt k (Nat.le_of_not_lt hlt) hk'
  · intro u k hk h3 h2 h1
    rw [h.old u k hk (fun hu => (h3 hu).imp_left Nat.lt_succ_of_lt)
        (fun hu => (h2 hu).imp_left (Nat.lt_of_lt_of_le · hstep))
        (fun hu => (h1 hu).imp_left (Nat.lt_of_lt_of_le · (Nat.mul_le_mul_right _ hstep))),
      hdir.old u k hk (fun hu => (h2 hu).imp_right (Nat.le_trans hend))
        fun hu => (h1 hu).imp_right (Nat.le_trans (Nat.mul_le_mul_right _ hend))]
    refine Layout.get_put_of_ne _ hi hk fun hu heq => ?_
    have := h3 hu
    omega

theorem pdptLoop_wrote {nept : Nat} (hnept : 2 ^ pae.bits = nept)
    (hpdt : 4 * nept ≤ paeEntries .userPdt) (hpt : 4 * nept * nept ≤ paeEntries .userPt) :
    ∀ {n i : Nat} {s : PtState}, i + n ≤ 4 →
      PdptWrote L nept i (i + n) s
        (PaeLayout.pdptLoop L nept n i (0 + BitVec.ofNat 64 (i * nept * nept) * 0x1000) s) := by
  intro n
  induction n with
  | zero =>
      intro i s _
      exact ⟨rfl, fun k h h' => absurd h' (Nat.not_lt.mpr h),
        fun k h h' => absurd h' (Nat.not_lt.mpr h), fun k h h' => absurd h' (Nat.not_lt.mpr h),
        fun _ _ _ _ _ _ => rfl⟩
  | succ n ih =>
      intro i s hle
      have hassoc : i + 1 + n = i + (n + 1) := by omega
      have hnext : i * nept + nept = (i + 1) * nept := (Nat.succ_mul _ _).symm
      have hend : (i + 1) * nept ≤ (i + (n + 1)) * nept := Nat.mul_le_mul_right _ (by omega)
      have hall : (i + (n + 1)) * nept ≤ 4 * nept := Nat.mul_le_mul_right _ hle
      have hpdt' := Nat.le_trans hall hpdt
      have hpt' := Nat.le_trans (Nat.mul_le_mul_right nept hall) hpt
      have hentry : (1 ||| BitVec.ofNat 64 (L.base .userPdt + 0x1000 * i)).setWidth 64 =
          loopEntry pae 1 0x1000 (BitVec.ofNat 64 (L.base .userPdt)) i :=
        dirEntry_eq (P := pae) 1 _ i
      have hdir := dirLoop_wrote (L := L) (show PaeTable.userPdt ≠ .userPt by decide) (n := nept)
        (i := i * nept)
        (s := L.put s .userPdpt i (loopEntry pae 1 0x1000 (BitVec.ofNat 64 (L.base .userPdt)) i))
        (by rw [hnext]; exact Nat.le_trans hend hpdt')
        (by rw [hnept, hnext]; exact Nat.le_trans (Nat.mul_le_mul_right _ hend) hpt')
      rw [hnept, hnext] at hdir
      rw [PaeLayout.pdptLoop, paddrAfter_eq, ← Nat.add_mul, hnext, hentry]
      refine .cons hnept (by omega) hle hpdt' hpt' hdir ?_
      rw [← hassoc]
      exact ih (by omega)

theorem row_of_entries {n base size f : Nat} {flags step paddr : BitVec 64}
    (ha : LoopArgs pae flags step paddr base size f n) (hn : n = paeEntries t)
    (h : ∀ k < n, L.get s t k = loopEntry pae flags step paddr k) :
    Row L s t n (fun k => base + k * size) f := by
  refine ⟨fun k hk => ?_, fun k hk hlt => absurd hlt (by omega)⟩
  rw [h k hk]
  exact ha.isEntry hk

theorem pae_loopArgs_dir {flags : BitVec 64} {f n : Nat} (hf : flags.toNat = f) (hlt : f < 2 ^ 12)
    (halign : paeAlignment t = 2 ^ 12) (hn : n * 512 ≤ paeEntries t) :
    LoopArgs pae flags 0x1000 (BitVec.ofNat 64 (L.base t)) (L.base t) 0x1000 f n := by
  have hbelow : L.base t + 8 * paeEntries t ≤ 2 ^ 32 := L.below t
  have hdvd : 2 ^ 12 ∣ L.base t := halign ▸ L.aligned t
  refine ⟨?_, rfl, hf, hlt, hdvd, Nat.dvd_refl _, fun k hk => ?_, by decide⟩
  · rw [BitVec.toNat_ofNat, Nat.mod_eq_of_lt (by omega)]
  · show L.base t + k * 0x1000 + 2 ^ 12 ≤ 2 ^ 64
    omega

theorem pae_loopArgs_map {flags step : BitVec 64} {f size n : Nat} (hf : flags.toNat = f)
    (hlt : f < 2 ^ 12) (hs : step.toNat = size) (hdvd : 2 ^ 12 ∣ size)
    (hn : n * size ≤ 2 ^ 32) : LoopArgs pae flags step 0 0 size f n := by
  refine ⟨rfl, hs, hf, hlt, Nat.dvd_zero _, hdvd, fun k hk => ?_, by decide⟩
  have hk' : k * size ≤ n * size := Nat.mul_le_mul_right _ (Nat.le_of_lt hk)
  show 0 + k * size + 2 ^ 12 ≤ 2 ^ 64
  omega

def PaeAgree (L : PaeLayout) (m₀ : ByteMem) : Prop :=
  (PaeLayout.setUserModePageTable L (PaeLayout.shvPageTableInit L ⟨m₀, true⟩)).inside = true ∧
    SameIdentity pae
      (PaeLayout.setUserModePageTable L (PaeLayout.shvPageTableInit L ⟨m₀, true⟩)).mem (2 ^ 32) 2
      (L.base .shvPdpt) (L.base .userPdpt)

theorem pae_rows (h0 : Zeroed L s.mem) :
    ∃ s', s' = PaeLayout.setUserModePageTable L (PaeLayout.shvPageTableInit L s) ∧
      s'.inside = s.inside ∧
      Row L s' .shvPdpt 4 (fun k => L.base .shvPdt + k * 0x1000) 1 ∧
      Row L s' .shvPdt 2048 (fun k => 0 + k * 0x200000) 0x83 ∧
      Row L s' .userPdpt 4 (fun k => L.base .userPdt + k * 0x1000) 1 ∧
      Row L s' .userPdt 2048 (fun k => L.base .userPt + k * 0x1000) 7 ∧
      Row L s' .userPt 1048576 (fun k => 0 + k * 0x1000) 7 := by
  have a3 : LoopArgs pae 0x1 0x1000 (BitVec.ofNat 64 (L.base .shvPdt)) (L.base .shvPdt) 0x1000 1
      4 := pae_loopArgs_dir rfl (by decide) rfl (by decide)
  have a2 : LoopArgs pae 0x83 0x200000 0 0 0x200000 0x83 2048 :=
    pae_loopArgs_map rfl (by decide) rfl (by decide) (by decide)
  have u3 : LoopArgs pae 1 0x1000 (BitVec.ofNat 64 (L.base .userPdt)) (L.base .userPdt) 0x1000 1
      4 := pae_loopArgs_dir rfl (by decide) rfl (by decide)
  have u2 : LoopArgs pae 7 0x1000 (BitVec.ofNat 64 (L.base .userPt)) (L.base .userPt) 0x1000 7
      2048 := pae_loopArgs_dir rfl (by decide) rfl (by decide)
  have u1 : LoopArgs pae 7 0x1000 0 0 0x1000 7 1048576 :=
    pae_loopArgs_map rfl (by decide) rfl (by decide) (by decide)
  have f₁ := fillLoop_filled (L := L) (s := s) (t := .shvPdpt) a3 (by decide) (.zeroed h0)
  generalize hs₁ : fillLoop L .shvPdpt 0x1 0x1000 4 0 (BitVec.ofNat 64 (L.base .shvPdt)) s = s₁
    at f₁
  have hpdt : Row L s₁ .shvPdt 0 (fun k => 0 + k * 0x200000) 0x83 :=
    Row.keep (.zeroed h0) (Nat.zero_le _) (f₁.other .shvPdt (by decide))
  have f₂ := fillLoop_filled (L := L) (s := s₁) (t := .shvPdt) a2 (by decide) hpdt
  generalize hs₂ : fillLoop L .shvPdt 0x83 0x200000 2048 0 0 s₁ = s₂ at f₂
  have hw := pdptLoop_wrote (L := L) pae_table (by decide) (by decide) (n := 4) (i := 0) (s := s₂)
    (by decide)
  rw [show (0 : BitVec 64) + BitVec.ofNat 64 (0 * 512 * 512) * 0x1000 = 0 from rfl] at hw
  generalize hs₃ : PaeLayout.pdptLoop L 512 4 0 0 s₂ = s₃ at hw
  refine ⟨s₃, ?_, ?_, ?_, ?_, ?_, ?_, ?_⟩
  · rw [← hs₃, ← hs₂, ← hs₁]
    rfl
  · rw [hw.inside, f₂.inside, f₁.inside]
  · refine f₁.row.keep (by decide) fun k hk => ?_
    rw [hw.old .shvPdpt k hk nofun nofun nofun, f₂.other .shvPdpt (by decide) k hk]
  · refine f₂.row.keep (by decide) fun k hk => ?_
    exact hw.old .shvPdt k hk nofun nofun nofun
  · exact row_of_entries u3 rfl fun k hk => hw.pdpt k (Nat.zero_le k) hk
  · exact row_of_entries u2 rfl fun k hk => hw.pdt k (Nat.zero_le k) hk
  · exact row_of_entries u1 rfl fun k hk => hw.pt k (Nat.zero_le k) hk

def paeKernelTab : Nat → PaeTable
  | 0 | 1 => .shvPdt
  | _ => .shvPdpt

def paeUserTab : Nat → PaeTable
  | 0 => .userPt
  | 1 => .userPdt
  | _ => .userPdpt

theorem pae_kernel_walk {n3 n2 : Nat}
    (h3 : Row L s .shvPdpt n3 (fun k => L.base .shvPdt + k * 0x1000) 1)
    (h2 : Row L s .shvPdt n2 (fun k => 0 + k * 0x200000) 0x83)
    (r2 : n3 * 512 ≤ paeEntries .shvPdt) (hn : n2 ≤ n3 * 512) {va : Nat} (hva : va < 2 ^ 32) :
    pae.walk s.mem va 2 (L.base .shvPdpt) = if va / 2 ^ 21 < n2 then some va else none := by
  have s1 : pae.shift 1 = 21 := rfl
  have s2 : pae.shift 2 = 30 := rfl
  have s3 : pae.shift (2 + 1) = 39 := rfl
  have hw := walk_of_rows (L := L) (s := s) 1 2 paeKernelTab (byLevel 0 n2 n3 0)
    (byLevel 0 0x83 1 0) (by decide) ?_ ?_ ?_ ?_ ?_ (fun _ => by decide) ?_ ?_ (Or.inr rfl)
    (by decide) va (by omega) (by rw [s3]; omega) ?_
  · rw [s1] at hw
    exact hw
  · rw [s1]
    exact h2
  · intro l hl ht
    interval_cases l
    exact h3
  · intro l hl ht
    rw [pae_table]
    interval_cases l
    exact r2
  · intro l hl ht
    rw [pae_table]
    interval_cases l
    exact hn
  · intro l hl ht
    interval_cases l
    exact L.aligned .shvPdt
  · intro l hl ht
    interval_cases l <;> rfl
  · intro l hl ht
    interval_cases l
    rfl
  · rw [s2]
    show va / 2 ^ 30 < 4
    omega

theorem pae_user_walk {n3 n2 n1 : Nat}
    (h3 : Row L s .userPdpt n3 (fun k => L.base .userPdt + k * 0x1000) 1)
    (h2 : Row L s .userPdt n2 (fun k => L.base .userPt + k * 0x1000) 7)
    (h1 : Row L s .userPt n1 (fun k => 0 + k * 0x1000) 7)
    (r2 : n3 * 512 ≤ paeEntries .userPdt) (r1 : n2 * 512 ≤ paeEntries .userPt)
    (hn2 : n2 ≤ n3 * 512) (hn1 : n1 ≤ n2 * 512) {va : Nat} (hva : va < 2 ^ 32) :
    pae.walk s.mem va 2 (L.base .userPdpt) = if va / 2 ^ 12 < n1 then some va else none := by
  have s0 : pae.shift 0 = 12 := rfl
  have s2 : pae.shift 2 = 30 := rfl
  have s3 : pae.shift (2 + 1) = 39 := rfl
  have hw := walk_of_rows (L := L) (s := s) 0 2 paeUserTab (byLevel n1 n2 n3 0)
    (byLevel 7 7 1 0) (by decide) ?_ ?_ ?_ ?_ ?_ (fun _ => by decide) ?_ ?_ (Or.inl rfl)
    (by decide) va (by omega) (by rw [s3]; omega) ?_
  · rw [s0] at hw
    exact hw
  · rw [s0]
    exact h1
  · intro l hl ht
    interval_cases l
    · exact h2
    · exact h3
  · intro l hl ht
    rw [pae_table]
    interval_cases l
    · exact r1
    · exact r2
  · intro l hl ht
    rw [pae_table]
    interval_cases l
    · exact hn1
    · exact hn2
  · intro l hl ht
    interval_cases l
    · exact L.aligned .userPt
    · exact L.aligned .userPdt
  · intro l hl ht
    interval_cases l <;> rfl
  · intro l hl ht
    interval_cases l <;> rfl
  · rw [s2]
    show va / 2 ^ 30 < 4
    omega

theorem sameIdentity_of_some {P : Paging} {m : ByteMem} {limit top a b : Nat}
    (ha : ∀ va < limit, P.walk m va top a = some va)
    (hb : ∀ va < limit, P.walk m va top b = some va) : SameIdentity P m limit top a b := by
  intro va hva
  rw [ha va hva, hb va hva]
  exact ⟨rfl, fun pa hpa => (Option.some.inj hpa).symm⟩

theorem pae_agree {m₀ : ByteMem} (h0 : Zeroed L m₀) : PaeAgree L m₀ := by
  obtain ⟨s', heq, hin, hk3, hk2, hu3, hu2, hu1⟩ := pae_rows (L := L) (s := ⟨m₀, true⟩) h0
  rw [PaeAgree, ← heq]
  refine ⟨hin, sameIdentity_of_some ?_ ?_⟩
  · intro va hva
    rw [pae_kernel_walk hk3 hk2 (by decide) (by decide) hva, if_pos (by omega)]
  · intro va hva
    rw [pae_user_walk hu3 hu2 hu1 (by decide) (by decide) (by decide) (by decide) hva,
      if_pos (by omega)]

end Pae

/-! ## Without PAE -/

section P32

variable {L : P32Layout} {s : PtState}

theorem p32_table : 2 ^ p32.bits = 1024 := by
  rw [show p32.bits = 10 from rfl]
  norm_num

/-- What is asked of the tables of i386 without PAE. -/
def P32Agree (L : P32Layout) (m₀ : ByteMem) : Prop :=
  (P32Layout.setUserModePageTable L (P32Layout.shvPageTableInit L ⟨m₀, true⟩)).inside = true ∧
    SameIdentity p32
      (P32Layout.setUserModePageTable L (P32Layout.shvPageTableInit L ⟨m₀, true⟩)).mem (2 ^ 32) 1
      (L.base .shvPdt) (L.base .userPdt)

theorem p32_rows (h0 : Zeroed L s.mem) :
    ∃ s', s' = P32Layout.setUserModePageTable L (P32Layout.shvPageTableInit L s) ∧
      s'.inside = s.inside ∧
      Row L s' .shvPdt 1024 (fun k => 0 + k * 0x400000) 0x83 ∧
      Row L s' .userPdt 1024 (fun k => L.base .userPt + k * 0x1000) 7 ∧
      Row L s' .userPt 1048576 (fun k => 0 + k * 0x1000) 7 := by
  have hbelow : L.base .userPt + 4 * 1048576 ≤ 2 ^ 32 := L.below .userPt
  have a2 : LoopArgs p32 0x83 0x400000 0 0 0x400000 0x83 1024 := by
    refine ⟨rfl, rfl, rfl, by decide, Nat.dvd_zero _, by decide, fun k hk => ?_, by decide⟩
    show 0 + k * 0x400000 + 2 ^ 12 ≤ 2 ^ 32
    omega
  have u2 : LoopArgs p32 7 0x1000 (BitVec.ofNat 64 (L.base .userPt)) (L.base .userPt) 0x1000 7
      1024 := by
    refine ⟨?_, rfl, rfl, by decide, L.aligned .userPt, by decide, fun k hk => ?_, by decide⟩
    · rw [BitVec.toNat_ofNat, Nat.mod_eq_of_lt (by omega)]
    · show L.base .userPt + k * 0x1000 + 2 ^ 12 ≤ 2 ^ 32
      omega
  have u1 : LoopArgs p32 7 0x1000 0 0 0x1000 7 1048576 := by
    refine ⟨rfl, rfl, rfl, by decide, Nat.dvd_zero _, by decide, fun k hk => ?_, by decide⟩
    show 0 + k * 0x1000 + 2 ^ 12 ≤ 2 ^ 32
    omega
  have f₁ := fillLoop_filled (L := L) (s := s) (t := .shvPdt) a2 (by decide) (.zeroed h0)
  generalize hs₁ : fillLoop L .shvPdt 0x83 0x400000 1024 0 0 s = s₁ at f₁
  have hw := dirLoop_wrote (L := L) (show P32Table.userPdt ≠ .userPt by decide) (n := 1024)
    (i := 0) (s := s₁) (by decide) (by rw [p32_table]; decide)
  rw [p32_table, show (0 : BitVec 64) + BitVec.ofNat 64 (0 * 1024) * 0x1000 = 0 from rfl] at hw
  generalize hs₂ : dirLoop L .userPdt .userPt 1024 0 0 s₁ = s₂ at hw
  refine ⟨s₂, ?_, ?_, ?_, ?_, ?_⟩
  · rw [← hs₂, ← hs₁]
    rfl
  · rw [hw.inside, f₁.inside]
  · exact f₁.row.keep (by decide) fun k hk => hw.old .shvPdt k hk nofun nofun
  · refine ⟨fun k hk => ?_, fun k hk hlt => absurd hlt (Nat.not_lt.mpr hk)⟩
    rw [hw.newDir k (Nat.zero_le k) hk]
    exact u2.isEntry hk
  · refine ⟨fun k hk => ?_, fun k hk hlt => absurd hlt (Nat.not_lt.mpr hk)⟩
    rw [hw.newPt k (by omega) (by rw [p32_table]; exact hk)]
    exact u1.isEntry hk

def p32UserTab : Nat → P32Table
  | 0 => .userPt
  | _ => .userPdt

theorem p32_kernel_walk {n2 : Nat} (h2 : Row L s .shvPdt n2 (fun k => 0 + k * 0x400000) 0x83)
    {va : Nat} (hva : va < 2 ^ 32) :
    p32.walk s.mem va 1 (L.base .shvPdt) = if va / 2 ^ 22 < n2 then some va else none := by
  have s1 : p32.shift 1 = 22 := rfl
  have s2 : p32.shift (1 + 1) = 32 := rfl
  have hw := walk_of_rows (L := L) (s := s) 1 1 (fun _ => .shvPdt) (fun _ => n2) (fun _ => 0x83)
    (by decide) ?_ (fun l hl ht => absurd hl (Nat.not_le.mpr ht))
    (fun l hl ht => absurd hl (Nat.not_le.mpr ht)) (fun l hl ht => absurd hl (Nat.not_le.mpr ht))
    (fun l hl ht => absurd hl (Nat.not_le.mpr ht)) (fun _ => by decide) (fun _ _ _ => rfl)
    (fun l hl ht => absurd ht (Nat.not_le.mpr hl)) (Or.inr rfl) (by decide) va (by omega)
    (by rwa [s2]) ?_
  · rw [s1] at hw
    exact hw
  · rw [s1]
    exact h2
  · rw [s1]
    show va / 2 ^ 22 < 1024
    omega

theorem p32_user_walk {n2 n1 : Nat}
    (h2 : Row L s .userPdt n2 (fun k => L.base .userPt + k * 0x1000) 7)
    (h1 : Row L s .userPt n1 (fun k => 0 + k * 0x1000) 7)
    (r1 : n2 * 1024 ≤ p32Entries .userPt) (hn : n1 ≤ n2 * 1024) {va : Nat} (hva : va < 2 ^ 32) :
    p32.walk s.mem va 1 (L.base .userPdt) = if va / 2 ^ 12 < n1 then some va else none := by
  have s0 : p32.shift 0 = 12 := rfl
  have s1 : p32.shift 1 = 22 := rfl
  have s2 : p32.shift (1 + 1) = 32 := rfl
  have hw := walk_of_rows (L := L) (s := s) 0 1 p32UserTab (byLevel n1 n2 0 0) (fun _ => 7)
    (by decide) ?_ ?_ ?_ ?_ (fun _ _ _ => L.aligned _) (fun _ => by decide) (fun _ _ _ => rfl)
    (fun _ _ _ => rfl) (Or.inl rfl) (by decide) va (by omega) (by rwa [s2]) ?_
  · rw [s0] at hw
    exact hw
  · rw [s0]
    exact h1
  · intro l hl ht
    interval_cases l
    exact h2
  · intro l hl ht
    rw [p32_table]
    interval_cases l
    exact r1
  · intro l hl ht
    rw [p32_table]
    interval_cases l
    exact hn
  · rw [s1]
    show va / 2 ^ 22 < 1024
    omega

theorem p32_agree {m₀ : ByteMem} (h0 : Zeroed L m₀) : P32Agree L m₀ := by
  obtain ⟨s', heq, hin, hk2, hu2, hu1⟩ := p32_rows (L := L) (s := ⟨m₀, true⟩) h0
  rw [P32Agree, ← heq]
  refine ⟨hin, sameIdentity_of_some ?_ ?_⟩
  · intro va hva
    rw [p32_kernel_walk hk2 hva, if_pos (by omega)]
  · intro va hva
    rw [p32_user_walk hu2 hu1 (by decide) (by decide) hva, if_pos (by omega)]

end P32

end Shv
