/-
# `Shv.PagingRows` — what the loops of `Shv.Paging` leave in the arrays

A loop is a run of writes into one array (`Wrote`; `DirWrote` for the nested loops
of i386), and what it leaves is a row: so many entries present, with evenly spaced
addresses and the same flags, and the rest absent (`Row`, `Filled`).  `checkLoop`
does not halt on a row that is there already, also when the processor has set
accessed and dirty bits in it.
-/
import Shv.Paging

namespace Shv

open ByteMem Paging

section Loops

variable {T : Type} {P : Paging} {entries alignment limit : T → Nat}
  {L : Layout P entries alignment limit} {s s' : PtState} {t u : T} {i j n : Nat}

/-! ## One write -/

namespace Layout

theorem get_put_self (e : BitVec (8 * P.width)) : L.get (L.put s t i e) t i = e :=
  load_store_self _ _ _ _

theorem get_put_of_ne (e : BitVec (8 * P.width)) (hi : i < entries t) (hj : j < entries u)
    (hne : u = t → j ≠ i) : L.get (L.put s t i e) u j = L.get s u j := by
  refine load_store_of_apart ?_
  have hin : ∀ {v : T} {k : Nat}, k < entries v →
      L.base v + P.width * k + P.width ≤ L.base v + P.width * entries v := by
    intro v k hk
    rw [Nat.add_assoc, ← Nat.mul_succ]
    exact Nat.add_le_add_left (Nat.mul_le_mul_left _ hk) _
  by_cases hut : u = t
  · subst hut
    have hjump : ∀ {a b : Nat}, a < b →
        L.base u + P.width * a + P.width ≤ L.base u + P.width * b := by
      intro a b hab
      rw [Nat.add_assoc, ← Nat.mul_succ]
      exact Nat.add_le_add_left (Nat.mul_le_mul_left _ hab) _
    exact (Nat.lt_or_gt_of_ne (hne rfl)).symm.imp hjump hjump
  · exact (L.apart (Ne.symm hut)).mono (Nat.le_add_right _ _) (hin hi) (Nat.le_add_right _ _)
      (hin hj)

end Layout

/-! ## Runs of writes -/

/-- `s'` is `s` with the entries `[a, b)` of `t` set to `f`. -/
structure Wrote (L : Layout P entries alignment limit) (t : T) (a b : Nat)
    (f : Nat → BitVec (8 * P.width)) (s s' : PtState) : Prop where
  inside : s'.inside = s.inside
  new : ∀ k, a ≤ k → k < b → L.get s' t k = f k
  old : ∀ u k, k < entries u → (u = t → k < a ∨ b ≤ k) → L.get s' u k = L.get s u k

namespace Wrote

variable {a b : Nat} {f : Nat → BitVec (8 * P.width)}

theorem nil (h : b ≤ a) : Wrote L t a b f s s :=
  ⟨rfl, fun _ h₁ h₂ => absurd h₂ (Nat.not_lt.mpr (Nat.le_trans h h₁)), fun _ _ _ _ => rfl⟩

theorem cons (hi : i < entries t) (hlt : i < b) (h : Wrote L t (i + 1) b f (L.put s t i (f i)) s') :
    Wrote L t i b f s s' := by
  refine ⟨?_, ?_, ?_⟩
  · rw [h.inside, Layout.put, decide_eq_true hi, Bool.and_true]
  · intro k hk hb
    rcases Nat.lt_or_eq_of_le hk with hlt' | rfl
    · exact h.new k hlt' hb
    · rw [h.old t i hi fun _ => Or.inl (Nat.lt_succ_self i)]
      exact Layout.get_put_self _
  · intro u k hk hout
    rw [h.old u k hk fun hut => (hout hut).imp_left Nat.lt_succ_of_lt]
    refine Layout.get_put_of_ne _ hi hk fun hut heq => ?_
    rcases hout hut with hlt' | hge
    · exact Nat.lt_irrefl _ (heq ▸ hlt')
    · exact Nat.lt_irrefl _ (Nat.lt_of_le_of_lt (heq ▸ hge) hlt)

end Wrote

/-- The entry a loop writes at index `k`. -/
def loopEntry (P : Paging) (flags step paddr : BitVec 64) (k : Nat) : BitVec (8 * P.width) :=
  (flags ||| (paddr + BitVec.ofNat 64 k * step)).setWidth (8 * P.width)

theorem paddr_succ {w : Nat} (paddr step : BitVec w) (i : Nat) :
    paddr + BitVec.ofNat w i * step + step = paddr + BitVec.ofNat w (i + 1) * step := by
  rw [BitVec.ofNat_add, BitVec.add_assoc]
  congr 1
  rw [BitVec.add_mul, BitVec.one_mul]

theorem fillLoop_wrote (flags step paddr : BitVec 64) :
    ∀ {n i : Nat} {s : PtState}, i + n ≤ entries t →
      Wrote L t i (i + n) (loopEntry P flags step paddr) s
        (fillLoop L t flags step n i (paddr + BitVec.ofNat 64 i * step) s) := by
  intro n
  induction n with
  | zero =>
      intro i s _
      exact .nil (Nat.le_refl _)
  | succ n ih =>
      intro i s hle
      have hassoc : i + 1 + n = i + (n + 1) := by omega
      rw [fillLoop, paddr_succ]
      have hw := ih (i := i + 1) (s := L.put s t i (loopEntry P flags step paddr i)) (by omega)
      rw [hassoc] at hw
      exact .cons (by omega) (by omega) hw

/-- `checkLoop` does not halt if the entries to check are as expected. -/
theorem checkLoop_wrote (kept : Nat) (expected flags step paddr : BitVec 64) :
    ∀ {n i : Nat} {s : PtState}, i + n ≤ entries t →
      (∀ k, i ≤ k → k < kept → k < i + n → (0x60#64).setWidth (8 * P.width) ||| L.get s t k =
        loopEntry P expected step paddr k) →
      ∃ s', checkLoop L t kept expected flags step n i (paddr + BitVec.ofNat 64 i * step) s =
          some s' ∧
        Wrote L t (max i kept) (i + n) (loopEntry P flags step paddr) s s' := by
  intro n
  induction n with
  | zero =>
      intro i s _ _
      exact ⟨s, rfl, .nil (Nat.le_max_left _ _)⟩
  | succ n ih =>
      intro i s hle hkept
      have hassoc : i + 1 + n = i + (n + 1) := by omega
      by_cases hik : i < kept
      · obtain ⟨s', hrun, hw⟩ := ih (i := i + 1) (s := s) (by omega)
          fun k hk hk' hn => hkept k (by omega) hk' (by omega)
        refine ⟨s', ?_, ?_⟩
        · have hi := hkept i (Nat.le_refl _) hik (by omega)
          rw [loopEntry] at hi
          rw [checkLoop, if_pos hik, hi, beq_self_eq_true, cAssert_true, paddr_succ]
          exact hrun
        · rwa [hassoc, Nat.max_eq_right hik, ← Nat.max_eq_right (Nat.le_of_lt hik)] at hw
      · have hmax : max i kept = i := Nat.max_eq_left (Nat.le_of_not_lt hik)
        have hmax' : max (i + 1) kept = i + 1 := Nat.max_eq_left (by omega)
        obtain ⟨s', hrun, hw⟩ := ih (i := i + 1)
          (s := L.put s t i (loopEntry P flags step paddr i)) (by omega)
          fun k hk hk' _ => absurd hk' (by omega)
        refine ⟨s', ?_, ?_⟩
        · rw [checkLoop, if_neg hik, paddr_succ]
          exact hrun
        · rw [hmax', hassoc] at hw
          rw [hmax]
          exact .cons (by omega) (by omega) hw

/-- `s'` is `s` with the entries `[a, b)` of `dir` and the tables they name set. -/
structure DirWrote (L : Layout P entries alignment limit) (dir pt : T) (a b : Nat)
    (s s' : PtState) : Prop where
  inside : s'.inside = s.inside
  newDir : ∀ k, a ≤ k → k < b →
    L.get s' dir k = loopEntry P 7 0x1000 (BitVec.ofNat 64 (L.base pt)) k
  newPt : ∀ k, a * 2 ^ P.bits ≤ k → k < b * 2 ^ P.bits → L.get s' pt k = loopEntry P 7 0x1000 0 k
  old : ∀ u k, k < entries u → (u = dir → k < a ∨ b ≤ k) →
    (u = pt → k < a * 2 ^ P.bits ∨ b * 2 ^ P.bits ≤ k) → L.get s' u k = L.get s u k

theorem dirEntry_eq (flags : BitVec 64) (base k : Nat) :
    (flags ||| BitVec.ofNat 64 (base + 0x1000 * k)).setWidth (8 * P.width) =
      loopEntry P flags 0x1000 (BitVec.ofNat 64 base) k := by
  rw [loopEntry, BitVec.ofNat_add, Nat.mul_comm 0x1000 k, BitVec.ofNat_mul]
  rfl

theorem paddrAfter_eq (paddr : BitVec 64) (i n : Nat) :
    paddrAfter n (paddr + BitVec.ofNat 64 i * 0x1000) =
      paddr + BitVec.ofNat 64 (i + n) * 0x1000 := by
  induction n with
  | zero => rfl
  | succ n ih =>
      rw [paddrAfter, Function.iterate_succ_apply']
      rw [paddrAfter] at ih
      rw [ih, paddr_succ]
      rfl

/-- One entry of the directory, its table, and the run that follows them. -/
theorem DirWrote.cons {dir pt : T} (hne : dir ≠ pt) {i b : Nat} {s s₁ s' : PtState}
    (hlt : i < b) (hdir : b ≤ entries dir) (hpt : b * 2 ^ P.bits ≤ entries pt)
    (hfill : Wrote L pt (i * 2 ^ P.bits) ((i + 1) * 2 ^ P.bits) (loopEntry P 7 0x1000 0)
      (L.put s dir i (loopEntry P 7 0x1000 (BitVec.ofNat 64 (L.base pt)) i)) s₁)
    (h : DirWrote L dir pt (i + 1) b s₁ s') : DirWrote L dir pt i b s s' := by
  have hi : i < entries dir := Nat.lt_of_lt_of_le hlt hdir
  have hstep : i * 2 ^ P.bits ≤ (i + 1) * 2 ^ P.bits := Nat.mul_le_mul_right _ (Nat.le_succ i)
  have hend : (i + 1) * 2 ^ P.bits ≤ b * 2 ^ P.bits := Nat.mul_le_mul_right _ hlt
  refine ⟨?_, ?_, ?_, ?_⟩
  · rw [h.inside, hfill.inside, Layout.put, decide_eq_true hi, Bool.and_true]
  · intro k hk hk'
    rcases Nat.lt_or_eq_of_le hk with hlt | rfl
    · exact h.newDir k hlt hk'
    · rw [h.old dir i hi (fun _ => Or.inl (Nat.lt_succ_self i)) fun heq => absurd heq hne,
        hfill.old dir i hi fun heq => absurd heq hne]
      exact Layout.get_put_self _
  · intro k hk hk'
    by_cases hlt : k < (i + 1) * 2 ^ P.bits
    · rw [h.old pt k (Nat.lt_of_lt_of_le hk' hpt) (fun heq => absurd heq.symm hne)
        fun _ => Or.inl hlt]
      exact hfill.new k hk hlt
    · exact h.newPt k (Nat.le_of_not_lt hlt) hk'
  · intro u k hk hd hp
    rw [h.old u k hk (fun hu => (hd hu).imp_left Nat.lt_succ_of_lt)
        fun hu => (hp hu).imp_left (Nat.lt_of_lt_of_le · hstep),
      hfill.old u k hk fun hu => (hp hu).imp_right (Nat.le_trans hend)]
    refine Layout.get_put_of_ne _ hi hk fun hu heq => ?_
    have := hd hu
    omega

theorem dirLoop_wrote {dir pt : T} (hne : dir ≠ pt) :
    ∀ {n i : Nat} {s : PtState}, i + n ≤ entries dir → (i + n) * 2 ^ P.bits ≤ entries pt →
      DirWrote L dir pt i (i + n) s
        (dirLoop L dir pt n i (0 + BitVec.ofNat 64 (i * 2 ^ P.bits) * 0x1000) s) := by
  intro n
  induction n with
  | zero =>
      intro i s _ _
      exact ⟨rfl, fun k h h' => absurd h' (Nat.not_lt.mpr h),
        fun k h h' => absurd h' (Nat.not_lt.mpr h), fun _ _ _ _ _ => rfl⟩
  | succ n ih =>
      intro i s hdir hpt
      have hassoc : i + 1 + n = i + (n + 1) := by omega
      have hpage : i * 2 ^ P.bits + 2 ^ P.bits = (i + 1) * 2 ^ P.bits := (Nat.succ_mul _ _).symm
      have hend : (i + 1) * 2 ^ P.bits ≤ (i + (n + 1)) * 2 ^ P.bits :=
        Nat.mul_le_mul_right _ (by omega)
      have hfill := fillLoop_wrote (L := L) (t := pt) 7 0x1000 0 (n := 2 ^ P.bits)
        (i := i * 2 ^ P.bits)
        (s := L.put s dir i (loopEntry P 7 0x1000 (BitVec.ofNat 64 (L.base pt)) i)) (by omega)
      rw [hpage] at hfill
      rw [dirLoop, dirEntry_eq, paddrAfter_eq, hpage]
      refine .cons hne (by omega) hdir hpt hfill ?_
      rw [← hassoc]
      exact ih (by omega) (by rwa [hassoc])

end Loops

/-! ## `boot.S` -/

section Boot

variable {maxAddr : BitVec 64} {L : P4lLayout maxAddr} {s : PtState} {t : P4lTable} {i : Nat}

theorem putLow_eq_put (h : L.get s t i = 0) (eax : BitVec 32) :
    putLow L s t i eax = L.put s t i (eax.setWidth 64) := by
  have hmem : s.mem.store (L.base t + 8 * i) 8 (eax.setWidth 64) =
      s.mem.store (L.base t + 8 * i) 4 eax := store_setWidth (w := 4) (k := 4) eax h
  exact congrArg (PtState.mk · (s.inside && decide (i < p4lEntries maxAddr t))) hmem.symm

/-- The entry `boot.S` writes at index `k`. -/
def bootEntry (step eax : BitVec 32) (k : Nat) : BitVec (8 * p4l.width) :=
  (eax + BitVec.ofNat 32 k * step).setWidth 64

theorem bootLoop_wrote (step eax : BitVec 32) :
    ∀ {n i : Nat} {s : PtState}, i + n ≤ p4lEntries maxAddr t →
      (∀ k, i ≤ k → k < i + n → L.get s t k = 0) →
      Wrote L t i (i + n) (bootEntry step eax) s
        (bootLoop L t step n i (eax + BitVec.ofNat 32 i * step) s) := by
  intro n
  induction n with
  | zero =>
      intro i s _ _
      exact .nil (Nat.le_refl _)
  | succ n ih =>
      intro i s hle hzero
      have hassoc : i + 1 + n = i + (n + 1) := by omega
      rw [bootLoop, putLow_eq_put (hzero i (Nat.le_refl _) (by omega)), paddr_succ]
      have hw := ih (i := i + 1) (s := L.put s t i (bootEntry step eax i)) (by omega)
          fun k hk hk' => by
        rw [Layout.get_put_of_ne _ (by omega) (by omega) fun _ => by omega]
        exact hzero k (by omega) (by omega)
      rw [hassoc] at hw
      exact .cons (by omega) (by omega) hw

end Boot

/-! ## Rows -/

section Rows

variable {T : Type} {P : Paging} {entries alignment limit : T → Nat}
  {L : Layout P entries alignment limit} {s s' : PtState} {t : T} {n k : Nat}

theorem paddr_toNat {w : Nat} {paddr step : BitVec w} {p st : Nat} (hp : paddr.toNat = p)
    (hst : step.toNat = st) (hlt : p + k * st < 2 ^ w) :
    (paddr + BitVec.ofNat w k * step).toNat = p + k * st := by
  rw [BitVec.toNat_add, BitVec.toNat_mul, BitVec.toNat_ofNat, hp, hst, Nat.mod_mul_mod,
    Nat.add_mod_mod, Nat.mod_eq_of_lt hlt]

theorem loopEntry_toNat {flags step paddr : BitVec 64} {p st : Nat} (hp : paddr.toNat = p)
    (hst : step.toNat = st) (hdvd : 2 ^ 12 ∣ p + k * st) (hf : flags.toNat < 2 ^ 12)
    (hlt : p + k * st + 2 ^ 12 ≤ 2 ^ (8 * P.width)) (hw : 8 * P.width ≤ 64) :
    (loopEntry P flags step paddr k).toNat = p + k * st + flags.toNat := by
  have h64 : 2 ^ (8 * P.width) ≤ 2 ^ 64 := Nat.pow_le_pow_right (by decide) hw
  rw [loopEntry, BitVec.toNat_setWidth, BitVec.toNat_or, paddr_toNat hp hst (by omega)]
  obtain ⟨q, hq⟩ := hdvd
  rw [hq, Nat.or_comm, ← Nat.two_pow_add_eq_or_of_lt hf, Nat.mod_eq_of_lt (by omega)]

theorem or_eq_loopEntry {expected step paddr : BitVec 64} {p st f : Nat} (hp : paddr.toNat = p)
    (hst : step.toNat = st) (hdvd : 2 ^ 12 ∣ p + k * st) (he : expected.toNat = f ||| 0x60)
    (hf : f < 2 ^ 12) (hlt : p + k * st + 2 ^ 12 ≤ 2 ^ (8 * P.width)) (hw : 8 * P.width ≤ 64)
    {e : BitVec (8 * P.width)} (h : IsEntry (p + k * st) f e) :
    (0x60#64).setWidth (8 * P.width) ||| e = loopEntry P expected step paddr k := by
  obtain ⟨f', hf', hval, hflags⟩ := h
  have hex : expected.toNat < 2 ^ 12 := by
    rw [he]
    exact Nat.or_lt_two_pow hf (by decide)
  apply BitVec.eq_of_toNat_eq
  rw [loopEntry_toNat hp hst hdvd hex hlt hw, he, ← hflags, BitVec.toNat_or,
    BitVec.toNat_setWidth, BitVec.toNat_ofNat, hval]
  have h60 : 0x60 % 2 ^ 64 % 2 ^ (8 * P.width) = 0x60 :=
    (Nat.mod_eq_of_lt (by omega : 0x60 < 2 ^ (8 * P.width)))
  obtain ⟨q, hq⟩ := hdvd
  rw [h60, hq, Nat.two_pow_add_eq_or_of_lt hf',
    Nat.two_pow_add_eq_or_of_lt (Nat.or_lt_two_pow hf' (by decide)), Nat.or_comm, Nat.or_assoc]

/-- The first `n` entries of the array `t` are present, with the addresses `p` and the flags `f`,
and the others are not. -/
structure Row (L : Layout P entries alignment limit) (s : PtState) (t : T) (n : Nat)
    (p : Nat → Nat) (f : Nat) : Prop where
  present : ∀ i < n, IsEntry (p i) f (L.get s t i)
  absent : ∀ i, n ≤ i → i < entries t → IsEntry 0 0 (L.get s t i)

namespace Row

variable {p : Nat → Nat} {f a b : Nat} {g : Nat → BitVec (8 * P.width)}

theorem zeroed (h : Zeroed L s.mem) : Row L s t 0 p f := by
  refine ⟨fun i hi => absurd hi (Nat.not_lt_zero i), fun i _ hi => ⟨0, by decide, ?_, rfl⟩⟩
  rw [Layout.get, h t i hi]
  rfl

theorem keep (h : Row L s t n p f) (hn : n ≤ entries t)
    (hsame : ∀ i < entries t, L.get s' t i = L.get s t i) : Row L s' t n p f := by
  refine ⟨fun i hi => ?_, fun i hi hlt => ?_⟩
  · rw [hsame i (Nat.lt_of_lt_of_le hi hn)]
    exact h.present i hi
  · rw [hsame i hlt]
    exact h.absent i hi hlt

theorem extend (h : Row L s t a p f) (ha : a ≤ entries t)
    (hw : Wrote L t a b g s s') (hg : ∀ k, a ≤ k → k < b → IsEntry (p k) f (g k)) :
    Row L s' t (max a b) p f := by
  refine ⟨fun i hi => ?_, fun i hi hlt => ?_⟩
  · by_cases hia : i < a
    · rw [hw.old t i (by omega) fun _ => Or.inl hia]
      exact h.present i hia
    · rw [hw.new i (by omega) (by omega)]
      exact hg i (by omega) (by omega)
  · rw [hw.old t i hlt fun _ => Or.inr (by omega)]
    exact h.absent i (by omega) hlt

theorem touch (h : Row L s t n p f) (hn : n ≤ entries t) (hp : ∀ i < n, 2 ^ 12 ∣ p i)
    (hw : 0x60 < 2 ^ (8 * P.width)) (ht : Touched L s.mem s'.mem) : Row L s' t n p f := by
  refine ⟨fun i hi => ?_, fun i hi hlt => ?_⟩
  · obtain ⟨x, hx⟩ := ht t i (Nat.lt_of_lt_of_le hi hn)
    rw [Layout.get, hx]
    exact (h.present i hi).or (hp i hi) hw x
  · obtain ⟨x, hx⟩ := ht t i hlt
    rw [Layout.get, hx]
    exact (h.absent i hi hlt).or (Nat.dvd_zero _) hw x

end Row

/-! ## Loops and rows -/

/-- The arguments of a loop over `count` entries: the addresses begin at `base` and are `size`
apart, and they fit into an entry. -/
structure LoopArgs (P : Paging) (flags step paddr : BitVec 64) (base size f count : Nat) :
    Prop where
  paddr : paddr.toNat = base
  step : step.toNat = size
  flags : flags.toNat = f
  flags_lt : f < 2 ^ 12
  base_aligned : 2 ^ 12 ∣ base
  size_aligned : 2 ^ 12 ∣ size
  fits : ∀ k < count, base + k * size + 2 ^ 12 ≤ 2 ^ (8 * P.width)
  width : 8 * P.width ≤ 64

/-- What a loop does that fills the array `t` up to entry `n`. -/
structure Filled (L : Layout P entries alignment limit) (t : T) (n base size f : Nat)
    (s s' : PtState) : Prop where
  inside : s'.inside = s.inside
  row : Row L s' t n (fun k => base + k * size) f
  other : ∀ u ≠ t, ∀ i < entries u, L.get s' u i = L.get s u i

section

variable {flags step paddr expected : BitVec 64} {base size f count kept : Nat}

theorem LoopArgs.aligned (h : LoopArgs P flags step paddr base size f count) (k : Nat) :
    2 ^ 12 ∣ base + k * size :=
  Nat.dvd_add h.base_aligned (Nat.dvd_mul_left_of_dvd h.size_aligned k)

theorem LoopArgs.isEntry (h : LoopArgs P flags step paddr base size f count) (hk : k < count) :
    IsEntry (base + k * size) f (loopEntry P flags step paddr k) := by
  refine ⟨f, h.flags_lt, ?_, rfl⟩
  rw [loopEntry_toNat h.paddr h.step (h.aligned k) (h.flags ▸ h.flags_lt) (h.fits k hk) h.width,
    h.flags]

theorem Wrote.filled (h : LoopArgs P flags step paddr base size f n)
    (hw : Wrote L t kept n (loopEntry P flags step paddr) s s')
    (hrow : Row L s t kept (fun k => base + k * size) f) (hkept : kept ≤ entries t) :
    Filled L t (max kept n) base size f s s' where
  inside := hw.inside
  row := hrow.extend hkept hw fun _ _ hk => h.isEntry hk
  other u hu i hi := hw.old u i hi fun hut => absurd hut hu

theorem zero_mul_add (paddr step : BitVec 64) : paddr + BitVec.ofNat 64 0 * step = paddr := by
  rw [show BitVec.ofNat 64 0 = 0#64 from rfl, BitVec.zero_mul, BitVec.add_zero]

theorem fillLoop_filled (h : LoopArgs P flags step paddr base size f n) (hn : n ≤ entries t)
    (hrow : Row L s t 0 (fun k => base + k * size) f) :
    Filled L t n base size f s (fillLoop L t flags step n 0 paddr s) := by
  have hw := fillLoop_wrote (L := L) flags step paddr (n := n) (i := 0) (s := s)
    (by rwa [Nat.zero_add])
  rw [zero_mul_add, Nat.zero_add] at hw
  have hfilled := hw.filled h hrow (Nat.zero_le _)
  rwa [Nat.zero_max] at hfilled

theorem checkLoop_filled (h : LoopArgs P flags step paddr base size f (max kept n))
    (hkept : kept ≤ entries t) (hn : n ≤ entries t) (he : expected.toNat = f ||| 0x60)
    (hrow : Row L s t kept (fun k => base + k * size) f) :
    ∃ s', checkLoop L t kept expected flags step n 0 paddr s = some s' ∧
      Filled L t (max kept n) base size f s s' := by
  obtain ⟨s', hrun, hw⟩ := checkLoop_wrote (L := L) kept expected flags step paddr (n := n)
    (i := 0) (s := s) (by rwa [Nat.zero_add]) fun k _ hk _ =>
      or_eq_loopEntry h.paddr h.step (h.aligned k) he h.flags_lt (h.fits k (by omega)) h.width
        (hrow.present k hk)
  rw [zero_mul_add] at hrun
  rw [Nat.zero_add, Nat.zero_max] at hw
  refine ⟨s', hrun, hw.filled ⟨h.paddr, h.step, h.flags, h.flags_lt, h.base_aligned,
    h.size_aligned, fun k hk => h.fits k (by omega), h.width⟩ hrow hkept⟩

end

/-! ## Rows and walks -/

/-- The rows of the levels `leaf` to `top`, level `l` in the array `tab l`, map the addresses of
the first `n leaf` pages, each to itself. -/
theorem walk_of_rows (leaf top : Nat) (tab : Nat → T) (n f : Nat → Nat) (hle : leaf ≤ top)
    (hleaf : Row L s (tab leaf) (n leaf) (fun k => 0 + k * 2 ^ P.shift leaf) (f leaf))
    (hdir : ∀ l, leaf ≤ l → l < top →
      Row L s (tab (l + 1)) (n (l + 1)) (fun k => L.base (tab l) + k * 2 ^ 12) (f (l + 1)))
    (hroom : ∀ l, leaf ≤ l → l < top → n (l + 1) * 2 ^ P.bits ≤ entries (tab l))
    (hreached : ∀ l, leaf ≤ l → l < top → n l ≤ n (l + 1) * 2 ^ P.bits)
    (haligned : ∀ l, leaf ≤ l → l < top → 2 ^ 12 ∣ L.base (tab l))
    (hbelow : ∀ t, limit t ≤ 2 ^ 52)
    (hpresent : ∀ l, leaf ≤ l → l ≤ top → (f l).testBit 0 = true)
    (hnames : ∀ l, leaf < l → l ≤ top → (f l).testBit 7 = false)
    (hmaps : leaf = 0 ∨ (f leaf).testBit 7 = true) (hs : P.shift leaf ≤ 52) (va : Nat)
    (hva : va < 2 ^ 52) (htop : va < 2 ^ P.shift (top + 1))
    (htop' : va / 2 ^ P.shift top < entries (tab top)) :
    P.walk s.mem va top (L.base (tab top)) =
      if va / 2 ^ P.shift leaf < n leaf then some va else none := by
  have hmap : P.LinearMap s.mem leaf top (fun l => L.base (tab l)) n (fun l => entries (tab l))
      f := by
    refine ⟨?_, ?_, ?_, hroom, hreached, haligned, ?_, hpresent, hnames, hmaps⟩
    · intro i hi
      have he := hleaf.present i hi
      rw [Nat.zero_add] at he
      exact he
    · intro l hl ht i hi
      exact (hdir l hl ht).present i hi
    · intro l hl ht i hi hlt
      rcases Nat.lt_or_eq_of_le hl with hlt' | rfl
      · obtain ⟨k, rfl⟩ : ∃ k, l = k + 1 := ⟨l - 1, by omega⟩
        exact (hdir k (by omega) (by omega)).absent i hi hlt
      · exact hleaf.absent i hi hlt
    · intro l hl ht
      calc L.base (tab l) + 2 ^ 12 * n (l + 1)
          = L.base (tab l) + P.width * (n (l + 1) * 2 ^ P.bits) := by
            rw [← P.page, Nat.mul_assoc, Nat.mul_comm (2 ^ P.bits)]
        _ ≤ L.base (tab l) + P.width * entries (tab l) :=
            Nat.add_le_add_left (Nat.mul_le_mul_left _ (hroom l hl ht)) _
        _ ≤ 2 ^ 52 := Nat.le_trans (L.below _) (hbelow _)
  exact hmap.walk_eq hle hs hva htop htop'

end Rows

/-- Two sets of tables map the same addresses below `limit`, each to itself. -/
def SameIdentity (P : Paging) (m : ByteMem) (limit top a b : Nat) : Prop :=
  ∀ va < limit, P.walk m va top a = P.walk m va top b ∧
    ∀ pa, P.walk m va top a = some pa → pa = va

def byLevel (x₀ x₁ x₂ x₃ : Nat) : Nat → Nat
  | 0 => x₀
  | 1 => x₁
  | 2 => x₂
  | _ => x₃

end Shv
