/-
# `Shv.EptPool` — the tables of one EPT root

`shv_ept_gzp` hands out the pages of a pool without clearing them, relies on
`.bss` being zero, and never takes a page back; a large page written over a page
table drops the only reference to it.  `PoolInv` is what keeps this sound, for one
root of one CPU (a `Slot`): the tables form a tree, every link leads to a page of
the slot's own pool whose flag is set, and a page whose flag is clear is empty.

* `poolInv_zero` — it holds of zeroed `.bss`;
* `shvEptCtx_allocator` — under it `shv_ept_gzp` is an allocator in the sense of
  `Shv.Insert`, so everything proved there about inserting applies;
* `PoolInv.insert` — inserting any leaf keeps it, whether the call succeeds or not,
  touches nothing outside the slot, and never halts;
* `ept_pool_invariant` — what follows for whole sequences of calls.
-/
import Shv.Ept
import Shv.Insert
import Mathlib.Tactic.IntervalCases

namespace Shv

open ByteMem

/-! ## The layout of a slot -/

/-- A root of a CPU: the indices into the first two dimensions of the arrays. -/
structure Slot where
  idx : Nat
  r : Nat
  idx_lt : idx < maxVcpuEntries
  r_lt : r < shvEptCount
  deriving DecidableEq

theorem Slot.ext' {s s' : Slot} (h₁ : s.idx = s'.idx) (h₂ : s.r = s'.r) : s = s' := by
  cases s; cases s'; cases h₁; cases h₂; rfl

namespace Image

variable (img : Image) (s s' : Slot)

def root : Nat := img.rootAt s.idx s.r

/-- Page `j` of the pool of a slot. -/
def page (j : Nat) : Nat := img.poolAt s.idx s.r + j * pageSize4k

def flag (j : Nat) : Nat := img.allocAt s.idx s.r + j

/-- The context `shv_build_ept` uses for a slot. -/
def ctx : HptwCtx := shvEptCtx img s.idx s.r

/-- The memory of a slot: its root, its pool and its flags. -/
def Own (x : Nat) : Prop :=
  x ∈ span (img.root s) pageSize4k ∨
    x ∈ span (img.poolAt s.idx s.r) (eptPoolSize * pageSize4k) ∨
    x ∈ span (img.allocAt s.idx s.r) eptPoolSize

theorem bounds :
    (img.low ≤ img.eptValid ∧ img.eptValid + 20 ≤ img.high) ∧
    (img.low ≤ img.eptRoot ∧ img.eptRoot + 81920 ≤ img.high) ∧
    (img.low ≤ img.eptPool ∧ img.eptPool + 10485760 ≤ img.high) ∧
    (img.low ≤ img.eptAlloc ∧ img.eptAlloc + 2560 ≤ img.high) ∧
    (img.low ≤ img.eptTarget ∧ img.eptTarget + 1048576 ≤ img.high) ∧
    (img.low ≤ img.largePages ∧ img.largePages + 4194304 ≤ img.high) := by
  have h := img.inside
  simpa [eptObjects, maxVcpuEntries, shvEptCount, pageSize4k, eptPoolSize, pageSize2m] using h

theorem disjoint :
    (Apart img.eptValid 20 img.eptRoot 81920 ∧ Apart img.eptValid 20 img.eptPool 10485760 ∧
      Apart img.eptValid 20 img.eptAlloc 2560 ∧ Apart img.eptValid 20 img.eptTarget 1048576 ∧
      Apart img.eptValid 20 img.largePages 4194304) ∧
    (Apart img.eptRoot 81920 img.eptPool 10485760 ∧ Apart img.eptRoot 81920 img.eptAlloc 2560 ∧
      Apart img.eptRoot 81920 img.eptTarget 1048576 ∧
      Apart img.eptRoot 81920 img.largePages 4194304) ∧
    (Apart img.eptPool 10485760 img.eptAlloc 2560 ∧
      Apart img.eptPool 10485760 img.eptTarget 1048576 ∧
      Apart img.eptPool 10485760 img.largePages 4194304) ∧
    (Apart img.eptAlloc 2560 img.eptTarget 1048576 ∧
      Apart img.eptAlloc 2560 img.largePages 4194304) ∧
    Apart img.eptTarget 1048576 img.largePages 4194304 := by
  have h := img.apart
  simpa [eptObjects, maxVcpuEntries, shvEptCount, pageSize4k, eptPoolSize, pageSize2m] using h

end Image

section Layout

variable {img : Image} {s s' : Slot} {j j' : Nat}

/-- The linear facts about a slot that everything below is computed from. -/
theorem Slot.lt (s : Slot) : s.idx * 2 + s.r < 20 := by
  have h₁ : s.idx < 10 := s.idx_lt
  have h₂ : s.r < 2 := s.r_lt
  omega

theorem Image.root_eq : img.root s = img.eptRoot + (s.idx * 2 + s.r) * 4096 := rfl

theorem Image.page_eq :
    img.page s j = img.eptPool + (s.idx * 2 + s.r) * 524288 + j * 4096 := rfl

theorem Image.flag_eq : img.flag s j = img.eptAlloc + (s.idx * 2 + s.r) * 128 + j := rfl

variable (img s) in
theorem Image.root_bounds : 0x100000 ≤ img.root s ∧ img.root s + 4096 ≤ 0x12340000 := by
  obtain ⟨-, h, -⟩ := img.bounds
  have h₁ := img.low_ge
  have h₂ := img.high_le
  have h₃ := s.lt
  rw [Image.root_eq]
  omega

variable (img s) in
theorem Image.page_bounds (hj : j < 128) :
    0x100000 ≤ img.page s j ∧ img.page s j + 4096 ≤ 0x12340000 := by
  obtain ⟨-, -, h, -⟩ := img.bounds
  have h₁ := img.low_ge
  have h₂ := img.high_le
  have h₃ := s.lt
  rw [Image.page_eq]
  omega

variable (img s) in
theorem Image.root_mod : img.root s % 4096 = 0 := by
  have h : img.eptRoot % 4096 = 0 := img.root_aligned
  rw [Image.root_eq]
  omega

variable (img s j) in
theorem Image.page_mod : img.page s j % 4096 = 0 := by
  have h : img.eptPool % 4096 = 0 := img.pool_aligned
  rw [Image.page_eq]
  omega

theorem Image.page_apart (h : j ≠ j') : Apart (img.page s j) 4096 (img.page s j') 4096 := by
  rw [Image.page_eq, Image.page_eq, Apart]
  omega

theorem Image.page_inj (h : img.page s j = img.page s j') : j = j' := by
  rw [Image.page_eq, Image.page_eq] at h
  omega

theorem Image.root_page_apart (hj : j < 128) :
    Apart (img.root s) 4096 (img.page s j) 4096 := by
  have h := img.disjoint.2.1.1
  have h₃ := s.lt
  rw [Apart] at h
  rw [Image.root_eq, Image.page_eq, Apart]
  omega

theorem Image.flag_root_apart (hj : j < 128) : Apart (img.flag s j) 1 (img.root s) 4096 := by
  have h := img.disjoint.2.1.2.1
  have h₃ := s.lt
  rw [Apart] at h
  rw [Image.root_eq, Image.flag_eq, Apart]
  omega

theorem Image.flag_page_apart (hj : j < 128) (hj' : j' < 128) :
    Apart (img.flag s j) 1 (img.page s j') 4096 := by
  have h := img.disjoint.2.2.1.1
  have h₃ := s.lt
  rw [Apart] at h
  rw [Image.page_eq, Image.flag_eq, Apart]
  omega

theorem Image.own_cases {x : Nat} (h : img.Own s x) :
    (img.eptRoot + (s.idx * 2 + s.r) * 4096 ≤ x ∧
      x < img.eptRoot + (s.idx * 2 + s.r) * 4096 + 4096 ∧ x ∈ span img.eptRoot 81920) ∨
    (img.eptPool + (s.idx * 2 + s.r) * 524288 ≤ x ∧
      x < img.eptPool + (s.idx * 2 + s.r) * 524288 + 524288 ∧ x ∈ span img.eptPool 10485760) ∨
    (img.eptAlloc + (s.idx * 2 + s.r) * 128 ≤ x ∧
      x < img.eptAlloc + (s.idx * 2 + s.r) * 128 + 128 ∧ x ∈ span img.eptAlloc 2560) := by
  have hlt := s.lt
  rcases h with ⟨h₁, h₂⟩ | ⟨h₁, h₂⟩ | ⟨h₁, h₂⟩
  · have h₁' : img.eptRoot + (s.idx * 2 + s.r) * 4096 ≤ x := h₁
    have h₂' : x < img.eptRoot + (s.idx * 2 + s.r) * 4096 + 4096 := h₂
    exact Or.inl ⟨h₁', h₂', by omega, by omega⟩
  · have h₁' : img.eptPool + (s.idx * 2 + s.r) * 524288 ≤ x := h₁
    have h₂' : x < img.eptPool + (s.idx * 2 + s.r) * 524288 + 524288 := h₂
    exact Or.inr (Or.inl ⟨h₁', h₂', by omega, by omega⟩)
  · have h₁' : img.eptAlloc + (s.idx * 2 + s.r) * 128 ≤ x := h₁
    have h₂' : x < img.eptAlloc + (s.idx * 2 + s.r) * 128 + 128 := h₂
    exact Or.inr (Or.inr ⟨h₁', h₂', by omega, by omega⟩)

theorem Image.own_disjoint {x : Nat} (hne : s ≠ s') (h : img.Own s x) : ¬ img.Own s' x := by
  intro h'
  have hidx : s.idx * 2 + s.r ≠ s'.idx * 2 + s'.r := by
    intro heq
    have h₁ : s.r < 2 := s.r_lt
    have h₂ : s'.r < 2 := s'.r_lt
    exact hne (Slot.ext' (by omega) (by omega))
  obtain ⟨-, ⟨hrp, hra, -⟩, ⟨hpa, -⟩, -⟩ := img.disjoint
  rcases img.own_cases h with ⟨a₁, a₂, a⟩ | ⟨a₁, a₂, a⟩ | ⟨a₁, a₂, a⟩ <;>
    rcases img.own_cases h' with ⟨b₁, b₂, b⟩ | ⟨b₁, b₂, b⟩ | ⟨b₁, b₂, b⟩
  · exact hidx (by omega)
  · exact hrp.notMem a b
  · exact hra.notMem a b
  · exact hrp.notMem b a
  · exact hidx (by omega)
  · exact hpa.notMem a b
  · exact hra.notMem b a
  · exact hpa.notMem b a
  · exact hidx (by omega)

theorem Image.own_apart {x : Nat} (h : img.Own s x) :
    x ∉ span img.eptValid 20 ∧ x ∉ span img.eptTarget 1048576 ∧
      x ∉ span img.largePages 4194304 := by
  obtain ⟨⟨hvr, hvp, hva, -⟩, ⟨-, -, hrt, hrl⟩, ⟨-, hpt, hpl⟩, ⟨hat, hal⟩, -⟩ := img.disjoint
  rcases img.own_cases h with ⟨-, -, a⟩ | ⟨-, -, a⟩ | ⟨-, -, a⟩
  · exact ⟨hvr.symm.notMem a, hrt.notMem a, hrl.notMem a⟩
  · exact ⟨hvp.symm.notMem a, hpt.notMem a, hpl.notMem a⟩
  · exact ⟨hva.symm.notMem a, hat.notMem a, hal.notMem a⟩

theorem Image.own_root {x : Nat} (h : x ∈ span (img.root s) 4096) : img.Own s x := Or.inl h

theorem Image.own_page {x : Nat} (hj : j < 128) (h : x ∈ span (img.page s j) 4096) :
    img.Own s x := by
  refine Or.inr (Or.inl ?_)
  simp only [mem_span, Image.page_eq] at h
  simp only [mem_span]
  show img.eptPool + (s.idx * 2 + s.r) * 524288 ≤ x ∧
    x < img.eptPool + (s.idx * 2 + s.r) * 524288 + 524288
  omega

theorem Image.own_flag (hj : j < 128) : img.Own s (img.flag s j) :=
  Or.inr (Or.inr ⟨Nat.le_add_right _ _, Nat.add_lt_add_left hj _⟩)

end Layout

/-! ## The context of a slot -/

section Ctx

variable {img : Image} {s : Slot} {m m' : ByteMem} {va : BitVec 64} {l p j : Nat}

theorem spa2hva_hva2spa (arch : Arch) (h : p < 2 ^ 32) : spa2hva arch (hva2spa p) = p := by
  have hpow : 2 ^ 32 ≤ 2 ^ arch.ptrBits := by cases arch <;> decide
  rw [spa2hva, hva2spa, BitVec.toNat_ofNat, Nat.mod_eq_of_lt (by omega : p < 2 ^ 64),
    Nat.mod_eq_of_lt (by omega)]

theorem Image.ctx_root : (img.ctx s).radix.root = img.root s := by
  have h := img.root_bounds s
  exact spa2hva_hva2spa (p := img.root s) img.arch (by omega)

theorem Image.walkable (img : Image) (s : Slot) : (img.ctx s).Walkable where
  sized := fun _ _ _ _ => rfl
  valid := by show HptType.ept ≠ .invalid; decide
  root := by
    have h := img.root_bounds s
    have hr : (img.ctx s).rootPm = img.root s := Image.ctx_root
    rw [hr]
    omega

variable (img s) in
theorem Image.size_eq (h : LvlOk .ept l) : (img.ctx s).radix.size l = 4096 := by
  obtain ⟨h₁, h₂⟩ := h
  have h₂' : l ≤ 4 := h₂
  show hptPmSizes .ept l = 4096
  interval_cases l <;> rfl

theorem Image.child_page (hj : j < 128)
    (ht : pmeTable .ept l ((img.ctx s).pme m l p va) = true)
    (ha : pmeAddr .ept l ((img.ctx s).pme m l p va) = hva2spa (img.page s j)) :
    (img.ctx s).radix.child l ((img.ctx s).radix.entry m l p va) = some (img.page s j) := by
  have hb := img.page_bounds s hj
  have hnext : (img.ctx s).nextPm l ((img.ctx s).pme m l p va) = img.page s j := by
    show spa2hva img.arch (pmeAddr .ept l ((img.ctx s).pme m l p va)) = img.page s j
    rw [ha]
    exact spa2hva_hva2spa img.arch (by omega)
  have hne : ((img.ctx s).nextPm l ((img.ctx s).pme m l p va) != 0) = true := by
    rw [hnext, bne_iff_ne]
    omega
  refine (if_pos (Bool.and_eq_true_iff.mpr ⟨ht, hne⟩)).trans ?_
  exact congrArg some hnext

/-! ## The invariant -/

theorem store_flag_self (m : ByteMem) (a : Nat) : m.store a 1 1#8 a = 1 := by
  refine (if_pos ⟨Nat.le_refl _, Nat.lt_succ_self _⟩).trans ?_
  rw [Nat.sub_self]
  decide

theorem pmeTable_word_zero (l : Nat) :
    pmeTable .ept l (BitVec.setWidth 64 (0 : BitVec (8 * (img.ctx s).radix.width))) = false := by
  rw [show BitVec.setWidth 64 (0 : BitVec (8 * (img.ctx s).radix.width)) = 0 by simp,
    pmeTable, pmePresent_zero, Bool.false_and]

/-- The tables of a slot are sound. -/
structure PoolInv (img : Image) (s : Slot) (m : ByteMem) : Prop where
  tree : (img.ctx s).radix.Tree m
  /-- every table entry holds the address of a pool page that has been given out … -/
  table : ∀ {va l p}, (img.ctx s).radix.Node m va l p →
    pmeTable .ept l ((img.ctx s).pme m l p va) = true →
    ∃ j, j < 128 ∧ pmeAddr .ept l ((img.ctx s).pme m l p va) = hva2spa (img.page s j) ∧
      m (img.flag s j) = 1
  /-- … and restricts nothing -/
  prot : ∀ {va l p}, (img.ctx s).radix.Node m va l p →
    pmeTable .ept l ((img.ctx s).pme m l p va) = true →
    pmeProt .ept l ((img.ctx s).pme m l p va) = hptProtsRwx
  free : ∀ j, j < 128 → m (img.flag s j) = 0 → ∀ x ∈ span (img.page s j) 4096, m x = 0
  flags : ∀ j, j < 128 → m (img.flag s j) = 0 ∨ m (img.flag s j) = 1

namespace PoolInv

theorem node (h : PoolInv img s m) (hn : (img.ctx s).radix.Node m va l p) :
    (l = 4 ∧ p = img.root s) ∨ ∃ j, j < 128 ∧ p = img.page s j ∧ m (img.flag s j) = 1 := by
  cases hn with
  | root => exact Or.inl ⟨rfl, Image.ctx_root⟩
  | down hn hc =>
      obtain ⟨ht, -, -⟩ := HptwCtx.child_eq_some hc
      obtain ⟨j, hj, ha, hf⟩ := h.table hn ht
      rw [Image.child_page hj ht ha] at hc
      exact Or.inr ⟨j, hj, (Option.some.inj hc).symm, hf⟩

theorem own (h : PoolInv img s m) (hn : (img.ctx s).radix.Node m va l p) {x : Nat}
    (hx : x ∈ span p 4096) : img.Own s x := by
  rcases h.node hn with ⟨-, rfl⟩ | ⟨j, hj, rfl, -⟩
  · exact Image.own_root hx
  · exact Image.own_page hj hx

theorem flag_notMem (h : PoolInv img s m) (hn : (img.ctx s).radix.Node m va l p) (hj : j < 128) :
    img.flag s j ∉ span p 4096 := by
  intro hx
  have hmem : img.flag s j ∈ span (img.flag s j) 1 := ⟨Nat.le_refl _, Nat.lt_succ_self _⟩
  rcases h.node hn with ⟨-, rfl⟩ | ⟨j', hj', rfl, -⟩
  · exact (Image.flag_root_apart hj).notMem hmem hx
  · exact (Image.flag_page_apart hj hj').notMem hmem hx

theorem free_apart (h : PoolInv img s m) (hn : (img.ctx s).radix.Node m va l p) (hj : j < 128)
    (hf : m (img.flag s j) = 0) : Apart (img.page s j) 4096 p 4096 := by
  rcases h.node hn with ⟨-, rfl⟩ | ⟨j', hj', rfl, hf'⟩
  · exact (Image.root_page_apart hj).symm
  · refine Image.page_apart ?_
    rintro rfl
    rw [hf] at hf'
    exact absurd hf' (by decide)

theorem slot_span (hn : (img.ctx s).radix.Node m va l p) {x : Nat}
    (hx : x ∈ span ((img.ctx s).radix.slot l p va) (img.ctx s).radix.width) :
    x ∈ span p 4096 := by
  have hok := (img.walkable s).node_lvl hn
  obtain ⟨h₁, h₂⟩ := Radix.slot_mem (R := (img.ctx s).radix) (p := p) va hok.1 hok.2
  rw [Image.size_eq _ _ hok] at h₂
  simp only [mem_span] at hx ⊢
  omega

theorem put_flag (h : PoolInv img s m) (hn : (img.ctx s).radix.Node m va l p) (hj : j < 128)
    (e : BitVec (8 * (img.ctx s).radix.width)) :
    (img.ctx s).radix.put m l p va e (img.flag s j) = m (img.flag s j) :=
  store_of_notMem fun hx => h.flag_notMem hn hj (slot_span hn hx)

theorem put_free (h : PoolInv img s m) (hn : (img.ctx s).radix.Node m va l p)
    (e : BitVec (8 * (img.ctx s).radix.width)) (j : Nat) (hj : j < 128)
    (hf : (img.ctx s).radix.put m l p va e (img.flag s j) = 0) :
    ∀ x ∈ span (img.page s j) 4096, (img.ctx s).radix.put m l p va e x = 0 := by
  rw [h.put_flag hn hj] at hf
  intro x hx
  have hout : x ∉ span ((img.ctx s).radix.slot l p va) (img.ctx s).radix.width :=
    fun hx' => (h.free_apart hn hj hf).notMem hx (slot_span hn hx')
  exact (store_of_notMem hout).trans (h.free j hj hf x hx)

theorem put_leaf (h : PoolInv img s m) (hn : (img.ctx s).radix.Node m va l p)
    {e : BitVec (8 * (img.ctx s).radix.width)} (he : pmeTable .ept l (e.setWidth 64) = false) :
    PoolInv img s ((img.ctx s).radix.put m l p va e) := by
  have W := img.walkable s
  have hc : (img.ctx s).radix.child l e = none := by
    refine if_neg fun hcond => ?_
    have ht := (Bool.and_eq_true_iff.mp hcond).1
    exact absurd (ht.symm.trans he) (by decide)
  -- an entry of the new memory is the new one, or an old one
  have hold : ∀ {va' l' p'}, (img.ctx s).radix.Node ((img.ctx s).radix.put m l p va e) va' l' p' →
      pmeTable .ept l' ((img.ctx s).pme ((img.ctx s).radix.put m l p va e) l' p' va') = true →
      (img.ctx s).radix.Node m va' l' p' ∧
        (img.ctx s).pme ((img.ctx s).radix.put m l p va e) l' p' va' =
          (img.ctx s).pme m l' p' va' := by
    intro va' l' p' hn' ht
    have hnm := h.tree.node_of_put_leaf W.top_pos hn hc hn'
    by_cases hat : l' = l ∧ (img.ctx s).radix.Agree l va va'
    · obtain ⟨rfl, ha⟩ := hat
      obtain ⟨hp, hent⟩ := h.tree.node_put_agree (e := e) W.top_pos hn ha
      obtain rfl := hp.unique hn'
      rw [HptwCtx.pme, hent, he] at ht
      cases ht
    · refine ⟨hnm, ?_⟩
      rw [HptwCtx.pme, HptwCtx.pme, h.tree.entry_put_of_ne W.top_pos hn hnm hat]
  refine ⟨h.tree.put_leaf W.top_pos hn hc, fun hn' ht => ?_, fun hn' ht => ?_,
    h.put_free hn e, fun j hj => ?_⟩
  · obtain ⟨hnm, heq⟩ := hold hn' ht
    rw [heq] at ht ⊢
    obtain ⟨j, hj, ha, hf⟩ := h.table hnm ht
    exact ⟨j, hj, ha, by rw [h.put_flag hn hj]; exact hf⟩
  · obtain ⟨hnm, heq⟩ := hold hn' ht
    rw [heq] at ht ⊢
    exact h.prot hnm ht
  · rw [h.put_flag hn hj]
    exact h.flags j hj

theorem frame (h : PoolInv img s m) (hx : ∀ x, x ∈ span (img.root s) 4096 → m' x = m x)
    (hp : ∀ j, j < 128 → ∀ x ∈ span (img.page s j) 4096, m' x = m x) :
    (img.ctx s).radix.Frame m m' := by
  intro k l p x hn hin
  rw [Image.size_eq _ _ ((img.walkable s).node_lvl hn)] at hin
  rcases h.node hn with ⟨-, rfl⟩ | ⟨j, hj, rfl, -⟩
  · exact hx x hin
  · exact hp j hj x hin

theorem set_flag (h : PoolInv img s m) (hj : j < 128) :
    (img.ctx s).radix.Frame m (m.store (img.flag s j) 1 1#8) ∧
      PoolInv img s (m.store (img.flag s j) 1 1#8) := by
  have hout : ∀ x, x ≠ img.flag s j → m.store (img.flag s j) 1 1#8 x = m x := by
    intro x hx
    exact store_of_notMem fun hin => hx (by simp only [mem_span] at hin; omega)
  have hat : m.store (img.flag s j) 1 1#8 (img.flag s j) = 1 := store_flag_self _ _
  have hmem : img.flag s j ∈ span (img.flag s j) 1 := ⟨Nat.le_refl _, Nat.lt_succ_self _⟩
  have hpage : ∀ j', j' < 128 → ∀ x ∈ span (img.page s j') 4096,
      m.store (img.flag s j) 1 1#8 x = m x := by
    intro j' hj' x hx
    refine hout x ?_
    rintro rfl
    exact (Image.flag_page_apart hj hj').notMem hmem hx
  have hf : (img.ctx s).radix.Frame m (m.store (img.flag s j) 1 1#8) := by
    refine h.frame (fun x hx => hout x ?_) hpage
    rintro rfl
    exact (Image.flag_root_apart hj).notMem hmem hx
  have W := img.walkable s
  have hflag : ∀ j', j' < 128 → m (img.flag s j') = 1 →
      m.store (img.flag s j) 1 1#8 (img.flag s j') = 1 := by
    intro j' _ h1
    by_cases heq : img.flag s j' = img.flag s j
    · rw [heq, hat]
    · rw [hout _ heq, h1]
  have hpme : ∀ {va l p}, (img.ctx s).radix.Node (m.store (img.flag s j) 1 1#8) va l p →
      (img.ctx s).radix.Node m va l p ∧
        (img.ctx s).pme (m.store (img.flag s j) 1 1#8) l p va = (img.ctx s).pme m l p va := by
    intro va l p hn
    have hnm := (hf.same W.top_pos va).node_rev hn
    refine ⟨hnm, ?_⟩
    rw [HptwCtx.pme, HptwCtx.pme, hf.same W.top_pos va _ _ hnm]
  refine ⟨hf, hf.tree W.top_pos h.tree, fun hn ht => ?_, fun hn ht => ?_, fun j' hj' h0 => ?_,
    fun j' hj' => ?_⟩
  · obtain ⟨hnm, heq⟩ := hpme hn
    rw [heq] at ht ⊢
    obtain ⟨j', hj', ha, h1⟩ := h.table hnm ht
    exact ⟨j', hj', ha, hflag j' hj' h1⟩
  · obtain ⟨hnm, heq⟩ := hpme hn
    rw [heq] at ht ⊢
    exact h.prot hnm ht
  · intro x hx
    have hne : img.flag s j' ≠ img.flag s j := by
      intro heq
      rw [heq, hat] at h0
      exact absurd h0 (by decide)
    rw [hout _ hne] at h0
    rw [hpage j' hj' x hx]
    exact h.free j' hj' h0 x hx
  · by_cases heq : img.flag s j' = img.flag s j
    · rw [heq]
      exact Or.inr hat
    · rw [hout _ heq]
      exact h.flags j' hj'

theorem link {q : Nat} {e : BitVec (8 * (img.ctx s).radix.width)} (h : PoolInv img s m)
    (hj : j < 128) (h1 : m (img.flag s j) = 1)
    (L : (img.ctx s).radix.Linking m va l q (img.page s j) e)
    (E : LinkEntry (img.ctx s) (l + 1) (img.page s j) e) :
    PoolInv img s ((img.ctx s).radix.put m (l + 1) q va e) := by
  have W := img.walkable s
  -- a table entry of the new memory is the link, or an old one
  have hcases : ∀ {va' l' p'},
      (img.ctx s).radix.Node ((img.ctx s).radix.put m (l + 1) q va e) va' l' p' →
      pmeTable .ept l' ((img.ctx s).pme ((img.ctx s).radix.put m (l + 1) q va e) l' p' va') =
        true →
      (l' = l + 1 ∧ (img.ctx s).pme ((img.ctx s).radix.put m (l + 1) q va e) l' p' va' =
        e.setWidth 64) ∨
      ((img.ctx s).radix.Node m va' l' p' ∧
        (img.ctx s).pme ((img.ctx s).radix.put m (l + 1) q va e) l' p' va' =
          (img.ctx s).pme m l' p' va') := by
    intro va' l' p' hn' ht
    rcases L.node_cases hn' with hnm | ⟨rfl, rfl, -⟩
    · by_cases hat : l' = l + 1 ∧ (img.ctx s).radix.Agree (l + 1) va va'
      · obtain ⟨rfl, ha⟩ := hat
        obtain ⟨hp, hent⟩ := L.tree.node_put_agree (e := e) W.top_pos L.node ha
        obtain rfl := hp.unique hn'
        exact Or.inl ⟨rfl, by rw [HptwCtx.pme, hent]⟩
      · refine Or.inr ⟨hnm, ?_⟩
        rw [HptwCtx.pme, HptwCtx.pme, L.tree.entry_put_of_ne W.top_pos L.node hnm hat]
    · rw [HptwCtx.pme, L.entry_fresh] at ht
      rw [pmeTable_word_zero] at ht
      cases ht
  refine ⟨L.tree_put, fun hn' ht => ?_, fun hn' ht => ?_, h.put_free L.node e, fun j' hj' => ?_⟩
  · rcases hcases hn' ht with ⟨rfl, heq⟩ | ⟨hnm, heq⟩
    · refine ⟨j, hj, ?_, by rw [h.put_flag L.node hj]; exact h1⟩
      rw [heq]
      exact E.addr
    · rw [heq] at ht ⊢
      obtain ⟨j', hj', ha, hf⟩ := h.table hnm ht
      exact ⟨j', hj', ha, by rw [h.put_flag L.node hj']; exact hf⟩
  · rcases hcases hn' ht with ⟨rfl, heq⟩ | ⟨hnm, heq⟩
    · rw [heq]
      exact E.prot
    · rw [heq] at ht ⊢
      exact h.prot hnm ht
  · rw [h.put_flag L.node hj']
    exact h.flags j' hj'

end PoolInv

/-! ## `shv_ept_gzp` -/

theorem shvEptGzpLoop_cases (pagePool pageAlloc : Nat) (m : ByteMem) : ∀ left i : Nat,
    (shvEptGzpLoop pagePool pageAlloc m left i = (0, m) ∧
      ∀ j, i ≤ j → j < i + left → m (pageAlloc + j) ≠ 0) ∨
    ∃ j, i ≤ j ∧ j < i + left ∧ m (pageAlloc + j) = 0 ∧
      shvEptGzpLoop pagePool pageAlloc m left i =
        (pagePool + j * pageSize4k, m.store (pageAlloc + j) 1 1#8)
  | 0, i => Or.inl ⟨rfl, fun j h₁ h₂ => by omega⟩
  | left + 1, i => by
      by_cases h0 : m (pageAlloc + i) = 0
      · exact Or.inr ⟨i, Nat.le_refl _, by omega, h0, if_pos h0⟩
      · rcases shvEptGzpLoop_cases pagePool pageAlloc m left (i + 1) with
          ⟨h, hall⟩ | ⟨j, h₁, h₂, hj, h⟩
        · refine Or.inl ⟨(if_neg h0).trans h, fun j h₁ h₂ => ?_⟩
          by_cases hji : j = i
          · rw [hji]
            exact h0
          · exact hall j (by omega) (by omega)
        · exact Or.inr ⟨j, by omega, by omega, hj, (if_neg h0).trans h⟩

variable (img s m) in
/-- `shv_ept_gzp` of a slot: `NULL` when all flags are set, else the first free page. -/
theorem Image.gzp_cases (hl : LvlOk .ept (l + 1)) (h₁ : 1 ≤ l) :
    ((img.ctx s).gzp m hptPmSizeBytes (hptPmSizes .ept l) = some (0, m) ∧
      ∀ j, j < 128 → m (img.flag s j) ≠ 0) ∨
    ∃ j, j < 128 ∧ m (img.flag s j) = 0 ∧
      (img.ctx s).gzp m hptPmSizeBytes (hptPmSizes .ept l) =
        some (img.page s j, m.store (img.flag s j) 1 1#8) := by
  have hsz : hptPmSizes .ept l = 4096 := img.size_eq s (hl.pred h₁)
  have hg : (img.ctx s).gzp m hptPmSizeBytes (hptPmSizes .ept l) =
      some (shvEptGzpLoop (img.poolAt s.idx s.r) (img.allocAt s.idx s.r) m eptPoolSize 0) := by
    rw [hsz]
    rfl
  rw [hg]
  rcases shvEptGzpLoop_cases (img.poolAt s.idx s.r) (img.allocAt s.idx s.r) m eptPoolSize 0 with
    ⟨h, hall⟩ | ⟨j, -, hj, h0, h⟩
  · rw [h]
    exact Or.inl ⟨rfl, fun j hj => hall j (Nat.zero_le _) (by rw [Nat.zero_add]; exact hj)⟩
  · rw [h]
    rw [Nat.zero_add] at hj
    exact Or.inr ⟨j, hj, h0, rfl⟩

theorem Image.gzp_some {m₁ : ByteMem} (hl : LvlOk .ept (l + 1)) (h₁ : 1 ≤ l)
    (hg : (img.ctx s).gzp m hptPmSizeBytes (hptPmSizes .ept l) = some (p, m₁)) :
    (p = 0 ∧ m₁ = m) ∨
      ∃ j, j < 128 ∧ m (img.flag s j) = 0 ∧ p = img.page s j ∧
        m₁ = m.store (img.flag s j) 1 1#8 := by
  rcases img.gzp_cases s m hl h₁ with ⟨h, -⟩ | ⟨j, hj, h0, h⟩
  · rw [hg] at h
    simp only [Option.some.injEq, Prod.mk.injEq] at h
    exact Or.inl h
  · rw [hg] at h
    simp only [Option.some.injEq, Prod.mk.injEq] at h
    exact Or.inr ⟨j, hj, h0, h.1, h.2⟩

theorem Image.page_ne_zero (hj : j < 128) : img.page s j ≠ 0 := by
  have h := img.page_bounds s hj
  omega

/-- `NULL` is returned only with the memory as it was, whatever size was asked for. -/
theorem shvEptGzp_null {sz : Nat} {m₁ : ByteMem}
    (hg : (img.ctx s).gzp m hptPmSizeBytes sz = some (0, m₁)) : m₁ = m := by
  have hg' : shvEptGzp (img.poolAt s.idx s.r) (img.allocAt s.idx s.r) m hptPmSizeBytes sz =
    some (0, m₁) := hg
  simp only [shvEptGzp, Option.bind_eq_bind] at hg'
  obtain ⟨-, -, hg'⟩ := Option.bind_eq_some_iff.mp hg'
  obtain ⟨-, -, hg'⟩ := Option.bind_eq_some_iff.mp hg'
  have heq := Option.some.inj hg'
  rcases shvEptGzpLoop_cases (img.poolAt s.idx s.r) (img.allocAt s.idx s.r) m eptPoolSize 0 with
    ⟨h, -⟩ | ⟨j, -, hj, -, h⟩
  · rw [h] at heq
    exact (congrArg Prod.snd heq).symm
  · rw [h] at heq
    rw [Nat.zero_add] at hj
    have hpage : img.page s j = 0 := congrArg Prod.fst heq
    exact absurd hpage (Image.page_ne_zero hj)

theorem shvEptCtx_allocator (img : Image) (s : Slot) :
    Allocator (img.ctx s) (PoolInv img s) where
  frame := by
    intro m lvl p m₁ hI _ hok hl hg
    rcases Image.gzp_some hok hl hg with ⟨-, rfl⟩ | ⟨j, hj, -, -, rfl⟩
    · exact fun _ _ _ _ _ _ => rfl
    · exact (hI.set_flag hj).1
  fresh := by
    intro m lvl p m₁ hI _ hok hl hg hne
    rcases Image.gzp_some hok hl hg with ⟨rfl, -⟩ | ⟨j, hj, h0, rfl, rfl⟩
    · exact absurd rfl hne
    · have hsz := img.size_eq s (hok.pred hl)
      obtain ⟨hf, -⟩ := hI.set_flag hj
      have W := img.walkable s
      refine ⟨fun x hx => ?_, fun {k l' p'} hn => ?_⟩
      · rw [hsz] at hx
        have hne' : x ∉ span (img.flag s j) 1 := fun hx' =>
          (Image.flag_page_apart hj hj).notMem hx' hx
        rw [store_of_notMem hne']
        exact hI.free j hj h0 x hx
      · have hnm := (hf.same W.top_pos k).node_rev hn
        rw [hsz, Image.size_eq _ _ (W.node_lvl hn)]
        exact hI.free_apart hnm hj h0
  address := by
    intro m lvl p m₁ _ _ hok hl hg hne
    rcases Image.gzp_some hok hl hg with ⟨rfl, -⟩ | ⟨j, hj, -, rfl, -⟩
    · exact absurd rfl hne
    · have hb := img.page_bounds s hj
      have hmod := img.page_mod s j
      have hnat : (hva2spa (img.page s j)).toNat = img.page s j :=
        (BitVec.toNat_ofNat _ _).trans (Nat.mod_eq_of_lt (by omega))
      refine ⟨representable_of_toNat ?_ ?_, fun _ _ _ => spa2hva_hva2spa img.arch (by omega)⟩
      · exact hnat.symm ▸ hmod
      · show (hva2spa (img.page s j)).toNat < 2 ^ 52
        omega
  full := by
    intro m lvl m₁ hI _ hok hl hg
    rcases Image.gzp_some hok hl hg with ⟨-, rfl⟩ | ⟨j, hj, -, h, -⟩
    · exact hI
    · exact absurd h.symm (Image.page_ne_zero hj)
  link := by
    intro m lvl p m₁ va q e hI _ hg hne L E
    have hok := (img.walkable s).node_lvl L.node
    rcases Image.gzp_some hok L.pos hg with ⟨rfl, -⟩ | ⟨j, hj, -, rfl, rfl⟩
    · exact absurd rfl hne
    · exact (hI.set_flag hj).2.link hj (store_flag_self _ _) L E

/-! ## What an insertion does to a slot -/

/-- A step of a slot: only its own memory changes, and no flag is cleared. -/
structure Grows (img : Image) (s : Slot) (m m' : ByteMem) : Prop where
  own : ∀ x, ¬ img.Own s x → m' x = m x
  flags : ∀ j, j < 128 → m (img.flag s j) = 1 → m' (img.flag s j) = 1

theorem Grows.refl (img : Image) (s : Slot) (m : ByteMem) : Grows img s m m :=
  ⟨fun _ _ => rfl, fun _ _ h => h⟩

theorem Grows.trans {m₁ m₂ m₃ : ByteMem} (h₁ : Grows img s m₁ m₂) (h₂ : Grows img s m₂ m₃) :
    Grows img s m₁ m₃ :=
  ⟨fun x hx => (h₂.own x hx).trans (h₁.own x hx), fun j hj h => h₂.flags j hj (h₁.flags j hj h)⟩

theorem Grows.set_flag (hj : j < 128) : Grows img s m (m.store (img.flag s j) 1 1#8) := by
  have hout : ∀ x, x ≠ img.flag s j → m.store (img.flag s j) 1 1#8 x = m x := by
    intro x hx
    exact store_of_notMem fun hin => hx (by simp only [mem_span] at hin; omega)
  refine ⟨fun x hx => hout x ?_, fun j' _ h => ?_⟩
  · rintro rfl
    exact hx (Image.own_flag hj)
  · by_cases heq : img.flag s j' = img.flag s j
    · rw [heq, store_flag_self]
    · rw [hout _ heq, h]

theorem PoolInv.grows_put (h : PoolInv img s m) (hn : (img.ctx s).radix.Node m va l p)
    (e : BitVec (8 * (img.ctx s).radix.width)) :
    Grows img s m ((img.ctx s).radix.put m l p va e) := by
  refine ⟨fun x hx => store_of_notMem fun hin => hx ?_, fun j hj h1 => ?_⟩
  · exact h.own hn (PoolInv.slot_span hn hin)
  · rw [h.put_flag hn hj]
    exact h1

/-- The pages a run of the allocating loop was given are distinct, were free before, and are
not free afterwards. -/
def GivenOut (img : Image) (s : Slot) (m : ByteMem) (log : List Nat) (m' : ByteMem) : Prop :=
  (log.filter (· ≠ 0)).Nodup ∧
    ∀ p ∈ log, p ≠ 0 → ∃ j, j < 128 ∧ p = img.page s j ∧
      m (img.flag s j) = 0 ∧ m' (img.flag s j) = 1

theorem AllocSteps.slot {log : List Nat} (hst : AllocSteps (img.ctx s) va m log m')
    (h : PoolInv img s m) : Grows img s m m' ∧ GivenOut img s m log m' := by
  induction hst with
  | done => exact ⟨.refl _ _ _, List.nodup_nil, fun _ hp => by cases hp⟩
  | @full m m₁ l q hg hf _ _ _ =>
      refine ⟨?_, by simp, fun p hp hne => ?_⟩
      · rw [shvEptGzp_null hg]
        exact .refl _ _ _
      · exact absurd (List.mem_singleton.mp hp) hne
  | @link m m₁ m' l p q e log hg hne hf L E _ ih =>
      have hok := (img.walkable s).node_lvl L.node
      rcases Image.gzp_some hok L.pos hg with ⟨rfl, -⟩ | ⟨j, hj, h0, rfl, rfl⟩
      · exact absurd rfl hne
      · have h₁ := (h.set_flag hj).2
        have h₂ := h₁.link hj (store_flag_self _ _) L E
        obtain ⟨hgr, hnd, hlog⟩ := ih h₂
        have hput := h₁.grows_put L.node e
        have hg₁ : Grows img s m _ := (Grows.set_flag hj).trans hput
        have hset : (img.ctx s).radix.put (m.store (img.flag s j) 1 1#8) (l + 1) q va e
            (img.flag s j) = 1 := hput.flags j hj (store_flag_self _ _)
        refine ⟨hg₁.trans hgr, ?_, ?_⟩
        · rw [List.filter_cons_of_pos (by simpa using hne), List.nodup_cons]
          refine ⟨fun hmem => ?_, hnd⟩
          obtain ⟨hin, hne'⟩ := List.mem_filter.mp hmem
          obtain ⟨j', -, hpj, h0', -⟩ := hlog _ hin (by simpa using hne')
          obtain rfl := Image.page_inj hpj
          rw [hset] at h0'
          exact absurd h0' (by decide)
        · intro p hp hne'
          rcases List.mem_cons.mp hp with rfl | hin
          · exact ⟨j, hj, rfl, h0, hgr.flags j hj hset⟩
          · obtain ⟨j', hj', hpj, h0', h1'⟩ := hlog p hin hne'
            refine ⟨j', hj', hpj, ?_, h1'⟩
            rcases h.flags j' hj' with hz | hone
            · exact hz
            · rw [hg₁.flags j' hj' hone] at h0'
              exact absurd h0' (by decide)

theorem PoolInv.child_ne_none (h : PoolInv img s m) (hn : (img.ctx s).radix.Node m va l p)
    (ht : pmeTable .ept l ((img.ctx s).pme m l p va) = true) :
    (img.ctx s).radix.child l ((img.ctx s).radix.entry m l p va) ≠ none := by
  obtain ⟨j, hj, ha, -⟩ := h.table hn ht
  rw [Image.child_page hj ht ha]
  exact Option.some_ne_none _

variable (img s) in
theorem Image.setWidth_word (e : BitVec 64) : ((img.ctx s).word e).setWidth 64 = e :=
  HptwCtx.setWidth_word fun ht => by cases ht

variable (va) in
/-- **Inserting a leaf**: the call returns, with whatever code; the tables stay sound, only the
slot's own memory changes, and the pages it was given were free. -/
theorem PoolInv.insert (h : PoolInv img s m) {pmeo : HptPmeo} (hl : LvlOk .ept pmeo.lvl)
    (hleaf : pmeTable .ept pmeo.lvl pmeo.pme = false) :
    ∃ err m' log, hptwInsertPmeoAlloc (img.ctx s) m pmeo va = some (err, m', log) ∧
      PoolInv img s m' ∧ Grows img s m m' ∧ GivenOut img s m log m' := by
  have A := shvEptCtx_allocator img s
  have W := img.walkable s
  obtain ⟨⟨err, m', log⟩, hins⟩ := hptwInsertPmeoAlloc_total va A W
    (fun {m lvl} _ _ hok hl => by
      rcases img.gzp_cases s m hok hl with ⟨hg, -⟩ | ⟨j, -, -, hg⟩
      all_goals
        intro hnone
        cases hg.symm.trans hnone)
    (fun hI hn ht => PoolInv.child_ne_none hI hn ht) pmeo hl h h.tree
  refine ⟨err, m', log, hins, ?_⟩
  obtain ⟨m₁, hst, h₁, -, ⟨-, rfl, -⟩ | ⟨-, q, hq, rfl⟩⟩ :=
    hptwInsertPmeoAlloc_cases A W hl h h.tree hins
  · exact ⟨h₁, hst.slot h⟩
  · obtain ⟨hgr, hnd, hlog⟩ := hst.slot h
    have hput := h₁.grows_put hq ((img.ctx s).word pmeo.pme)
    refine ⟨h₁.put_leaf hq (by rw [Image.setWidth_word _ _]; exact hleaf), hgr.trans hput, hnd,
      fun p hp hne => ?_⟩
    obtain ⟨j, hj, hpj, h0, h1⟩ := hlog p hp hne
    exact ⟨j, hj, hpj, h0, hput.flags j hj h1⟩

end Ctx

/-! ## Sequences of insertions -/

def Image.ZeroBss (img : Image) (m : ByteMem) : Prop :=
  ∀ o ∈ eptObjects img.eptValid img.eptRoot img.eptPool img.eptAlloc img.eptTarget
    img.largePages, ∀ x ∈ span o.1 o.2, m x = 0

/-- A level-1 entry, or a level-2 entry that is zero or has the page bit. -/
def EptLeaf (pmeo : HptPmeo) : Prop :=
  pmeo.lvl = 1 ∨ (pmeo.lvl = 2 ∧ (pmeo.pme = 0 ∨ pmeo.pme.getLsbD 7 = true))

/-- A sequence of `hptw_insert_pmeo_alloc` calls, whatever each returns; the result lists what
`gzp` returned during all of them. -/
def runInserts (ctx : HptwCtx) : ByteMem → List (HptPmeo × BitVec 64) →
    Halting (ByteMem × List Nat)
  | m, [] => return (m, [])
  | m, (pmeo, va) :: calls => do
      let (_, m, log) ← hptwInsertPmeoAlloc ctx m pmeo va
      let (m, log') ← runInserts ctx m calls
      return (m, log ++ log')

variable {img : Image} {s : Slot} {m : ByteMem}

theorem EptLeaf.lvlOk {pmeo : HptPmeo} (h : EptLeaf pmeo) : LvlOk .ept pmeo.lvl := by
  rcases h with h | ⟨h, -⟩ <;> rw [h] <;> decide

theorem EptLeaf.not_table {pmeo : HptPmeo} (h : EptLeaf pmeo) :
    pmeTable .ept pmeo.lvl pmeo.pme = false := by
  rcases h with h | ⟨h, h0 | h7⟩
  · rw [h, pmeTable_one]
  · rw [h0, pmeTable, pmePresent_zero, Bool.false_and]
  · rw [h, pmeTable, pmePage, h7]
    simp [LargeLvl]

theorem Image.ZeroBss.own (hz : img.ZeroBss m) {x : Nat} (hx : img.Own s x) : m x = 0 := by
  have hz' := hz
  simp only [Image.ZeroBss, eptObjects, List.mem_cons, forall_eq_or_imp] at hz'
  obtain ⟨-, hr, hp, ha, -⟩ := hz'
  rcases img.own_cases hx with ⟨-, -, h⟩ | ⟨-, -, h⟩ | ⟨-, -, h⟩
  · exact hr x h
  · exact hp x h
  · exact ha x h

theorem Image.entry_zero (hz : ∀ x, img.Own s x → m x = 0) (va : BitVec 64) :
    (img.ctx s).radix.entry m 4 (img.ctx s).radix.root va = 0 := by
  apply load_zero
  intro x hx
  refine hz x (Image.own_root ?_)
  rw [← Image.ctx_root]
  have hn : (img.ctx s).radix.Node m va 4 (img.ctx s).radix.root := .root
  exact PoolInv.slot_span hn hx

theorem Image.node_zero (hz : ∀ x, img.Own s x → m x = 0) {va : BitVec 64} {l p : Nat}
    (hn : (img.ctx s).radix.Node m va l p) : l = 4 ∧ p = (img.ctx s).radix.root := by
  induction hn with
  | root => exact ⟨rfl, rfl⟩
  | @down l p q _ hc ih =>
      obtain ⟨hl, rfl⟩ := ih
      obtain rfl : l = 3 := Nat.succ.inj hl
      obtain ⟨ht, -⟩ := HptwCtx.child_eq_some hc
      have ht' : pmeTable .ept 4
          ((img.ctx s).pme m 4 (img.ctx s).radix.root va) = true := ht
      rw [HptwCtx.pme, Image.entry_zero hz, pmeTable_word_zero] at ht'
      cases ht'

theorem poolInv_zero (hz : ∀ x, img.Own s x → m x = 0) : PoolInv img s m := by
  have hnot : ∀ {va l p}, (img.ctx s).radix.Node m va l p →
      pmeTable .ept l ((img.ctx s).pme m l p va) = true → False := by
    intro va l p hn ht
    obtain ⟨rfl, rfl⟩ := Image.node_zero hz hn
    rw [HptwCtx.pme, Image.entry_zero hz, pmeTable_word_zero] at ht
    cases ht
  refine ⟨?_, fun hn ht => (hnot hn ht).elim, fun hn ht => (hnot hn ht).elim,
    fun j hj _ x hx => hz x (Image.own_page hj hx), fun j hj => Or.inl (hz _ (Image.own_flag hj))⟩
  intro k k' l l' p p' hn hn'
  obtain ⟨rfl, rfl⟩ := Image.node_zero hz hn
  obtain ⟨rfl, rfl⟩ := Image.node_zero hz hn'
  exact Or.inl ⟨rfl, fun j hj ht => absurd (Nat.le_trans hj ht) (by show ¬ 5 ≤ 4; decide)⟩

/-- The run lemma: every sequence of insertions returns and keeps the invariant. -/
theorem runInserts_inv {calls : List (HptPmeo × BitVec 64)} (hc : ∀ c ∈ calls, EptLeaf c.1)
    (h : PoolInv img s m) :
    ∃ m' log, runInserts (img.ctx s) m calls = some (m', log) ∧ PoolInv img s m' ∧
      Grows img s m m' ∧ GivenOut img s m log m' := by
  induction calls generalizing m with
  | nil => exact ⟨m, [], rfl, h, .refl _ _ _, List.nodup_nil, fun _ hp => by cases hp⟩
  | cons c calls ih =>
      obtain ⟨pmeo, va⟩ := c
      have hleaf : EptLeaf pmeo := hc (pmeo, va) (List.mem_cons_self ..)
      obtain ⟨err, m₁, log₁, hins, h₁, hg₁, hnd₁, hlog₁⟩ :=
        h.insert va hleaf.lvlOk hleaf.not_table
      obtain ⟨m₂, log₂, hrun, h₂, hg₂, hnd₂, hlog₂⟩ :=
        ih (fun c hin => hc c (List.mem_cons_of_mem _ hin)) h₁
      refine ⟨m₂, log₁ ++ log₂, ?_, h₂, hg₁.trans hg₂, ?_, ?_⟩
      · simp only [runInserts, hins, hrun, Option.bind_eq_bind, Option.bind_some]
        rfl
      · -- a page of the first part is not free for the second
        rw [List.filter_append, List.nodup_append]
        refine ⟨hnd₁, hnd₂, fun p hp q hq heq => ?_⟩
        subst heq
        obtain ⟨hp, hne⟩ := List.mem_filter.mp hp
        obtain ⟨hq, -⟩ := List.mem_filter.mp hq
        have hne' : p ≠ 0 := by simpa using hne
        obtain ⟨j, -, hpj, -, h1⟩ := hlog₁ p hp hne'
        obtain ⟨j', -, hpj', h0, -⟩ := hlog₂ p hq hne'
        obtain rfl := Image.page_inj (hpj.symm.trans hpj')
        rw [h1] at h0
        exact absurd h0 (by decide)
      · intro p hp hne
        rcases List.mem_append.mp hp with hin | hin
        · obtain ⟨j, hj, hpj, h0, h1⟩ := hlog₁ p hin hne
          exact ⟨j, hj, hpj, h0, hg₂.flags j hj h1⟩
        · obtain ⟨j, hj, hpj, h0, h1⟩ := hlog₂ p hin hne
          refine ⟨j, hj, hpj, ?_, h1⟩
          rcases h.flags j hj with hz | hone
          · exact hz
          · rw [hg₁.flags j hj hone] at h0
            exact absurd h0 (by decide)

theorem runInserts_append {ctx : HptwCtx} (calls calls' : List (HptPmeo × BitVec 64)) :
    ∀ {m m₁ : ByteMem} {log : List Nat}, runInserts ctx m calls = some (m₁, log) →
      runInserts ctx m (calls ++ calls') =
        (runInserts ctx m₁ calls').map fun r => (r.1, log ++ r.2) := by
  induction calls with
  | nil =>
      intro m m₁ log h
      simp only [runInserts, Option.pure_def, Option.some.injEq, Prod.mk.injEq] at h
      obtain ⟨rfl, rfl⟩ := h
      rw [List.nil_append]
      cases runInserts ctx m calls' <;> rfl
  | cons c calls ih =>
      intro m m₁ log h
      obtain ⟨pmeo, va⟩ := c
      simp only [runInserts, Option.bind_eq_bind] at h
      obtain ⟨⟨err, m₂, log₂⟩, hins, h⟩ := Option.bind_eq_some_iff.mp h
      obtain ⟨⟨m₃, log₃⟩, hrun, h⟩ := Option.bind_eq_some_iff.mp h
      simp only [Option.pure_def, Option.some.injEq, Prod.mk.injEq] at h
      obtain ⟨rfl, rfl⟩ := h
      simp only [List.cons_append, runInserts, hins, ih hrun, Option.bind_eq_bind,
        Option.bind_some]
      cases runInserts ctx m₃ calls' with
      | none => rfl
      | some r => simp

/-- **The allocator and tree invariant of an EPT root.**  From zeroed `.bss`, for every
sequence of insertions of level-1 entries and of level-2 entries that are zero or pages, at
any addresses, whether they succeed or fail: a page whose flag is clear is empty and no
present non-page entry refers to it; every such entry refers to a pool page whose flag is
set; two of them that refer to the same page are the same entry; `shv_ept_gzp` has not
returned a page twice; and no flag that was set at an earlier point of the sequence is clear
now. -/
theorem ept_pool_invariant (img : Image) (s : Slot) {m₀ : ByteMem} (hz : img.ZeroBss m₀)
    {calls : List (HptPmeo × BitVec 64)} (hc : ∀ c ∈ calls, EptLeaf c.1) :
    ∃ m log, runInserts (img.ctx s) m₀ calls = some (m, log) ∧
      (∀ j, j < eptPoolSize → m (img.flag s j) = 0 →
        (∀ x ∈ span (img.page s j) pageSize4k, m x = 0) ∧
        ∀ va l p, (img.ctx s).radix.Node m va l p →
          pmeTable .ept l ((img.ctx s).pme m l p va) = true →
          pmeAddr .ept l ((img.ctx s).pme m l p va) ≠ hva2spa (img.page s j)) ∧
      (∀ va l p, (img.ctx s).radix.Node m va l p →
        pmeTable .ept l ((img.ctx s).pme m l p va) = true →
        ∃ j, j < eptPoolSize ∧
          pmeAddr .ept l ((img.ctx s).pme m l p va) = hva2spa (img.page s j) ∧
          m (img.flag s j) = 1) ∧
      (∀ va l p va' l' p', (img.ctx s).radix.Node m va l p → (img.ctx s).radix.Node m va' l' p' →
        pmeTable .ept l ((img.ctx s).pme m l p va) = true →
        pmeTable .ept l' ((img.ctx s).pme m l' p' va') = true →
        pmeAddr .ept l ((img.ctx s).pme m l p va) = pmeAddr .ept l' ((img.ctx s).pme m l' p' va') →
        l = l' ∧ p = p' ∧ pmIdx .ept l va = pmIdx .ept l' va') ∧
      (log.filter (· ≠ 0)).Nodup ∧
      ∀ calls₁ calls₂ m₁ log₁, calls = calls₁ ++ calls₂ →
        runInserts (img.ctx s) m₀ calls₁ = some (m₁, log₁) →
        ∀ j, j < eptPoolSize → m₁ (img.flag s j) = 1 → m (img.flag s j) = 1 := by
  obtain ⟨m, log, hrun, h, -, hnd, -⟩ := runInserts_inv hc (poolInv_zero fun _ => hz.own)
  refine ⟨m, log, hrun, fun j hj h0 => ⟨h.free j hj h0, ?_⟩, fun _ _ _ => h.table, ?_, hnd, ?_⟩
  · intro va l p hn ht heq
    obtain ⟨j', hj', ha, h1⟩ := h.table hn ht
    have hpage : img.page s j = img.page s j' := by
      have hb := img.page_bounds s hj
      have hb' := img.page_bounds s hj'
      rw [← spa2hva_hva2spa img.arch (by omega : img.page s j < 2 ^ 32), ← heq, ha,
        spa2hva_hva2spa img.arch (by omega)]
    obtain rfl := Image.page_inj hpage
    rw [h0] at h1
    exact absurd h1 (by decide)
  · -- entries with the same target have the same child, met at one place only
    intro va l p va' l' p' hn hn' ht ht' heq
    obtain ⟨j, hj, ha, -⟩ := h.table hn ht
    have hok := (img.walkable s).node_lvl hn
    have hok' := (img.walkable s).node_lvl hn'
    obtain ⟨l, rfl⟩ : ∃ n, l = n + 1 := ⟨l - 1, by have := hok.1; omega⟩
    obtain ⟨l', rfl⟩ : ∃ n, l' = n + 1 := ⟨l' - 1, by have := hok'.1; omega⟩
    have hd := Radix.Node.down hn (Image.child_page hj ht ha)
    have hd' := Radix.Node.down hn' (Image.child_page hj ht' (heq ▸ ha))
    rcases h.tree _ _ _ _ _ _ hd hd' with ⟨rfl, hag⟩ | hap
    · refine ⟨rfl, ?_, hag (l + 1) (Nat.le_refl _) hn.le_top⟩
      exact (hn.congr_key (hag.mono (Nat.le_succ _))).unique hn'
    · rw [Image.size_eq _ _ ((img.walkable s).node_lvl hd),
        Image.size_eq _ _ ((img.walkable s).node_lvl hd')] at hap
      rcases hap with hap | hap <;> omega
  · rintro calls₁ calls₂ m₁ log₁ rfl hrun₁ j hj h1
    obtain ⟨m₂, log₂, hrun₂, h₂, -⟩ :=
      runInserts_inv (fun c hin => hc c (List.mem_append_left _ hin)) (poolInv_zero fun _ => hz.own)
    rw [hrun₁] at hrun₂
    simp only [Option.some.injEq, Prod.mk.injEq] at hrun₂
    obtain ⟨rfl, rfl⟩ := hrun₂
    obtain ⟨m₃, log₃, hrun₃, -, hg, -⟩ :=
      runInserts_inv (fun c hin => hc c (List.mem_append_right _ hin)) h₂
    rw [runInserts_append calls₁ calls₂ hrun₁, hrun₃] at hrun
    simp only [Option.map_some, Option.some.injEq, Prod.mk.injEq] at hrun
    rw [← hrun.1]
    exact hg.flags j hj h1

/-- A link layout: flags and tables from 1 MiB on, then the large pages, then the pools. -/
def sampleImage : Image where
  arch := .amd64
  oobShr x k := x >>> (k.toNat % 64)
  low := 0x100000
  high := 0x1200000
  eptValid := 0x100000
  eptRoot := 0x102000
  eptPool := 0x800000
  eptAlloc := 0x101000
  eptTarget := 0x116000
  largePages := 0x400000
  low_aligned := by decide
  high_aligned := by decide
  low_ge := by decide
  high_le := by decide
  root_aligned := by decide
  pool_aligned := by decide
  target_aligned := by decide
  large_aligned := by decide
  inside := by decide
  apart := by
    simp only [eptObjects, maxVcpuEntries, shvEptCount, pageSize4k, eptPoolSize, pageSize2m, Apart]
    decide

/-- The first root of the first CPU. -/
def sampleSlot : Slot := ⟨0, 0, by decide, by decide⟩

/-- Two pages in different 2 MB regions, then a large page over the table of the second one, and
then a page in it again, which fails. -/
def sampleCalls : List (HptPmeo × BitVec 64) :=
  [({ pme := 0x1037#64, t := .ept, lvl := 1 }, 0x1000#64),
    ({ pme := 0x3037#64, t := .ept, lvl := 1 }, 0x203000#64),
    ({ pme := 0x2000b7#64, t := .ept, lvl := 2 }, 0x200000#64),
    ({ pme := 0x3037#64, t := .ept, lvl := 1 }, 0x203000#64)]

/-- The calls take four pages; the fourth one is not given back when its table is dropped. -/
theorem ept_pool_invariant_sample :
    ∃ m log, runInserts (sampleImage.ctx sampleSlot) (fun _ => 0) sampleCalls = some (m, log) ∧
      log = [0x800000, 0x801000, 0x802000, 0x803000] ∧ (log.filter (· ≠ 0)).Nodup ∧
      m (sampleImage.flag sampleSlot 3) = 1 ∧
      (∀ x ∈ span (sampleImage.page sampleSlot 4) pageSize4k, m x = 0) ∧
      ∃ j, j < eptPoolSize ∧
        pmeAddr .ept 4 ((sampleImage.ctx sampleSlot).pme m 4 (sampleImage.root sampleSlot) 0) =
          hva2spa (sampleImage.page sampleSlot j) ∧
        m (sampleImage.flag sampleSlot j) = 1 := by
  have hz : sampleImage.ZeroBss fun _ => 0 := fun _ _ _ _ => rfl
  have hcalls : ∀ c ∈ sampleCalls, EptLeaf c.1 := by
    intro c hc
    simp only [sampleCalls, List.mem_cons, List.not_mem_nil, or_false] at hc
    rcases hc with rfl | rfl | rfl | rfl
    · exact Or.inl rfl
    · exact Or.inl rfl
    · exact Or.inr ⟨rfl, Or.inr (by decide)⟩
    · exact Or.inl rfl
  obtain ⟨m, log, hrun, hfree, htable, -, hnd, hkept⟩ :=
    ept_pool_invariant sampleImage sampleSlot hz hcalls
  have hread : (runInserts (sampleImage.ctx sampleSlot) (fun _ => 0) sampleCalls).map
      (fun r => (r.2, r.1 (sampleImage.flag sampleSlot 4),
        pmeTable .ept 4 ((sampleImage.ctx sampleSlot).pme r.1 4 (sampleImage.root sampleSlot) 0))) =
      some ([0x800000, 0x801000, 0x802000, 0x803000], 0, true) := by decide
  have hfirst : (runInserts (sampleImage.ctx sampleSlot) (fun _ => 0) (sampleCalls.take 2)).map
      (fun r => r.1 (sampleImage.flag sampleSlot 3)) = some 1 := by decide
  rw [hrun] at hread
  simp only [Option.map_some, Option.some.injEq, Prod.mk.injEq] at hread
  obtain ⟨hlog, hflag, hentry⟩ := hread
  obtain ⟨⟨m₁, log₁⟩, hrun₁, hone⟩ := Option.map_eq_some_iff.mp hfirst
  have hroot : (sampleImage.ctx sampleSlot).radix.root = sampleImage.root sampleSlot :=
    Image.ctx_root
  exact ⟨m, log, hrun, hlog, hnd,
    hkept (sampleCalls.take 2) (sampleCalls.drop 2) m₁ log₁ rfl hrun₁ 3 (by decide) hone,
    (hfree 4 (by decide) hflag).1,
    htable 0 4 _ (hroot ▸ .root) hentry⟩

/-- A leaf may map a free page: what is said of the references to a page is about table entries. -/
theorem free_page_mapped_by_leaf :
    sampleImage.ZeroBss (fun _ => 0) ∧
    EptLeaf { pme := 0x864037#64, t := .ept, lvl := 1 } ∧
    ∃ m log p, runInserts (sampleImage.ctx sampleSlot) (fun _ => 0)
        [({ pme := 0x864037#64, t := .ept, lvl := 1 }, 0x1000#64)] = some (m, log) ∧
      m (sampleImage.flag sampleSlot 100) = 0 ∧
      (sampleImage.ctx sampleSlot).radix.Node m 0x1000#64 1 p ∧
      pmePresent .ept 1 ((sampleImage.ctx sampleSlot).pme m 1 p 0x1000#64) = true ∧
      pmeAddr .ept 1 ((sampleImage.ctx sampleSlot).pme m 1 p 0x1000#64) =
        hva2spa (sampleImage.page sampleSlot 100) := by
  have hread : (runInserts (sampleImage.ctx sampleSlot) (fun _ => 0)
      [({ pme := 0x864037#64, t := .ept, lvl := 1 }, 0x1000#64)]).map
      (fun r => (r.1 (sampleImage.flag sampleSlot 100),
        hptwGetPmeo (sampleImage.ctx sampleSlot) r.1 1 0x1000#64)) =
      some (0, some { pme := 0x864037#64, t := .ept, lvl := 1 }) := by decide
  obtain ⟨⟨m, log⟩, hrun, hval⟩ := Option.map_eq_some_iff.mp hread
  obtain ⟨hflag, hget⟩ := Prod.mk.inj hval
  -- the walk ends at the entry that `hptw_get_pmeo` reads
  have W := sampleImage.walkable sampleSlot
  obtain ⟨p, hn, he, -⟩ := Radix.stop_spec W.top_pos m 0x1000#64
  rw [hptwGetPmeo_one W] at hget
  split at hget
  · cases hget
  · have hpmeo := Option.some.inj hget
    have hlvl : ((sampleImage.ctx sampleSlot).radix.stop m 0x1000#64).1 = 1 :=
      congrArg HptPmeo.lvl hpmeo
    have hpme : (sampleImage.ctx sampleSlot).pme m 1 p 0x1000#64 = 0x864037#64 := by
      rw [hlvl] at he
      rw [HptwCtx.pme, he]
      exact congrArg HptPmeo.pme hpmeo
    rw [hlvl] at hn
    refine ⟨fun _ _ _ _ => rfl, Or.inl rfl, m, log, p, hrun, hflag, hn, ?_, ?_⟩
    · rw [hpme]
      decide
    · rw [hpme]
      decide

end Shv
