/-
# `Radix` — a radix tree of tables in byte memory

A `Radix K` is the shape of a tree of tables: how a key picks an entry at each
level, how wide entries are, and which table an entry points at.  The tree
itself is whatever a memory holds; `Node m k l p` says that the walk for key `k`
meets the table at `p` on level `l`, `walk` lists the entries it reads, `stop`
is the last of them, and `lookup` is the map from keys to leaves that the tree
represents.

The one invariant is `Tree`: two tables met on the way to any keys are the same
table, met at the same place, or have no byte in common.  Under it

* an edit of one entry is seen exactly by the keys that agree with it down to
  its level (`walk_put_of_not_agree`, `node_put`);
* an absent entry may be replaced by a link to a fresh empty table without any
  key noticing (`Linking.alike`), and the result is a tree again
  (`Linking.tree_put`);
* overwriting an entry by one without a child keeps a tree (`put_leaf`) and
  redirects exactly the keys below it (`lookup_put_leaf`).
-/
import Shv.Lib.ByteMem

open ByteMem

/-- The shape of a radix tree over keys `K`.  Level `top` is the root, level 1 the last. -/
structure Radix (K : Type) where
  /-- bytes per entry -/
  width : Nat
  top : Nat
  /-- address of the top table -/
  root : Nat
  /-- the entry a key selects in a table of a level -/
  idx : Nat → K → Nat
  /-- bytes per table of a level -/
  size : Nat → Nat
  /-- the table an entry points at -/
  child : Nat → BitVec (8 * width) → Option Nat
  /-- the entries that hold nothing -/
  absent : Nat → BitVec (8 * width) → Bool
  slot_le : ∀ {l : Nat} (k : K), 1 ≤ l → l ≤ top → width * (idx l k + 1) ≤ size l
  child_one : ∀ e, child 1 e = none
  child_absent : ∀ {l : Nat} {e}, absent l e = true → child l e = none
  absent_zero : ∀ l, absent l 0 = true

namespace Radix

variable {K : Type} (R : Radix K)

/-- Two keys that select the same entries at level `l` and above. -/
def Agree (l : Nat) (k k' : K) : Prop := ∀ j, l ≤ j → j ≤ R.top → R.idx j k = R.idx j k'

/-- The address of the entry `k` selects in the level-`l` table at `p`. -/
def slot (l p : Nat) (k : K) : Nat := p + R.width * R.idx l k

/-- The entry `k` selects in the level-`l` table at `p`. -/
def entry (m : ByteMem) (l p : Nat) (k : K) : BitVec (8 * R.width) :=
  m.load (R.slot l p k) R.width

def put (m : ByteMem) (l p : Nat) (k : K) (e : BitVec (8 * R.width)) : ByteMem :=
  m.store (R.slot l p k) R.width e

/-- The walk for `k` meets the table at `p` on level `l`. -/
inductive Node (m : ByteMem) (k : K) : Nat → Nat → Prop
  | root : Node m k R.top R.root
  | down {l p q : Nat} : Node m k (l + 1) p → R.child (l + 1) (R.entry m (l + 1) p k) = some q →
      Node m k l q

/-- The entries read by the walk for `k` from the level-`l` table at `p`, with their levels. -/
def walk (m : ByteMem) (k : K) : Nat → Nat → List (Nat × BitVec (8 * R.width))
  | 0, _ => []
  | l + 1, p =>
      let e := R.entry m (l + 1) p k
      (l + 1, e) :: match R.child (l + 1) e with
        | none => []
        | some q => walk m k l q

/-- The entry at which the walk for `k` ends, with its level. -/
def stop (m : ByteMem) (k : K) : Nat × BitVec (8 * R.width) :=
  (R.walk m k R.top R.root).getLastD (0, 0)

/-- The map the tree represents: the leaf of a key, unless the walk ends at an absent entry. -/
def lookup (m : ByteMem) (k : K) : Option (Nat × BitVec (8 * R.width)) :=
  if R.absent (R.stop m k).1 (R.stop m k).2 then none else some (R.stop m k)

/-- The tables form a tree: met twice means met at the same place. -/
def Tree (m : ByteMem) : Prop :=
  ∀ k k' l l' p p', R.Node m k l p → R.Node m k' l' p' →
    (l = l' ∧ R.Agree (l + 1) k k') ∨ Apart p (R.size l) p' (R.size l')

variable {R} {m m' : ByteMem} {k k' : K} {l l' p p' q : Nat} {e : BitVec (8 * R.width)}

/-! ## Keys -/

theorem Agree.refl (l : Nat) (k : K) : R.Agree l k k := fun _ _ _ => rfl

theorem Agree.symm (h : R.Agree l k k') : R.Agree l k' k := fun j hl ht => (h j hl ht).symm

theorem Agree.mono (h : R.Agree l k k') (hl : l ≤ l') : R.Agree l' k k' :=
  fun j hj ht => h j (Nat.le_trans hl hj) ht

theorem Agree.cons (h : R.Agree (l + 1) k k') (hl : R.idx l k = R.idx l k') : R.Agree l k k' := by
  intro j hj ht
  rcases Nat.eq_or_lt_of_le hj with rfl | hlt
  · exact hl
  · exact h j hlt ht

/-! ## Nodes -/

theorem entry_congr_key (ha : R.Agree l k k') (ht : l ≤ R.top) :
    R.entry m l p k' = R.entry m l p k := by
  rw [entry, entry, slot, slot, ha l (Nat.le_refl _) ht]

theorem Node.le_top (h : R.Node m k l p) : l ≤ R.top := by
  induction h with
  | root => exact Nat.le_refl _
  | down _ _ ih => exact Nat.le_of_succ_le ih

theorem Node.pos (ht : 1 ≤ R.top) (h : R.Node m k l p) : 1 ≤ l := by
  cases h with
  | root => exact ht
  | @down l p q _ hc =>
      rcases Nat.eq_zero_or_pos l with rfl | hl
      · rw [R.child_one] at hc; cases hc
      · exact hl

theorem Node.congr_key (h : R.Node m k l p) (ha : R.Agree (l + 1) k k') : R.Node m k' l p := by
  induction h with
  | root => exact .root
  | @down l p q hn hc ih =>
      have he : R.entry m (l + 1) p k' = R.entry m (l + 1) p k :=
        entry_congr_key ha hn.le_top
      exact .down (ih (ha.mono (Nat.le_succ _))) (he ▸ hc)

theorem Node.unique (h : R.Node m k l p) (h' : R.Node m k l p') : p = p' := by
  induction h generalizing p' with
  | root =>
      generalize hl : R.top = l at h'
      cases h' with
      | root => rfl
      | down hn _ =>
          have := hn.le_top
          omega
  | @down l p q hn hc ih =>
      cases h' with
      | root =>
          have := hn.le_top
          omega
      | @down _ p₂ _ hn' hc' =>
          obtain rfl := ih hn'
          rw [hc] at hc'
          exact Option.some.inj hc'

theorem Node.of_lt (h : R.Node m k l q) (hlt : l < l') (ht : l' ≤ R.top) :
    ∃ p, R.Node m k l' p ∧ (R.child l' (R.entry m l' p k)).isSome := by
  induction h with
  | root => omega
  | @down l p q hn hc ih =>
      rcases Nat.eq_or_lt_of_le (Nat.succ_le_of_lt hlt) with rfl | hlt'
      · exact ⟨p, hn, by rw [hc]; rfl⟩
      · exact ih hlt'

theorem Node.child_of_lt (h : R.Node m k l q) (hn : R.Node m k l' p) (hlt : l < l') :
    ∃ r, R.child l' (R.entry m l' p k) = some r := by
  obtain ⟨p₂, hn₂, hs⟩ := h.of_lt hlt hn.le_top
  obtain rfl := hn₂.unique hn
  exact Option.isSome_iff_exists.mp hs

theorem Node.le_of_child_none (h : R.Node m k l' p') (hn : R.Node m k l p)
    (hc : R.child l (R.entry m l p k) = none) : l ≤ l' := by
  by_contra hlt
  obtain ⟨r, hr⟩ := h.child_of_lt hn (Nat.lt_of_not_le hlt)
  rw [hc] at hr
  cases hr

theorem slot_mem (k : K) (h₁ : 1 ≤ l) (h₂ : l ≤ R.top) :
    p ≤ R.slot l p k ∧ R.slot l p k + R.width ≤ p + R.size l := by
  have h := R.slot_le k h₁ h₂
  rw [Nat.mul_succ] at h
  exact ⟨Nat.le_add_right _ _, by unfold slot; omega⟩

theorem slot_apart (h : R.idx l k ≠ R.idx l k') :
    Apart (R.slot l p k) R.width (R.slot l p k') R.width := by
  have hstep : ∀ i j, i < j → p + R.width * i + R.width ≤ p + R.width * j := by
    intro i j hij
    have := Nat.mul_le_mul_left R.width (Nat.succ_le_of_lt hij)
    rw [Nat.mul_succ] at this
    omega
  rcases Nat.lt_or_gt_of_ne h with hlt | hgt
  · exact Or.inl (hstep _ _ hlt)
  · exact Or.inr (hstep _ _ hgt)

/-! ## Walks -/

theorem walk_succ_none (h : R.child (l + 1) (R.entry m (l + 1) p k) = none) :
    R.walk m k (l + 1) p = [(l + 1, R.entry m (l + 1) p k)] := by
  simp only [walk, h]

theorem walk_succ_some (h : R.child (l + 1) (R.entry m (l + 1) p k) = some q) :
    R.walk m k (l + 1) p = (l + 1, R.entry m (l + 1) p k) :: R.walk m k l q := by
  simp only [walk, h]

theorem lvl_of_mem_walk {x : Nat × BitVec (8 * R.width)} (h : x ∈ R.walk m k l p) :
    1 ≤ x.1 ∧ x.1 ≤ l := by
  induction l generalizing p with
  | zero => cases h
  | succ l ih =>
      cases hc : R.child (l + 1) (R.entry m (l + 1) p k) with
      | none =>
          rw [walk_succ_none hc, List.mem_singleton] at h
          subst h
          exact ⟨Nat.succ_pos l, Nat.le_refl _⟩
      | some q =>
          rw [walk_succ_some hc, List.mem_cons] at h
          rcases h with rfl | h
          · exact ⟨Nat.succ_pos l, Nat.le_refl _⟩
          · exact (ih h).imp_right Nat.le_succ_of_le

theorem walk_ne_nil (h : 1 ≤ l) : R.walk m k l p ≠ [] := by
  cases l with
  | zero => omega
  | succ l => simp [walk]

/-- The walk from the root passes through every table it meets, reading the entries above
from `pre`. -/
theorem Node.walk_eq_append (h : R.Node m k l p) :
    ∃ pre, R.walk m k R.top R.root = pre ++ R.walk m k l p := by
  induction h with
  | root => exact ⟨[], rfl⟩
  | @down l p q hn hc ih =>
      obtain ⟨pre, hpre⟩ := ih
      exact ⟨pre ++ [(l + 1, R.entry m (l + 1) p k)], by
        rw [hpre, walk_succ_some hc, List.append_assoc]; rfl⟩

theorem Node.stop_eq (ht : 1 ≤ R.top) (h : R.Node m k l p) :
    R.stop m k = (R.walk m k l p).getLastD (0, 0) := by
  obtain ⟨pre, hpre⟩ := h.walk_eq_append
  rw [stop, hpre]
  obtain ⟨a, w, hw⟩ :=
    List.exists_cons_of_ne_nil (walk_ne_nil (m := m) (k := k) (p := p) (h.pos ht))
  rw [hw, List.getLastD_eq_getLast?, List.getLastD_eq_getLast?, List.getLast?_append]
  simp [List.getLast?_cons]

theorem Node.stop_eq_of_child_none (ht : 1 ≤ R.top) (h : R.Node m k l p)
    (hc : R.child l (R.entry m l p k) = none) : R.stop m k = (l, R.entry m l p k) := by
  have hl := h.pos ht
  rw [h.stop_eq ht]
  cases l with
  | zero => omega
  | succ l => rw [walk_succ_none hc]; rfl

/-- Where a walk ends: in a table it meets, at an entry without a child. -/
theorem stop_spec (ht : 1 ≤ R.top) (m : ByteMem) (k : K) :
    ∃ q, R.Node m k (R.stop m k).1 q ∧ R.entry m (R.stop m k).1 q k = (R.stop m k).2 ∧
      R.child (R.stop m k).1 (R.stop m k).2 = none := by
  have hend : ∀ l p, R.Node m k l p →
      ∃ l' q, R.Node m k l' q ∧ R.child l' (R.entry m l' q k) = none := by
    intro l
    induction l with
    | zero => intro p hp; exact absurd (hp.pos ht) (by decide)
    | succ l ih =>
        intro p hp
        cases hc : R.child (l + 1) (R.entry m (l + 1) p k) with
        | none => exact ⟨l + 1, p, hp, hc⟩
        | some q => exact ih q (.down hp hc)
  obtain ⟨l, q, hq, hc⟩ := hend _ _ .root
  rw [hq.stop_eq_of_child_none ht hc]
  exact ⟨q, hq, rfl, hc⟩

/-- Keys that agree down to where one of them stops have the same walk. -/
theorem Node.walk_congr (h : R.Node m k l p) (hc : R.child l (R.entry m l p k) = none)
    (ha : R.Agree l k k') : R.walk m k' R.top R.root = R.walk m k R.top R.root := by
  have key : ∀ l₀ p₀, R.Node m k l₀ p₀ → l ≤ l₀ → R.walk m k' l₀ p₀ = R.walk m k l₀ p₀ := by
    intro l₀
    induction l₀ with
    | zero => intro p₀ _ _; rfl
    | succ l₀ ih =>
        intro p₀ hp hle
        have he : R.entry m (l₀ + 1) p₀ k' = R.entry m (l₀ + 1) p₀ k :=
          entry_congr_key (ha.mono hle) hp.le_top
        cases hc' : R.child (l₀ + 1) (R.entry m (l₀ + 1) p₀ k) with
        | none => rw [walk_succ_none hc', walk_succ_none (by rw [he]; exact hc'), he]
        | some q =>
            have hlt : l ≤ l₀ := by
              rcases Nat.eq_or_lt_of_le hle with rfl | hlt
              · obtain rfl := hp.unique h
                rw [hc] at hc'
                cases hc'
              · exact Nat.le_of_lt_succ hlt
            rw [walk_succ_some hc', walk_succ_some (by rw [he]; exact hc'), he,
              ih q (.down hp hc') hlt]
  exact key _ _ .root h.le_top

/-! ## Memories with the same tables -/

/-- `m'` has the entries that the walk for `k` reads in `m`. -/
def Same (m m' : ByteMem) (k : K) : Prop :=
  ∀ l p, R.Node m k l p → R.entry m' l p k = R.entry m l p k

theorem Same.node (hs : R.Same m m' k) (h : R.Node m k l p) : R.Node m' k l p := by
  induction h with
  | root => exact .root
  | down hn hc ih => exact .down ih (by rw [hs _ _ hn]; exact hc)

theorem Same.node_rev (hs : R.Same m m' k) (h : R.Node m' k l p) : R.Node m k l p := by
  induction h with
  | root => exact .root
  | down _ hc ih => exact .down ih (by rw [← hs _ _ ih]; exact hc)

theorem Same.walk_eq (hs : R.Same m m' k) (h : R.Node m k l p) :
    R.walk m' k l p = R.walk m k l p := by
  induction l generalizing p with
  | zero => rfl
  | succ l ih =>
      have he := hs _ _ h
      cases hc : R.child (l + 1) (R.entry m (l + 1) p k) with
      | none => rw [walk_succ_none hc, walk_succ_none (by rw [he]; exact hc), he]
      | some q =>
          rw [walk_succ_some hc, walk_succ_some (by rw [he]; exact hc), he, ih (.down h hc)]

/-- No byte of any table changed. -/
def Frame (R : Radix K) (m m' : ByteMem) : Prop :=
  ∀ k l p x, R.Node m k l p → x ∈ span p (R.size l) → m' x = m x

theorem Frame.same (ht : 1 ≤ R.top) (h : R.Frame m m') (k : K) : R.Same m m' k := by
  intro l p hn
  apply load_congr
  intro x hx
  obtain ⟨h₁, h₂⟩ := slot_mem (p := p) k (hn.pos ht) hn.le_top
  simp only [mem_span] at hx
  exact h k l p x hn ⟨by omega, by omega⟩

theorem Frame.tree (ht : 1 ≤ R.top) (h : R.Frame m m') (hm : R.Tree m) : R.Tree m' := by
  intro k k' l l' p p' hn hn'
  exact hm k k' l l' p p' ((h.same ht k).node_rev hn) ((h.same ht k').node_rev hn')

/-! ## Editing one entry -/

@[simp] theorem entry_put_self : R.entry (R.put m l p k e) l p k = e :=
  load_store_self m _ _ e

theorem Tree.entry_put_of_ne (hm : R.Tree m) (ht : 1 ≤ R.top) (hn : R.Node m k l p)
    (hn' : R.Node m k' l' p') (hne : ¬ (l' = l ∧ R.Agree l k k')) :
    R.entry (R.put m l p k e) l' p' k' = R.entry m l' p' k' := by
  apply load_store_of_apart
  rcases hm k k' l l' p p' hn hn' with ⟨rfl, ha⟩ | hap
  · obtain rfl := (hn.congr_key ha).unique hn'
    exact slot_apart fun hi => hne ⟨rfl, ha.cons hi⟩
  · obtain ⟨h₁, h₂⟩ := slot_mem (p := p) k (hn.pos ht) hn.le_top
    obtain ⟨h₃, h₄⟩ := slot_mem (p := p') k' (hn'.pos ht) hn'.le_top
    exact hap.mono h₁ h₂ h₃ h₄

/-- A key that leaves the edited path at or above the edit does not see it. -/
theorem Tree.same_put (hm : R.Tree m) (ht : 1 ≤ R.top) (hn : R.Node m k l p)
    (ha : ¬ R.Agree l k k') : R.Same m (R.put m l p k e) k' :=
  fun _ _ hn' => hm.entry_put_of_ne ht hn hn' fun h => ha h.2

theorem Tree.node_put (hm : R.Tree m) (ht : 1 ≤ R.top) (hn : R.Node m k l p)
    (h : R.Node m k' l' p') (hl : l ≤ l') : R.Node (R.put m l p k e) k' l' p' := by
  induction h with
  | root => exact .root
  | @down j p₁ q₁ hn₁ hc ih =>
      refine .down (ih (by omega)) ?_
      rw [hm.entry_put_of_ne ht hn hn₁ (by omega)]
      exact hc

/-- The tables met after an edit: the old ones, or those below the new entry. -/
theorem Tree.node_put_cases (hm : R.Tree m) (ht : 1 ≤ R.top) (hn : R.Node m k l p)
    (h : R.Node (R.put m l p k e) k' l' p') :
    R.Node m k' l' p' ∨ (l' < l ∧ R.Agree l k k') := by
  induction h with
  | root => exact Or.inl .root
  | @down j p₁ q₁ _ hc ih =>
      rcases ih with hn₁ | ⟨hlt, ha⟩
      · by_cases hat : j + 1 = l ∧ R.Agree l k k'
        · exact Or.inr ⟨by omega, hat.2⟩
        · rw [hm.entry_put_of_ne ht hn hn₁ hat] at hc
          exact Or.inl (.down hn₁ hc)
      · exact Or.inr ⟨by omega, ha⟩

theorem Tree.node_put_agree (hm : R.Tree m) (ht : 1 ≤ R.top) (hn : R.Node m k l p)
    (ha : R.Agree l k k') :
    R.Node (R.put m l p k e) k' l p ∧ R.entry (R.put m l p k e) l p k' = e := by
  refine ⟨hm.node_put ht hn (hn.congr_key (ha.mono (Nat.le_succ _))) (Nat.le_refl _), ?_⟩
  rw [entry_congr_key ha hn.le_top]
  exact entry_put_self

/-! ## Entries without a child -/

section Leaf

variable (hm : R.Tree m) (ht : 1 ≤ R.top) (hn : R.Node m k l p) (hc : R.child l e = none)
include hm ht hn hc

theorem Tree.node_of_put_leaf (h : R.Node (R.put m l p k e) k' l' p') : R.Node m k' l' p' := by
  rcases hm.node_put_cases ht hn h with h' | ⟨hlt, ha⟩
  · exact h'
  · obtain ⟨hn', he⟩ := hm.node_put_agree (e := e) ht hn ha
    have := h.le_of_child_none hn' (by rw [he]; exact hc)
    omega

theorem Tree.put_leaf : R.Tree (R.put m l p k e) := by
  intro k₁ k₂ l₁ l₂ p₁ p₂ h₁ h₂
  exact hm k₁ k₂ l₁ l₂ p₁ p₂ (hm.node_of_put_leaf ht hn hc h₁) (hm.node_of_put_leaf ht hn hc h₂)

theorem Tree.stop_put_leaf (ha : R.Agree l k k') : R.stop (R.put m l p k e) k' = (l, e) := by
  obtain ⟨hn', he⟩ := hm.node_put_agree (e := e) ht hn ha
  rw [hn'.stop_eq_of_child_none ht (by rw [he]; exact hc), he]

end Leaf

theorem Tree.walk_put_eq_append (hm : R.Tree m) (ht : 1 ≤ R.top) (hn : R.Node m k l p)
    (h : R.Node m k' l' p') (hl : l ≤ l') :
    ∃ pre, (∀ x ∈ pre, l' < x.1) ∧ R.walk m k' R.top R.root = pre ++ R.walk m k' l' p' ∧
      R.walk (R.put m l p k e) k' R.top R.root = pre ++ R.walk (R.put m l p k e) k' l' p' := by
  induction h with
  | root => exact ⟨[], List.forall_mem_nil _, rfl, rfl⟩
  | @down j p₁ q₁ hn₁ hc ih =>
      obtain ⟨pre, habove, hpre, hpre'⟩ := ih (by omega)
      have he : R.entry (R.put m l p k e) (j + 1) p₁ k' = R.entry m (j + 1) p₁ k' :=
        hm.entry_put_of_ne ht hn hn₁ (by omega)
      refine ⟨pre ++ [(j + 1, R.entry m (j + 1) p₁ k')], ?_, ?_, ?_⟩
      · intro x hx
        rcases List.mem_append.mp hx with hx | hx
        · exact Nat.lt_of_succ_lt (habove x hx)
        · rw [List.mem_singleton.mp hx]
          exact Nat.lt_succ_self j
      · rw [hpre, walk_succ_some hc, List.append_assoc]
        rfl
      · rw [hpre', walk_succ_some (by rw [he]; exact hc), he, List.append_assoc]
        rfl

/-- A leaf overwritten by a leaf changes the last entry of the walks below it, and no other. -/
theorem Tree.walk_put_leaf (hm : R.Tree m) (ht : 1 ≤ R.top) (hn : R.Node m k l p)
    (hc : R.child l (R.entry m l p k) = none) (hc' : R.child l e = none) (ha : R.Agree l k k') :
    ∃ pre, (∀ x ∈ pre, l < x.1) ∧
      R.walk m k' R.top R.root = pre ++ [(l, R.entry m l p k)] ∧
      R.walk (R.put m l p k e) k' R.top R.root = pre ++ [(l, e)] := by
  obtain ⟨l, rfl⟩ : ∃ n, l = n + 1 := ⟨l - 1, by have := hn.pos ht; omega⟩
  obtain ⟨pre, habove, hpre, hpre'⟩ := hm.walk_put_eq_append (e := e) ht hn
    (hn.congr_key (ha.mono (Nat.le_succ _))) (Nat.le_refl _)
  have he : R.entry m (l + 1) p k' = R.entry m (l + 1) p k := entry_congr_key ha hn.le_top
  obtain ⟨-, he'⟩ := hm.node_put_agree (e := e) ht hn ha
  refine ⟨pre, habove, ?_, ?_⟩
  · rw [hpre, walk_succ_none (by rw [he]; exact hc), he]
  · rw [hpre', walk_succ_none (by rw [he']; exact hc'), he']

theorem Tree.walk_put_of_not_agree (hm : R.Tree m) (ht : 1 ≤ R.top) (hn : R.Node m k l p)
    (ha : ¬ R.Agree l k k') :
    R.walk (R.put m l p k e) k' R.top R.root = R.walk m k' R.top R.root :=
  (hm.same_put ht hn ha).walk_eq .root

theorem lookup_congr (h : R.walk m' k R.top R.root = R.walk m k R.top R.root) :
    R.lookup m' k = R.lookup m k := by
  rw [lookup, lookup, stop, stop, h]

theorem Tree.lookup_put_leaf (hm : R.Tree m) (ht : 1 ≤ R.top) (hn : R.Node m k l p)
    (hc : R.child l e = none) [Decidable (R.Agree l k k')] :
    R.lookup (R.put m l p k e) k' =
      if R.Agree l k k' then (if R.absent l e then none else some (l, e))
      else R.lookup m k' := by
  by_cases ha : R.Agree l k k'
  · rw [if_pos ha, lookup, hm.stop_put_leaf ht hn hc ha]
  · rw [if_neg ha, lookup_congr (hm.walk_put_of_not_agree ht hn ha)]

/-! ## Linking a fresh table -/

/-- Two walks that a reader who only wants present leaves cannot tell apart: they read the
same entries, or both end at an absent one. -/
def Alike (R : Radix K) (m m' : ByteMem) (k : K) : Prop :=
  R.walk m' k R.top R.root = R.walk m k R.top R.root ∨
    (R.absent (R.stop m k).1 (R.stop m k).2 = true ∧
      R.absent (R.stop m' k).1 (R.stop m' k).2 = true)

theorem Alike.refl (m : ByteMem) (k : K) : R.Alike m m k := Or.inl rfl

theorem Alike.trans {m₁ m₂ m₃ : ByteMem} (h₁ : R.Alike m₁ m₂ k) (h₂ : R.Alike m₂ m₃ k) :
    R.Alike m₁ m₃ k := by
  rcases h₁ with h₁ | h₁
  · rcases h₂ with h₂ | h₂
    · exact Or.inl (h₂.trans h₁)
    · rw [stop, h₁] at h₂; exact Or.inr h₂
  · rcases h₂ with h₂ | h₂
    · refine Or.inr ⟨h₁.1, ?_⟩
      rw [stop, h₂]; exact h₁.2
    · exact Or.inr ⟨h₁.1, h₂.2⟩

theorem Alike.lookup_eq (h : R.Alike m m' k) : R.lookup m' k = R.lookup m k := by
  rcases h with h | ⟨h, h'⟩
  · exact lookup_congr h
  · rw [lookup, lookup, if_pos h, if_pos h']

/-- A table at `q` that is empty, usable at level `l`, and apart from every table in use. -/
structure Fresh (R : Radix K) (m : ByteMem) (l q : Nat) : Prop where
  zero : ∀ x ∈ span q (R.size l), m x = 0
  apart : ∀ {k l' p'}, R.Node m k l' p' → Apart q (R.size l) p' (R.size l')

/-- The situation in which a fresh table is linked: `k` meets an absent entry at level `l + 1`,
and `e` points at the fresh table. -/
structure Linking (R : Radix K) (m : ByteMem) (k : K) (l p q : Nat)
    (e : BitVec (8 * R.width)) : Prop where
  tree : R.Tree m
  top : 1 ≤ R.top
  node : R.Node m k (l + 1) p
  absent : R.absent (l + 1) (R.entry m (l + 1) p k) = true
  fresh : R.Fresh m l q
  child : R.child (l + 1) e = some q

namespace Linking

variable (L : R.Linking m k l p q e)
include L

theorem pos : 1 ≤ l := by
  rcases Nat.eq_zero_or_pos l with rfl | hl
  · have := L.child
    rw [R.child_one] at this
    cases this
  · exact hl

/-- The fresh table stays empty: the entry being replaced is not inside it. -/
theorem entry_fresh (k' : K) :
    R.entry (R.put m (l + 1) p k e) l q k' = 0 := by
  obtain ⟨h₁, h₂⟩ := slot_mem (p := p) k (L.node.pos L.top) L.node.le_top
  obtain ⟨h₃, h₄⟩ := slot_mem (p := q) k' L.pos (Nat.le_of_succ_le L.node.le_top)
  have hap : Apart (R.slot (l + 1) p k) R.width (R.slot l q k') R.width :=
    (L.fresh.apart L.node).symm.mono h₁ h₂ h₃ h₄
  rw [entry, put, load_store_of_apart hap]
  apply load_zero
  intro x hx
  simp only [mem_span] at hx
  exact L.fresh.zero x ⟨by omega, by omega⟩

theorem node_fresh (h : R.Agree (l + 1) k k') : R.Node (R.put m (l + 1) p k e) k' l q := by
  obtain ⟨hn, he⟩ := L.tree.node_put_agree (e := e) L.top L.node h
  exact .down hn (by rw [he]; exact L.child)

theorem child_fresh (k' : K) :
    R.child l (R.entry (R.put m (l + 1) p k e) l q k') = none := by
  rw [L.entry_fresh k']
  exact R.child_absent (R.absent_zero l)

theorem node_mono (h : R.Node m k' l' p') : R.Node (R.put m (l + 1) p k e) k' l' p' := by
  by_cases ha : R.Agree (l + 1) k k'
  · refine L.tree.node_put L.top L.node h ?_
    have hn := L.node.congr_key (ha.mono (Nat.le_succ _))
    apply h.le_of_child_none hn
    rw [entry_congr_key ha L.node.le_top]
    exact R.child_absent L.absent
  · exact (L.tree.same_put L.top L.node ha).node h

theorem node_cases (h : R.Node (R.put m (l + 1) p k e) k' l' p') :
    R.Node m k' l' p' ∨ (l' = l ∧ p' = q ∧ R.Agree (l + 1) k k') := by
  rcases L.tree.node_put_cases L.top L.node h with h' | ⟨hlt, ha⟩
  · exact Or.inl h'
  · have hl : l' = l := by
      have := h.le_of_child_none (L.node_fresh ha) (L.child_fresh k')
      omega
    subst hl
    exact Or.inr ⟨rfl, h.unique (L.node_fresh ha), ha⟩

theorem tree_put : R.Tree (R.put m (l + 1) p k e) := by
  intro k₁ k₂ l₁ l₂ p₁ p₂ h₁ h₂
  rcases L.node_cases h₁ with o₁ | ⟨rfl, rfl, a₁⟩
  · rcases L.node_cases h₂ with o₂ | ⟨rfl, rfl, a₂⟩
    · exact L.tree k₁ k₂ l₁ l₂ p₁ p₂ o₁ o₂
    · exact Or.inr (L.fresh.apart o₁).symm
  · rcases L.node_cases h₂ with o₂ | ⟨rfl, rfl, a₂⟩
    · exact Or.inr (L.fresh.apart o₂)
    · refine Or.inl ⟨rfl, fun j hj ht => ?_⟩
      rw [← a₁ j hj ht, a₂ j hj ht]

theorem alike (k' : K) : R.Alike m (R.put m (l + 1) p k e) k' := by
  by_cases ha : R.Agree (l + 1) k k'
  · right
    have hn := L.node.congr_key (ha.mono (Nat.le_succ _))
    have he : R.entry m (l + 1) p k' = R.entry m (l + 1) p k :=
      entry_congr_key ha L.node.le_top
    have hs := hn.stop_eq_of_child_none L.top (by rw [he]; exact R.child_absent L.absent)
    have hs' := (L.node_fresh ha).stop_eq_of_child_none L.top (L.child_fresh k')
    rw [hs, hs', he, L.entry_fresh k']
    exact ⟨L.absent, R.absent_zero l⟩
  · exact Or.inl (L.tree.walk_put_of_not_agree L.top L.node ha)

end Linking

end Radix
