/-
# `Shv.HptCodec` — what an entry is written with is read back

* `pme_prot_codec_iff`: protections are read back as they were written, except that a level-3 entry
  of PAE has no bits for the RX and RW that `hpt_prot_is_valid` lets pass;
* `pme_address_codec_iff`: addresses are read back, except those of 4 GiB and more in a 4 MiB page;
* `pme_unused_codec_iff`: software bits are read back, except through a range that does not start
  at bit 0.

All rest on what a setter does to the bits of an entry (`Shv.HptFields`).
-/
import Shv.HptFields

namespace Shv

variable {t : HptType} {lvl : Nat} {e e' : BitVec 64}

/-! ## The protections -/

/-- A getter that asserts nothing on either entry, and reads the same from both. -/
def Kept {α : Type} (get : BitVec 64 → Halting α) (e e' : BitVec 64) : Prop :=
  ∃ v, get e = some v ∧ get e' = some v

theorem Kept.of_eq {α : Type} {get : BitVec 64 → Halting α} (heq : get e' = get e)
    (hsome : (get e).isSome) : Kept get e e' := by
  obtain ⟨v, hv⟩ := Option.isSome_iff_exists.mp hsome
  exact ⟨v, hv, heq.trans hv⟩

theorem hptPmeGetAddress_isSome (h : LvlOk t lvl) (e : BitVec 64) :
    (hptPmeGetAddress t lvl e).isSome := by
  obtain ⟨a, ha, -⟩ := hptPmeGetAddress_lt h e
  rw [ha]
  rfl

/-- The getters a setter of another field keeps: none of them asserts on either entry. -/
theorem HptSetter.kept (h : LvlOk t lvl) {s : HptSetter} (hw : s.write t lvl e = some e') :
    (s.field ≠ .prot → Kept (hptPmeGetprot t lvl) e e') ∧
    (s.field ≠ .user → Kept (hptPmeGetuser t lvl) e e') ∧
    (s.field ≠ .address → Kept (hptPmeGetAddress t lvl) e e') ∧
    Kept (hptPmeIsPage t lvl) e e' := by
  have hpage := HptSetter.pmePage_eq h hw
  have hframe : ∀ f, s.field ≠ f → AgreeOn t lvl f e e' := by
    intro f hf i hi
    apply HptSetter.frame h hw
    rw [hi, ne_eq, Option.some.injEq]
    exact hf.symm
  refine ⟨fun hf => ?_, fun hf => ?_, fun hf => ?_, ?_⟩
  · refine ⟨_, hptPmeGetprot_eq h, ?_⟩
    rw [hptPmeGetprot_eq h, (pmeProt_agree (hframe _ hf)).1]
  · refine ⟨_, hptPmeGetuser_eq h, ?_⟩
    rw [hptPmeGetuser_eq h, pmeUser_agree (hframe _ hf)]
  · exact Kept.of_eq (hptPmeGetAddress_agree h hpage (hframe _ hf)) (hptPmeGetAddress_isSome h e)
  · refine ⟨_, hptPmeIsPage_eq h, ?_⟩
    rw [hptPmeIsPage_eq h, hpage]

/-- Writing `perms` gives an entry that reads back as `perms`, is present if that is anything at
all, and is `e` apart from the format's R, W and X bits. -/
def ProtRoundTrip (t : HptType) (lvl : Nat) (e perms : BitVec 64) : Prop :=
  ∃ e', hptPmeSetprot t lvl e perms = some e' ∧ hptPmeGetprot t lvl e' = some perms ∧
    hptPmeIsPresent t lvl e' = some (perms != hptProtsNone) ∧
    Kept (hptPmeGetAddress t lvl) e e' ∧ Kept (hptPmeGetuser t lvl) e e' ∧
    Kept (hptPmeIsPage t lvl) e e' ∧
    ∀ i, pmeLayout t lvl (pmePage t lvl e) i ≠ some .prot → e'.getLsbD i = e.getLsbD i

theorem pmeProt_of_setprot (h : LvlOk t lvl) {perms : BitVec 64}
    (hw : hptPmeSetprot t lvl e perms = some e') :
    pmeProt t lvl e' =
      if t = .pae ∧ lvl = 3 then hptProtOf (perms.getLsbD 0) (perms.getLsbD 0) (perms.getLsbD 0)
      else if t = .norm then hptProtOf (perms.getLsbD 0) (perms.getLsbD 1) (perms.getLsbD 0)
      else hptProtOf (perms.getLsbD 0) (perms.getLsbD 1) (perms.getLsbD 2) := by
  obtain ⟨-, hputs⟩ := HptSetter.of_write (s := .prot perms) h hw
  have hbit : ∀ i, i < 64 → pmeLayout t lvl (pmePage t lvl e) i = some .prot →
      e'.getLsbD i = (HptSetter.prot perms).bit t i := by
    intro i hi hl
    apply hputs.of_mem hi
    simp [HptSetter.mask, HptSetter.field, hl]
  have h₀ : e'.getLsbD 0 = perms.getLsbD 0 := hbit 0 (by decide) rfl
  by_cases h₃ : t = .pae ∧ lvl = 3
  · simp only [pmeProt, pmeR, pmeW, pmeX, h₃, and_self, if_true, h₀]
  · have h₁ : e'.getLsbD 1 = perms.getLsbD 1 := hbit 1 (by decide) (by simp [pmeLayout, h₃])
    cases t with
    | norm =>
        simp only [pmeProt, pmeR, pmeW, pmeX, h₀, h₁, reduceCtorEq, false_and, if_true, if_false]
    | pae =>
        have h₆₃ : e'.getLsbD 63 = !perms.getLsbD 2 :=
          hbit 63 (by decide) (by simpa [pmeLayout, addrHi] using h₃)
        have hlvl : ¬ lvl = 3 := by simpa using h₃
        simp only [pmeProt, pmeR, pmeW, pmeX, hlvl, h₀, h₁, h₆₃, reduceCtorEq, and_false, if_false,
          Bool.not_not]
    | long =>
        have h₆₃ : e'.getLsbD 63 = !perms.getLsbD 2 :=
          hbit 63 (by decide) (by simp [pmeLayout, addrHi])
        simp only [pmeProt, pmeR, pmeW, pmeX, h₀, h₁, h₆₃, reduceCtorEq, false_and, if_false,
          Bool.not_not]
    | ept =>
        have h₂ : e'.getLsbD 2 = perms.getLsbD 2 := hbit 2 (by decide) rfl
        simp only [pmeProt, pmeR, pmeW, pmeX, h₀, h₁, h₂, reduceCtorEq, false_and, if_false]
    | invalid => exact absurd rfl h.type_ne

theorem exists_mask {perms : BitVec 64} (hp : perms < 8#64) :
    ∃ r w x, perms = hptProtOf r w x := by
  obtain ⟨k, hk, rfl⟩ : ∃ k, k < 8 ∧ perms = BitVec.ofNat 64 k :=
    ⟨perms.toNat, hp, by rw [BitVec.ofNat_toNat, BitVec.setWidth_eq]⟩
  revert k
  decide

theorem hptProtOf_getLsbD (r w x : Bool) : (hptProtOf r w x).getLsbD 0 = r ∧
    (hptProtOf r w x).getLsbD 1 = w ∧ (hptProtOf r w x).getLsbD 2 = x := by
  revert r w x
  decide

/-- 32-bit paging has no execute bit, and accepts no protection that would need one. -/
theorem hptProtOf_norm : ∀ r w x, hptProtIsValid .norm lvl (hptProtOf r w x) = true →
    hptProtOf r w r = hptProtOf r w x := by
  simp only [hptProtIsValid]
  decide

theorem hptProtOf_pae3 : ∀ r w x, hptProtIsValid .pae 3 (hptProtOf r w x) = true →
    hptProtOf r w x ≠ hptProtsRx → hptProtOf r w x ≠ hptProtsRw →
    hptProtOf r r r = hptProtOf r w x := by
  decide

theorem hptProtOf_present_ept : ∀ r w x,
    (hptProtOf r w x &&& hptProtsRwx != 0) = (hptProtOf r w x != hptProtsNone) := by
  decide

theorem pmeProt_eq_of_setprot (h : LvlOk t lvl) {perms : BitVec 64} (hp : perms < 8#64)
    (hv : hptProtIsValid t lvl perms = true)
    (hcond : ¬ (t = .pae ∧ lvl = 3 ∧ (perms = hptProtsRx ∨ perms = hptProtsRw)))
    (hw : hptPmeSetprot t lvl e perms = some e') : pmeProt t lvl e' = perms := by
  rw [pmeProt_of_setprot h hw]
  obtain ⟨r, w, x, rfl⟩ := exists_mask hp
  obtain ⟨hr, hw', hx⟩ := hptProtOf_getLsbD r w x
  rw [hr, hw', hx]
  split
  next h₃ =>
      obtain ⟨rfl, rfl⟩ := h₃
      simp only [true_and, not_or] at hcond
      exact hptProtOf_pae3 r w x hv hcond.1 hcond.2
  next =>
      split
      next hn =>
          subst hn
          exact hptProtOf_norm r w x hv
      next => rfl

/-- An entry that reads back as a valid protection is present if that is anything at all. -/
theorem hptPmeIsPresent_of_prot (h : LvlOk t lvl) {perms : BitVec 64} (hp : perms < 8#64)
    (hv : hptProtIsValid t lvl perms = true) (hread : pmeProt t lvl e = perms) :
    hptPmeIsPresent t lvl e = some (perms != hptProtsNone) := by
  rw [hptPmeIsPresent, hptPmeGetprot_eq h, hread]
  by_cases ht : t = .ept
  · obtain ⟨r, w, x, rfl⟩ := exists_mask hp
    simp only [Option.bind_eq_bind, Option.bind_some, if_pos ht, hptProtOf_present_ept]
    rfl
  · simp only [Option.bind_eq_bind, Option.bind_some, if_neg ht]
    rcases hptProtIsValid_cases ht hv with rfl | rfl | rfl | rfl | rfl <;> rfl

/-- **Protections are read back as they were written**, except where a level-3 entry of PAE, which
has a present bit only, is given RX or RW. -/
theorem pme_prot_codec_iff (h : LvlOk t lvl) (e : BitVec 64) {perms : BitVec 64}
    (hp : perms < 8#64) (hv : hptProtIsValid t lvl perms = true) :
    ProtRoundTrip t lvl e perms ↔
      ¬ (t = .pae ∧ lvl = 3 ∧ (perms = hptProtsRx ∨ perms = hptProtsRw)) := by
  constructor
  · rintro ⟨e', hw, hread, -⟩ ⟨rfl, rfl, hperms⟩
    rw [hptPmeGetprot_eq h, pmeProt_of_setprot h hw, if_pos ⟨rfl, rfl⟩] at hread
    rcases hperms with rfl | rfl <;> revert hread <;> decide
  · intro hcond
    obtain ⟨e', hw, -⟩ := HptSetter.write_of_accepts (s := .prot perms) (e := e) h
      (by simp [HptSetter.accepts, hv, hp])
    have hread := pmeProt_eq_of_setprot h hp hv hcond hw
    have hkept := HptSetter.kept (s := .prot perms) h hw
    refine ⟨e', hw, by rw [hptPmeGetprot_eq h, hread],
      hptPmeIsPresent_of_prot h hp hv hread,
      hkept.2.2.1 (show HptField.prot ≠ .address by decide),
      hkept.2.1 (show HptField.prot ≠ .user by decide), hkept.2.2.2,
      fun i hi => HptSetter.frame h hw hi⟩

/-- A level-2 entry of PAE can hold RX. -/
theorem pme_prot_codec_pae : ProtRoundTrip .pae 2 0x1000#64 hptProtsRx :=
  (pme_prot_codec_iff (by decide) 0x1000#64 (by decide) (by decide)).mpr (by decide)

/-- A level-3 entry of PAE that is given RX without asserting grants RWX. -/
theorem pme_prot_codec_pdpte : hptProtIsValid .pae 3 hptProtsRx = true ∧
    ¬ ProtRoundTrip .pae 3 0x1000#64 hptProtsRx ∧
    hptPmeSetprot .pae 3 0x1000#64 hptProtsRx = some 0x1001#64 ∧
    hptPmeGetprot .pae 3 0x1001#64 = some hptProtsRwx := by
  refine ⟨by decide, ?_, by decide, by decide⟩
  rintro ⟨e', hw, hread, -⟩
  cases hw
  revert hread
  decide

/-! ## The address -/

/-- The width of the addresses an entry's format has. -/
def addrBits (t : HptType) (lvl : Nat) (page : Bool) : Nat :=
  if t = .norm then if lvl = 2 ∧ page then 40 else 32 else 52

/-- The alignment of what an entry maps: 4 KiB for a table, the page size for a page. -/
def alignBits (t : HptType) (lvl : Nat) (page : Bool) : Nat :=
  if page then hptVaIdxHi t (lvl - 1) + 1 else 12

/-- The bits the format keeps an address in. -/
def addrField (t : HptType) (lvl : Nat) (page : Bool) (i : Nat) : Bool :=
  addrLo t lvl page ≤ i && i ≤ addrHi t ||
    t = .norm && lvl = 2 && page && 13 ≤ i && i ≤ 20

/-- Writing `a` gives an entry that holds `a`, and is `e` apart from the address. -/
def AddressRoundTrip (t : HptType) (lvl : Nat) (e a : BitVec 64) : Prop :=
  ∃ e', hptPmeSetAddress t lvl e a = some e' ∧ hptPmeGetAddress t lvl e' = some a ∧
    Kept (hptPmeGetprot t lvl) e e' ∧ Kept (hptPmeGetuser t lvl) e e' ∧
    Kept (hptPmeIsPage t lvl) e e' ∧
    ∀ i, addrField t lvl (pmePage t lvl e) i = false → e'.getLsbD i = e.getLsbD i

theorem addrLo_le_alignBits (h : LvlOk t lvl) {page : Bool} (hok : PageOk t lvl page) :
    addrLo t lvl page ≤ alignBits t lvl page := by
  revert hok
  apply h.elim (P := fun t lvl => PageOk t lvl page → addrLo t lvl page ≤ alignBits t lvl page) <;>
    cases page <;> decide

theorem addrBits_eq (h : LvlOk t lvl) {page : Bool} :
    addrBits t lvl page = if t = .norm ∧ lvl = 2 ∧ page = true then 40 else addrHi t + 1 := by
  apply h.elim (P := fun t lvl => addrBits t lvl page =
    if t = .norm ∧ lvl = 2 ∧ page = true then 40 else addrHi t + 1) <;> cases page <;> decide

theorem getLsbD_of_two_pow_dvd {n k i : Nat} {x : BitVec n} (h : 2 ^ k ∣ x.toNat) (hi : i < k) :
    x.getLsbD i = false := by
  have hmod := Nat.testBit_mod_two_pow x.toNat k i
  rw [Nat.mod_eq_zero_of_dvd h, Nat.zero_testBit, decide_eq_true hi, Bool.true_and] at hmod
  exact hmod.symm

theorem hptPmeSetAddress_read (h : LvlOk t lvl) {a : BitVec 64}
    (hn : t = .norm → ∀ i, 32 ≤ i → e.getLsbD i = false)
    (hw : hptPmeSetAddress t lvl e a = some e') :
    ∃ a', hptPmeGetAddress t lvl e' = some a' ∧ ∀ i, a'.getLsbD i =
      (decide (addrLo t lvl (pmePage t lvl e) ≤ i ∧ i ≤ addrHi t) && a.getLsbD i) := by
  obtain ⟨-, hputs⟩ := HptSetter.of_write (s := .address a) h hw
  have hpage := HptSetter.pmePage_eq (s := .address a) h hw
  have hn' : t = .norm → ∀ i, 32 ≤ i → e'.getLsbD i = false := by
    rintro rfl i hi
    rw [hputs.of_ne, hn rfl i hi]
    have hhi : ¬ i ≤ 31 := by omega
    simp [HptSetter.mask, addrHi, hhi]
  obtain ⟨a', ha', hbits⟩ := hptPmeGetAddress_spec h hn'
  refine ⟨a', ha', fun i => ?_⟩
  rw [hbits i, hpage]
  by_cases hin : addrLo t lvl (pmePage t lvl e) ≤ i ∧ i ≤ addrHi t
  · rw [hputs.of_mem (lt_of_le_of_lt hin.2 (addrHi_lt t)) (by simp [HptSetter.mask, hin])]
    rfl
  · rw [decide_eq_false hin, Bool.false_and, Bool.false_and]

/-- **Addresses are read back as they were written**, except those from 4 GiB on that a 4 MiB page
of 32-bit paging is given. -/
theorem pme_address_codec_iff (h : LvlOk t lvl) (e a : BitVec 64)
    (he : t = .norm → e.toNat < 2 ^ 32)
    (hfit : a.toNat < 2 ^ addrBits t lvl (pmePage t lvl e))
    (halign : 2 ^ alignBits t lvl (pmePage t lvl e) ∣ a.toNat) :
    AddressRoundTrip t lvl e a ↔
      ¬ (t = .norm ∧ lvl = 2 ∧ pmePage t lvl e = true ∧ 2 ^ 32 ≤ a.toNat) := by
  have hn : t = .norm → ∀ i, 32 ≤ i → e.getLsbD i = false :=
    fun ht => (lt_two_pow_iff_getLsbD e).mp (he ht)
  obtain ⟨e', hw, hputs⟩ := HptSetter.write_of_accepts (s := .address a) (e := e) h rfl
  obtain ⟨a', hread, hbits⟩ := hptPmeSetAddress_read h hn hw
  have hread' : hptPmeGetAddress t lvl e' = some a ↔ a.toNat < 2 ^ (addrHi t + 1) := by
    rw [hread, Option.some.injEq, lt_two_pow_iff_getLsbD]
    constructor
    · rintro rfl i hi
      rw [hbits i, decide_eq_false (by omega), Bool.false_and]
    · intro hhigh
      apply BitVec.eq_of_getLsbD_eq
      intro i _
      rw [hbits i]
      by_cases hlow : i < addrLo t lvl (pmePage t lvl e)
      · rw [decide_eq_false (by omega), Bool.false_and]
        have hlt := lt_of_lt_of_le hlow (addrLo_le_alignBits h (pmePage_ok t lvl e))
        exact (getLsbD_of_two_pow_dvd halign hlt).symm
      · by_cases hhi : i ≤ addrHi t
        · rw [decide_eq_true ⟨Nat.le_of_not_lt hlow, hhi⟩, Bool.true_and]
        · rw [hhigh i (by omega), Bool.and_false]
  have hrange : a.toNat < 2 ^ (addrHi t + 1) ↔
      ¬ (t = .norm ∧ lvl = 2 ∧ pmePage t lvl e = true ∧ 2 ^ 32 ≤ a.toNat) := by
    rw [addrBits_eq h] at hfit
    by_cases h4m : t = .norm ∧ lvl = 2 ∧ pmePage t lvl e = true
    · obtain ⟨rfl, rfl, hpage⟩ := h4m
      simp only [hpage, true_and, not_le]
      exact Iff.rfl
    · rw [if_neg h4m] at hfit
      exact iff_of_true hfit fun hc => h4m ⟨hc.1, hc.2.1, hc.2.2.1⟩
  have hkept := HptSetter.kept (s := .address a) h hw
  rw [← hrange, ← hread']
  constructor
  · rintro ⟨e₁, hw₁, hread₁, -⟩
    rw [show hptPmeSetAddress t lvl e a = some e' from hw, Option.some.injEq] at hw₁
    rwa [hw₁]
  · intro hr
    refine ⟨e', hw, hr, hkept.1 (show HptField.address ≠ .prot by decide),
      hkept.2.1 (show HptField.address ≠ .user by decide), hkept.2.2.2,
      fun i hi => hputs.of_ne ?_⟩
    simp only [addrField, Bool.or_eq_false_iff] at hi
    exact hi.1

/-- A 4 MiB page can hold an address below 4 GiB. -/
theorem pme_address_codec_4m : AddressRoundTrip .norm 2 0x83#64 0xc0000000#64 :=
  (pme_address_codec_iff (by decide) 0x83#64 0xc0000000#64 (by decide) (by decide)
    (by decide)).mpr (by decide)

/-- A 4 MiB page at 4 GiB becomes one at 0. -/
theorem pme_address_codec_pse36 :
    ¬ AddressRoundTrip .norm 2 0x83#64 0x100000000#64 ∧
    hptPmeSetAddress .norm 2 0x83#64 0x100000000#64 = some 0x83#64 ∧
    hptPmeGetAddress .norm 2 0x83#64 = some 0#64 := by
  refine ⟨?_, by decide, by decide⟩
  rintro ⟨e', hw, hread, -⟩
  cases hw
  revert hread
  decide

/-! ## The software bits -/

/-- Writing `v` to the software bits `hi..lo` gives an entry they read back from, with the other
software bits and what the hardware defines as in `e`. -/
def UnusedRoundTrip (t : HptType) (lvl : Nat) (e : BitVec 64) (hi lo : Int) (v : BitVec 64) :
    Prop :=
  ∃ e', hptPmeSetunused t lvl e hi lo v = some e' ∧ hptPmeGetunused t lvl e' hi lo = some v ∧
    (∀ i : Nat, 9 ≤ i → i ≤ 11 → ¬ (lo + 9 ≤ (i : Int) ∧ (i : Int) ≤ hi + 9) →
      e'.getLsbD i = e.getLsbD i) ∧
    Kept (hptPmeGetAddress t lvl) e e' ∧ Kept (hptPmeGetprot t lvl) e e' ∧
    Kept (hptPmeGetuser t lvl) e e' ∧ Kept (hptPmeIsPage t lvl) e e' ∧
    hptPmeGetPmt t lvl e' = hptPmeGetPmt t lvl e

/-- What is read back after a write: bits `hi..lo` of the value, moved down to bit 0. -/
theorem hptPmeSetunused_read (h : LvlOk t lvl) {hi lo : Int} {v : BitVec 64} (hlt : lo < hi)
    (h₀ : 0 ≤ lo) (h₂ : hi ≤ 2) (hw : hptPmeSetunused t lvl e hi lo v = some e') :
    hptPmeGetunused t lvl e' hi lo = some (br64GetHl v hi.toNat lo.toNat) := by
  have hputs := (HptSetter.of_write h (s := .unused hi lo v) hw).2
  have hget : br64GetHl e' ((min 2 hi).toNat + 9) ((max 0 lo).toNat + 9) =
      br64GetHl v hi.toNat lo.toNat := by
    apply BitVec.eq_of_getLsbD_eq
    intro i _
    rw [getLsbD_br64GetHl _ (by omega), getLsbD_br64GetHl _ (by omega)]
    by_cases hin : lo.toNat + i ≤ hi.toNat
    · have hpos : (max 0 lo).toNat + 9 + i = 9 + (lo.toNat + i) := by omega
      have hmask : (HptSetter.unused hi lo v).mask t lvl (pmePage t lvl e) (9 + (lo.toNat + i)) =
          true := by
        simp only [HptSetter.mask, Bool.and_eq_true, decide_eq_true_eq]
        omega
      have hle : 9 + (lo.toNat + i) ≤ (min 2 hi).toNat + 9 := by omega
      rw [hpos, hputs.of_mem (by omega) hmask, HptSetter.bit, Nat.add_sub_cancel_left,
        decide_eq_true hin, decide_eq_true hle]
    · have hgt : ¬ (max 0 lo).toNat + 9 + i ≤ (min 2 hi).toNat + 9 := by omega
      rw [decide_eq_false hin, decide_eq_false hgt, Bool.false_and, Bool.false_and]
  simp only [hptPmeGetunused, hlt, h₂, decide_true, cAssert_true, h.type_ne, if_false,
    show ¬ hi < 0 by omega, Option.bind_eq_bind, Option.bind_some, Option.pure_def, hget]

/-- The setter takes bits `hi..lo` of its argument and the getter moves them down to bit 0, so a
value comes back exactly through a range that starts at bit 0, and 0 through any. -/
theorem pme_unused_codec_iff (h : LvlOk t lvl) (e v : BitVec 64) {hi lo : Int} (hlt : lo < hi)
    (h₀ : 0 ≤ lo) (h₂ : hi ≤ 2) (hv : v.toNat < 2 ^ (hi - lo + 1).toNat) :
    UnusedRoundTrip t lvl e hi lo v ↔ lo = 0 ∨ v = 0 := by
  have hval : br64GetHl v hi.toNat lo.toNat = v ↔ lo = 0 ∨ v = 0 := by
    have hnum := toNat_br64GetHl v (show hi.toNat < 64 by omega)
      (show lo.toNat ≤ hi.toNat by omega)
    have hexp : hi.toNat - lo.toNat + 1 = (hi - lo + 1).toNat := by omega
    rw [← BitVec.toNat_inj, hnum, hexp, Nat.mod_eq_of_lt (lt_of_le_of_lt (Nat.div_le_self ..) hv),
      ← BitVec.toNat_inj, show (0 : BitVec 64).toNat = 0 from rfl]
    constructor
    · intro hdiv
      by_contra hne
      push Not at hne
      -- half of a positive number is less than it
      have hone : 1 < 2 ^ lo.toNat := Nat.one_lt_two_pow (by omega)
      have := Nat.div_lt_self (Nat.pos_of_ne_zero hne.2) hone
      omega
    · rintro (rfl | hzero)
      · simp
      · simp [hzero]
  constructor
  · rintro ⟨e', hw, hread, -⟩
    rw [hptPmeSetunused_read h hlt h₀ h₂ hw, Option.some.injEq] at hread
    exact hval.mp hread
  · intro hok
    obtain ⟨e', hw, hputs⟩ := HptSetter.write_of_accepts (e := e) h (s := .unused hi lo v)
      (by simp only [HptSetter.accepts, Bool.and_eq_true, decide_eq_true_eq]; omega)
    obtain ⟨hprot, huser, haddr, hpage⟩ := HptSetter.kept h hw
    have hpmt := HptSetter.read_eq h hw (g := .pmt)
      (show some HptField.pmt ≠ some .unused by decide)
    refine ⟨e', hw, ?_, ?_, haddr (show HptField.unused ≠ .address by decide),
      hprot (show HptField.unused ≠ .prot by decide),
      huser (show HptField.unused ≠ .user by decide), hpage, hpmt⟩
    · rw [hptPmeSetunused_read h hlt h₀ h₂ hw, hval.mpr hok]
    · intro i _ _ hout
      apply hputs.of_ne
      rw [HptSetter.mask, ← Bool.not_eq_true, Bool.and_eq_true, decide_eq_true_eq,
        decide_eq_true_eq]
      omega

/-- Software bits 1:0 hold a 3. -/
theorem pme_unused_codec_low : UnusedRoundTrip .ept 1 0x1007#64 1 0 3#64 :=
  (pme_unused_codec_iff (by decide) 0x1007#64 3#64 (by decide) (by decide) (by decide)
    (by decide)).mpr (by decide)

/-- A 2 written to software bits 2:1 is read back as 1. -/
theorem pme_unused_codec_shifted :
    ¬ UnusedRoundTrip .ept 1 0x1007#64 2 1 2#64 ∧
    hptPmeSetunused .ept 1 0x1007#64 2 1 2#64 = some 0x1407#64 ∧
    hptPmeGetunused .ept 1 0x1407#64 2 1 = some 1#64 := by
  refine ⟨?_, by decide, by decide⟩
  rintro ⟨e', hw, hread, -⟩
  cases hw
  revert hread
  decide

end Shv
