/-
# `Shv.EptTlb` — EPT switching and cached translations

Guests run on several CPUs, each under an EPT of its own.  While a CPU is in the
guest it may cache what the current EPT says of any address; entering and leaving
the guest does not drop what is cached.  `shv_guest_switch_ept_vmexit_handler`
edits tables whose translations may be cached, and executes `INVEPT` *before* the
edits, or not at all when it builds a root for the first time.

`no_stale_ept_mapping` says that all the same no guest access uses a translation
other than that of the tables as the last `shv_build_ept` of its CPU left them.
The invariant is `Coherent`: whatever a CPU has cached belongs to a root of its own
that has been built, and agrees with that root's tables as they are now.  It
survives the handler because the CPU is out of the guest from `INVEPT` to the end
of the edits, and because no other CPU's entries speak of the edited root.

What is assumed of the CPU is what `Step` says: translations are cached only in the
guest and under the current EPTP, and `INVEPT` drops all those of its operand.
Entries may disappear at any time.
-/
import Shv.EptRun
import Shv.Lib.Trace
import Mathlib.Logic.Function.Basic

namespace Shv

open ByteMem

/-! ## The machine -/

def shvUseEpt : BitVec 64 := 0x4#64

/-- `g_shv_opt & SHV_USE_EPT`. -/
def UseEpt (shvOpt : BitVec 64) : Prop := shvOpt &&& shvUseEpt ≠ 0

instance (shvOpt : BitVec 64) : Decidable (UseEpt shvOpt) := inferInstanceAs (Decidable (_ ≠ _))

/-- The walker under an EPTP: the tables start at bits 51:12. -/
def eptpCtx (img : Image) (eptp : BitVec 64) : HptwCtx where
  gzp m _ _ := some (0, m)
  pa2ptr spa sz _ _ := (spa2hva img.arch spa, sz)
  ptr2pa := hva2spa
  rootPa := eptp &&& ~~~0xfff#64
  t := .ept

/-- What the EPT at `eptp` says of `gpa` now. -/
def eptWalk (img : Image) (eptp : BitVec 64) (m : ByteMem) (gpa : BitVec 64) :
    Halting (Option Mapping) :=
  eptTranslate (eptpCtx img eptp) m gpa

/-- A cached translation, tagged with the EPTP it was made under. -/
structure TlbEntry where
  eptp : BitVec 64
  gpa : BitVec 64
  mapping : Option Mapping

/-- A CPU: whether its VMCS is set up, whether it is in the guest, `vcpu->ept_num`, the EPTP in
the VMCS, and what it has cached.  `lastBuild` is no part of the machine: it is the memory as
the last `shv_build_ept` of this CPU left it. -/
structure Cpu where
  started : Bool
  inGuest : Bool
  eptNum : Nat
  eptp : BitVec 64
  tlb : List TlbEntry
  lastBuild : ByteMem

structure Machine where
  mem : ByteMem
  cpu : Fin maxVcpuEntries → Cpu

/-- The `VCPU` structures; `vcpu->idx` tells the CPUs apart. -/
structure Vcpus where
  vcpu : Fin maxVcpuEntries → Vcpu
  idx : ∀ i, (vcpu i).idx = i

/-- Single-context `INVEPT`, if it is executed. -/
def invept (operand : Option (BitVec 64)) (tlb : List TlbEntry) : List TlbEntry :=
  match operand with
  | none => tlb
  | some eptp => tlb.filter fun e => e.eptp ≠ eptp

/-- `eptp = shv_build_ept(vcpu, n)` and `__vmx_vmwrite64(VMCS_control_EPT_pointer, eptp | 0x1e)`. -/
def installEpt (img : Image) (shvOpt : BitVec 64) (vcpu : Vcpu) (n : Nat) (m : ByteMem)
    (cpu : Cpu) : Halting (ByteMem × Cpu) := do
  let b ← shvBuildEpt img shvOpt vcpu n m
  return (b.mem, { cpu with eptNum := n, eptp := eptpOf b.rootPa,
                            tlb := invept b.invept cpu.tlb, lastBuild := b.mem })

/-- `shv_guest_switch_ept_vmexit_handler`, from the check of its prerequisite on. -/
def shvGuestSwitchEptVmexitHandler (img : Image) (shvOpt : BitVec 64) (vcpu : Vcpu)
    (m : ByteMem) (cpu : Cpu) : Halting (ByteMem × Cpu) := do
  cAssert (UseEpt shvOpt)
  installEpt img shvOpt vcpu ((cpu.eptNum + 1) % (shvEptCount <<< 4)) m cpu

inductive Label where
  /-- `shv_vmx_vmcs_init`, the `SHV_USE_EPT` part -/
  | init (i : Fin maxVcpuEntries)
  | entry (i : Fin maxVcpuEntries)
  | exit (i : Fin maxVcpuEntries)
  /-- a guest access to `gpa`, and the translation it was made with -/
  | access (i : Fin maxVcpuEntries) (gpa : BitVec 64) (result : Option Mapping)
  | switch (i : Fin maxVcpuEntries)
  /-- a write to memory that holds no EPT -/
  | store

def Machine.setCpu (σ : Machine) (i : Fin maxVcpuEntries) (c : Cpu) : Machine :=
  { σ with cpu := Function.update σ.cpu i c }

inductive Step (img : Image) (shvOpt : BitVec 64) (cpus : Vcpus) :
    Machine → Label → Machine → Prop
  | init {σ : Machine} {i : Fin maxVcpuEntries} {m : ByteMem} {c : Cpu} :
      (σ.cpu i).started = false → UseEpt shvOpt →
      installEpt img shvOpt (cpus.vcpu i) 0 σ.mem (σ.cpu i) = some (m, c) →
      Step img shvOpt cpus σ (.init i)
        (Machine.setCpu { σ with mem := m } i { c with started := true })
  | entry {σ : Machine} {i : Fin maxVcpuEntries} :
      (σ.cpu i).started = true → (σ.cpu i).inGuest = false →
      Step img shvOpt cpus σ (.entry i) (σ.setCpu i { σ.cpu i with inGuest := true })
  | exit {σ : Machine} {i : Fin maxVcpuEntries} :
      (σ.cpu i).inGuest = true →
      Step img shvOpt cpus σ (.exit i) (σ.setCpu i { σ.cpu i with inGuest := false })
  | access {σ : Machine} {i : Fin maxVcpuEntries} {gpa : BitVec 64} {result : Option Mapping}
      {tlb : List TlbEntry} :
      (σ.cpu i).inGuest = true →
      -- the access hits a cached translation, or walks the tables
      { eptp := (σ.cpu i).eptp, gpa := gpa, mapping := result } ∈ (σ.cpu i).tlb ∨
        eptWalk img (σ.cpu i).eptp σ.mem gpa = some result →
      -- translations of any addresses may be cached, and others forgotten
      (∀ e ∈ tlb, e ∈ (σ.cpu i).tlb ∨
        (e.eptp = (σ.cpu i).eptp ∧ eptWalk img e.eptp σ.mem e.gpa = some e.mapping)) →
      Step img shvOpt cpus σ (.access i gpa result) (σ.setCpu i { σ.cpu i with tlb := tlb })
  | switch {σ : Machine} {i : Fin maxVcpuEntries} {m : ByteMem} {c : Cpu} :
      (σ.cpu i).started = true → (σ.cpu i).inGuest = false →
      shvGuestSwitchEptVmexitHandler img shvOpt (cpus.vcpu i) σ.mem (σ.cpu i) = some (m, c) →
      Step img shvOpt cpus σ (.switch i) (Machine.setCpu { σ with mem := m } i c)
  | store {σ : Machine} {m : ByteMem} :
      (∀ s : Slot, m (img.valid s) = σ.mem (img.valid s)) →
      (∀ (s : Slot) (x : Nat), img.Own s x → m x = σ.mem x) →
      Step img shvOpt cpus σ .store { σ with mem := m }

/-- A machine after power-on: nothing set up, nothing cached. -/
def Machine.start (m : ByteMem) : Machine where
  mem := m
  cpu _ := { started := false, inGuest := false, eptNum := 0, eptp := 0, tlb := [], lastBuild := m }

/-! ## Coherence -/

section Coherence

variable {img : Image} {shvOpt : BitVec 64} {cpus : Vcpus} {σ σ' : Machine} {s : Slot}
  {i : Fin maxVcpuEntries} {first : Slot → Option Vcpu} {m : ByteMem} {gpa : BitVec 64}

/-- The EPTP of a slot. -/
def Image.eptp (img : Image) (s : Slot) : BitVec 64 := eptpOf (hva2spa (img.root s))

theorem Image.toNat_root (img : Image) (s : Slot) :
    (hva2spa (img.root s)).toNat = img.root s := by
  have hb := img.root_bounds s
  exact toNat_ofNat_lt (by omega)

theorem Image.eptp_root (img : Image) (s : Slot) :
    img.eptp s &&& ~~~0xfff#64 = hva2spa (img.root s) := by
  have hb := img.root_bounds s
  have hm := img.root_mod s
  have hto := img.toNat_root s
  have hlow : ∀ j, j < 12 → (hva2spa (img.root s)).getLsbD j = false := fun j hj =>
    representable_of_toNat (t := .ept) (by rw [hto]; exact hm)
      (by rw [hto]; show img.root s < 2 ^ 52; omega) j (Or.inl hj)
  have hbits : ∀ j, 12 ≤ j → (0x1e#64).getLsbD j = false :=
    (lt_two_pow_iff_getLsbD _).mp (by decide)
  have hones : ∀ j, (0xfff#64).getLsbD j = decide (j < 12) := by
    intro j
    rw [show (0xfff#64) = BitVec.setWidth 64 (BitVec.allOnes 12) from rfl,
      BitVec.getLsbD_setWidth, BitVec.getLsbD_allOnes]
    by_cases hj : j < 12
    · rw [decide_eq_true hj, Bool.and_true, decide_eq_true (by omega)]
    · rw [decide_eq_false hj, Bool.and_false]
  apply BitVec.eq_of_getLsbD_eq
  intro j hj
  rw [Image.eptp, eptpOf, BitVec.getLsbD_and, BitVec.getLsbD_or, BitVec.getLsbD_not, hones,
    decide_eq_true hj, Bool.true_and]
  by_cases h12 : j < 12
  · rw [decide_eq_true h12, Bool.not_true, Bool.and_false, hlow j h12]
  · rw [decide_eq_false h12, hbits j (by omega), Bool.or_false, Bool.not_false, Bool.and_true]

theorem Image.eptp_inj {s' : Slot} (h : img.eptp s = img.eptp s') : s = s' := by
  have hspa : hva2spa (img.root s) = hva2spa (img.root s') := by
    rw [← Image.eptp_root, ← Image.eptp_root, h]
  have hroot := congrArg BitVec.toNat hspa
  rw [img.toNat_root, img.toNat_root, Image.root_eq, Image.root_eq] at hroot
  have h₁ : s.r < 2 := s.r_lt
  have h₂ : s'.r < 2 := s'.r_lt
  exact Slot.ext' (by omega) (by omega)

theorem PoolInv.walk (h : PoolInv img s m) (gpa : BitVec 64) :
    eptWalk img (img.eptp s) m gpa = some ((img.ctx s).xlate m gpa) := by
  have hctx : eptpCtx img (img.eptp s) =
      { img.ctx s with gzp := fun m _ _ => some (0, m) } := by
    rw [eptpCtx, Image.eptp_root]
    rfl
  have W : HptwCtx.Walkable { img.ctx s with gzp := fun m _ _ => some (0, m) } := by
    obtain ⟨sized, valid, root⟩ := img.walkable s
    exact ⟨sized, valid, root⟩
  rw [eptWalk, hctx]
  exact eptTranslate_eq_xlate W rfl h.prot h.child_ne_none

theorem shvGuestSwitchEptVmexitHandler_eq_some {vcpu : Vcpu} {cpu : Cpu} {x : ByteMem × Cpu} :
    shvGuestSwitchEptVmexitHandler img shvOpt vcpu m cpu = some x ↔ UseEpt shvOpt ∧
      installEpt img shvOpt vcpu ((cpu.eptNum + 1) % (shvEptCount <<< 4)) m cpu = some x := by
  rw [shvGuestSwitchEptVmexitHandler]
  by_cases h : UseEpt shvOpt
  · simp [h, cAssert]
  · simp [h, cAssert]

/-- The invariant.  `first` tells which roots have been built, and by whom first. -/
structure Coherent (img : Image) (shvOpt : BitVec 64) (σ : Machine)
    (first : Slot → Option Vcpu) : Prop where
  slots : ∀ s, SlotOk img shvOpt s σ.mem (first s)
  guest : ∀ i, (σ.cpu i).inGuest = true → (σ.cpu i).started = true
  /-- a CPU runs on a root of its own, which is as its last build left it -/
  current : ∀ i, (σ.cpu i).started = true → ∃ s : Slot, s.idx = i ∧ (first s).isSome = true ∧
    (σ.cpu i).eptp = img.eptp s ∧ PoolInv img s (σ.cpu i).lastBuild ∧
    ∀ gpa, (img.ctx s).xlate (σ.cpu i).lastBuild gpa = (img.ctx s).xlate σ.mem gpa
  /-- what a CPU has cached agrees with the tables of a root of its own -/
  tlb : ∀ i, ∀ e ∈ (σ.cpu i).tlb, ∃ s : Slot, s.idx = i ∧ (first s).isSome = true ∧
    e.eptp = img.eptp s ∧ (img.ctx s).xlate σ.mem e.gpa = e.mapping

theorem coherent_start (hz : img.ZeroBss m) :
    Coherent img shvOpt (Machine.start m) fun _ => none where
  slots s := hz.slotOk s
  guest i h := by cases h
  current i h := by cases h
  tlb i e h := by cases h

theorem setCpu_self (σ : Machine) (i : Fin maxVcpuEntries) (c : Cpu) :
    (σ.setCpu i c).cpu i = c := Function.update_self ..

theorem setCpu_of_ne (σ : Machine) {i j : Fin maxVcpuEntries} (c : Cpu) (h : j ≠ i) :
    (σ.setCpu i c).cpu j = σ.cpu j := Function.update_of_ne h ..

/-- A step of CPU `i` that leaves memory alone only has to be checked on that CPU. -/
theorem Coherent.setCpu {c : Cpu} (h : Coherent img shvOpt σ first)
    (hstart : c.started = (σ.cpu i).started) (heptp : c.eptp = (σ.cpu i).eptp)
    (hlast : c.lastBuild = (σ.cpu i).lastBuild)
    (hguest : c.inGuest = true → (σ.cpu i).started = true)
    (htlb : ∀ e ∈ c.tlb, ∃ s : Slot, s.idx = i ∧ (first s).isSome = true ∧
      e.eptp = img.eptp s ∧ (img.ctx s).xlate σ.mem e.gpa = e.mapping) :
    Coherent img shvOpt (σ.setCpu i c) first := by
  refine ⟨h.slots, fun j hj => ?_, fun j hj => ?_, fun j e he => ?_⟩ <;> by_cases hji : j = i
  · subst hji
    rw [setCpu_self] at hj ⊢
    exact hstart.trans (hguest hj)
  · rw [setCpu_of_ne _ _ hji] at hj ⊢
    exact h.guest j hj
  · subst hji
    rw [setCpu_self] at hj ⊢
    rw [heptp, hlast]
    exact h.current j (hstart ▸ hj)
  · rw [setCpu_of_ne _ _ hji] at hj ⊢
    exact h.current j hj
  · subst hji
    rw [setCpu_self] at he
    exact htlb e he
  · rw [setCpu_of_ne _ _ hji] at he
    exact h.tlb j e he

/-- **Building and installing an EPT keeps coherence**, although `INVEPT` comes before the edits
or not at all. -/
theorem Coherent.install {n : Nat} {c : Cpu} (h : Coherent img shvOpt σ first)
    (hn : n < shvEptCount <<< 4)
    (hrun : installEpt img shvOpt (cpus.vcpu i) n σ.mem (σ.cpu i) = some (m, c)) :
    c.started = (σ.cpu i).started ∧ ∃ first', Coherent img shvOpt
      (Machine.setCpu { σ with mem := m } i { c with started := true }) first' := by
  have hok : CallOk (cpus.vcpu i, n) := ⟨by rw [cpus.idx]; exact i.isLt, hn⟩
  have hidx : (slotOf (cpus.vcpu i, n) hok).idx = i := cpus.idx i
  simp only [installEpt, Option.bind_eq_bind] at hrun
  obtain ⟨b, hb, hrun⟩ := Option.bind_eq_some_iff.mp hrun
  simp only [Option.pure_def, Option.some.injEq, Prod.mk.injEq] at hrun
  obtain ⟨rfl, rfl⟩ := hrun
  refine ⟨rfl, fun s => if s = slotOf (cpus.vcpu i, n) hok then
    some ((first s).getD (cpus.vcpu i)) else first s, ?_⟩
  generalize hs₀ : slotOf (cpus.vcpu i, n) hok = s₀ at hidx
  have hcall : CallFor s₀ (cpus.vcpu i) n := hs₀ ▸ callFor_slotOf hok
  obtain ⟨D, hinv⟩ := shvBuildEpt_done hcall (h.slots s₀) hb
  have hkeep : ∀ s, (first s).isSome = true →
      (if s = s₀ then some ((first s).getD (cpus.vcpu i)) else first s).isSome = true := by
    intro s hs
    split
    · rfl
    · exact hs
  -- the translations of the other slots are those before the call
  have hother : ∀ s, s ≠ s₀ → ∀ gpa, (img.ctx s).xlate b.mem gpa = (img.ctx s).xlate σ.mem gpa :=
    fun s hne => (D.other hne (h.slots s)).2.1
  have hslot : ∀ {j : Fin _} {s : Slot}, j ≠ i → s.idx = j → s ≠ s₀ := by
    rintro j s hji hsidx rfl
    exact hji (Fin.ext (hsidx.symm.trans hidx))
  refine ⟨fun s => ?_, fun j hj => ?_, fun j hj => ?_, fun j e he => ?_⟩
  · by_cases hs : s = s₀
    · subst hs
      rw [if_pos rfl]
      exact D.slot
    · rw [if_neg hs]
      exact (D.other hs (h.slots s)).1
  · by_cases hji : j = i
    · subst hji
      rw [setCpu_self]
    · rw [setCpu_of_ne _ _ hji] at hj ⊢
      exact h.guest j hj
  · by_cases hji : j = i
    · subst hji
      rw [setCpu_self]
      refine ⟨s₀, hidx, by rw [if_pos rfl]; rfl, ?_, D.slot.poolInv, fun _ => rfl⟩
      show eptpOf b.rootPa = img.eptp s₀
      rw [D.rootPa]
      rfl
    · rw [setCpu_of_ne _ _ hji] at hj ⊢
      obtain ⟨s, hsidx, hsome, heptp, hpool, hx⟩ := h.current j hj
      have hne := hslot hji hsidx
      exact ⟨s, hsidx, hkeep s hsome, heptp, hpool,
        fun gpa => (hx gpa).trans (hother s hne gpa).symm⟩
  · by_cases hji : j = i
    · subst hji
      rw [setCpu_self] at he
      have he' : e ∈ invept b.invept (σ.cpu j).tlb := he
      -- an entry that survives `INVEPT` is not about the edited root
      have hin : e ∈ (σ.cpu j).tlb := by
        cases hb' : b.invept with
        | none => rw [hb'] at he'; exact he'
        | some eptp => rw [hb'] at he'; exact (List.mem_filter.mp he').1
      obtain ⟨s, hsidx, hsome, heptp, hx⟩ := h.tlb j e hin
      have hne : s ≠ s₀ := by
        rintro rfl
        rw [hsome, if_pos rfl] at hinv
        rw [hinv] at he'
        have hdrop := (List.mem_filter.mp he').2
        rw [heptp] at hdrop
        simp [Image.eptp] at hdrop
      exact ⟨s, hsidx, hkeep s hsome, heptp, (hother s hne e.gpa).trans hx⟩
    · rw [setCpu_of_ne _ _ hji] at he
      obtain ⟨s, hsidx, hsome, heptp, hx⟩ := h.tlb j e he
      have hne := hslot hji hsidx
      exact ⟨s, hsidx, hkeep s hsome, heptp, (hother s hne e.gpa).trans hx⟩

theorem Coherent.walk (h : Coherent img shvOpt σ first) (hi : (σ.cpu i).started = true) :
    ∃ s : Slot, s.idx = i ∧ (first s).isSome = true ∧ (σ.cpu i).eptp = img.eptp s ∧
      (∀ gpa, eptWalk img (σ.cpu i).eptp σ.mem gpa = some ((img.ctx s).xlate σ.mem gpa)) ∧
      ∀ gpa, eptWalk img (σ.cpu i).eptp (σ.cpu i).lastBuild gpa =
        some ((img.ctx s).xlate σ.mem gpa) := by
  obtain ⟨s, hsidx, hsome, heptp, hpool, hx⟩ := h.current i hi
  refine ⟨s, hsidx, hsome, heptp, fun gpa => ?_, fun gpa => ?_⟩
  · rw [heptp, (h.slots s).poolInv.walk gpa]
  · rw [heptp, hpool.walk gpa, hx gpa]

theorem Coherent.step {l : Label} (h : ∃ first, Coherent img shvOpt σ first)
    (hs : Step img shvOpt cpus σ l σ') : ∃ first, Coherent img shvOpt σ' first := by
  obtain ⟨first, h⟩ := h
  cases hs with
  | init _ _ hrun => exact (h.install (by decide) hrun).2
  | entry hst _ => exact ⟨first, h.setCpu rfl rfl rfl (fun _ => hst) (h.tlb _)⟩
  | exit _ => exact ⟨first, h.setCpu rfl rfl rfl (fun hg => by cases hg) (h.tlb _)⟩
  | @access i _ _ tlb hg _ htlb =>
      refine ⟨first, h.setCpu rfl rfl rfl (fun _ => h.guest _ hg) fun e he => ?_⟩
      rcases htlb e he with hold | ⟨heptp, hwalk⟩
      · exact h.tlb _ e hold
      · obtain ⟨s, hsidx, hsome, hs, hx, -⟩ := h.walk (h.guest _ hg)
        rw [heptp, hx e.gpa] at hwalk
        exact ⟨s, hsidx, hsome, heptp.trans hs, Option.some.inj hwalk⟩
  | @switch i m c hst _ hrun =>
      obtain ⟨-, hrun⟩ := shvGuestSwitchEptVmexitHandler_eq_some.mp hrun
      obtain ⟨hstart, first', h'⟩ := h.install (Nat.mod_lt _ (by decide)) hrun
      refine ⟨first', ?_⟩
      have hc : { c with started := true } = c := by
        rw [hst] at hstart
        rw [← hstart]
      rwa [hc] at h'
  | store hv ho =>
      have hof := fun s => (h.slots s).of_own (ho s) (hv s)
      refine ⟨first, fun s => (hof s).1, h.guest, fun j hj => ?_, fun j e he => ?_⟩
      · obtain ⟨s, hsidx, hsome, heptp, hpool, hx⟩ := h.current j hj
        exact ⟨s, hsidx, hsome, heptp, hpool, fun gpa => (hx gpa).trans ((hof s).2 gpa).symm⟩
      · obtain ⟨s, hsidx, hsome, heptp, hx⟩ := h.tlb j e he
        exact ⟨s, hsidx, hsome, heptp, ((hof s).2 e.gpa).trans hx⟩

/-- **No stale EPT mapping is ever used.**  In every run, a guest access is made with the
translation that the tables of the current EPTP gave when the last `shv_build_ept` of its CPU
had returned, and that they still give. -/
theorem no_stale_ept_mapping (hz : img.ZeroBss m) {ls : List Label} {result : Option Mapping}
    (hrun : Trace (Step img shvOpt cpus) (Machine.start m) ls σ)
    (hs : Step img shvOpt cpus σ (.access i gpa result) σ') :
    eptWalk img (σ.cpu i).eptp (σ.cpu i).lastBuild gpa = some result ∧
      eptWalk img (σ.cpu i).eptp σ.mem gpa = some result := by
  obtain ⟨first, h⟩ := hrun.invariant (I := fun σ => ∃ first, Coherent img shvOpt σ first)
    Coherent.step ⟨_, coherent_start hz⟩
  cases hs with
  | access hg hres _ =>
      obtain ⟨s, -, -, heptp, hx, hlast⟩ := h.walk (h.guest _ hg)
      have hresult : (img.ctx s).xlate σ.mem gpa = result := by
        rcases hres with hhit | hwalk
        · obtain ⟨s', -, -, heptp', hx'⟩ := h.tlb i _ hhit
          obtain rfl : s = s' := Image.eptp_inj (heptp.symm.trans heptp')
          exact hx'
        · exact Option.some.inj ((hx gpa).symm.trans hwalk)
      rw [hlast gpa, hx gpa, hresult]
      exact ⟨rfl, rfl⟩

end Coherence

def sampleVcpus : Vcpus where
  vcpu i := { sampleVcpu with idx := i }
  idx _ := rfl

def bsp : Fin maxVcpuEntries := ⟨0, Nat.zero_lt_succ _⟩

/-- `SHV_USE_EPT | SHV_USE_SWITCH_EPT`. -/
def sampleOpt : BitVec 64 := 0xc#64

/-- The first two builds of a run, and what they make of `0x12340000`. -/
theorem sampleBuilds :
    ∃ b₁ b₂, shvBuildEpt sampleImage sampleOpt sampleVcpu 0 (fun _ => 0) = some b₁ ∧
      shvBuildEpt sampleImage sampleOpt sampleVcpu 1 b₁.mem = some b₂ ∧
      b₂.rootPa = b₁.rootPa ∧
      eptWalk sampleImage (eptpOf b₁.rootPa) b₁.mem 0x12340000#64 = some none ∧
      eptWalk sampleImage (eptpOf b₁.rootPa) b₂.mem 0x12340000#64 =
        some (some { spa := 0x117000#64, prots := 7#64, pmt := 6#64, lvl := 1 }) := by
  obtain ⟨m₂, hrun₂⟩ := runBuilds_sample sampleOpt [0, 1] (by decide)
  rw [show [0, 1].map (fun n => (sampleVcpu, n)) = ([] ++ [(sampleVcpu, 0)]) ++ [(sampleVcpu, 1)]
    from rfl, runBuilds_concat, runBuilds_concat] at hrun₂
  obtain ⟨m₁, hrun₁, hcall₂⟩ := Option.bind_eq_some_iff.mp hrun₂
  obtain ⟨m₀, hrun₀, hcall₁⟩ := Option.bind_eq_some_iff.mp hrun₁
  obtain rfl : (fun _ => 0) = m₀ := Option.some.inj hrun₀
  obtain ⟨b₁, hb₁, rfl⟩ := Option.map_eq_some_iff.mp hcall₁
  obtain ⟨b₂, hb₂, -⟩ := Option.map_eq_some_iff.mp hcall₂
  have hz : sampleImage.ZeroBss fun _ => 0 := fun _ _ _ _ => rfl
  let s : Slot := ⟨0, 0, by decide, by decide⟩
  obtain ⟨D₁, -⟩ := shvBuildEpt_done (s := s) ⟨rfl, rfl⟩ (hz.slotOk s) hb₁
  obtain ⟨D₂, -⟩ := shvBuildEpt_done (s := s) ⟨rfl, rfl⟩ D₁.slot hb₂
  refine ⟨b₁, b₂, hb₁, hb₂, ?_, ?_, ?_⟩
  · rw [D₁.rootPa, D₂.rootPa]
  · rw [D₁.rootPa]
    exact (D₁.slot.poolInv.walk _).trans
      (congrArg some ((D₁.xlate _ (by decide)).trans (by decide)))
  · rw [D₁.rootPa]
    exact (D₂.slot.poolInv.walk _).trans
      (congrArg some ((D₂.xlate _ (by decide)).trans (by decide)))

/-- A CPU finds `0x12340000` not present and caches that, switches its EPT, and finds the page
at the target of `ept_num == 1`. -/
theorem no_stale_ept_mapping_sample :
    ∃ σ σ', Trace (Step sampleImage sampleOpt sampleVcpus) (Machine.start fun _ => 0)
        [.init bsp, .entry bsp, .access bsp 0x12340000#64 none, .exit bsp, .switch bsp,
          .entry bsp] σ ∧
      Step sampleImage sampleOpt sampleVcpus σ (.access bsp 0x12340000#64
        (some { spa := 0x117000#64, prots := 7#64, pmt := 6#64, lvl := 1 })) σ' ∧
      eptWalk sampleImage (σ.cpu bsp).eptp (σ.cpu bsp).lastBuild 0x12340000#64 =
        some (some { spa := 0x117000#64, prots := 7#64, pmt := 6#64, lvl := 1 }) := by
  obtain ⟨b₁, b₂, hb₁, hb₂, hroot, hwalk₁, hwalk₂⟩ := sampleBuilds
  have hinit : ∀ cpu, installEpt sampleImage sampleOpt (sampleVcpus.vcpu bsp) 0 (fun _ => 0) cpu =
      some (b₁.mem, { cpu with eptNum := 0, eptp := eptpOf b₁.rootPa,
                               tlb := invept b₁.invept cpu.tlb, lastBuild := b₁.mem }) :=
    fun cpu => by rw [installEpt, show sampleVcpus.vcpu bsp = sampleVcpu from rfl, hb₁]; rfl
  have hswitch : ∀ cpu, installEpt sampleImage sampleOpt (sampleVcpus.vcpu bsp) 1 b₁.mem cpu =
      some (b₂.mem, { cpu with eptNum := 1, eptp := eptpOf b₂.rootPa,
                               tlb := invept b₂.invept cpu.tlb, lastBuild := b₂.mem }) :=
    fun cpu => by rw [installEpt, show sampleVcpus.vcpu bsp = sampleVcpu from rfl, hb₂]; rfl
  have hstart : Step sampleImage sampleOpt sampleVcpus (Machine.start fun _ => 0) (.init bsp) _ :=
    .init rfl (by decide) (hinit _)
  have t₁ := Trace.nil.snoc hstart
  have t₂ := t₁.snoc (.entry (i := bsp) rfl rfl)
  have t₃ := t₂.snoc (@Step.access _ _ _ _ bsp 0x12340000#64 none
    [{ eptp := eptpOf b₁.rootPa, gpa := 0x12340000#64, mapping := none }]
    rfl (.inr hwalk₁) fun e he => by
      rw [List.mem_singleton.mp he]
      exact .inr ⟨rfl, hwalk₁⟩)
  have t₄ := t₃.snoc (.exit (i := bsp) rfl)
  have t₅ := t₄.snoc (.switch (i := bsp) rfl rfl
    (shvGuestSwitchEptVmexitHandler_eq_some.mpr ⟨by decide, hswitch _⟩))
  obtain ⟨σ, hg, hwalk, t⟩ : ∃ σ : Machine, (σ.cpu bsp).inGuest = true ∧
      eptWalk sampleImage (σ.cpu bsp).eptp σ.mem 0x12340000#64 =
        some (some { spa := 0x117000#64, prots := 7#64, pmt := 6#64, lvl := 1 }) ∧
      Trace (Step sampleImage sampleOpt sampleVcpus) (Machine.start fun _ => 0)
        [.init bsp, .entry bsp, .access bsp 0x12340000#64 none, .exit bsp, .switch bsp,
          .entry bsp] σ := by
    refine ⟨_, ?_, ?_, t₅.snoc (.entry (i := bsp) rfl rfl)⟩
    · rfl
    · rw [← hroot] at hwalk₂
      exact hwalk₂
  have hs : Step sampleImage sampleOpt sampleVcpus σ (.access bsp 0x12340000#64
      (some { spa := 0x117000#64, prots := 7#64, pmt := 6#64, lvl := 1 }))
      (σ.setCpu bsp { σ.cpu bsp with tlb := [] }) :=
    .access hg (.inr hwalk) fun e he => by cases he
  exact ⟨σ, _, t, hs, (no_stale_ept_mapping (fun _ _ _ _ => rfl) t hs).1⟩

end Shv
