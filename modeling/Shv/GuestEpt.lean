/-
# `Shv.GuestEpt` — the EPT and VPID tests of the guests

In its main loop every guest loads from `0x12340000` (`shv_guest_test_ept`), asks for
the next EPT (`shv_guest_switch_ept`), has its VPID changed (`shv_guest_test_vpid`),
and with `SHV_USE_LARGE_PAGE` looks at the two large pages its EPT swaps
(`shv_guest_test_large_page`).  All CPUs do so at once, on one memory; a CPU may have
old translations cached, and while one is at its tests another may be building its
EPT, or filling a target.

The tests check the hypervisor with assertions.  `guest_ept_tests_never_fail` says
that none of them ever fails, in any interleaving, and `guest_ept_tests_never_stuck`
that no CPU ever gets stuck in the hypervisor.  `guest_ept_load_value` says what a guest
reads: it depends on nothing but the number of times this CPU has switched.  All of this is
with `SHV_USE_EPT`, which the tests ask for or assert.

The machine is the one of `Shv.EptTlb` with a program for each CPU on top; its runs
are runs of that machine (`guest_refines_tlb`), whose invariant `Coherent` therefore
carries over.
-/
import Shv.EptTlb
import Shv.Lib.Smp

namespace Shv

open ByteMem

/-! ## The tests -/

/-- What `shv_guest_test_ept_vmexit_handler` reads of an EPT violation. -/
structure EptViolation (arch : Arch) where
  q : BitVec arch.ptrBits
  paddr : BitVec 64
  vaddr : BitVec arch.ptrBits
  eax : BitVec 32
  ebx : BitVec 32

/-- `shv_guest_test_ept_vmexit_handler` on an EPT violation: what it leaves in `r->eax` and in
`vcpu->ept_exit_count`.  When it returns without resuming the guest, `vmexit_handler` fails on
an unknown EPT violation. -/
def shvGuestTestEptVmexitHandler {arch : Arch} (e : EptViolation arch) (eptExitCount : BitVec 32) :
    Halting (BitVec 32 × BitVec 32) := do
  cAssert (e.paddr == 0x12340000#64 && e.vaddr == 0x12340000#(arch.ptrBits))
  cAssert (e.q &&& ~~~0xe00#(arch.ptrBits) == 0x181#(arch.ptrBits))
  cAssert (e.eax == 0xdeadbeef#32)
  cAssert (e.ebx == 0x12340000#32)
  return (0xfee1c0de#32, eptExitCount + 1)

/-- `shv_guest_test_ept` from the load on, which left `a` in EAX. -/
def shvGuestTestEptCheck (eptNum : Nat) (eptExitCount a : BitVec 32) : Halting (BitVec 32) := do
  let n : BitVec 8 := BitVec.ofNat 8 eptNum
  if eptNum = 0 then
    cAssert (a == 0xfee1c0de#32)
    cAssert (eptExitCount == 1)
  else
    cAssert (a.setWidth 8 == n)
    cAssert ((a >>> 8).setWidth 8 == n)
    cAssert ((a >>> 16).setWidth 8 == n)
    cAssert ((a >>> 24).setWidth 8 == n)
    cAssert (eptExitCount == 0)
  return 0

inductive InvvpidType where
  | individualAddress
  | singleContext
  | allContexts
  | singleContextGlobal

/-- Bits 63:47 of the linear address are equal. -/
def canonical (addr : BitVec 64) : Bool := addr.sshiftRight 47 == 0 || addr.sshiftRight 47 == -1

/-- Whether `INVVPID` succeeds: not for VPID 0, unless it is for all contexts, and not for an
address that is not canonical. -/
def vmxInvvpid (type : InvvpidType) (vpid : BitVec 16) (addr : BitVec 64) : Bool :=
  match type with
  | .individualAddress => vpid != 0 && canonical addr
  | .singleContext => vpid != 0
  | .allContexts => true
  | .singleContextGlobal => vpid != 0

/-- `shv_guest_test_vpid_vmexit_handler`: the VPID it leaves in the VMCS. -/
def shvGuestTestVpidVmexitHandler (arch : Arch) (vpid : BitVec 16) : Halting (BitVec 16) := do
  cAssert (vpid % 2 == 1)
  cAssert (vmxInvvpid .individualAddress vpid 0x12345678#64)
  cAssert (arch != .amd64 || !vmxInvvpid .individualAddress vpid 0xf0f0f0f0f0f0f0f0#64)
  cAssert (!vmxInvvpid .individualAddress 0 0x12345678#64)
  cAssert (vmxInvvpid .singleContext vpid 0)
  cAssert (!vmxInvvpid .singleContext 0 0)
  cAssert (vmxInvvpid .allContexts vpid 0)
  cAssert (vmxInvvpid .singleContextGlobal vpid 0)
  cAssert (!vmxInvvpid .singleContextGlobal 0 0)
  return vpid + 2

/-- `ASSERT(large_pages[i][0] == …)` of `shv_guest_test_large_page`. -/
def shvGuestTestLargePage (i : Fin 2) (b : BitVec 8) : Bool :=
  b == if i = 0 then 0x42#8 else 0x41#8

/-! ## The CPUs -/

/-- The handlers that a test calls with `VMCALL`, each with the number it expects in EAX. -/
inductive VmcallTest where
  | switchEpt
  | vpid

def VmcallTest.number : VmcallTest → BitVec 32
  | .switchEpt => 17
  | .vpid => 19

inductive GuestPc (arch : Arch) where
  /-- before `shv_vmx_vmcs_init` -/
  | reset
  /-- before `vmlaunch_asm` -/
  | launch
  /-- in `shv_guest_main`, between the tests of this module -/
  | main
  /-- in the hypervisor, with nothing left to do to EPT and VPID before it resumes the guest -/
  | host
  /-- in `shv_guest_test_ept`, at the load -/
  | testEpt
  /-- in the handler of an EPT violation during the load -/
  | testEptExit (e : EptViolation arch)
  /-- in `shv_guest_test_ept`, after the load -/
  | testEptCheck (a : BitVec 32)
  /-- in the handler of a `VMCALL` with this EAX -/
  | vmcall (test : VmcallTest) (eax : BitVec 32)
  /-- in `shv_guest_test_large_page`, at the check of `large_pages[i]` -/
  | largePage (i : Fin 2)
  /-- an assertion has failed -/
  | failed

/-- Whether the VMCS is set up. -/
def GuestPc.started {arch : Arch} : GuestPc arch → Bool
  | .reset => false
  | _ => true

def GuestPc.inGuest {arch : Arch} : GuestPc arch → Bool
  | .main | .testEpt | .testEptCheck _ | .largePage _ => true
  | _ => false

/-- A CPU: where it is, `vcpu->ept_exit_count`, and the VPID in its VMCS. -/
structure GuestCpu (arch : Arch) where
  pc : GuestPc arch
  eptExitCount : BitVec 32
  vpid : BitVec 16

def shvUseSwitchEpt : BitVec 64 := 0x8#64

def shvUseVpid : BitVec 64 := 0x10#64

/-- The exit qualification of a data read: bits 5:3 are what the EPT grants for the address, bits
8:7 say that there is a linear address and that it has been translated, and newer CPUs report
more of it in bits 11:9. -/
def eptReadQualification (arch : Arch) (granted : BitVec 64) (advanced : BitVec arch.ptrBits) :
    BitVec arch.ptrBits :=
  (0x181#(arch.ptrBits) ||| ((granted &&& hptProtsRwx) <<< 3).setWidth arch.ptrBits) |||
    (advanced &&& 0xe00#(arch.ptrBits))

/-- What an EPT grants. -/
def grantedProts : Option Mapping → BitVec 64
  | none => 0
  | some mp => mp.prots

/-- Whether an EPT lets a read pass. -/
def readable (r : Option Mapping) : Bool := grantedProts r &&& hptProtsR != 0

/-- The bytes of memory that a translation leads to. -/
def loadAt (m : ByteMem) (w : Nat) : Option Mapping → BitVec (8 * w)
  | none => 0
  | some mp => load m mp.spa.toNat w

/-- The exit that a load of `shv_guest_test_ept` causes: EAX is `0xdeadbeef`, and EBX has the
address. -/
def testEptViolation (arch : Arch) (r : Option Mapping) (advanced : BitVec arch.ptrBits) :
    EptViolation arch where
  q := eptReadQualification arch (grantedProts r) advanced
  paddr := 0x12340000
  vaddr := 0x12340000
  eax := 0xdeadbeef
  ebx := 0x12340000

inductive GuestAct where
  | init
  | launch
  /-- an exit that another handler deals with -/
  | exit
  | resume
  /-- a guest access other than those of the tests, and the translation it was made with -/
  | access (gpa : BitVec 64) (result : Option Mapping)
  /-- a write to memory that holds neither EPTs nor what the tests look at -/
  | store
  | testEpt
  | load
  | handleEpt
  | checkEpt
  | call (test : VmcallTest)
  | switch
  | vpid
  | testLargePage
  | checkLargePage

/-- The option that a test is for. -/
def VmcallTest.enabled (shvOpt : BitVec 64) : VmcallTest → Prop
  | .switchEpt => shvOpt &&& shvUseSwitchEpt ≠ 0
  | .vpid => shvOpt &&& shvUseVpid ≠ 0

/-- What it asserts before its `VMCALL`. -/
def VmcallTest.required (shvOpt : BitVec 64) : VmcallTest → Prop
  | .switchEpt => UseEpt shvOpt
  | .vpid => True

/-- Where the tests look: `ept_target` and `large_pages`. -/
def Image.testData (img : Image) : Set Nat :=
  span img.eptTarget 1048576 ∪ span img.largePages 4194304

/-- The page after the first one is checked, or the main loop. -/
def GuestPc.nextLargePage {arch : Arch} (i : Fin 2) : GuestPc arch :=
  if i = 0 then .largePage 1 else .main

/-- The moves of CPU `i`; `init` needs `SHV_USE_EPT`.  The tests may come in any order. -/
inductive GuestMove (img : Image) (shvOpt : BitVec 64) (cpus : Vcpus) (i : Fin maxVcpuEntries) :
    Machine → GuestCpu img.arch → GuestAct → Machine → GuestCpu img.arch → Prop
  | init {σ σ' : Machine} {t : GuestCpu img.arch} :
      t.pc = .reset → Step img shvOpt cpus σ (.init i) σ' →
      GuestMove img shvOpt cpus i σ t .init σ' { t with pc := .launch, vpid := 1 }
  | launch {σ σ' : Machine} {t : GuestCpu img.arch} :
      t.pc = .launch → Step img shvOpt cpus σ (.entry i) σ' →
      GuestMove img shvOpt cpus i σ t .launch σ' { t with pc := .main }
  | exit {σ σ' : Machine} {t : GuestCpu img.arch} :
      t.pc = .main → Step img shvOpt cpus σ (.exit i) σ' →
      GuestMove img shvOpt cpus i σ t .exit σ' { t with pc := .host }
  | resume {σ σ' : Machine} {t : GuestCpu img.arch} :
      t.pc = .host → Step img shvOpt cpus σ (.entry i) σ' →
      GuestMove img shvOpt cpus i σ t .resume σ' { t with pc := .main }
  | access {σ σ' : Machine} {t : GuestCpu img.arch} {gpa : BitVec 64} {r : Option Mapping} :
      t.pc.inGuest = true → Step img shvOpt cpus σ (.access i gpa r) σ' →
      GuestMove img shvOpt cpus i σ t (.access gpa r) σ' t
  | store {σ σ' : Machine} {t : GuestCpu img.arch} :
      Step img shvOpt cpus σ .store σ' →
      (∀ x ∈ img.testData, σ'.mem x = σ.mem x) →
      GuestMove img shvOpt cpus i σ t .store σ' t
  | testEpt {σ : Machine} {t : GuestCpu img.arch} :
      t.pc = .main → UseEpt shvOpt →
      GuestMove img shvOpt cpus i σ t .testEpt σ
        { t with pc := if t.eptExitCount = 0 then .testEpt else .failed }
  | load {σ σ' : Machine} {t : GuestCpu img.arch} {r : Option Mapping} :
      t.pc = .testEpt → Step img shvOpt cpus σ (.access i 0x12340000 r) σ' → readable r = true →
      GuestMove img shvOpt cpus i σ t .load σ' { t with pc := .testEptCheck (loadAt σ.mem 4 r) }
  | violation {σ σ' σ'' : Machine} {t : GuestCpu img.arch} {r : Option Mapping}
      (advanced : BitVec img.arch.ptrBits) :
      t.pc = .testEpt → Step img shvOpt cpus σ (.access i 0x12340000 r) σ' →
      readable r = false → Step img shvOpt cpus σ' (.exit i) σ'' →
      GuestMove img shvOpt cpus i σ t .load σ''
        { t with pc := .testEptExit (testEptViolation img.arch r advanced) }
  | handleEpt {σ σ' : Machine} {t : GuestCpu img.arch} {e : EptViolation img.arch}
      {eax count : BitVec 32} :
      t.pc = .testEptExit e → shvGuestTestEptVmexitHandler e t.eptExitCount = some (eax, count) →
      Step img shvOpt cpus σ (.entry i) σ' →
      GuestMove img shvOpt cpus i σ t .handleEpt σ'
        { t with pc := .testEptCheck eax, eptExitCount := count }
  | handleEptFails {σ : Machine} {t : GuestCpu img.arch} {e : EptViolation img.arch} :
      t.pc = .testEptExit e → shvGuestTestEptVmexitHandler e t.eptExitCount = none →
      GuestMove img shvOpt cpus i σ t .handleEpt σ { t with pc := .failed }
  | checkEpt {σ : Machine} {t : GuestCpu img.arch} {a count : BitVec 32} :
      t.pc = .testEptCheck a →
      shvGuestTestEptCheck (σ.cpu i).eptNum t.eptExitCount a = some count →
      GuestMove img shvOpt cpus i σ t .checkEpt σ { t with pc := .main, eptExitCount := count }
  | checkEptFails {σ : Machine} {t : GuestCpu img.arch} {a : BitVec 32} :
      t.pc = .testEptCheck a → shvGuestTestEptCheck (σ.cpu i).eptNum t.eptExitCount a = none →
      GuestMove img shvOpt cpus i σ t .checkEpt σ { t with pc := .failed }
  | call {σ σ' : Machine} {t : GuestCpu img.arch} {test : VmcallTest} :
      t.pc = .main → test.enabled shvOpt → test.required shvOpt →
      Step img shvOpt cpus σ (.exit i) σ' →
      GuestMove img shvOpt cpus i σ t (.call test) σ' { t with pc := .vmcall test test.number }
  | callFails {σ : Machine} {t : GuestCpu img.arch} {test : VmcallTest} :
      t.pc = .main → test.enabled shvOpt → ¬ test.required shvOpt →
      GuestMove img shvOpt cpus i σ t (.call test) σ { t with pc := .failed }
  | switch {σ σ' : Machine} {t : GuestCpu img.arch} {eax : BitVec 32} :
      t.pc = .vmcall .switchEpt eax → eax = 17 → Step img shvOpt cpus σ (.switch i) σ' →
      GuestMove img shvOpt cpus i σ t .switch σ' { t with pc := .host }
  | switchFails {σ : Machine} {t : GuestCpu img.arch} {eax : BitVec 32} :
      t.pc = .vmcall .switchEpt eax → eax ≠ 17 ∨ ¬ UseEpt shvOpt →
      GuestMove img shvOpt cpus i σ t .switch σ { t with pc := .failed }
  | vpid {σ : Machine} {t : GuestCpu img.arch} {eax : BitVec 32} {vpid : BitVec 16} :
      t.pc = .vmcall .vpid eax → eax = 19 →
      shvGuestTestVpidVmexitHandler img.arch t.vpid = some vpid →
      GuestMove img shvOpt cpus i σ t .vpid σ { t with pc := .host, vpid := vpid }
  | vpidFails {σ : Machine} {t : GuestCpu img.arch} {eax : BitVec 32} :
      t.pc = .vmcall .vpid eax →
      eax ≠ 19 ∨ shvGuestTestVpidVmexitHandler img.arch t.vpid = none →
      GuestMove img shvOpt cpus i σ t .vpid σ { t with pc := .failed }
  | testLargePage {σ : Machine} {t : GuestCpu img.arch} :
      t.pc = .main → UseLargePage shvOpt →
      GuestMove img shvOpt cpus i σ t .testLargePage σ
        { t with pc := if UseEpt shvOpt then .largePage 0 else .failed }
  | checkLargePage {σ σ' : Machine} {t : GuestCpu img.arch} {j : Fin 2} {r : Option Mapping} :
      t.pc = .largePage j →
      Step img shvOpt cpus σ (.access i (hva2spa (img.largePage j)) r) σ' →
      GuestMove img shvOpt cpus i σ t .checkLargePage σ'
        { t with pc := if readable r ∧ shvGuestTestLargePage j (loadAt σ.mem 1 r) = true
                       then .nextLargePage j else .failed }

abbrev Guests (img : Image) := Smp (Fin maxVcpuEntries) Machine (GuestCpu img.arch)

abbrev GuestStep (img : Image) (shvOpt : BitVec 64) (cpus : Vcpus) :=
  Smp.Step (GuestMove img shvOpt cpus)

/-- After power-on. -/
def Guests.start (img : Image) (m : ByteMem) : Guests img where
  shared := Machine.start m
  thread _ := { pc := .reset, eptExitCount := 0, vpid := 0 }

/-! ## What the machine does -/

section Refines

variable {img : Image} {shvOpt : BitVec 64} {cpus : Vcpus} {i : Fin maxVcpuEntries}
  {σ σ' : Machine} {t t' : GuestCpu img.arch} {act : GuestAct} {c c' : Guests img}

theorem GuestMove.machine (h : GuestMove img shvOpt cpus i σ t act σ' t') :
    ∃ ls, Trace (Step img shvOpt cpus) σ ls σ' := by
  cases h with
  | init _ hs => exact ⟨_, Trace.nil.snoc hs⟩
  | launch _ hs => exact ⟨_, Trace.nil.snoc hs⟩
  | exit _ hs => exact ⟨_, Trace.nil.snoc hs⟩
  | resume _ hs => exact ⟨_, Trace.nil.snoc hs⟩
  | access _ hs => exact ⟨_, Trace.nil.snoc hs⟩
  | store hs _ => exact ⟨_, Trace.nil.snoc hs⟩
  | load _ hs _ => exact ⟨_, Trace.nil.snoc hs⟩
  | violation _ _ hs _ hs' => exact ⟨_, (Trace.nil.snoc hs).snoc hs'⟩
  | handleEpt _ _ hs => exact ⟨_, Trace.nil.snoc hs⟩
  | call _ _ _ hs => exact ⟨_, Trace.nil.snoc hs⟩
  | switch _ _ hs => exact ⟨_, Trace.nil.snoc hs⟩
  | checkLargePage _ hs => exact ⟨_, Trace.nil.snoc hs⟩
  | testEpt | handleEptFails | checkEpt | checkEptFails | callFails | switchFails | vpid
  | vpidFails | testLargePage => exact ⟨_, Trace.nil⟩

/-- **The guests run on the machine of `Shv.EptTlb`.** -/
theorem guest_refines_tlb {ls : List (Fin maxVcpuEntries × GuestAct)} {m : ByteMem}
    (h : Trace (GuestStep img shvOpt cpus) (Guests.start img m) ls c) :
    ∃ ls', Trace (Step img shvOpt cpus) (Machine.start m) ls' c.shared :=
  h.simulate (f := Smp.shared) fun hs => by
    cases hs with
    | mk hm => exact hm.machine

end Refines

/-! ## What a build leaves in the targets and the large pages -/

section Data

variable {img : Image} {shvOpt : BitVec 64} {s : Slot} {vcpu : Vcpu} {n n' : Nat}
  {m m' : ByteMem} {pmeo : HptPmeo}

/-- The `memset`s of `shv_build_ept`. -/
def eptData (img : Image) (shvOpt : BitVec 64) (n : Nat) (m : ByteMem) : ByteMem :=
  let m := m.fill (img.targetAt n) 16 (BitVec.ofNat 8 n)
  if UseLargePage shvOpt then
    (m.fill (img.largePage 0) 16 0x41#8).fill (img.largePage 1) 16 0x42#8
  else m

theorem Image.testData_not_own {x : Nat} (hx : x ∈ img.testData) :
    ¬ img.Own s x ∧ x ≠ img.valid s := by
  refine ⟨fun ho => ?_, ?_⟩
  · obtain ⟨-, ht, hl⟩ := Image.own_apart ho
    exact hx.elim ht hl
  · rintro rfl
    exact hx.elim valid_span_apart.1 valid_span_apart.2

theorem fill_congr {a k x : Nat} {b : BitVec 8} (h : m' x = m x) :
    m'.fill a k b x = m.fill a k b x := by
  by_cases hx : x ∈ span a k
  · rw [fill_of_mem hx, fill_of_mem hx]
  · rw [fill_of_notMem hx, fill_of_notMem hx, h]

theorem eptRemap_data (h : PoolInv img s m) (hp : RwxPage pmeo) (hl : pmeo.lvl = 1) (hn : n < 256)
    (hrun : eptRemap img shvOpt (img.ctx s) n m pmeo = some m') {x : Nat} (hx : ¬ img.Own s x) :
    m' x = eptData img shvOpt n m x := by
  obtain ⟨pmeo', hpm, ht', hl', -⟩ := eptTargetPmeo_spec img hp hl hn
  simp only [eptRemap, hpm, Option.bind_eq_bind, Option.bind_some] at hrun
  obtain ⟨m₁, hins, hrun⟩ := Option.bind_eq_some_iff.mp hrun
  obtain ⟨hinv₀, -⟩ := h.of_own (img.fill_target_own (m := m) (s := s) hn)
  have hok : LvlOk .ept pmeo'.lvl := by rw [hl']; decide
  have I := hinv₀.inserted ht' hok (by rw [hl', pmeTable_one]) hins
  by_cases hlarge : UseLargePage shvOpt
  · replace hrun := (if_pos hlarge).symm.trans hrun
    obtain ⟨pmeo₀, pmeo₁, hp₀, -, hp₁, -, -, -, heq⟩ := eptSwapLargePages_eq img (img.ctx s) ht'
    rw [heq m₁] at hrun
    obtain ⟨m₂, hins₂, hrun⟩ := Option.bind_eq_some_iff.mp hrun
    obtain ⟨m₃, hins₃, hrun⟩ := Option.bind_eq_some_iff.mp hrun
    obtain rfl := Option.some.inj hrun
    have I₂ := I.inv.inserted hp₀.type hp₀.lvlOk hp₀.not_table hins₂
    have I₃ := I₂.inv.inserted hp₁.type hp₁.lvlOk hp₁.not_table hins₃
    rw [eptData, if_pos hlarge]
    refine fill_congr (fill_congr ?_)
    rw [I₃.grows.own x hx, I₂.grows.own x hx, I.grows.own x hx]
  · replace hrun := (if_neg hlarge).symm.trans hrun
    obtain rfl := Option.some.inj hrun
    rw [eptData, if_neg hlarge, I.grows.own x hx]

theorem shvBuildEpt_data {first : Option Vcpu} {b : EptBuilt} (hc : CallFor s vcpu n)
    (hs : SlotOk img shvOpt s m first) (hrun : shvBuildEpt img shvOpt vcpu n m = some b) {x : Nat}
    (hx : ¬ img.Own s x ∧ x ≠ img.valid s) : b.mem x = eptData img shvOpt n m x := by
  have hcongr : ∀ {m₁ : ByteMem}, m₁ x = m x →
      eptData img shvOpt n m₁ x = eptData img shvOpt n m x := by
    intro m₁ h₁
    simp only [eptData]
    split
    · exact fill_congr (fill_congr (fill_congr h₁))
    · exact fill_congr h₁
  cases hs with
  | fresh hz h0 =>
      rw [shvBuildEpt_valid_zero hc h0] at hrun
      obtain ⟨⟨m₁, pmeo₁⟩, hfirst, hrun⟩ := Option.bind_eq_some_iff.mp hrun
      obtain ⟨m₂, hremap, hrun⟩ := Option.bind_eq_some_iff.mp hrun
      obtain rfl := Option.some.inj hrun
      have hstore : ∀ y, y ≠ img.valid s → m.store (img.valid s) 1 1#8 y = m y := fun y hy =>
        store_of_notMem fun hin => hy (by simp only [mem_span] at hin; omega)
      have hz' : ∀ y, img.Own s y → m.store (img.valid s) 1 1#8 y = 0 := fun y hy =>
        (hstore y (Image.own_ne_valid _ hy)).trans (hz y hy)
      obtain ⟨hinv, hgrow, hp, hl, -⟩ := eptBuildFirst_spec hz' rwxPage_init rfl hfirst
      refine (eptRemap_data hinv hp hl hc.lt hremap hx.1).trans (hcongr ?_)
      exact (hgrow.own x hx.1).trans (hstore x hx.2)
  | built hb hr h1 =>
      rw [shvBuildEpt_valid_one hc h1] at hrun
      obtain ⟨m₂, hremap, hrun⟩ := Option.bind_eq_some_iff.mp hrun
      obtain rfl := Option.some.inj hrun
      exact eptRemap_data hb.inv rwxPage_init rfl hc.lt hremap hx.1

/-- The target of `n`, and with `SHV_USE_LARGE_PAGE` the large pages, have what the tests
expect. -/
structure TestDataFilled (img : Image) (shvOpt : BitVec 64) (n : Nat) (m : ByteMem) : Prop where
  target : ∀ x ∈ span (img.targetAt n) 16, m x = BitVec.ofNat 8 n
  large : UseLargePage shvOpt → ∀ j : Fin 2,
    m (img.largePage j) = if j = 0 then 0x41#8 else 0x42#8

theorem Image.largePage_mem (j : Nat) : img.largePage j ∈ span (img.largePage j) 16 := by
  rw [mem_span]
  omega

theorem TestDataFilled.congr (h : TestDataFilled img shvOpt n m) (hn : n < 256)
    (heq : ∀ x ∈ img.testData, m' x = m x) : TestDataFilled img shvOpt n m' where
  target x hx := (heq x (Or.inl (img.target_span hn hx))).trans (h.target x hx)
  large hl j :=
    (heq _ (Or.inr (img.largePage_span j.isLt (Image.largePage_mem j)))).trans (h.large hl j)

theorem Image.largePage_not_mem {i j : Nat} (h : j ≠ i) :
    img.largePage j ∉ span (img.largePage i) 16 := by
  intro hin
  have hin' : img.largePages + i * 0x200000 ≤ img.largePages + j * 0x200000 ∧
      img.largePages + j * 0x200000 < img.largePages + i * 0x200000 + 16 := hin
  omega

theorem eptData_target {x : Nat} (hx : x ∈ span img.eptTarget 1048576) :
    eptData img shvOpt n m x = m.fill (img.targetAt n) 16 (BitVec.ofNat 8 n) x := by
  have hout := img.disjoint.2.2.2.2.notMem hx
  simp only [eptData]
  split
  · rw [fill_of_notMem fun hin => hout (img.largePage_span (by decide) hin),
      fill_of_notMem fun hin => hout (img.largePage_span (by decide) hin)]
  · rfl

theorem eptData_large (hl : UseLargePage shvOpt) (j : Fin 2) :
    eptData img shvOpt n m (img.largePage j) = if j = 0 then 0x41#8 else 0x42#8 := by
  rw [eptData, if_pos hl]
  by_cases h0 : j = 0
  · subst h0
    have hne : img.largePage 0 ∉ span (img.largePage 1) 16 :=
      Image.largePage_not_mem (show 0 ≠ 1 by decide)
    exact (fill_of_notMem hne).trans (fill_of_mem (Image.largePage_mem 0))
  · obtain rfl : j = 1 := by omega
    exact fill_of_mem (Image.largePage_mem 1)

theorem filled_eptData (hn : n < 256) : TestDataFilled img shvOpt n (eptData img shvOpt n m) where
  target x hx := by rw [eptData_target (img.target_span hn hx), fill_of_mem hx]
  large hl j := eptData_large hl j

theorem TestDataFilled.eptData (h : TestDataFilled img shvOpt n' m) (hn' : n' < 256) :
    TestDataFilled img shvOpt n' (eptData img shvOpt n m) where
  target x hx := by
    rw [eptData_target (img.target_span hn' hx)]
    by_cases hin : x ∈ span (img.targetAt n) 16
    · -- the two targets share a byte, so they are one
      have h₁ : img.eptTarget + n * 4096 ≤ x ∧ x < img.eptTarget + n * 4096 + 16 := hin
      have h₂ : img.eptTarget + n' * 4096 ≤ x ∧ x < img.eptTarget + n' * 4096 + 16 := hx
      obtain rfl : n = n' := by omega
      rw [fill_of_mem hin]
    · rw [fill_of_notMem hin, h.target x hx]
  large hl j := eptData_large hl j

end Data

/-! ## What the EPT of a CPU shows -/

section GuestShows

variable {img : Image} {shvOpt : BitVec 64} {cpus : Vcpus} {i : Fin maxVcpuEntries}
  {σ σ' : Machine} {first : Slot → Option Vcpu} {n : Nat} {m : ByteMem}

/-- The EPT of CPU `i` is the one for its `ept_num`, and the tests find what they look for. -/
structure GuestShows (img : Image) (shvOpt : BitVec 64) (σ : Machine) (i : Fin maxVcpuEntries) :
    Prop where
  num : (σ.cpu i).eptNum < 32
  map : ∃ (s : Slot) (vcpu : Vcpu), s.idx = i ∧ (σ.cpu i).eptp = img.eptp s ∧
    ∀ gpa : BitVec 64, gpa.toNat < 2 ^ 48 →
      (img.ctx s).xlate σ.mem gpa = eptSpec img shvOpt vcpu (σ.cpu i).eptNum gpa
  filled : TestDataFilled img shvOpt (σ.cpu i).eptNum σ.mem

/-- The state of the machine under the tests. -/
structure EptInv (img : Image) (shvOpt : BitVec 64) (σ : Machine) : Prop where
  coherent : ∃ first, Coherent img shvOpt σ first
  shows : ∀ i, (σ.cpu i).started = true → GuestShows img shvOpt σ i

theorem GuestShows.congr (h : GuestShows img shvOpt σ i)
    (hnum : (σ'.cpu i).eptNum = (σ.cpu i).eptNum)
    (heptp : (σ'.cpu i).eptp = (σ.cpu i).eptp)
    (hx : ∀ s : Slot, s.idx = i → ∀ gpa,
      (img.ctx s).xlate σ'.mem gpa = (img.ctx s).xlate σ.mem gpa)
    (hf : TestDataFilled img shvOpt (σ.cpu i).eptNum σ'.mem) : GuestShows img shvOpt σ' i := by
  obtain ⟨hlt, ⟨s, vcpu, hsi, hs, hmap⟩, -⟩ := h
  refine ⟨by rw [hnum]; exact hlt, ⟨s, vcpu, hsi, heptp.trans hs, fun gpa hg => ?_⟩, ?_⟩
  · rw [hx s hsi gpa, hnum]
    exact hmap gpa hg
  · rw [hnum]
    exact hf

theorem installEpt_eq_some {vcpu : Vcpu} {cpu c : Cpu} {m₀ : ByteMem}
    (h : installEpt img shvOpt vcpu n m₀ cpu = some (m, c)) :
    ∃ b, shvBuildEpt img shvOpt vcpu n m₀ = some b ∧ m = b.mem ∧ c.eptNum = n ∧
      c.eptp = eptpOf b.rootPa ∧ c.started = cpu.started ∧ c.inGuest = cpu.inGuest := by
  simp only [installEpt, Option.bind_eq_bind] at h
  obtain ⟨b, hb, h⟩ := Option.bind_eq_some_iff.mp h
  simp only [Option.pure_def, Option.some.injEq, Prod.mk.injEq] at h
  obtain ⟨rfl, rfl⟩ := h
  exact ⟨b, hb, rfl, rfl, rfl, rfl, rfl⟩

/-- Building and installing an EPT keeps what all CPUs show, and makes CPU `i` show `n`. -/
theorem EptInv.install {c c' : Cpu} (h : EptInv img shvOpt σ) (hn : n < shvEptCount <<< 4)
    (hrun : installEpt img shvOpt (cpus.vcpu i) n σ.mem (σ.cpu i) = some (m, c))
    {j : Fin maxVcpuEntries}
    (hj : ((Machine.setCpu { σ with mem := m } i c').cpu j).started = true)
    (hnum' : c'.eptNum = c.eptNum) (heptp' : c'.eptp = c.eptp) :
    GuestShows img shvOpt (Machine.setCpu { σ with mem := m } i c') j := by
  obtain ⟨first, hcoh⟩ := h.coherent
  obtain ⟨b, hb, rfl, hnum, heptp, -⟩ := installEpt_eq_some hrun
  have hok : CallOk (cpus.vcpu i, n) := ⟨by rw [cpus.idx]; exact i.isLt, hn⟩
  have hidx : (slotOf (cpus.vcpu i, n) hok).idx = i := cpus.idx i
  have hslots := hcoh.slots
  have hn' : n < 32 := hn
  obtain ⟨D, -⟩ := shvBuildEpt_done (callFor_slotOf hok) (hslots _) hb
  have hdata : ∀ x ∈ img.testData, b.mem x = eptData img shvOpt n σ.mem x := fun x hx =>
    shvBuildEpt_data (callFor_slotOf hok) (hslots _) hb (Image.testData_not_own hx)
  generalize hσ : Machine.setCpu { σ with mem := b.mem } i c' = σ' at hj
  have hmem : σ'.mem = b.mem := by rw [← hσ]; rfl
  by_cases hji : j = i
  · subst hji
    have hcpu : σ'.cpu j = c' := by rw [← hσ, setCpu_self]
    have hcn : (σ'.cpu j).eptNum = n := by rw [hcpu, hnum', hnum]
    refine ⟨by rw [hcn]; exact hn, ⟨_, (first (slotOf _ hok)).getD (cpus.vcpu j), hidx, ?_,
      fun gpa hg => ?_⟩, ?_⟩
    · rw [hcpu, heptp', heptp, D.rootPa]
      rfl
    · rw [hmem, hcn]
      exact D.xlate gpa hg
    · rw [hmem, hcn]
      exact (filled_eptData (by omega)).congr (by omega) hdata
  · have hcpu : σ'.cpu j = σ.cpu j := by rw [← hσ]; exact setCpu_of_ne _ _ hji
    rw [hcpu] at hj
    have hshow := h.shows j hj
    refine hshow.congr (by rw [hcpu]) (by rw [hcpu]) (fun s hs => ?_) ?_
    · rw [hmem]
      refine (D.other (fun heq => hji (Fin.ext ?_)) (hslots s)).2.1
      rw [← hs, heq, hidx]
    · have hlt := hshow.num
      rw [hmem]
      exact (hshow.filled.eptData (n := n) (by omega)).congr (by omega) hdata

theorem EptInv.setCpu {c : Cpu} {j : Fin maxVcpuEntries} (h : EptInv img shvOpt σ)
    (hj : ((σ.setCpu i c).cpu j).started = true) (hstart : c.started = (σ.cpu i).started)
    (hnum : c.eptNum = (σ.cpu i).eptNum) (heptp : c.eptp = (σ.cpu i).eptp) :
    GuestShows img shvOpt (σ.setCpu i c) j := by
  by_cases hji : j = i
  · subst hji
    rw [setCpu_self] at hj
    have hshow := h.shows j (hstart ▸ hj)
    refine hshow.congr ?_ ?_ (fun _ _ _ => rfl) hshow.filled
    · rw [setCpu_self, hnum]
    · rw [setCpu_self, heptp]
  · have hcpu := setCpu_of_ne σ c hji
    have hshow := h.shows j (by rw [hcpu] at hj; exact hj)
    exact hshow.congr (by rw [hcpu]) (by rw [hcpu]) (fun _ _ _ => rfl) hshow.filled

theorem EptInv.step {l : Label} (h : EptInv img shvOpt σ) (hs : Step img shvOpt cpus σ l σ')
    (hdata : l = .store → ∀ x ∈ img.testData, σ'.mem x = σ.mem x) : EptInv img shvOpt σ' := by
  refine ⟨Coherent.step h.coherent hs, fun j hj => ?_⟩
  cases hs with
  | init _ _ hrun => exact h.install (by decide) hrun hj rfl rfl
  | entry _ _ => exact h.setCpu hj rfl rfl rfl
  | exit _ => exact h.setCpu hj rfl rfl rfl
  | access _ _ _ => exact h.setCpu hj rfl rfl rfl
  | switch _ _ hrun =>
      exact h.install (Nat.mod_lt _ (by decide))
        (shvGuestSwitchEptVmexitHandler_eq_some.mp hrun).2 hj rfl rfl
  | store hv ho =>
      obtain ⟨first, hcoh⟩ := h.coherent
      have hshow := h.shows j hj
      have hlt := hshow.num
      exact hshow.congr rfl rfl (fun s _ => ((hcoh.slots s).of_own (ho s) (hv s)).2)
        (hshow.filled.congr (by omega) (hdata rfl))

theorem EptInv.access {gpa : BitVec 64} {r : Option Mapping} (h : EptInv img shvOpt σ)
    (hs : Step img shvOpt cpus σ (.access i gpa r) σ') (hg : gpa.toNat < 2 ^ 48) :
    ∃ vcpu, r = eptSpec img shvOpt vcpu (σ.cpu i).eptNum gpa := by
  obtain ⟨first, hcoh⟩ := h.coherent
  cases hs with
  | access hguest hres _ =>
      obtain ⟨s, vcpu, -, heptp, hmap⟩ := (h.shows i (hcoh.guest i hguest)).map
      refine ⟨vcpu, ?_⟩
      rw [← hmap gpa hg]
      rcases hres with hhit | hwalk
      · obtain ⟨s', -, -, heptp', hx⟩ := hcoh.tlb i _ hhit
        obtain rfl : s = s' := Image.eptp_inj (heptp.symm.trans heptp')
        exact hx.symm
      · rw [heptp, (hcoh.slots s).poolInv.walk gpa] at hwalk
        exact (Option.some.inj hwalk).symm

end GuestShows

/-! ## The tests do not fail -/

section Tests

variable {img : Image} {shvOpt : BitVec 64} {vcpu : Vcpu} {n : Nat} {m : ByteMem} {arch : Arch}

theorem shvGuestTestEptVmexitHandler_none (advanced : BitVec arch.ptrBits) :
    shvGuestTestEptVmexitHandler (testEptViolation arch none advanced) 0 =
      some (0xfee1c0de#32, 1) := by
  have hq : (testEptViolation arch none advanced).q &&& ~~~0xe00#(arch.ptrBits) =
      0x181#(arch.ptrBits) := by
    show ((0x181#(arch.ptrBits) ||| ((0#64 &&& hptProtsRwx) <<< 3).setWidth arch.ptrBits) |||
      (advanced &&& 0xe00#(arch.ptrBits))) &&& ~~~0xe00#(arch.ptrBits) = _
    have hadv : (advanced &&& 0xe00#(arch.ptrBits)) &&& ~~~0xe00#(arch.ptrBits) =
        0#(arch.ptrBits) := by
      simp [BitVec.and_assoc]
    rw [BitVec.and_comm, BitVec.and_or_distrib_left, BitVec.and_comm _ (advanced &&& _), hadv,
      BitVec.or_zero]
    cases arch <;> decide
  simp only [shvGuestTestEptVmexitHandler, hq, Option.bind_eq_bind]
  cases arch <;> rfl

theorem eptSpec_target :
    eptSpec img shvOpt vcpu n 0x12340000 = eptTargetMapping img n 0x12340000 :=
  if_pos (show InTarget 0x12340000 by decide)

theorem readable_rwx (spa : BitVec 64) (pmt : HptPmt) (lvl : Nat) :
    readable (some { spa := spa, prots := hptProtsRwx, pmt := pmt, lvl := lvl }) = true := by
  show (hptProtsRwx &&& hptProtsR != 0) = true
  decide

theorem readable_target :
    readable (eptTargetMapping img n 0x12340000) = decide (n ≠ 0) := by
  by_cases h : n = 0
  · rw [eptTargetMapping, if_pos h, decide_eq_false (not_not_intro h)]
    rfl
  · rw [eptTargetMapping, if_neg h, decide_eq_true h]
    exact readable_rwx _ _ _

theorem loadAt_target (hn : n < 256) (h0 : n ≠ 0) (w : Nat) :
    loadAt m w (eptTargetMapping img n 0x12340000) = load m (img.targetAt n) w := by
  have hoff : (0x12340000 : BitVec 64).toNat % 4096 = 0 := by decide
  have hto : (BitVec.ofNat 64 (img.targetAt n + (0x12340000 : BitVec 64).toNat % 4096)).toNat =
      img.targetAt n := by
    rw [hoff]
    exact toNat_ofNat_lt (img.targetAt_bounds hn).1
  rw [eptTargetMapping, if_neg h0]
  exact congrArg (load m · w) hto

theorem byte_load {a w k : Nat} (hk : k < w) :
    ((load m a w) >>> (8 * k)).setWidth 8 = m (a + k) := by
  apply BitVec.eq_of_getLsbD_eq
  intro j hj
  rw [BitVec.getLsbD_setWidth, BitVec.getLsbD_ushiftRight, getLsbD_load _ _ _ _ (by omega),
    decide_eq_true hj, Bool.true_and]
  congr 1
  · congr 1
    omega
  · omega

theorem shvGuestTestEptCheck_load (hf : TestDataFilled img shvOpt n m) (h0 : n ≠ 0) :
    shvGuestTestEptCheck n 0 (load m (img.targetAt n) 4) = some 0 := by
  have hb : ∀ k, k < 4 →
      (((load m (img.targetAt n) 4) >>> (8 * k)).setWidth 8 == BitVec.ofNat 8 n) = true := by
    intro k hk
    rw [byte_load hk, beq_iff_eq]
    exact hf.target _ ⟨by omega, by omega⟩
  have hb0 := hb 0 (by decide)
  rw [Nat.mul_zero, BitVec.ushiftRight_zero] at hb0
  simp only [shvGuestTestEptCheck, if_neg h0]
  rw [show ((load m (img.targetAt n) 4).setWidth 8 == BitVec.ofNat 8 n) = true from hb0,
    show (((load m (img.targetAt n) 4) >>> 8).setWidth 8 == BitVec.ofNat 8 n) = true from
      hb 1 (by decide),
    show (((load m (img.targetAt n) 4) >>> 16).setWidth 8 == BitVec.ofNat 8 n) = true from
      hb 2 (by decide),
    show (((load m (img.targetAt n) 4) >>> 24).setWidth 8 == BitVec.ofNat 8 n) = true from
      hb 3 (by decide)]
  rfl

theorem shvGuestTestVpidVmexitHandler_odd (arch : Arch) {vpid : BitVec 16} (h : vpid % 2 = 1) :
    shvGuestTestVpidVmexitHandler arch vpid = some (vpid + 2) ∧ (vpid + 2) % 2 = 1 := by
  have h0 : (vpid != 0) = true := by
    rw [bne_iff_ne]
    rintro rfl
    exact absurd h (by decide)
  refine ⟨?_, ?_⟩
  · have hc : canonical 0x12345678#64 = true := by decide
    have hn : canonical 0xf0f0f0f0f0f0f0f0#64 = false := by decide
    simp only [shvGuestTestVpidVmexitHandler, vmxInvvpid, h, h0, hc, hn]
    cases arch <;> rfl
  · have hto := congrArg BitVec.toNat h
    rw [BitVec.toNat_umod] at hto
    apply BitVec.eq_of_toNat_eq
    rw [BitVec.toNat_umod, BitVec.toNat_add]
    change vpid.toNat % 2 = 1 at hto
    show (vpid.toNat + 2) % 65536 % 2 = 1
    omega

theorem eptSpec_largePage (hl : UseLargePage shvOpt) (j : Fin 2) :
    eptSpec img shvOpt vcpu n (hva2spa (img.largePage j)) =
      eptLargeMapping img (1 - j.val) (hva2spa (img.largePage j)) := by
  obtain ⟨h₁, h₂, h₃⟩ := img.largePage_bounds j.isLt
  have hto := img.toNat_largePage j.isLt
  have hin : img.InLarge j (hva2spa (img.largePage j)).toNat := by rw [hto]; rfl
  have hnt : ¬ InTarget (hva2spa (img.largePage j)).toNat := fun ht =>
    img.inTarget_not_inLarge j.isLt ht hin
  rw [eptSpec, if_neg hnt]
  by_cases h0 : j = 0
  · subst h0
    rw [if_pos ⟨hl, hin⟩]
    rfl
  · obtain rfl : j = 1 := by omega
    have hne : ¬ img.InLarge 0 (hva2spa (img.largePage 1)).toNat := by
      intro h
      have h' : img.largePage 1 / 0x200000 = img.largePage 0 / 0x200000 := by
        rw [← img.toNat_largePage (i := 1) (by decide)]
        exact h
      have h₄ : (img.largePages + 1 * 0x200000) / 0x200000 =
          (img.largePages + 0 * 0x200000) / 0x200000 := h'
      omega
    exact (if_neg fun h => hne h.2).trans (if_pos ⟨hl, hin⟩)

theorem shvGuestTestLargePage_ok (hl : UseLargePage shvOpt) (hf : TestDataFilled img shvOpt n m)
    (j : Fin 2) :
    readable (eptLargeMapping img (1 - j.val) (hva2spa (img.largePage j))) = true ∧
      shvGuestTestLargePage j
        (loadAt m 1 (eptLargeMapping img (1 - j.val) (hva2spa (img.largePage j)))) = true := by
  refine ⟨readable_rwx _ _ _, ?_⟩
  obtain ⟨-, -, hal⟩ := img.largePage_bounds j.isLt
  have hother : 1 - j.val < 2 := by omega
  obtain ⟨-, hhi, -⟩ := img.largePage_bounds hother
  have hle := img.high_le
  have hspa : (BitVec.ofNat 64 (img.largePage (1 - j.val) +
      (hva2spa (img.largePage j)).toNat % 0x200000)).toNat = img.largePage (1 - j.val) := by
    rw [img.toNat_largePage j.isLt, hal, Nat.add_zero]
    exact toNat_ofNat_lt (by omega)
  have hload : loadAt m 1 (eptLargeMapping img (1 - j.val) (hva2spa (img.largePage j))) =
      load m (img.largePage (1 - j.val)) 1 := congrArg (load m · 1) hspa
  have hbyte : load m (img.largePage (1 - j.val)) 1 = m (img.largePage (1 - j.val)) := by
    have h := byte_load (m := m) (a := img.largePage (1 - j.val)) (w := 1) (k := 0) (by decide)
    rwa [Nat.mul_zero, BitVec.ushiftRight_zero, BitVec.setWidth_eq, Nat.add_zero] at h
  have hval := hf.large hl ⟨1 - j.val, hother⟩
  rw [hload, hbyte]
  rw [shvGuestTestLargePage, beq_iff_eq]
  refine hval.trans ?_
  by_cases h0 : j = 0
  · subst h0
    rfl
  · obtain rfl : j = 1 := by omega
    rfl

end Tests

/-! ## The invariant -/

section Guests

variable {img : Image} {shvOpt : BitVec 64} {cpus : Vcpus} {i j : Fin maxVcpuEntries}
  {σ σ' : Machine} {t t' : GuestCpu img.arch} {act : GuestAct} {c c' : Guests img} {m : ByteMem}
  {gpa : BitVec 64} {r : Option Mapping}

/-- What a CPU may have in `ept_exit_count` and in its registers at each place, where `ept_num`
is `n`. -/
def GuestPc.Ok {arch : Arch} (shvOpt : BitVec 64) (n : Nat) (count : BitVec 32) :
    GuestPc arch → Prop
  | .testEptExit e =>
      count = 0 ∧ n = 0 ∧ shvGuestTestEptVmexitHandler e 0 = some (0xfee1c0de#32, 1)
  | .testEptCheck a => shvGuestTestEptCheck n count a = some 0
  | .vmcall test eax => count = 0 ∧ eax = test.number
  | .largePage _ => count = 0 ∧ UseLargePage shvOpt
  | .failed => False
  | _ => count = 0

structure GuestCpu.Ok {arch : Arch} (shvOpt : BitVec 64) (cpu : Cpu) (t : GuestCpu arch) :
    Prop where
  started : cpu.started = t.pc.started
  inGuest : cpu.inGuest = t.pc.inGuest
  vpid : t.pc.started = true → t.vpid % 2 = 1
  pc : t.pc.Ok shvOpt cpu.eptNum t.eptExitCount

structure GuestInv (img : Image) (shvOpt : BitVec 64) (c : Guests img) : Prop where
  ept : EptInv img shvOpt c.shared
  cpu : ∀ i, (c.thread i).Ok shvOpt (c.shared.cpu i)

theorem guestInv_start (hz : img.ZeroBss m) : GuestInv img shvOpt (Guests.start img m) where
  ept := ⟨⟨_, coherent_start hz⟩, fun _ h => by cases h⟩
  cpu _ := ⟨rfl, rfl, nofun, rfl⟩

/-- The CPU a step of the machine is about. -/
def Label.Of (i : Fin maxVcpuEntries) : Label → Prop
  | .init j | .entry j | .exit j | .access j _ _ | .switch j => j = i
  | .store => True

theorem Step.other {l : Label} (hs : Step img shvOpt cpus σ l σ') (hl : l.Of i) (hji : j ≠ i) :
    σ'.cpu j = σ.cpu j := by
  cases hs with
  | store _ _ => rfl
  | init _ _ _ | entry _ _ | exit _ | access _ _ _ | switch _ _ _ =>
      obtain rfl := hl
      exact setCpu_of_ne _ _ hji

/-! What a step does to its own CPU. -/

theorem Step.init_cpu (hs : Step img shvOpt cpus σ (.init i) σ') :
    (σ'.cpu i).started = true ∧ (σ'.cpu i).inGuest = (σ.cpu i).inGuest ∧
      (σ'.cpu i).eptNum = 0 := by
  cases hs with
  | init _ _ hrun =>
      obtain ⟨b, -, rfl, hnum, -, -, hguest⟩ := installEpt_eq_some hrun
      rw [setCpu_self]
      exact ⟨rfl, hguest, hnum⟩

theorem Step.entry_cpu (hs : Step img shvOpt cpus σ (.entry i) σ') :
    σ'.cpu i = { σ.cpu i with inGuest := true } := by
  cases hs with
  | entry _ _ => rw [setCpu_self]

theorem Step.exit_cpu (hs : Step img shvOpt cpus σ (.exit i) σ') :
    σ'.cpu i = { σ.cpu i with inGuest := false } := by
  cases hs with
  | exit _ => rw [setCpu_self]

theorem Step.access_cpu (hs : Step img shvOpt cpus σ (.access i gpa r) σ') :
    ∃ tlb, σ'.cpu i = { σ.cpu i with tlb := tlb } := by
  cases hs with
  | access _ _ _ => exact ⟨_, by rw [setCpu_self]⟩

theorem Step.switch_cpu (hs : Step img shvOpt cpus σ (.switch i) σ') :
    (σ'.cpu i).started = (σ.cpu i).started ∧ (σ'.cpu i).inGuest = (σ.cpu i).inGuest ∧
      (σ'.cpu i).eptNum = ((σ.cpu i).eptNum + 1) % 32 := by
  cases hs with
  | switch _ _ hrun =>
      obtain ⟨b, -, rfl, hnum, -, hstart, hguest⟩ :=
        installEpt_eq_some (shvGuestSwitchEptVmexitHandler_eq_some.mp hrun).2
      rw [setCpu_self]
      exact ⟨hstart, hguest, hnum⟩

theorem Step.store_cpu (hs : Step img shvOpt cpus σ .store σ') : σ'.cpu = σ.cpu := by
  cases hs with
  | store _ _ => rfl

theorem GuestMove.other (h : GuestMove img shvOpt cpus i σ t act σ' t') (hji : j ≠ i) :
    σ'.cpu j = σ.cpu j := by
  cases h with
  | store hs _ => exact hs.other (i := i) trivial hji
  | violation _ _ hs _ hs' => exact (hs'.other rfl hji).trans (hs.other rfl hji)
  | init _ hs | launch _ hs | exit _ hs | resume _ hs | access _ hs | load _ hs _
  | handleEpt _ _ hs | call _ _ _ hs | switch _ _ hs | checkLargePage _ hs =>
      exact hs.other rfl hji
  | testEpt | handleEptFails | checkEpt | checkEptFails | callFails | switchFails | vpid
  | vpidFails | testLargePage => rfl

theorem GuestMove.ept (hm : GuestMove img shvOpt cpus i σ t act σ' t')
    (h : EptInv img shvOpt σ) : EptInv img shvOpt σ' := by
  cases hm with
  | store hs hd => exact h.step hs fun _ => hd
  | violation _ _ hs _ hs' => exact (h.step hs nofun).step hs' nofun
  | init _ hs | launch _ hs | exit _ hs | resume _ hs | access _ hs | load _ hs _
  | handleEpt _ _ hs | call _ _ _ hs | switch _ _ hs | checkLargePage _ hs => exact h.step hs nofun
  | testEpt | handleEptFails | checkEpt | checkEptFails | callFails | switchFails | vpid
  | vpidFails | testLargePage => exact h

theorem EptInv.target (h : EptInv img shvOpt σ)
    (hs : Step img shvOpt cpus σ (.access i 0x12340000 r) σ') :
    r = eptTargetMapping img (σ.cpu i).eptNum 0x12340000 := by
  obtain ⟨vcpu, rfl⟩ := h.access hs (by decide)
  exact eptSpec_target

/-- Where the load of the EPT test goes through, the value loaded passes the check. -/
theorem EptInv.load (h : EptInv img shvOpt σ) (hstart : (σ.cpu i).started = true)
    (hs : Step img shvOpt cpus σ (.access i 0x12340000 r) σ') (hr : readable r = true) :
    shvGuestTestEptCheck (σ.cpu i).eptNum 0 (loadAt σ.mem 4 r) = some 0 := by
  have hshow := h.shows i hstart
  have hlt := hshow.num
  rw [h.target hs, readable_target, decide_eq_true_eq] at hr
  rw [h.target hs, loadAt_target (by omega) hr]
  exact shvGuestTestEptCheck_load hshow.filled hr

theorem EptInv.violation (h : EptInv img shvOpt σ)
    (hs : Step img shvOpt cpus σ (.access i 0x12340000 r) σ') (hr : readable r = false)
    (advanced : BitVec img.arch.ptrBits) :
    (σ.cpu i).eptNum = 0 ∧
      shvGuestTestEptVmexitHandler (testEptViolation img.arch r advanced) 0 =
        some (0xfee1c0de#32, 1) := by
  rw [h.target hs, readable_target, decide_eq_false_iff_not, not_not] at hr
  refine ⟨hr, ?_⟩
  rw [h.target hs, eptTargetMapping, if_pos hr]
  exact shvGuestTestEptVmexitHandler_none advanced

theorem EptInv.largePage (h : EptInv img shvOpt σ) (hstart : (σ.cpu i).started = true)
    (hl : UseLargePage shvOpt) {k : Fin 2}
    (hs : Step img shvOpt cpus σ (.access i (hva2spa (img.largePage k)) r) σ') :
    readable r = true ∧ shvGuestTestLargePage k (loadAt σ.mem 1 r) = true := by
  have hbound : (hva2spa (img.largePage k)).toNat < 2 ^ 48 := by
    have hb := img.largePage_bounds k.isLt
    have hhi := img.high_le
    rw [img.toNat_largePage k.isLt]
    omega
  obtain ⟨vcpu, rfl⟩ := h.access hs hbound
  rw [eptSpec_largePage hl]
  exact shvGuestTestLargePage_ok hl (h.shows i hstart).filled k

theorem VmcallTest.required_of_useEpt (hopt : UseEpt shvOpt) (test : VmcallTest) :
    test.required shvOpt := by
  cases test with
  | switchEpt => exact hopt
  | vpid => trivial

/-- **No move of a CPU fails**, and each leaves what the next one needs. -/
theorem GuestMove.ok (hopt : UseEpt shvOpt)
    (hm : GuestMove img shvOpt cpus i σ t act σ' t') (h : EptInv img shvOpt σ)
    (ht : t.Ok shvOpt (σ.cpu i)) : t'.Ok shvOpt (σ'.cpu i) := by
  obtain ⟨hstart, hguest, hvpid, hpc⟩ := ht
  cases hm with
  | init hat hs =>
      obtain ⟨h₁, h₂, h₃⟩ := hs.init_cpu
      rw [hat] at hguest hpc
      exact ⟨h₁, h₂.trans hguest, fun _ => show 1#16 % 2 = 1 by decide, hpc⟩
  | launch hat hs | resume hat hs =>
      rw [hat] at hstart hpc hvpid
      rw [hs.entry_cpu]
      exact ⟨hstart, rfl, hvpid, hpc⟩
  | exit hat hs =>
      rw [hat] at hstart hpc hvpid
      rw [hs.exit_cpu]
      exact ⟨hstart, rfl, hvpid, hpc⟩
  | access _ hs =>
      obtain ⟨tlb, heq⟩ := hs.access_cpu
      rw [heq]
      exact ⟨hstart, hguest, hvpid, hpc⟩
  | store hs _ =>
      rw [hs.store_cpu]
      exact ⟨hstart, hguest, hvpid, hpc⟩
  | testEpt hat _ =>
      rw [hat] at hstart hguest hpc hvpid
      have h0 : t.eptExitCount = 0 := hpc
      rw [if_pos h0]
      exact ⟨hstart, hguest, hvpid, hpc⟩
  | load hat hs hr =>
      rw [hat] at hstart hguest hpc hvpid
      have h0 : t.eptExitCount = 0 := hpc
      have hload := h.load hstart hs hr
      obtain ⟨tlb, heq⟩ := hs.access_cpu
      rw [heq]
      refine ⟨hstart, hguest, hvpid, ?_⟩
      show shvGuestTestEptCheck (σ.cpu i).eptNum t.eptExitCount _ = some 0
      rw [h0]
      exact hload
  | violation advanced hat hs hr hs' =>
      rw [hat] at hstart hpc hvpid
      have h0 : t.eptExitCount = 0 := hpc
      obtain ⟨hnum, hquiet⟩ := h.violation hs hr advanced
      obtain ⟨tlb, heq⟩ := hs.access_cpu
      rw [hs'.exit_cpu, heq]
      exact ⟨hstart, rfl, hvpid, h0, hnum, hquiet⟩
  | handleEpt hat hrun hs =>
      rw [hat] at hstart hpc hvpid
      obtain ⟨h0, hn, hquiet⟩ := hpc
      rw [h0, hquiet] at hrun
      obtain ⟨rfl, rfl⟩ := Prod.mk.inj (Option.some.inj hrun)
      rw [hs.entry_cpu]
      refine ⟨hstart, rfl, hvpid, ?_⟩
      show shvGuestTestEptCheck (σ.cpu i).eptNum 1 0xfee1c0de = some 0
      rw [hn]
      decide
  | handleEptFails hat hrun =>
      rw [hat] at hpc
      obtain ⟨h0, -, hquiet⟩ := hpc
      rw [h0, hquiet] at hrun
      cases hrun
  | checkEpt hat hrun =>
      rw [hat] at hstart hguest hpc hvpid
      obtain rfl := Option.some.inj (hpc.symm.trans hrun)
      exact ⟨hstart, hguest, hvpid, rfl⟩
  | checkEptFails hat hrun =>
      rw [hat] at hpc
      cases hpc.symm.trans hrun
  | call hat _ _ hs =>
      rw [hat] at hstart hpc hvpid
      rw [hs.exit_cpu]
      exact ⟨hstart, rfl, hvpid, hpc, rfl⟩
  | callFails _ _ hreq => exact absurd (VmcallTest.required_of_useEpt hopt _) hreq
  | switch hat _ hs =>
      rw [hat] at hstart hguest hpc hvpid
      obtain ⟨h₁, h₂, -⟩ := hs.switch_cpu
      exact ⟨h₁.trans hstart, h₂.trans hguest, hvpid, hpc.1⟩
  | switchFails hat hfail =>
      rw [hat] at hpc
      exact absurd hfail (not_or.mpr ⟨not_not_intro hpc.2, not_not_intro hopt⟩)
  | vpid hat _ hrun =>
      rw [hat] at hstart hguest hpc hvpid
      obtain ⟨hok, hodd⟩ := shvGuestTestVpidVmexitHandler_odd img.arch (hvpid rfl)
      obtain rfl := Option.some.inj (hok.symm.trans hrun)
      exact ⟨hstart, hguest, fun _ => hodd, hpc.1⟩
  | vpidFails hat hfail =>
      rw [hat] at hpc hvpid
      obtain ⟨hok, -⟩ := shvGuestTestVpidVmexitHandler_odd img.arch (hvpid rfl)
      rcases hfail with hne | hnone
      · exact absurd hpc.2 hne
      · cases hok.symm.trans hnone
  | testLargePage hat hl =>
      rw [hat] at hstart hguest hpc hvpid
      rw [if_pos hopt]
      exact ⟨hstart, hguest, hvpid, hpc, hl⟩
  | @checkLargePage _ _ k r hat hs =>
      rw [hat] at hstart hguest hpc hvpid
      obtain ⟨h0, hl⟩ := hpc
      have hok := h.largePage hstart hl hs
      obtain ⟨tlb, heq⟩ := hs.access_cpu
      rw [if_pos hok, heq]
      by_cases hk : k = 0
      · rw [GuestPc.nextLargePage, if_pos hk]
        exact ⟨hstart, hguest, hvpid, h0, hl⟩
      · rw [GuestPc.nextLargePage, if_neg hk]
        exact ⟨hstart, hguest, hvpid, h0⟩

theorem GuestInv.step (hopt : UseEpt shvOpt) {a : Fin maxVcpuEntries × GuestAct}
    (h : GuestInv img shvOpt c)
    (hs : GuestStep img shvOpt cpus c a c') : GuestInv img shvOpt c' := by
  cases hs with
  | @mk i _ _ _ hm =>
      refine ⟨hm.ept h.ept, fun j => ?_⟩
      by_cases hji : j = i
      · subst hji
        show (Function.update c.thread j _ j).Ok shvOpt _
        rw [Function.update_self]
        exact hm.ok hopt h.ept (h.cpu j)
      · show (Function.update c.thread i _ j).Ok shvOpt _
        rw [Function.update_of_ne hji, hm.other hji]
        exact h.cpu j

theorem guestInv_run (hopt : UseEpt shvOpt) {ls : List (Fin maxVcpuEntries × GuestAct)}
    (hz : img.ZeroBss m) (hrun : Trace (GuestStep img shvOpt cpus) (Guests.start img m) ls c) :
    GuestInv img shvOpt c :=
  hrun.invariant (GuestInv.step hopt) (guestInv_start hz)

/-- **With `SHV_USE_EPT` the EPT and VPID tests never fail**, on any number of CPUs, in any
interleaving, with any translations cached. -/
theorem guest_ept_tests_never_fail (hopt : UseEpt shvOpt)
    {ls : List (Fin maxVcpuEntries × GuestAct)} (hz : img.ZeroBss m)
    (hrun : Trace (GuestStep img shvOpt cpus) (Guests.start img m) ls c)
    (i : Fin maxVcpuEntries) : (c.thread i).pc ≠ .failed := by
  intro hfailed
  have hpc := ((guestInv_run hopt hz hrun).cpu i).pc
  rw [hfailed] at hpc
  exact hpc

/-! ## No CPU is stuck -/

/-- A call of `shv_build_ept` returns, for an image that leaves enough of the pool. -/
theorem Coherent.build_total {first : Slot → Option Vcpu} {n : Nat}
    (h : Coherent img shvOpt σ first) (hhigh : img.high ≤ 0xf600000)
    (hmt : MemTypesOk img (cpus.vcpu i)) (hn : n < shvEptCount <<< 4) :
    ∃ m c, installEpt img shvOpt (cpus.vcpu i) n σ.mem (σ.cpu i) = some (m, c) := by
  have hok : CallOk (cpus.vcpu i, n) := ⟨by rw [cpus.idx]; exact i.isLt, hn⟩
  have hslot := h.slots (slotOf (cpus.vcpu i, n) hok)
  have hb : ∃ b, shvBuildEpt img shvOpt (cpus.vcpu i) n σ.mem = some b := by
    cases hf : first (slotOf (cpus.vcpu i, n) hok) with
    | none =>
        rw [hf] at hslot
        exact shvBuildEpt_first (callFor_slotOf hok) hslot hhigh hmt
    | some vcpu₀ =>
        rw [hf] at hslot
        obtain ⟨b, hb, -⟩ := shvBuildEpt_again (callFor_slotOf hok) hslot
        exact ⟨b, hb⟩
  obtain ⟨b, hb⟩ := hb
  exact ⟨_, _, by rw [installEpt, hb]; rfl⟩

variable (cpus) in
theorem EptInv.access_total (h : EptInv img shvOpt σ) (hstart : (σ.cpu i).started = true)
    (hguest : (σ.cpu i).inGuest = true) (gpa : BitVec 64) :
    ∃ r σ', Step img shvOpt cpus σ (.access i gpa r) σ' := by
  obtain ⟨first, hcoh⟩ := h.coherent
  obtain ⟨s, vcpu, -, heptp, -⟩ := (h.shows i hstart).map
  have hwalk := (hcoh.slots s).poolInv.walk gpa
  rw [← heptp] at hwalk
  exact ⟨_, _, @Step.access _ _ _ σ i gpa _ (σ.cpu i).tlb hguest (.inr hwalk) fun e he => .inl he⟩

/-- Moves of the program, as opposed to what happens on the way. -/
def GuestAct.Program : GuestAct → Prop
  | .exit | .access _ _ | .store => False
  | _ => True

theorem GuestInv.progress (hopt : UseEpt shvOpt) (h : GuestInv img shvOpt c)
    (hhigh : img.high ≤ 0xf600000) (hmt : ∀ i, MemTypesOk img (cpus.vcpu i))
    (i : Fin maxVcpuEntries) :
    ∃ act c', act.Program ∧ GuestStep img shvOpt cpus c (i, act) c' := by
  obtain ⟨hstart, hguest, -, hpc⟩ := h.cpu i
  obtain ⟨first, hcoh⟩ := h.ept.coherent
  cases hat : (c.thread i).pc with
  | reset =>
      rw [hat] at hstart
      obtain ⟨m, k, hrun⟩ := hcoh.build_total (i := i) hhigh (hmt i) (show 0 < 32 by decide)
      exact ⟨.init, _, trivial, .mk (.init hat (.init hstart hopt hrun))⟩
  | launch =>
      rw [hat] at hstart hguest
      exact ⟨.launch, _, trivial, .mk (.launch hat (.entry hstart hguest))⟩
  | main => exact ⟨.testEpt, _, trivial, .mk (.testEpt hat hopt)⟩
  | host =>
      rw [hat] at hstart hguest
      exact ⟨.resume, _, trivial, .mk (.resume hat (.entry hstart hguest))⟩
  | testEpt =>
      rw [hat] at hstart hguest
      obtain ⟨r, σ', hs⟩ := h.ept.access_total cpus hstart hguest 0x12340000
      cases hr : readable r with
      | true => exact ⟨.load, _, trivial, .mk (.load hat hs hr)⟩
      | false =>
          obtain ⟨tlb, heq⟩ := hs.access_cpu
          have hs' : Step img shvOpt cpus σ' (.exit i) _ := .exit (by rw [heq]; exact hguest)
          exact ⟨.load, _, trivial, .mk (.violation 0 hat hs hr hs')⟩
  | testEptExit e =>
      rw [hat] at hstart hguest hpc
      obtain ⟨h0, -, hquiet⟩ := hpc
      rw [← h0] at hquiet
      exact ⟨.handleEpt, _, trivial, .mk (.handleEpt hat hquiet (.entry hstart hguest))⟩
  | testEptCheck a =>
      rw [hat] at hpc
      exact ⟨.checkEpt, _, trivial, .mk (.checkEpt hat hpc)⟩
  | vmcall test eax =>
      rw [hat] at hstart hguest hpc
      obtain ⟨-, rfl⟩ := hpc
      cases test with
      | switchEpt =>
          obtain ⟨m, k, hrun⟩ := hcoh.build_total (i := i) hhigh (hmt i)
            (Nat.mod_lt ((c.shared.cpu i).eptNum + 1) (show 0 < 32 by decide))
          exact ⟨.switch, _, trivial, .mk (.switch hat rfl (.switch hstart hguest
            (shvGuestSwitchEptVmexitHandler_eq_some.mpr ⟨hopt, hrun⟩)))⟩
      | vpid =>
          have hvpid := (h.cpu i).vpid
          rw [hat] at hvpid
          obtain ⟨hok, -⟩ := shvGuestTestVpidVmexitHandler_odd img.arch (hvpid rfl)
          exact ⟨.vpid, _, trivial, .mk (.vpid hat rfl hok)⟩
  | largePage k =>
      rw [hat] at hstart hguest
      obtain ⟨r, σ', hs⟩ := h.ept.access_total cpus hstart hguest (hva2spa (img.largePage k))
      exact ⟨.checkLargePage, _, trivial, .mk (.checkLargePage hat hs)⟩
  | failed =>
      rw [hat] at hpc
      exact absurd hpc id

/-- **No CPU is ever stuck.**  With `SHV_USE_EPT`, for an image below 246 MiB whose memory types
fit an entry, every CPU can always go on with its program: the handlers return, and the pools
suffice. -/
theorem guest_ept_tests_never_stuck (hopt : UseEpt shvOpt)
    {ls : List (Fin maxVcpuEntries × GuestAct)} (hz : img.ZeroBss m)
    (hhigh : img.high ≤ 0xf600000) (hmt : ∀ i, MemTypesOk img (cpus.vcpu i))
    (hrun : Trace (GuestStep img shvOpt cpus) (Guests.start img m) ls c) (i : Fin maxVcpuEntries) :
    ∃ act c', act.Program ∧ GuestStep img shvOpt cpus c (i, act) c' :=
  (guestInv_run hopt hz hrun).progress hopt hhigh hmt i

/-! ## What a guest reads -/

/-- A sum over what CPU `i` has done. -/
def total (f : GuestAct → Nat) (i : Fin maxVcpuEntries)
    (ls : List (Fin maxVcpuEntries × GuestAct)) : Nat :=
  ((ls.filter fun a => a.1 = i).map fun a => f a.2).sum

theorem total_concat_self {f : GuestAct → Nat} {ls : List (Fin maxVcpuEntries × GuestAct)} :
    total f i (ls ++ [(i, act)]) = total f i ls + f act := by
  simp [total, List.filter_append]

theorem total_concat_other {f : GuestAct → Nat} {ls : List (Fin maxVcpuEntries × GuestAct)}
    (h : i ≠ j) : total f j (ls ++ [(i, act)]) = total f j ls := by
  simp [total, List.filter_append, h]

def GuestAct.switches : GuestAct → Nat
  | .switch => 1
  | _ => 0

def GuestAct.vpids : GuestAct → Nat
  | .vpid => 1
  | _ => 0

/-- A CPU that has switched its EPT `s` times and its VPID `v` times. -/
structure Counted {arch : Arch} (cpu : Cpu) (t : GuestCpu arch) (s v : Nat) : Prop where
  eptNum : cpu.eptNum = s % 32
  vpid : t.pc.started = true → t.vpid = BitVec.ofNat 16 (1 + 2 * v)
  reset : t.pc.started = false → s = 0 ∧ v = 0

theorem Counted.congr {s v : Nat} {cpu cpu' : Cpu} (h : Counted cpu t s v)
    (hnum : cpu'.eptNum = cpu.eptNum) (hvpid : t'.vpid = t.vpid)
    (hstart : t'.pc.started = t.pc.started) : Counted cpu' t' s v where
  eptNum := hnum.trans h.eptNum
  vpid hs := hvpid.trans (h.vpid (hstart.symm.trans hs))
  reset hs := h.reset (hstart.symm.trans hs)

theorem GuestMove.counted (hopt : UseEpt shvOpt) {s v : Nat}
    (hm : GuestMove img shvOpt cpus i σ t act σ' t')
    (ht : t.Ok shvOpt (σ.cpu i)) (h : Counted (σ.cpu i) t s v) :
    Counted (σ'.cpu i) t' (s + act.switches) (v + act.vpids) := by
  cases hm with
  | init hat hs =>
      obtain ⟨-, -, hnum⟩ := hs.init_cpu
      obtain ⟨rfl, rfl⟩ := h.reset (by rw [hat]; rfl)
      exact ⟨hnum, fun _ => rfl, fun hr => by cases hr⟩
  | switch hat _ hs =>
      obtain ⟨-, -, hnum⟩ := hs.switch_cpu
      have hstart : t.pc.started = true := by rw [hat]; rfl
      refine ⟨?_, fun _ => h.vpid hstart, fun hr => by cases hr⟩
      rw [hnum, h.eptNum, Nat.mod_add_mod]
      rfl
  | vpid hat _ hrun =>
      have hstart : t.pc.started = true := by rw [hat]; rfl
      obtain ⟨hok, -⟩ := shvGuestTestVpidVmexitHandler_odd img.arch (ht.vpid hstart)
      obtain rfl := Option.some.inj (hok.symm.trans hrun)
      refine ⟨h.eptNum, fun _ => ?_, fun hr => by cases hr⟩
      show t.vpid + 2 = BitVec.ofNat 16 (1 + 2 * (v + 1))
      rw [h.vpid hstart, show 1 + 2 * (v + 1) = 1 + 2 * v + 2 by omega]
      exact (BitVec.ofNat_add (1 + 2 * v) 2).symm
  | callFails _ _ hreq => exact absurd (VmcallTest.required_of_useEpt hopt _) hreq
  | switchFails hat hfail =>
      have hpc := ht.pc
      rw [hat] at hpc
      exact absurd hfail (not_or.mpr ⟨not_not_intro hpc.2, not_not_intro hopt⟩)
  | vpidFails hat hfail =>
      have hpc := ht.pc
      rw [hat] at hpc
      obtain ⟨hok, -⟩ :=
        shvGuestTestVpidVmexitHandler_odd img.arch (ht.vpid (by rw [hat]; rfl))
      rcases hfail with hne | hnone
      · exact absurd hpc.2 hne
      · cases hok.symm.trans hnone
  | launch hat hs | resume hat hs | handleEpt hat _ hs =>
      exact h.congr (by rw [hs.entry_cpu]) rfl (by rw [hat]; rfl)
  | exit hat hs | call hat _ _ hs => exact h.congr (by rw [hs.exit_cpu]) rfl (by rw [hat]; rfl)
  | access _ hs =>
      obtain ⟨tlb, heq⟩ := hs.access_cpu
      exact h.congr (by rw [heq]) rfl rfl
  | store hs _ => exact h.congr (by rw [hs.store_cpu]) rfl rfl
  | load hat hs _ =>
      obtain ⟨tlb, heq⟩ := hs.access_cpu
      exact h.congr (by rw [heq]) rfl (by rw [hat]; rfl)
  | violation _ hat hs _ hs' =>
      obtain ⟨tlb, heq⟩ := hs.access_cpu
      exact h.congr (by rw [hs'.exit_cpu, heq]) rfl (by rw [hat]; rfl)
  | testEpt hat _ =>
      refine h.congr rfl rfl ?_
      rw [hat]
      dsimp only
      split <;> rfl
  | checkLargePage hat hs =>
      obtain ⟨tlb, heq⟩ := hs.access_cpu
      refine h.congr (by rw [heq]) rfl ?_
      rw [hat]
      dsimp only [GuestPc.nextLargePage]
      split
      · split <;> rfl
      · rfl
  | handleEptFails hat _ | checkEpt hat _ | checkEptFails hat _ =>
      exact h.congr rfl rfl (by rw [hat]; rfl)
  | testLargePage hat _ => exact h.congr rfl rfl (by rw [hat, if_pos hopt]; rfl)

/-- `ept_num` and the VPID of a CPU tell how often it has switched, whatever the others do. -/
theorem counted_run (hopt : UseEpt shvOpt) {ls : List (Fin maxVcpuEntries × GuestAct)}
    (hz : img.ZeroBss m) (hrun : Trace (GuestStep img shvOpt cpus) (Guests.start img m) ls c)
    (i : Fin maxVcpuEntries) :
    Counted (c.shared.cpu i) (c.thread i) (total GuestAct.switches i ls)
      (total GuestAct.vpids i ls) := by
  refine (hrun.history (P := fun ls c => GuestInv img shvOpt c ∧ Counted (c.shared.cpu i)
    (c.thread i) (total GuestAct.switches i ls) (total GuestAct.vpids i ls))
    (fun {ls c a c'} h hs => ⟨h.1.step hopt hs, ?_⟩)
    ⟨guestInv_start hz, rfl, fun h => (by cases h), fun _ => ⟨rfl, rfl⟩⟩).2
  cases hs with
  | @mk j act σ' t' hm =>
      by_cases hij : i = j
      · subst hij
        show Counted _ (Function.update c.thread i _ i) _ _
        rw [Function.update_self, total_concat_self, total_concat_self]
        exact hm.counted hopt (h.1.cpu i) h.2
      · show Counted _ (Function.update c.thread j _ i) _ _
        rw [Function.update_of_ne hij, hm.other hij, total_concat_other (Ne.symm hij),
          total_concat_other (Ne.symm hij)]
        exact h.2

theorem shvGuestTestEptCheck_eq_some {n : Nat} {count a : BitVec 32} (hn : n < 32)
    (h : shvGuestTestEptCheck n count a = some 0) :
    a = if n = 0 then 0xfee1c0de#32 else BitVec.ofNat 32 (n * 0x01010101) := by
  by_cases h0 : n = 0
  · simp only [shvGuestTestEptCheck, if_pos h0, Option.bind_eq_bind] at h
    obtain ⟨_, ha, -⟩ := Option.bind_eq_some_iff.mp h
    rw [if_pos h0]
    exact beq_iff_eq.mp (cAssert_eq_some.mp ha)
  · simp only [shvGuestTestEptCheck, if_neg h0, Option.bind_eq_bind] at h
    obtain ⟨_, h₁, h⟩ := Option.bind_eq_some_iff.mp h
    obtain ⟨_, h₂, h⟩ := Option.bind_eq_some_iff.mp h
    obtain ⟨_, h₃, h⟩ := Option.bind_eq_some_iff.mp h
    obtain ⟨_, h₄, -⟩ := Option.bind_eq_some_iff.mp h
    have hbyte : ∀ {x : BitVec 32}, cAssert (x.setWidth 8 == BitVec.ofNat 8 n) = some () →
        x.toNat % 256 = n := by
      intro x hx
      have heq := congrArg BitVec.toNat (beq_iff_eq.mp (cAssert_eq_some.mp hx))
      rw [BitVec.toNat_setWidth, BitVec.toNat_ofNat] at heq
      omega
    have b₁ := hbyte h₁
    have b₂ := hbyte h₂
    have b₃ := hbyte h₃
    have b₄ := hbyte h₄
    rw [BitVec.toNat_ushiftRight, Nat.shiftRight_eq_div_pow] at b₂ b₃ b₄
    change a.toNat / 256 % 256 = n at b₂
    change a.toNat / 65536 % 256 = n at b₃
    change a.toNat / 16777216 % 256 = n at b₄
    rw [show 65536 = 256 * 256 from rfl, ← Nat.div_div_eq_div_mul] at b₃
    rw [show 16777216 = 256 * 256 * 256 from rfl, ← Nat.div_div_eq_div_mul,
      ← Nat.div_div_eq_div_mul] at b₄
    have hlt := a.isLt
    rw [if_neg h0]
    apply BitVec.eq_of_toNat_eq
    rw [BitVec.toNat_ofNat]
    omega

/-- **What a guest reads at `0x12340000`** depends on nothing but how often its CPU has switched:
after `k` switches every byte is `k % 32`, and where that is 0 the page is not there and the
handler leaves its mark in EAX. -/
theorem guest_ept_load_value (hopt : UseEpt shvOpt) {ls : List (Fin maxVcpuEntries × GuestAct)}
    (hz : img.ZeroBss m) (hrun : Trace (GuestStep img shvOpt cpus) (Guests.start img m) ls c)
    {i : Fin maxVcpuEntries}
    {a : BitVec 32} (hat : (c.thread i).pc = .testEptCheck a) :
    a = if total GuestAct.switches i ls % 32 = 0 then 0xfee1c0de#32
      else BitVec.ofNat 32 (total GuestAct.switches i ls % 32 * 0x01010101) := by
  have hpc := ((guestInv_run hopt hz hrun).cpu i).pc
  rw [hat, (counted_run hopt hz hrun i).eptNum] at hpc
  exact shvGuestTestEptCheck_eq_some (Nat.mod_lt _ (by decide)) hpc

end Guests

/-! ## A run -/

section Sample

variable {c : Guests sampleImage} {ls : List (Fin maxVcpuEntries × GuestAct)} {act : GuestAct}
  {σ' : Machine} {t' : GuestCpu sampleImage.arch}

/-- Runs of the boot CPU on the sample image, with EPT switching. -/
abbrev SampleRun (ls : List (Fin maxVcpuEntries × GuestAct)) (c : Guests sampleImage) : Prop :=
  Trace (GuestStep sampleImage sampleOpt sampleVcpus) (Guests.start sampleImage fun _ => 0)
    ls c

theorem SampleRun.inv (h : SampleRun ls c) : GuestInv sampleImage sampleOpt c :=
  guestInv_run (by decide) (fun _ _ _ _ => rfl) h

theorem SampleRun.move (h : SampleRun ls c)
    (hm : GuestMove sampleImage sampleOpt sampleVcpus bsp c.shared (c.thread bsp) act σ' t') :
    ∃ c', SampleRun (ls ++ [(bsp, act)]) c' ∧ (c'.thread bsp).pc = t'.pc :=
  ⟨_, h.snoc (.mk hm), by
    show (Function.update c.thread bsp t' bsp).pc = _
    rw [Function.update_self]⟩

theorem SampleRun.build (h : SampleRun ls c) {n : Nat} (hn : n < shvEptCount <<< 4) :
    ∃ m k, installEpt sampleImage sampleOpt (sampleVcpus.vcpu bsp) n c.shared.mem
      (c.shared.cpu bsp) = some (m, k) := by
  obtain ⟨first, hcoh⟩ := h.inv.ept.coherent
  exact hcoh.build_total (by decide) memTypesOk_sample hn

theorem SampleRun.load (h : SampleRun ls c) (hat : (c.thread bsp).pc = .main) :
    ∃ c' r σ', SampleRun (ls ++ [(bsp, .testEpt)]) c' ∧ (c'.thread bsp).pc = .testEpt ∧
      Step sampleImage sampleOpt sampleVcpus c'.shared (.access bsp 0x12340000 r) σ' ∧
      (readable r = true ↔ total GuestAct.switches bsp ls % 32 ≠ 0) := by
  have h0 : (c.thread bsp).eptExitCount = 0 := by
    have hpc := (h.inv.cpu bsp).pc
    rw [hat] at hpc
    exact hpc
  obtain ⟨c', h', hat'⟩ := h.move (.testEpt hat (by decide))
  replace hat' : (c'.thread bsp).pc = .testEpt := by rw [hat', if_pos h0]
  obtain ⟨hstart, hguest, -, -⟩ := h'.inv.cpu bsp
  rw [hat'] at hstart hguest
  obtain ⟨r, σ', hs⟩ := h'.inv.ept.access_total sampleVcpus hstart hguest 0x12340000
  refine ⟨c', r, σ', h', hat', hs, ?_⟩
  obtain ⟨vcpu, rfl⟩ := h'.inv.ept.access hs (by decide)
  have hnum := (counted_run (by decide) (fun _ _ _ _ => rfl) h' bsp).eptNum
  rw [total_concat_self] at hnum
  rw [eptSpec_target, readable_target, decide_eq_true_eq, hnum]
  exact Iff.rfl

theorem sampleRun_first :
    ∃ c, SampleRun [(bsp, .init), (bsp, .launch), (bsp, .testEpt), (bsp, .load),
      (bsp, .handleEpt)] c ∧ (c.thread bsp).pc = .testEptCheck 0xfee1c0de#32 := by
  have h₀ : SampleRun [] (Guests.start sampleImage fun _ => 0) := .nil
  obtain ⟨m, k, hrun⟩ := h₀.build (n := 0) (by decide)
  obtain ⟨c₁, h₁, hat₁⟩ := h₀.move (.init rfl (.init rfl (by decide) hrun))
  obtain ⟨hstart₁, hguest₁, -, -⟩ := h₁.inv.cpu bsp
  rw [hat₁] at hstart₁ hguest₁
  obtain ⟨c₂, h₂, hat₂⟩ := h₁.move (.launch hat₁ (.entry hstart₁ hguest₁))
  obtain ⟨c₃, r, σ', h₃, hat₃, hs, hr⟩ := h₂.load hat₂
  have hnone : readable r = false := by
    rw [← Bool.not_eq_true, hr]
    decide
  obtain ⟨tlb, heq⟩ := hs.access_cpu
  have hguest₃ := (h₃.inv.cpu bsp).inGuest
  rw [hat₃] at hguest₃
  obtain ⟨c₄, h₄, hat₄⟩ := h₃.move
    (.violation 0 hat₃ hs hnone (.exit (by rw [heq]; exact hguest₃)))
  obtain ⟨hstart₄, hguest₄, -, hpc₄⟩ := h₄.inv.cpu bsp
  rw [hat₄] at hstart₄ hguest₄ hpc₄
  obtain ⟨hcount, -, hquiet⟩ := hpc₄
  rw [← hcount] at hquiet
  obtain ⟨c₅, h₅, hat₅⟩ := h₄.move (.handleEpt hat₄ hquiet (.entry hstart₄ hguest₄))
  exact ⟨c₅, h₅, hat₅⟩

theorem sampleRun_second :
    ∃ c a, SampleRun [(bsp, .init), (bsp, .launch), (bsp, .testEpt), (bsp, .load),
      (bsp, .handleEpt), (bsp, .checkEpt), (bsp, .call .switchEpt), (bsp, .switch),
      (bsp, .resume), (bsp, .testEpt), (bsp, .load)] c ∧
      (c.thread bsp).pc = .testEptCheck a := by
  obtain ⟨c₅, h₅, hat₅⟩ := sampleRun_first
  have hpc₅ := (h₅.inv.cpu bsp).pc
  rw [hat₅] at hpc₅
  obtain ⟨c₆, h₆, hat₆⟩ := h₅.move (.checkEpt hat₅ hpc₅)
  have hguest₆ := (h₆.inv.cpu bsp).inGuest
  rw [hat₆] at hguest₆
  have hopt : VmcallTest.enabled sampleOpt .switchEpt :=
    show sampleOpt &&& shvUseSwitchEpt ≠ 0 by decide
  have hreq : VmcallTest.required sampleOpt .switchEpt := show UseEpt sampleOpt by decide
  obtain ⟨c₇, h₇, hat₇⟩ := h₆.move (.call hat₆ hopt hreq (.exit hguest₆))
  obtain ⟨hstart₇, hguest₇, -, -⟩ := h₇.inv.cpu bsp
  rw [hat₇] at hstart₇ hguest₇
  obtain ⟨m, k, hrun⟩ := h₇.build (Nat.mod_lt ((c₇.shared.cpu bsp).eptNum + 1)
    (show 0 < 32 by decide))
  obtain ⟨c₈, h₈, hat₈⟩ := h₇.move (.switch hat₇ rfl (.switch hstart₇ hguest₇
    (shvGuestSwitchEptVmexitHandler_eq_some.mpr ⟨by decide, hrun⟩)))
  obtain ⟨hstart₈, hguest₈, -, -⟩ := h₈.inv.cpu bsp
  rw [hat₈] at hstart₈ hguest₈
  obtain ⟨c₉, h₉, hat₉⟩ := h₈.move (.resume hat₈ (.entry hstart₈ hguest₈))
  obtain ⟨c₁₀, r, σ', h₁₀, hat₁₀, hs, hr⟩ := h₉.load hat₉
  obtain ⟨c₁₁, h₁₁, hat₁₁⟩ := h₁₀.move (.load hat₁₀ hs (hr.mpr (by decide)))
  exact ⟨c₁₁, _, h₁₁, hat₁₁⟩

/-- The two tests of this run have not failed. -/
theorem guest_ept_tests_never_fail_sample :
    ∃ c a, SampleRun [(bsp, .init), (bsp, .launch), (bsp, .testEpt), (bsp, .load),
      (bsp, .handleEpt), (bsp, .checkEpt), (bsp, .call .switchEpt), (bsp, .switch),
      (bsp, .resume), (bsp, .testEpt), (bsp, .load)] c ∧
      (c.thread bsp).pc = .testEptCheck a ∧ (c.thread bsp).pc ≠ .failed := by
  obtain ⟨c, a, h, hat⟩ := sampleRun_second
  exact ⟨c, a, h, hat, guest_ept_tests_never_fail (by decide) (fun _ _ _ _ => rfl) h bsp⟩

/-- After the load of the first test the boot CPU can go on. -/
theorem guest_ept_tests_never_stuck_sample :
    ∃ c act c', (c.thread bsp).pc = .testEptCheck 0xfee1c0de#32 ∧ act.Program ∧
      GuestStep sampleImage sampleOpt sampleVcpus c (bsp, act) c' := by
  obtain ⟨c, h, hat⟩ := sampleRun_first
  have hmt : ∀ i, MemTypesOk sampleImage (sampleVcpus.vcpu i) := fun _ => memTypesOk_sample
  obtain ⟨act, c', hact, hs⟩ := guest_ept_tests_never_stuck (by decide) (fun _ _ _ _ => rfl)
    (by decide) hmt h bsp
  exact ⟨c, act, c', hat, hact, hs⟩

/-- After one switch the guest reads ones. -/
theorem guest_ept_load_value_sample :
    ∃ c, SampleRun [(bsp, .init), (bsp, .launch), (bsp, .testEpt), (bsp, .load),
      (bsp, .handleEpt), (bsp, .checkEpt), (bsp, .call .switchEpt), (bsp, .switch),
      (bsp, .resume), (bsp, .testEpt), (bsp, .load)] c ∧
      (c.thread bsp).pc = .testEptCheck 0x01010101#32 := by
  obtain ⟨c, a, h, hat⟩ := sampleRun_second
  have ha := guest_ept_load_value (by decide) (fun _ _ _ _ => rfl) h hat
  rw [if_neg (by decide)] at ha
  refine ⟨c, h, ?_⟩
  rw [hat, ha]
  rfl

end Sample

end Shv
