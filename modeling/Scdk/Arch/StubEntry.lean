import Scdk.Arch.StubRun
import Scdk.Mm.MapAnswers

/-! # When the user test is entered

    `run_stub_in_aspace` comes to the program by its arguments, the rights of the tokens, the
    page tables and the answers of the page allocator.

    * `EntersTest`: all that it needs, and the state in which the program is entered,
    * `usermodeRunTaskTest_cases`: with these the program runs, and without them the function
      fails before it,
    * `leaveStub_eq_ok`: what the answer depends on when the program has come back. -/

namespace Scdk

variable {δ : Type}

/-- The frames with the user test and its stack in these pages. -/
def Stubs.inFrames (s : Stubs) (frames : Frames) (code stack : UInt64) : Frames :=
  fillPage (fillPage (fillPage frames code []) stack []) code s.userTest

/-- The state in which the user test is entered. -/
def Kernel.inTest (k : Kernel (Host δ)) (s : Stubs) (a : RunAnswers) (code stack : UInt64)
    (vmm : Vmm) : Kernel (Host δ) :=
  Kernel.enter
    { k.withStack s.syscallStack with
      frames := s.inFrames k.frames code stack
      vmm := vmm } a

/-- What `scdk_usermode_run_task_test` needs to enter the program, in state `kᵤ`. -/
structure EntersTest (s : Stubs) (a : RunAnswers) (aspace thread hhdmOffset : UInt64)
    (k kᵤ : Kernel (Host δ)) : Prop where
  thread : ∃ entry, capCheck k.objects k.caps thread Right.read ObjType.thread = .ok entry
  args : aspace ≠ 0 ∧ hhdmOffset ≠ 0
  paging : k.vmm.initialized = true
  console : ∃ endpoint, serviceLookup k.services Service.console = .ok endpoint
  fits : stubFits s.userTest
  pages : ∃ code stack b v v', (a.code 0).1 = .ok code ∧ a.userStack.1 = .ok stack ∧
    lookupAspace k.objects k.caps k.devices.run.aspaces aspace
      (Right.map ||| Right.read ||| Right.write) = .ok b ∧
    MapsPage k.vmm (a.code 0).2 (k.devices.run.aspaces b).rootPhys userTestCodeVirt code vmmMapUser v ∧
    MapsPage v a.userStack.2 (k.devices.run.aspaces b).rootPhys (userTestStackTop - 4096) stack
      (vmmMapWrite ||| vmmMapUser) v' ∧
    kᵤ = k.inTest s a code stack { v' with activeCr3Phys := (k.devices.run.aspaces b).rootPhys }

section stub

variable {s : Stubs} {a : RunAnswers} {aspace thread hhdmOffset : UInt64} {k kᵤ : Kernel (Host δ)}

@[simp] theorem Kernel.withStack_aspaces (k : Kernel (Host δ)) (stack : StackPage) :
    (k.withStack stack).devices.run.aspaces = k.devices.run.aspaces := by
  rw [Kernel.withStack]

theorem K.addressSpaceMap_eq_ok {vaddr paddr flags : UInt64} {pages : PageSupply} {k' : Kernel (Host δ)} :
    K.addressSpaceMap aspace vaddr paddr flags pages k = (.ok (), k') ↔
      ∃ b v, lookupAspace k.objects k.caps k.devices.run.aspaces aspace (mapRights flags) = .ok b ∧
        validateUserPage vaddr = .ok () ∧
        MapsPage k.vmm pages (k.devices.run.aspaces b).rootPhys vaddr paddr (flags ||| vmmMapUser) v ∧
        k' = { k with vmm := v } := by
  unfold K.addressSpaceMap
  rcases hmap : Scdk.addressSpaceMap k.objects k.caps k.devices.run.aspaces k.vmm pages aspace vaddr
    paddr flags with ⟨r, v⟩
  constructor
  · intro h
    obtain ⟨rfl, rfl⟩ := Prod.mk.inj h
    obtain ⟨b, hb, hpage, hmaps⟩ := Scdk.addressSpaceMap_eq_ok.mp hmap
    exact ⟨b, v, hb, hpage, hmaps, rfl⟩
  · rintro ⟨b, v', hb, hpage, hmaps, rfl⟩
    obtain ⟨rfl, rfl⟩ := Prod.mk.inj (hmap.symm.trans (Scdk.addressSpaceMap_eq_ok.mpr ⟨b, hb, hpage, hmaps⟩))
    rfl

theorem vmmActivateRoot_eq_ok {rootPhys : UInt64} {v v' : Vmm} :
    Scdk.vmmActivateRoot v rootPhys = (.ok (), v') ↔
      validateRoot v rootPhys = .ok () ∧ v' = { v with activeCr3Phys := rootPhys } := by
  unfold Scdk.vmmActivateRoot
  cases validateRoot v rootPhys with
  | error e => simp
  | ok _ =>
    dsimp only
    rw [Prod.mk.injEq, eq_comm (a := v')]

/-- The root of an address space is activated when the token can be read. -/
theorem K.addressSpaceActivate_eq_ok {k' : Kernel (Host δ)} :
    K.addressSpaceActivate aspace k = (.ok (), k') ↔
      ∃ b, lookupAspace k.objects k.caps k.devices.run.aspaces aspace Right.read = .ok b ∧
        validateRoot k.vmm (k.devices.run.aspaces b).rootPhys = .ok () ∧
        k' = { k with vmm := { k.vmm with activeCr3Phys := (k.devices.run.aspaces b).rootPhys } } := by
  unfold K.addressSpaceActivate Scdk.addressSpaceActivate
  cases lookupAspace k.objects k.caps k.devices.run.aspaces aspace Right.read with
  | error e => simp
  | ok b =>
    dsimp only
    rcases hactivate : Scdk.vmmActivateRoot k.vmm (k.devices.run.aspaces b).rootPhys with ⟨r, v⟩
    constructor
    · intro h
      obtain ⟨rfl, rfl⟩ := Prod.mk.inj h
      obtain ⟨hroot, rfl⟩ := vmmActivateRoot_eq_ok.mp hactivate
      exact ⟨b, rfl, hroot, rfl⟩
    · rintro ⟨_, hb, hroot, rfl⟩
      obtain rfl := Except.ok.inj hb
      obtain ⟨rfl, rfl⟩ := Prod.mk.inj (hactivate.symm.trans (vmmActivateRoot_eq_ok.mpr ⟨hroot, rfl⟩))
      rfl

/-- Roots are checked by the flag of the paging code only. -/
theorem MapsPage.root_valid {v v' w : Vmm} {pages : PageSupply} {rootPhys virt phys flags : UInt64}
    (h : MapsPage v pages rootPhys virt phys flags v') (hinit : w.initialized = v.initialized) :
    validateRoot w rootPhys = .ok () := by
  have hvalid := h.validRoot
  unfold validateRoot at hvalid ⊢
  rw [hinit]
  exact hvalid

theorem MapsPage.initialized {v v' : Vmm} {pages : PageSupply} {rootPhys virt phys flags : UInt64}
    (h : MapsPage v pages rootPhys virt phys flags v') : v'.initialized = v.initialized := by
  obtain ⟨_, _, _, _, rfl⟩ := h.entry
  rfl

/-- The two pages are filled, and mapped one after the other. -/
theorem mapStubPages_steps {k' : Kernel (Host δ)} :
    mapStubPages s a aspace k = (.ok (), k') ↔
      stubFits s.userTest ∧ ∃ code stack k₁, (a.code 0).1 = .ok code ∧ a.userStack.1 = .ok stack ∧
        K.addressSpaceMap aspace userTestCodeVirt code 0 (a.code 0).2
          { k with frames := s.inFrames k.frames code stack } = (.ok (), k₁) ∧
        K.addressSpaceMap aspace (userTestStackTop - 4096) stack vmmMapWrite a.userStack.2 k₁ =
          (.ok (), k') := by
  constructor
  · intro h
    obtain ⟨code, k, hask, h₁⟩ := Effect.bind_eq_ok h
    obtain ⟨hcode, rfl⟩ := Effect.ask_eq_ok hask
    obtain ⟨stack, k, hask, h₂⟩ := Effect.bind_eq_ok h₁
    obtain ⟨hstack, rfl⟩ := Effect.ask_eq_ok hask
    obtain ⟨_, _, hfill, h₃⟩ := Effect.bind_eq_ok h₂
    obtain ⟨_, rfl⟩ := Prod.mk.inj hfill
    obtain ⟨_, _, hfill, h₄⟩ := Effect.bind_eq_ok h₃
    obtain ⟨_, rfl⟩ := Prod.mk.inj hfill
    obtain ⟨_, _, hrequire, h₅⟩ := Effect.bind_eq_ok h₄
    obtain ⟨hfits, hstate⟩ := Effect.require_eq_ok hrequire
    rw [hstate] at h₅
    obtain ⟨_, _, hfill, h₆⟩ := Effect.bind_eq_ok h₅
    obtain ⟨_, rfl⟩ := Prod.mk.inj hfill
    obtain ⟨_, k₁, hmap, h₇⟩ := Effect.bind_eq_ok h₆
    rw [Effect.attempt_bind] at h₇
    rcases hmap' : K.addressSpaceMap aspace (userTestStackTop - 4096) stack vmmMapWrite a.userStack.2
      k₁ with ⟨r, k₂⟩
    rw [hmap'] at h₇
    cases r with
    | error e =>
      obtain ⟨_, _, _, hfail⟩ := Effect.bind_eq_ok h₇
      cases hfail
    | ok _ =>
      obtain ⟨_, rfl⟩ := Prod.mk.inj h₇
      exact ⟨hfits, code, stack, k₁, hcode, hstack, hmap, hmap'⟩
  · rintro ⟨hfits, code, stack, k₁, hcode, hstack, hmap, hmap'⟩
    unfold mapStubPages
    rw [Effect.ask_bind, hcode]
    dsimp only
    rw [Effect.ask_bind, hstack]
    dsimp only
    rw [Effect.bind_of_ok (show K.fillPage code [] k = (.ok (), _) from rfl),
      Effect.bind_of_ok (show K.fillPage stack [] _ = (.ok (), _) from rfl),
      Effect.bind_of_ok (Effect.require_pos hfits _),
      Effect.bind_of_ok (show K.fillPage code s.userTest _ =
        (.ok (), { k with frames := s.inFrames k.frames code stack }) from rfl),
      Effect.bind_of_ok hmap, Effect.attempt_bind, hmap']
    rfl

/-- The pages of the user test are mapped when both are there and can be mapped. -/
theorem mapStubPages_eq_ok {k' : Kernel (Host δ)} :
    mapStubPages s a aspace k = (.ok (), k') ↔
      stubFits s.userTest ∧ ∃ code stack b v v', (a.code 0).1 = .ok code ∧ a.userStack.1 = .ok stack ∧
        lookupAspace k.objects k.caps k.devices.run.aspaces aspace
          (Right.map ||| Right.read ||| Right.write) = .ok b ∧
        MapsPage k.vmm (a.code 0).2 (k.devices.run.aspaces b).rootPhys userTestCodeVirt code vmmMapUser v ∧
        MapsPage v a.userStack.2 (k.devices.run.aspaces b).rootPhys (userTestStackTop - 4096) stack
          (vmmMapWrite ||| vmmMapUser) v' ∧
        k' = { k with frames := s.inFrames k.frames code stack, vmm := v' } := by
  have hread : (0 : UInt64) ||| vmmMapUser = vmmMapUser := by decide
  rw [mapStubPages_steps]
  constructor
  · rintro ⟨hfits, code, stack, _, hcode, hstack, hmap, hmap'⟩
    obtain ⟨b, v, hlookup, _, hfirst, rfl⟩ := K.addressSpaceMap_eq_ok.mp hmap
    obtain ⟨b', v', hlookup', _, hsecond, rfl⟩ := K.addressSpaceMap_eq_ok.mp hmap'
    -- The stack page asks for more rights to the same address space.
    have hless : lookupAspace k.objects k.caps k.devices.run.aspaces aspace (mapRights 0) = .ok b' :=
      lookupAspace_of_less hlookup' (by decide) (by decide)
    obtain rfl := Except.ok.inj (hlookup.symm.trans hless)
    rw [hread] at hfirst
    exact ⟨hfits, code, stack, b, v, v', hcode, hstack, hlookup', hfirst, hsecond, rfl⟩
  · rintro ⟨hfits, code, stack, b, v, v', hcode, hstack, hlookup, hfirst, hsecond, rfl⟩
    have hless : lookupAspace k.objects k.caps k.devices.run.aspaces aspace (mapRights 0) = .ok b :=
      lookupAspace_of_less hlookup (by decide) (by decide)
    rw [← hread] at hfirst
    exact ⟨hfits, code, stack, { k with frames := s.inFrames k.frames code stack, vmm := v }, hcode, hstack,
      K.addressSpaceMap_eq_ok.mpr ⟨b, v, hless, by decide, hfirst, rfl⟩,
      K.addressSpaceMap_eq_ok.mpr ⟨b, v', hlookup, by decide, hsecond, rfl⟩⟩

/-- **Entering.**  With all that it needs, the function comes to the program. -/
theorem EntersTest.prepare (h : EntersTest s a aspace thread hhdmOffset k kᵤ) :
    ∃ k₁, prepareStub s a aspace hhdmOffset k = (.ok k.vmm.activeCr3Phys, k₁) ∧ kᵤ = k₁.enter a := by
  obtain ⟨code, stack, b, v, v', hcode, hstack, hlookup, hfirst, hsecond, rfl⟩ := h.pages
  obtain ⟨endpoint, hconsole⟩ := h.console
  set k₀ := k.withStack s.syscallStack with hk₀
  have hspaces : k₀.devices.run.aspaces = k.devices.run.aspaces := k.withStack_aspaces _
  have hroot : K.vmmCurrentRoot k₀ = (.ok k.vmm.activeCr3Phys, k₀) := by
    show ((if k.vmm.initialized = false then _ else _), k₀) = _
    rw [if_neg (by simp [h.paging])]
    rfl
  have hserved : K.serviceLookup Service.console k₀ = (.ok endpoint, k₀) := congrArg (·, k₀) hconsole
  set k₁ : Kernel (Host δ) := { k₀ with frames := s.inFrames k.frames code stack, vmm := v' } with hk₁
  have hpages : mapStubPages s a aspace k₀ = (.ok (), k₁) := by
    refine mapStubPages_eq_ok.mpr ⟨h.fits, code, stack, b, v, v', hcode, hstack, ?_, ?_, ?_, rfl⟩
    · rw [hspaces]
      exact hlookup
    · rw [hspaces]
      exact hfirst
    · rw [hspaces]
      exact hsecond
  -- To activate the space the right to read is enough.
  have hactivate : K.addressSpaceActivate aspace k₁ =
      (.ok (), { k₁ with vmm := { v' with activeCr3Phys := (k.devices.run.aspaces b).rootPhys } }) := by
    have hspaces₁ : k₁.devices.run.aspaces = k.devices.run.aspaces := hspaces
    refine K.addressSpaceActivate_eq_ok.mpr ⟨b, ?_, ?_, ?_⟩
    · rw [hspaces₁]
      exact lookupAspace_of_less hlookup (by decide) (by decide)
    · rw [hspaces₁]
      exact hsecond.root_valid hsecond.initialized
    · rw [hspaces₁]
  refine ⟨{ k₁ with vmm := { v' with activeCr3Phys := (k.devices.run.aspaces b).rootPhys } }, ?_, rfl⟩
  unfold prepareStub
  rw [Effect.bind_of_ok (Effect.require_pos h.args _),
    Effect.bind_of_ok (usermodeInit_withStack s.syscallStack k), Effect.bind_of_ok hroot,
    Effect.bind_of_ok hserved, Effect.bind_of_ok hpages, Effect.bind_of_ok hactivate]
  rfl

/-- Where the function has come to the program, it had all that it needs. -/
theorem entersTest_of_prepare {root : UInt64} {k₁ : Kernel (Host δ)}
    (hthread : ∃ entry, capCheck k.objects k.caps thread Right.read ObjType.thread = .ok entry)
    (h : prepareStub s a aspace hhdmOffset k = (.ok root, k₁)) :
    EntersTest s a aspace thread hhdmOffset k (k₁.enter a) := by
  obtain ⟨_, k₂, hrequire, h₁⟩ := Effect.bind_eq_ok h
  obtain ⟨hargs, hsame⟩ := Effect.require_eq_ok hrequire
  rw [hsame, Effect.bind_of_ok (usermodeInit_withStack s.syscallStack k)] at h₁
  set k₀ := k.withStack s.syscallStack with hk₀
  have hspaces : k₀.devices.run.aspaces = k.devices.run.aspaces := k.withStack_aspaces _
  obtain ⟨_, k₃, hask, h₂⟩ := Effect.bind_eq_ok h₁
  obtain ⟨hroot, hsame⟩ := Effect.ask_eq_ok hask
  rw [hsame] at h₂
  obtain ⟨endpoint, k₄, hask, h₃⟩ := Effect.bind_eq_ok h₂
  obtain ⟨hconsole, hsame⟩ := Effect.ask_eq_ok hask
  rw [hsame] at h₃
  obtain ⟨_, k₅, hpages, h₄⟩ := Effect.bind_eq_ok h₃
  obtain ⟨hfits, code, stack, b, v, v', hcode, hstack, hlookup, hfirst, hsecond, rfl⟩ :=
    mapStubPages_eq_ok.mp hpages
  obtain ⟨_, k₆, hactivate, hend⟩ := Effect.bind_eq_ok h₄
  obtain ⟨b', hlookup', _, rfl⟩ := K.addressSpaceActivate_eq_ok.mp hactivate
  obtain ⟨_, rfl⟩ := Prod.mk.inj hend
  dsimp only at hlookup'
  rw [hspaces] at hlookup hlookup' hfirst hsecond
  have hread : lookupAspace k.objects k.caps k.devices.run.aspaces aspace Right.read = .ok b :=
    lookupAspace_of_less hlookup (by decide) (by decide)
  obtain rfl := Except.ok.inj (hread.symm.trans hlookup')
  refine ⟨hthread, hargs, ?_, ⟨endpoint, hconsole⟩, hfits, code, stack, b, v, v', hcode, hstack, hlookup,
    hfirst, hsecond, ?_⟩
  -- Without paging there is no current root to come back to.
  · by_contra hpaging
    have hoff : k.vmm.initialized = false := by simpa using hpaging
    rw [show k₀.vmm.initialized = false from hoff, if_pos rfl] at hroot
    cases hroot
  · dsimp only
    rw [hspaces]
    rfl

/-- With all that it needs the function runs the program, and it fails without. -/
theorem usermodeRunTaskTest_cases (s : Stubs) (a : RunAnswers) (user : K (Host δ) Unit)
    (aspace thread hhdmOffset : UInt64) (k : Kernel (Host δ)) :
    (∃ kᵤ, EntersTest s a aspace thread hhdmOffset k kᵤ ∧
      usermodeRunTaskTest s a user aspace thread hhdmOffset k =
        leaveStub aspace k.vmm.activeCr3Phys (user kᵤ).2) ∨
    ((∀ kᵤ, ¬ EntersTest s a aspace thread hhdmOffset k kᵤ) ∧
      ∃ e, (usermodeRunTaskTest s a user aspace thread hhdmOffset k).1 = .error e ∧
        (usermodeRunTaskTest s a user aspace thread hhdmOffset k).2.tasks = k.tasks) := by
  unfold usermodeRunTaskTest K.capCheck
  rw [Effect.ask_bind]
  cases hthread : capCheck k.objects k.caps thread Right.read ObjType.thread with
  | error e =>
    refine .inr ⟨fun kᵤ henters => ?_, e, rfl, rfl⟩
    obtain ⟨entry, hentry⟩ := henters.thread
    rw [hthread] at hentry
    cases hentry
  | ok entry =>
    dsimp only
    unfold runStubInAspace
    rw [Effect.bind_run]
    -- Whether the preparation succeeds is whether all is there that the test needs.
    have happart := (prepareStub_run a s aspace hhdmOffset k).1
    rcases hprepare : prepareStub s a aspace hhdmOffset k with ⟨r, k₁⟩
    rw [hprepare] at happart
    cases r with
    | error e =>
      refine .inr ⟨fun kᵤ henters => ?_, e, rfl, happart.tasks⟩
      obtain ⟨k₂, hok, _⟩ := henters.prepare
      rw [hprepare] at hok
      cases hok
    | ok root =>
      have henters := entersTest_of_prepare ⟨entry, hthread⟩ hprepare
      obtain ⟨k₂, hok, _⟩ := henters.prepare
      rw [hprepare] at hok
      obtain ⟨hroot, rfl⟩ := Prod.mk.inj hok
      obtain rfl := Except.ok.inj hroot
      have henter : enterUsermode a user k₁ = (.ok (), (user (k₁.enter a)).2) := rfl
      refine .inl ⟨k₁.enter a, henters, ?_⟩
      dsimp only
      rw [Effect.bind_of_ok henter]

/-- The program is entered in one state. -/
theorem EntersTest.unique {kᵤ' : Kernel (Host δ)} (h : EntersTest s a aspace thread hhdmOffset k kᵤ)
    (h' : EntersTest s a aspace thread hhdmOffset k kᵤ') : kᵤ = kᵤ' := by
  obtain ⟨k₁, hrun, rfl⟩ := h.prepare
  obtain ⟨k₂, hrun', rfl⟩ := h'.prepare
  rw [(Prod.mk.inj (hrun.symm.trans hrun')).2]

/-- What the program finds. -/
structure TestStarts (k kᵤ : Kernel (Host δ)) : Prop where
  apart : Apart k kᵤ
  faulted : kᵤ.syscall.userFaulted = false
  paging : kᵤ.vmm.initialized = true
  usermode : kᵤ.devices.run.usermodeInitialized = true

theorem EntersTest.starts (h : EntersTest s a aspace thread hhdmOffset k kᵤ) : TestStarts k kᵤ := by
  obtain ⟨k₁, hprepare, hstate⟩ := h.prepare
  obtain ⟨code, stack, b, v, v', _, _, _, hfirst, hsecond, hlast⟩ := h.pages
  obtain ⟨happart, hreset⟩ := prepareStub_run a s aspace hhdmOffset k
  rw [hprepare] at happart hreset
  have hframe : Apart k₁ (k₁.enter a) := ⟨rfl, .of_eq rfl⟩
  refine ⟨?_, ?_, ?_, ?_⟩
  · rw [hstate]
    exact IsTrans.trans _ _ _ happart hframe
  · rw [hstate]
    exact hreset _ rfl
  · rw [hlast]
    exact hsecond.initialized.trans (hfirst.initialized.trans h.paging)
  · rw [hlast]
    rfl

/-! ## Leaving -/

/-- **Leaving.**  The function succeeds when the program has made a successful call and has
    exited, and the root to return to is a page. -/
theorem leaveStub_eq_ok {root : UInt64} :
    (leaveStub aspace root k).1 = .ok () ↔
      validateRoot k.vmm root = .ok () ∧ k.devices.run.usermodeInitialized = true ∧
        k.syscall.userExited = true ∧ k.syscall.endpointCallPassed = true := by
  unfold leaveStub
  rcases hactivate : Scdk.vmmActivateRoot k.vmm root with ⟨r, v⟩
  have hrun : K.vmmActivateRoot root k = (r, { k with vmm := v }) := by
    unfold K.vmmActivateRoot
    rw [hactivate]
  cases r with
  | error e =>
    rw [Effect.bind_of_error hrun]
    constructor
    · intro h
      cases h
    · rintro ⟨hroot, _⟩
      have hok := vmmActivateRoot_eq_ok.mpr ⟨hroot, rfl⟩
      rw [hactivate] at hok
      cases hok
  | ok _ =>
    obtain ⟨hroot, rfl⟩ := vmmActivateRoot_eq_ok.mp hactivate
    rw [Effect.bind_of_ok hrun, Effect.bind_of_ok Effect.get_run]
    by_cases hpass : k.devices.run.usermodeInitialized = true ∧ k.syscall.userExited = true ∧
        k.syscall.endpointCallPassed = true
    · rw [Effect.bind_of_ok (Effect.require_pos hpass _)]
      exact iff_of_true rfl ⟨hroot, hpass⟩
    · rw [Effect.bind_of_error (Effect.require_neg hpass _)]
      constructor
      · intro h
        cases h
      · exact fun h => absurd h.2 hpass

end stub

end Scdk
