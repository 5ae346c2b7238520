import Scdk.Arch.FlatRun

/-! # The runs of the built-in programs

    Model of the two functions of `arch/x86_64/usermode.c` that run a program
    which is linked into the kernel: the user test, and the programs that fault.

    * `Stubs`: the programs, whose bytes come from `usermode_entry.S`, and the
      static stack for the system calls of the user test,
    * `runStubInAspace`, `usermodeRunTaskTest`: nothing that the run has changed
      is restored, and what is mapped stays mapped when it fails,
    * `usermodeRunFaultTest`: a run with the cleanup of
      `scdk_usermode_run_flat_image`, which succeeds when the program has faulted,
    * `StubRun`: the ways in which such a run can end. -/

namespace Scdk

variable {δ : Type}

/-! ## The programs -/

/-- The programs that are linked into the kernel, and `syscall_stack`. -/
structure Stubs where
  syscallStack : StackPage
  userTest : List UInt8
  pageFault : List UInt8
  invalidSyscall : List UInt8
  badPointer : List UInt8

/-- `enum scdk_fault_user_test`, with the values that are none of it. -/
inductive FaultUserTest where
  | pageFault
  | invalidSyscall
  | badPointer
  | other
  deriving DecidableEq, Repr

/-- `select_fault_stub` -/
def selectFaultStub (s : Stubs) : FaultUserTest → Except Err (List UInt8)
  | .pageFault => .ok s.pageFault
  | .invalidSyscall => .ok s.invalidSyscall
  | .badPointer => .ok s.badPointer
  | .other => .error .inval

/-- The test on `stub_size`. -/
def stubFits (stub : List UInt8) : Prop := stub.length ≠ 0 ∧ stub.length ≤ pageSize

instance (stub : List UInt8) : Decidable (stubFits stub) := inferInstanceAs (Decidable (_ ∧ _))

/-! ## The user test -/

/-- `scdk_service_lookup` -/
def K.serviceLookup (serviceId : UInt64) : K δ UInt64 :=
  .ask fun k => Scdk.serviceLookup k.services serviceId

/-- The pages of the user test; the second one that cannot be mapped takes the
    first one with it. -/
def mapStubPages (s : Stubs) (a : RunAnswers) (aspace : UInt64) : K (Host δ) Unit := do
  let codePhys ← .ask fun _ => (a.code 0).1
  let stackPhys ← .ask fun _ => a.userStack.1
  K.fillPage codePhys []
  K.fillPage stackPhys []
  Effect.require (stubFits s.userTest) .bounds
  K.fillPage codePhys s.userTest
  K.addressSpaceMap aspace userTestCodeVirt codePhys 0 (a.code 0).2
  match ← (K.addressSpaceMap aspace (userTestStackTop - 4096) stackPhys vmmMapWrite
      a.userStack.2).attempt with
  | .error e =>
    let _ ← (K.addressSpaceUnmap aspace userTestCodeVirt).attempt
    Effect.fail e
  | .ok _ => pure ()

/-- What `run_stub_in_aspace` does before it enters user mode: the root to return
    to. -/
def prepareStub (s : Stubs) (a : RunAnswers) (aspace hhdmOffset : UInt64) : K (Host δ) UInt64 := do
  Effect.require (aspace ≠ 0 ∧ hhdmOffset ≠ 0) .inval
  usermodeInit s.syscallStack.top
  let bootRoot ← K.vmmCurrentRoot
  let _ ← K.serviceLookup Service.console
  mapStubPages s a aspace
  K.addressSpaceActivate aspace
  pure bootRoot

/-- What it does after. -/
def leaveStub (aspace bootRoot : UInt64) : K (Host δ) Unit := do
  K.vmmActivateRoot bootRoot
  let k ← Effect.get
  Effect.require (k.devices.run.usermodeInitialized = true ∧ k.syscall.userExited = true ∧
    k.syscall.endpointCallPassed = true) .busy
  let _ ← (K.addressSpaceUnmap aspace (userTestStackTop - 4096)).attempt
  let _ ← (K.addressSpaceUnmap aspace userTestCodeVirt).attempt

/-- `run_stub_in_aspace`; `user` is what the program does in user mode. -/
def runStubInAspace (s : Stubs) (a : RunAnswers) (user : K (Host δ) Unit)
    (aspace hhdmOffset : UInt64) : K (Host δ) Unit := do
  let bootRoot ← prepareStub s a aspace hhdmOffset
  enterUsermode a user
  leaveStub aspace bootRoot

/-- `scdk_usermode_run_task_test` -/
def usermodeRunTaskTest (s : Stubs) (a : RunAnswers) (user : K (Host δ) Unit)
    (aspace thread hhdmOffset : UInt64) : K (Host δ) Unit := do
  let _ ← K.capCheck thread Right.read ObjType.thread
  runStubInAspace s a user aspace hhdmOffset

/-! ## The programs that fault -/

/-- The page of the program. -/
def mapFaultStub (stub : List UInt8) (a : RunAnswers) (aspace : UInt64) : RunBody δ Unit := do
  let phys ← .call (.ask fun _ => (a.code 0).1)
  .call (K.fillPage phys stub)
  .call (K.addressSpaceMap aspace userTestCodeVirt phys 0 (a.code 0).2)
  .assign fun l => { l with mappedCodePages := 1 }

/-- From the entry into user mode to the label `cleanup`. -/
def runFaultInUsermode (a : RunAnswers) (user : K (Host δ) Unit) (bootRoot : UInt64) :
    RunBody δ Unit := do
  .call (enterUsermode a user)
  let (k, _) ← Effect.get
  let status ← (RunBody.call (K.vmmActivateRoot bootRoot)).attempt
  .assign fun l => { l with bootRoot := none }
  .ask fun _ => status
  Effect.require (k.syscall.userFaulted = true) .busy

/-- The address space and the entry of a stub, as those of an image. -/
def stubImage (aspace thread bootstrapEndpoint hhdmOffset : UInt64) : FlatImage :=
  ⟨aspace, thread, userTestCodeVirt, 0, 0, bootstrapEndpoint, hhdmOffset⟩

/-- From the saved state to the label `cleanup`. -/
def runFaultBody (stub : List UInt8) (f : FlatImage) (a : RunAnswers) (user : K (Host δ) Unit) :
    RunBody δ Unit := do
  let bootRoot ← .call K.vmmCurrentRoot
  .assign fun l => { l with bootRoot := some bootRoot }
  match a.stack with
  | none => Effect.fail .nomem
  | some stack =>
    .call (K.takeStack stack)
    .assign fun l => { l with stack := some stack }
    .call (usermodeInit stack.top)
    mapFaultStub stub a f.aspace
    mapUserStack f a
    .call (K.addressSpaceActivate f.aspace)
    runFaultInUsermode a user bootRoot

/-- `scdk_usermode_run_fault_test` once the system call state is saved. -/
def runFaultSaved (stub : List UInt8) (f : FlatImage) (a : RunAnswers) (user : K (Host δ) Unit) :
    K (Host δ) Unit := fun k =>
  let (status, k', locals) := runFaultBody stub f a user (k, ⟨none, none, 0, false⟩)
  (status, (runCleanup f (saveTaskState k) locals k').2)

/-- `scdk_usermode_run_fault_test`; `user` is what the program does in user
    mode. -/
def usermodeRunFaultTest (s : Stubs) (a : RunAnswers) (user : K (Host δ) Unit)
    (aspace thread : UInt64) (test : FaultUserTest) (bootstrapEndpoint hhdmOffset : UInt64) :
    K (Host δ) Unit := do
  Effect.require (aspace ≠ 0 ∧ thread ≠ 0 ∧ bootstrapEndpoint ≠ 0 ∧ hhdmOffset ≠ 0) .inval
  let stub ← .ask fun _ => selectFaultStub s test
  Effect.require (stubFits stub) .bounds
  let _ ← K.capCheck thread Right.read ObjType.thread
  let _ ← K.capCheck bootstrapEndpoint Right.send ObjType.endpoint
  runFaultSaved stub (stubImage aspace thread bootstrapEndpoint hhdmOffset) a user

/-! ## The ways in which a run can end -/

/-- The records of tasks are as before, and what lasts does. -/
structure Apart (k k' : Kernel (Host δ)) : Prop where
  tasks : k'.tasks = k.tasks
  lasting : Lasting k k'

instance : IsPreorder (Kernel (Host δ)) Apart where
  refl := fun k => ⟨rfl, refl k⟩
  trans := fun _ _ _ h h' =>
    ⟨h'.tasks.trans h.tasks, IsTrans.trans _ _ _ h.lasting h'.lasting⟩

theorem Mapped.apart {k k' : Kernel (Host δ)} (h : Mapped k k') : Apart k k' := ⟨h.tasks, h.lasting⟩

/-- A run from state `k`: it fails before the program is entered, or runs the
    program, which came back in a state of `P` if the run succeeds. -/
inductive StubRun (P : Kernel (Host δ) → Prop) (user : K (Host δ) Unit) (k : Kernel (Host δ))
    (out : Except Err Unit × Kernel (Host δ)) : Prop where
  | idle {e} (hstatus : out.1 = .error e) (h : Apart k out.2)
  | entered {k₁} (hbegin : Apart k k₁) (hfaulted : k₁.syscall.userFaulted = false)
      (hend : Apart (user k₁).2 out.2) (hstatus : out.1 = .ok () → P (user k₁).2)

section run

variable (a : RunAnswers) (user : K (Host δ) Unit)

/-- `scdk_usermode_init` resets the flags of the system calls. -/
theorem usermodeInit_run (stack : StackPage) (k : Kernel (Host δ)) :
    ∃ k', usermodeInit stack.top k = (.ok (), k') ∧ Apart k k' ∧
      k'.syscall.userFaulted = false := by
  have hok : stackTopOk stack.top := stack.ok
  unfold usermodeInit
  rw [Effect.bind_of_ok (Effect.require_pos hok _)]
  unfold syscallInit
  rw [Effect.bind_of_ok (show K.setRun _ _ = (.ok (), _) from rfl)]
  rw [Effect.bind_run, Effect.bind_of_ok (Effect.require_pos hok _)]
  exact ⟨_, rfl, ⟨rfl, .of_eq rfl⟩, rfl⟩

theorem mapped_mapStubPages (s : Stubs) (aspace : UInt64) :
    Effect.Within Mapped (mapStubPages s a aspace : K (Host δ) Unit) := by
  refine .bind (Effect.within_ask _) fun codePhys => ?_
  refine .bind (Effect.within_ask _) fun stackPhys => ?_
  refine .bind (mapped_fillPage _ _) fun _ => ?_
  refine .bind (mapped_fillPage _ _) fun _ => ?_
  refine .bind (Effect.within_require _ _) fun _ => ?_
  refine .bind (mapped_fillPage _ _) fun _ => ?_
  refine .bind (mapped_addressSpaceMap _ _ _ _ _) fun _ => ?_
  refine .bind (mapped_addressSpaceMap _ _ _ _ _).attempt fun r => ?_
  cases r with
  | error e =>
    refine .bind (mapped_addressSpaceUnmap _ _).attempt fun _ => ?_
    exact Effect.within_fail e
  | ok _ => exact Effect.within_pure ()

/-- The user test is not entered, or with the flags reset. -/
theorem prepareStub_run (s : Stubs) (aspace hhdmOffset : UInt64) (k : Kernel (Host δ)) :
    Apart k (prepareStub s a aspace hhdmOffset k).2 ∧
      ∀ root, (prepareStub s a aspace hhdmOffset k).1 = .ok root →
        (prepareStub s a aspace hhdmOffset k).2.syscall.userFaulted = false := by
  unfold prepareStub
  by_cases hargs : aspace ≠ 0 ∧ hhdmOffset ≠ 0
  swap
  · rw [Effect.bind_of_error (Effect.require_neg hargs _)]
    exact ⟨refl k, nofun⟩
  rw [Effect.bind_of_ok (Effect.require_pos hargs _)]
  obtain ⟨k₁, hinit, hapart, hfaulted⟩ := usermodeInit_run s.syscallStack k
  rw [Effect.bind_of_ok hinit]
  have hmapped : Effect.Within Mapped (do
      let bootRoot ← K.vmmCurrentRoot
      let _ ← K.serviceLookup Service.console
      mapStubPages s a aspace
      K.addressSpaceActivate aspace
      pure bootRoot : K (Host δ) UInt64) := by
    refine .bind (Effect.within_ask _) fun root => ?_
    refine .bind (Effect.within_ask _) fun _ => ?_
    refine .bind (mapped_mapStubPages a s aspace) fun _ => ?_
    refine .bind (mapped_addressSpaceActivate aspace) fun _ => ?_
    exact Effect.within_pure root
  have hstep := hmapped k₁
  refine ⟨IsTrans.trans _ _ _ hapart hstep.apart, ?_⟩
  intro root _
  rw [hstep.syscall]
  exact hfaulted

theorem mapped_leaveStub (aspace bootRoot : UInt64) :
    Effect.Within Mapped (leaveStub aspace bootRoot : K (Host δ) Unit) := by
  refine .bind (mapped_vmmActivateRoot bootRoot) fun _ => ?_
  refine .bind Effect.within_get fun k => ?_
  refine .bind (Effect.within_require _ _) fun _ => ?_
  refine .bind (mapped_addressSpaceUnmap _ _).attempt fun _ => ?_
  refine .bind (mapped_addressSpaceUnmap _ _).attempt fun _ => ?_
  exact Effect.within_pure ()

theorem runStubInAspace_run (s : Stubs) (aspace hhdmOffset : UInt64) (k : Kernel (Host δ)) :
    StubRun (fun _ => True) user k (runStubInAspace s a user aspace hhdmOffset k) := by
  obtain ⟨hapart, hreset⟩ := prepareStub_run a s aspace hhdmOffset k
  unfold runStubInAspace
  rw [Effect.bind_run]
  rcases hprepare : prepareStub s a aspace hhdmOffset k with ⟨r, k₁⟩
  rw [hprepare] at hapart hreset
  cases r with
  | error e => exact .idle rfl hapart
  | ok root =>
    have henter : enterUsermode a user k₁ = (.ok (), (user (k₁.enter a)).2) := rfl
    have hframe : Apart k₁ (k₁.enter a) := ⟨rfl, .of_eq rfl⟩
    dsimp only
    rw [Effect.bind_of_ok henter]
    exact .entered (IsTrans.trans _ _ _ hapart hframe) (hreset root rfl)
      (mapped_leaveStub aspace root _).apart fun _ => trivial

theorem usermodeRunTaskTest_run (s : Stubs) (aspace thread hhdmOffset : UInt64)
    (k : Kernel (Host δ)) :
    StubRun (fun _ => True) user k (usermodeRunTaskTest s a user aspace thread hhdmOffset k) := by
  unfold usermodeRunTaskTest K.capCheck
  rw [Effect.ask_bind]
  cases capCheck k.objects k.caps thread Right.read ObjType.thread with
  | error e => exact .idle rfl (refl k)
  | ok _ => exact runStubInAspace_run a user s aspace hhdmOffset k

/-! ## The run of a program that faults -/

theorem mappedBody_mapFaultStub (stub : List UInt8) (aspace : UInt64) :
    Effect.Within MappedBody (mapFaultStub stub a aspace : RunBody δ Unit) := by
  apply (mappedBody_call (Effect.within_ask _)).bind
  intro phys
  apply (mappedBody_call (mapped_fillPage phys stub)).bind
  intro _
  apply (mappedBody_call (mapped_addressSpaceMap _ _ _ _ _)).bind
  intro _
  exact mappedBody_assign fun _ => rfl

/-- After the program only the page tables change, and the run fails unless the
    program has faulted. -/
theorem runFaultInUsermode_run (root : UInt64) (s : Kernel (Host δ) × RunLocals) :
    MappedBody ((user (s.1.enter a)).2, s.2) (runFaultInUsermode a user root s).2 ∧
      ((runFaultInUsermode a user root s).1 = .ok () →
        (user (s.1.enter a)).2.syscall.userFaulted = true) := by
  have henter : RunBody.call (enterUsermode a user) s = (.ok (), ((user (s.1.enter a)).2, s.2)) := rfl
  set s₁ : Kernel (Host δ) × RunLocals := ((user (s.1.enter a)).2, s.2) with hs₁
  have hstart : runFaultInUsermode a user root s = (do
      let status ← (RunBody.call (K.vmmActivateRoot root)).attempt
      .assign fun l => { l with bootRoot := none }
      .ask fun _ => status
      Effect.require (s₁.1.syscall.userFaulted = true) .busy : RunBody δ Unit) s₁ := by
    unfold runFaultInUsermode
    rw [Effect.bind_of_ok henter, Effect.bind_of_ok Effect.get_run]
  rw [hstart]
  constructor
  · apply (mappedBody_call (mapped_vmmActivateRoot root)).attempt.bind
    intro _
    refine .bind (mappedBody_assign fun _ => rfl) fun _ => ?_
    refine .bind (Effect.within_ask _) fun _ => ?_
    exact Effect.within_require _ _
  · intro hok
    obtain ⟨_, _, _, hrun⟩ := Effect.bind_eq_ok (Prod.ext hok rfl)
    obtain ⟨_, _, _, hrun⟩ := Effect.bind_eq_ok hrun
    obtain ⟨_, _, _, hrun⟩ := Effect.bind_eq_ok hrun
    exact (Effect.require_eq_ok hrun).1

/-- The part of the body on a stack, from the initialisation on. -/
theorem runFaultOnStack_run (stub : List UInt8) (f : FlatImage) (root : UInt64)
    (s : Kernel (Host δ) × RunLocals) (hreset : s.1.syscall.userFaulted = false) :
    ∀ out, (do
      mapFaultStub stub a f.aspace
      mapUserStack f a
      .call (K.addressSpaceActivate f.aspace)
      runFaultInUsermode a user root : RunBody δ Unit) s = out →
    StubRun (fun k => k.syscall.userFaulted = true) user s.1 (out.1, out.2.1) := by
  rintro out rfl
  -- Each step before user mode may fail, and has only mapped pages then.
  have hfailed : ∀ e s', MappedBody s s' →
      StubRun (fun k => k.syscall.userFaulted = true) user s.1 (.error e, s'.1) :=
    fun e s' h => .idle rfl h.kernel.apart
  have hcode := mappedBody_mapFaultStub a stub f.aspace s
  rw [Effect.bind_run]
  rcases hmap : mapFaultStub stub a f.aspace s with ⟨r, s₁⟩
  rw [hmap] at hcode
  cases r with
  | error e => exact hfailed e s₁ hcode
  | ok _ =>
  have hstack := IsTrans.trans _ _ _ hcode (mappedBody_mapUserStack f a s₁)
  dsimp only
  rw [Effect.bind_run]
  rcases hmap : mapUserStack f a s₁ with ⟨r, s₂⟩
  rw [hmap] at hstack
  cases r with
  | error e => exact hfailed e s₂ hstack
  | ok _ =>
  have hactivate : MappedBody s₂ (RunBody.call (K.addressSpaceActivate f.aspace) s₂).2 :=
    mappedBody_call (mapped_addressSpaceActivate _) s₂
  have hactive := IsTrans.trans _ _ _ hstack hactivate
  dsimp only
  rw [Effect.bind_run]
  rcases hmap : RunBody.call (K.addressSpaceActivate f.aspace) s₂ with ⟨r, s₃⟩
  rw [hmap] at hactive
  cases r with
  | error e => exact hfailed e s₃ hactive
  | ok _ =>
  -- User mode is entered, and left by the fault of the stub.
  obtain ⟨hrun, hfault⟩ := runFaultInUsermode_run a user root s₃
  have hframe : Apart s₃.1 (s₃.1.enter a) := ⟨rfl, .of_eq rfl⟩
  refine .entered (IsTrans.trans _ _ _ hactive.kernel.apart hframe) ?_ hrun.kernel.apart hfault
  show s₃.1.syscall.userFaulted = false
  rw [hactive.kernel.syscall]
  exact hreset

theorem runFaultBody_run (stub : List UInt8) (f : FlatImage) (k : Kernel (Host δ)) (l : RunLocals) :
    ∀ out, runFaultBody stub f a user (k, l) = out →
      StubRun (fun k => k.syscall.userFaulted = true) user k (out.1, out.2.1) := by
  rintro out rfl
  unfold runFaultBody
  cases hroot : RunBody.call K.vmmCurrentRoot (k, l) with
  | mk r s =>
  have hsame : s = (k, l) := (congrArg Prod.snd hroot).symm
  rw [hsame] at hroot
  cases r with
  | error e =>
    rw [Effect.bind_of_error hroot]
    exact .idle rfl (refl k)
  | ok root =>
    have hassign : RunBody.assign (fun l => { l with bootRoot := some root }) (k, l) =
        (.ok (), (k, { l with bootRoot := some root })) := rfl
    rw [Effect.bind_of_ok hroot, Effect.bind_of_ok hassign]
    cases a.stack with
    | none => exact .idle rfl (refl k)
    | some stack =>
      set l₁ : RunLocals := { l with bootRoot := some root } with hl₁
      -- The stack is taken, and user mode set up for it.
      have htake : RunBody.call (K.takeStack stack) (k, l₁) =
          (.ok (), ((K.takeStack stack k).2, l₁)) := rfl
      have hlocal : RunBody.assign (fun l => { l with stack := some stack })
          ((K.takeStack stack k).2, l₁) =
            (.ok (), ((K.takeStack stack k).2, { l₁ with stack := some stack })) := rfl
      have hinit : RunBody.call (usermodeInit stack.top)
          ((K.takeStack stack k).2, { l₁ with stack := some stack }) =
            (.ok (), (k.onStack stack, { l₁ with stack := some stack })) := by
        unfold RunBody.call
        rw [usermodeInit_top]
      dsimp only
      rw [Effect.bind_of_ok htake, Effect.bind_of_ok hlocal, Effect.bind_of_ok hinit]
      have hbegin : Apart k (k.onStack stack) := ⟨rfl, .of_eq rfl⟩
      cases runFaultOnStack_run a user stub f root
        (k.onStack stack, { l₁ with stack := some stack }) rfl _ rfl with
      | idle hstatus h => exact .idle hstatus (IsTrans.trans _ _ _ hbegin h)
      | entered h hfaulted hend hstatus =>
        exact .entered (IsTrans.trans _ _ _ hbegin h) hfaulted hend hstatus

/-- The cleanup leaves the records alone. -/
theorem runCleanup_apart (f : FlatImage) (saved : SyscallTaskState) (l : RunLocals)
    (k : Kernel (Host δ)) : Apart k (runCleanup f saved l k).2 := by
  obtain ⟨k₁, hmapped, hclean⟩ := runCleanup_run f saved l k
  rw [hclean]
  apply IsTrans.trans _ _ _ hmapped.apart
  cases l.stack with
  | none => exact ⟨rfl, .of_eq rfl⟩
  | some stack => exact ⟨rfl, .of_eq rfl⟩

theorem runFaultSaved_run (stub : List UInt8) (f : FlatImage) (k : Kernel (Host δ)) :
    StubRun (fun k => k.syscall.userFaulted = true) user k (runFaultSaved stub f a user k) := by
  unfold runFaultSaved
  rcases hout : runFaultBody stub f a user (k, ⟨none, none, 0, false⟩) with ⟨status, k', l⟩
  have hbody := runFaultBody_run a user stub f k ⟨none, none, 0, false⟩ _ hout
  have hclean := runCleanup_apart f (saveTaskState k) l k'
  cases hbody with
  | idle hstatus h => exact .idle hstatus (IsTrans.trans _ _ _ h hclean)
  | entered hbegin hfaulted hend hstatus =>
    exact .entered hbegin hfaulted (IsTrans.trans _ _ _ hend hclean) hstatus

theorem usermodeRunFaultTest_run (s : Stubs) (aspace thread : UInt64) (test : FaultUserTest)
    (bootstrapEndpoint hhdmOffset : UInt64) (k : Kernel (Host δ)) :
    StubRun (fun k => k.syscall.userFaulted = true) user k
      (usermodeRunFaultTest s a user aspace thread test bootstrapEndpoint hhdmOffset k) := by
  unfold usermodeRunFaultTest
  by_cases hargs : aspace ≠ 0 ∧ thread ≠ 0 ∧ bootstrapEndpoint ≠ 0 ∧ hhdmOffset ≠ 0
  swap
  · rw [Effect.bind_of_error (Effect.require_neg hargs _)]
    exact .idle rfl (refl k)
  rw [Effect.bind_of_ok (Effect.require_pos hargs _), Effect.ask_bind]
  cases selectFaultStub s test with
  | error e => exact .idle rfl (refl k)
  | ok stub =>
    dsimp only
    by_cases hfits : stubFits stub
    swap
    · rw [Effect.bind_of_error (Effect.require_neg hfits _)]
      exact .idle rfl (refl k)
    rw [Effect.bind_of_ok (Effect.require_pos hfits _)]
    unfold K.capCheck
    rw [Effect.ask_bind]
    cases capCheck k.objects k.caps thread Right.read ObjType.thread with
    | error e => exact .idle rfl (refl k)
    | ok _ =>
      dsimp only
      rw [Effect.ask_bind]
      cases capCheck k.objects k.caps bootstrapEndpoint Right.send ObjType.endpoint with
      | error e => exact .idle rfl (refl k)
      | ok _ => exact runFaultSaved_run a user stub _ k

end run

end Scdk
