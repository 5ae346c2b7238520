import Scdk.Arch.StubEntry
import Scdk.Core.DeadThreads
import Scdk.Core.ProgramStays

/-! # The life of a task that is run

    Three functions of `core/task.c` run a new task: the user test, a flat image,
    and a program that faults.  All of them move the task to running and make it
    the current one, and they differ in what they do when the run is over.

    * `runAsCurrent`: what the three functions share,
    * `userTaskRunBuiltin`, `userTaskRunFaultTest`: the user test is not ended
      when its run has failed, and the other program is,
    * `RunCall`: the three functions, with the program that runs underneath,
    * `LeftDead`: the task and its main thread are dead when the function returns,
    * `left_dead`: this is so but for a user test that is not entered, or that neither
      faults nor passes. -/

namespace Scdk

variable {δ : Type}

/-! ## The functions -/

/-- The records of a new task, which the three functions look up first. -/
def findNewTask (task : UInt64) : K (Host δ) (Fin maxTasks × Fin maxThreads) := do
  let i ← .ask fun k => taskSlotForCap k.tasks task
  let j ← .ask fun k => threadSlotForCap k.tasks (k.tasks.tasks i).mainThreadCap
  let k ← Effect.get
  Effect.require ((k.tasks.tasks i).state = .new ∧ (k.tasks.threads j).state = .new) .busy
  pure (i, j)

/-- The status of `run`, with `task` as the current task in the meantime. -/
def runAsCurrent (task : UInt64) (i : Fin maxTasks) (j : Fin maxThreads)
    (run : UserTaskSlot → UserThreadSlot → K (Host δ) Unit) : K (Host δ) (Except Err Unit) := do
  K.setTasks fun t => t.setStates i j .running .running
  let k ← Effect.get
  K.setTasks fun t => t.setCurrent task
  let status ← (run (k.tasks.tasks i) (k.tasks.threads j)).attempt
  K.setTasks fun t => t.setCurrent k.tasks.currentUserTask
  pure status

/-- `scdk_user_task_run_builtin`; `user` is what the program does in user mode. -/
def userTaskRunBuiltin (s : Stubs) (a : RunAnswers) (user : K (Host δ) Unit)
    (task hhdmOffset : UInt64) : K (Host δ) Unit := do
  let (i, j) ← findNewTask task
  match ← runAsCurrent task i j fun slot thread =>
      usermodeRunTaskTest s a user slot.addressSpaceCap thread.threadCap hhdmOffset with
  -- The states are left as they are.
  | .error e => Effect.fail e
  | .ok _ => K.taskExit task 0

/-- `scdk_user_task_run_fault_test` -/
def userTaskRunFaultTest (s : Stubs) (a : RunAnswers) (user : K (Host δ) Unit) (task : UInt64)
    (test : FaultUserTest) (hhdmOffset : UInt64) : K (Host δ) Unit := do
  let (i, j) ← findNewTask task
  let endpoint ← K.serviceLookup Service.console
  match ← runAsCurrent task i j fun slot thread =>
      usermodeRunFaultTest s a user slot.addressSpaceCap thread.threadCap test endpoint
        hhdmOffset with
  | .error e =>
    K.setTasks fun t => t.setStates i j .dead .dead
    Effect.fail e
  | .ok _ =>
    let k ← Effect.get
    Effect.require ((k.tasks.tasks i).state = .dead) .busy

/-- One of the three functions, with the answers of the allocators and the program
    that runs underneath. -/
inductive RunCall where
  | builtin (a : RunAnswers) (prog : Program)
  | flat (a : RunAnswers) (prog : Program) (image imageSize endpoint : UInt64)
  | faultTest (a : RunAnswers) (prog : Program) (test : FaultUserTest)

section calls

variable (s : Stubs) (d : Peripherals δ) (hhdmOffset : UInt64)

/-- The call for `task`. -/
def runTask (task : UInt64) : RunCall → K (Host δ) Unit
  | .builtin a prog => userTaskRunBuiltin s a (runProgram d hhdmOffset prog) task hhdmOffset
  | .flat a prog image imageSize endpoint =>
    userTaskRunFlat task a (runProgram d hhdmOffset prog) image imageSize endpoint hhdmOffset
  | .faultTest a prog test =>
    userTaskRunFaultTest s a (runProgram d hhdmOffset prog) task test hhdmOffset

/-- The call moves a new task to running: it has passed the checks that come
    before. -/
def RunCall.Starts (k : Kernel (Host δ)) : RunCall → Prop
  | .builtin _ _ => True
  | .flat _ _ image imageSize _ => image ≠ 0 ∧ imageSize ≠ 0
  | .faultTest _ _ _ => ∃ endpoint, serviceLookup k.services Service.console = .ok endpoint

/-- The program of the user test has faulted, or it has made a successful call and has
    exited, and the page tables to return to are those at `root`. -/
def TestEnds (root : UInt64) (k : Kernel (Host δ)) : Prop :=
  k.syscall.userFaulted = true ∨
    (RootOk root ∧ k.syscall.userExited = true ∧ k.syscall.endpointCallPassed = true)

/-- The function ends the task: the user test has to be entered and to come to an end, and
    the other two end it in any case. -/
def RunCall.Ends (task : UInt64) (i : Fin maxTasks) (j : Fin maxThreads) (k : Kernel (Host δ)) :
    RunCall → Prop
  | .builtin a prog => ∃ kᵤ,
    EntersTest s a (k.tasks.tasks i).addressSpaceCap (k.tasks.threads j).threadCap hhdmOffset
      (k.startTask task i j) kᵤ ∧
    TestEnds k.vmm.activeCr3Phys (runProgram d hhdmOffset prog kᵤ).2
  | .flat _ _ _ _ _ => True
  | .faultTest _ _ _ => True

end calls

/-- `task` and its main thread are dead and can be cleaned up, and the current task
    is the one from before. -/
structure LeftDead (task : UInt64) (t t' : UserTasks) : Prop where
  dead : ∃ i j, HasRecords t' task i j ∧ (t'.tasks i).state = .dead ∧ (t'.threads j).state = .dead
  cleanup : (taskCleanup t' task).1 = .ok ()
  current : t'.currentUserTask = t.currentUserTask

/-! ## What the functions do -/

section runs

variable {task : UInt64} {i : Fin maxTasks} {j : Fin maxThreads} {k k' : Kernel (Host δ)}

theorem IsNew.find (h : IsNew k.tasks task i j) : findNewTask task k = (.ok (i, j), k) := by
  unfold findNewTask
  rw [Effect.bind_of_ok h.askTask, Effect.bind_of_ok h.askThread, Effect.bind_of_ok Effect.get_run,
    Effect.bind_of_ok (Effect.require_pos ⟨h.taskState, h.threadState⟩ _)]
  all_goals rfl

theorem startTask_addressSpaceCap (k : Kernel (Host δ)) :
    ((k.startTask task i j).tasks.tasks i).addressSpaceCap = (k.tasks.tasks i).addressSpaceCap := by
  have hslot : (k.startTask task i j).tasks.tasks i = { k.tasks.tasks i with state := .running } :=
    Function.update_self _ _ _
  rw [hslot]

theorem startTask_threadCap (k : Kernel (Host δ)) :
    ((k.startTask task i j).tasks.threads j).threadCap = (k.tasks.threads j).threadCap := by
  have hslot : (k.startTask task i j).tasks.threads j = { k.tasks.threads j with state := .running } :=
    Function.update_self _ _ _
  rw [hslot]

/-- The caller is current again after the run. -/
theorem runAsCurrent_run (run : UserTaskSlot → UserThreadSlot → K (Host δ) Unit) :
    runAsCurrent task i j run k =
      let k₁ := k.startTask task i j
      let out := run (k₁.tasks.tasks i) (k₁.tasks.threads j) k₁
      (.ok out.1, out.2.backTo k.tasks.currentUserTask) := rfl

/-- A run of a program that is linked into the kernel is one of the task that is
    current. -/
theorem StubRun.over {P : Kernel (Host δ) → Prop} {user : K (Host δ) Unit}
    {out : Except Err Unit × Kernel (Host δ)} (h : StubRun P user k out) (huser : Returns user)
    (hgo : GoesOn task i j k) : RunOver i j k out.2 := by
  cases h with
  | idle _ hkept => exact hgo.over.of_tasks rfl hkept.tasks hkept.lasting
  | entered hbegin _ hend _ =>
    have hback := huser (hgo.of_tasks hbegin.tasks hbegin.lasting)
    exact hback.over.of_tasks hbegin.tasks hend.tasks hend.lasting

/-- A program that has faulted has killed its task. -/
theorem StubRun.faulted {user : K (Host δ) Unit} {out : Except Err Unit × Kernel (Host δ)}
    (h : StubRun (fun k => k.syscall.userFaulted = true) user k out) (huser : Returns user)
    (hgo : GoesOn task i j k) (hok : out.1 = .ok ()) :
    (out.2.tasks.tasks i).state = .dead ∧ (out.2.tasks.threads j).state = .dead := by
  cases h with
  | idle hstatus _ =>
    rw [hok] at hstatus
    cases hstatus
  | entered hbegin hreset hend hfaulted =>
    rw [hend.tasks]
    rcases (huser (hgo.of_tasks hbegin.tasks hbegin.lasting)).self with ⟨_, hsame⟩ | ⟨hdead, _⟩
    · -- The flag was reset when the run began.
      rw [hfaulted hok, hreset] at hsame
      cases hsame
    · exact hdead

theorem Done.leftDead (h : Done task i j k k') : LeftDead task k.tasks k'.tasks where
  dead := ⟨i, j, h.records, h.task, h.thread⟩
  cleanup := by rw [taskCleanup_kill h.records h.task]
  current := h.current

/-- A function that does nothing more leaves the task as the run has left it. -/
theorem Back.leftDead_iff (h : Back task i j k k') :
    LeftDead task k.tasks k'.tasks ↔ (k'.tasks.tasks i).state = .dead := by
  constructor
  · intro hleft
    obtain ⟨i', _, hrec, hdead, _⟩ := hleft.dead
    obtain rfl := Except.ok.inj (hrec.task.symm.trans h.records.task)
    exact hdead
  · intro hdead
    rcases h.self with hrun | ⟨_, hthread⟩
    · rw [hdead] at hrun
      cases hrun
    · refine ⟨⟨i, j, h.records, hdead, hthread⟩, ?_, h.current⟩
      rw [taskCleanup_kill h.records hdead]

/-! ## The three functions -/

variable (s : Stubs) (a : RunAnswers) {user : K (Host δ) Unit} (hhdmOffset : UInt64)

theorem userTaskRunBuiltin_run (hnew : IsNew k.tasks task i j) :
    userTaskRunBuiltin s a user task hhdmOffset k =
      let out := usermodeRunTaskTest s a user (k.tasks.tasks i).addressSpaceCap
        (k.tasks.threads j).threadCap hhdmOffset (k.startTask task i j)
      (match out.1 with
        | .error e => Effect.fail e
        | .ok _ => K.taskExit task 0) (out.2.backTo k.tasks.currentUserTask) := by
  unfold userTaskRunBuiltin
  rw [Effect.bind_of_ok hnew.find]
  dsimp only
  rw [Effect.bind_of_ok (runAsCurrent_run _)]
  rw [startTask_addressSpaceCap, startTask_threadCap]

theorem userTaskRunFaultTest_run (hnew : IsNew k.tasks task i j) (test : FaultUserTest)
    {endpoint : UInt64} (hlookup : serviceLookup k.services Service.console = .ok endpoint) :
    userTaskRunFaultTest s a user task test hhdmOffset k =
      let out := usermodeRunFaultTest s a user (k.tasks.tasks i).addressSpaceCap
        (k.tasks.threads j).threadCap test endpoint hhdmOffset (k.startTask task i j)
      (match out.1 with
        | .error e => do
          K.setTasks fun t => t.setStates i j .dead .dead
          Effect.fail e
        | .ok _ => do
          let k ← Effect.get
          Effect.require ((k.tasks.tasks i).state = .dead) .busy : K (Host δ) Unit)
        (out.2.backTo k.tasks.currentUserTask) := by
  have hconsole : K.serviceLookup Service.console k = (.ok endpoint, k) :=
    congrArg (·, k) hlookup
  unfold userTaskRunFaultTest
  rw [Effect.bind_of_ok hnew.find]
  dsimp only
  rw [Effect.bind_of_ok hconsole, Effect.bind_of_ok (runAsCurrent_run _)]
  rw [startTask_addressSpaceCap, startTask_threadCap]

/-- The user test is ended when its run has succeeded, and left as it is when not. -/
theorem userTaskRunBuiltin_cases (huser : Returns user) (hlive : RecordsLive k)
    (hnew : IsNew k.tasks task i j) {out : Except Err Unit × Kernel (Host δ)}
    (hout : usermodeRunTaskTest s a user (k.tasks.tasks i).addressSpaceCap
      (k.tasks.threads j).threadCap hhdmOffset (k.startTask task i j) = out) :
    (∃ e, out.1 = .error e ∧
      (userTaskRunBuiltin s a user task hhdmOffset k).2 = out.2.backTo k.tasks.currentUserTask ∧
      Back task i j k (out.2.backTo k.tasks.currentUserTask)) ∨
    (out.1 = .ok () ∧ Done task i j k (userTaskRunBuiltin s a user task hhdmOffset k).2) := by
  have hrun := usermodeRunTaskTest_run a user s (k.tasks.tasks i).addressSpaceCap
    (k.tasks.threads j).threadCap hhdmOffset (k.startTask task i j)
  have hback := (hrun.over huser (hnew.goesOn hlive)).back hnew
  rw [userTaskRunBuiltin_run s a hhdmOffset hnew]
  rw [hout] at hback ⊢
  rcases out with ⟨status, k₂⟩
  cases status with
  | error e => exact .inl ⟨e, rfl, rfl, hback⟩
  | ok _ => exact .inr ⟨rfl, hback.exit 0⟩

/-- The program leaves paging and user mode as they were, so the way back succeeds by what it
    has called. -/
theorem EntersTest.leave_eq_ok {kᵤ : Kernel (Host δ)} {aspace thread aspaceᵤ : UInt64}
    (henters : EntersTest s a aspace thread hhdmOffset (k.startTask task i j) kᵤ)
    (hstays : Effect.Within StaysUp user) :
    (leaveStub aspaceᵤ k.vmm.activeCr3Phys (user kᵤ).2).1 = .ok () ↔
      RootOk k.vmm.activeCr3Phys ∧ (user kᵤ).2.syscall.userExited = true ∧
        (user kᵤ).2.syscall.endpointCallPassed = true := by
  obtain ⟨_, _, hpaging, hup⟩ := henters.starts
  have hsteps := hstays kᵤ
  rw [leaveStub_eq_ok, validateRoot_eq_ok, isPageAligned_iff, hsteps.paging, hpaging]
  simp [RootOk, hsteps.usermode hup]

/-- A user test that is entered ends its task exactly when it comes to an end. -/
theorem EntersTest.leftDead_iff {kᵤ : Kernel (Host δ)} (huser : Returns user)
    (hstays : Effect.Within StaysUp user) (hlive : RecordsLive k) (hnew : IsNew k.tasks task i j)
    (henters : EntersTest s a (k.tasks.tasks i).addressSpaceCap (k.tasks.threads j).threadCap hhdmOffset
      (k.startTask task i j) kᵤ)
    (hrun : usermodeRunTaskTest s a user (k.tasks.tasks i).addressSpaceCap (k.tasks.threads j).threadCap
      hhdmOffset (k.startTask task i j) =
        leaveStub (k.tasks.tasks i).addressSpaceCap k.vmm.activeCr3Phys (user kᵤ).2) :
    LeftDead task k.tasks (userTaskRunBuiltin s a user task hhdmOffset k).2.tasks ↔
      TestEnds k.vmm.activeCr3Phys (user kᵤ).2 := by
  obtain ⟨hbegin, hreset, _⟩ := henters.starts
  have hback := huser ((hnew.goesOn hlive).of_tasks hbegin.tasks hbegin.lasting)
  have hleft : (leaveStub (k.tasks.tasks i).addressSpaceCap k.vmm.activeCr3Phys (user kᵤ).2).2.tasks =
      (user kᵤ).2.tasks := (mapped_leaveStub _ _ _).tasks
  rcases userTaskRunBuiltin_cases s a hhdmOffset huser hlive hnew hrun with
    ⟨e, herror, heq, hended⟩ | ⟨hok, hdone⟩
  · rw [heq, hended.leftDead_iff]
    have hstate : ((leaveStub (k.tasks.tasks i).addressSpaceCap k.vmm.activeCr3Phys
        (user kᵤ).2).2.backTo k.tasks.currentUserTask).tasks.tasks i = (user kᵤ).2.tasks.tasks i := by
      show (leaveStub _ _ (user kᵤ).2).2.tasks.tasks i = _
      rw [hleft]
    rw [hstate]
    constructor
    · intro hdead
      rcases hback.self with ⟨hrunning, _⟩ | ⟨_, hfaulted⟩
      · rw [hdead] at hrunning
        cases hrunning
      · exact .inl hfaulted
    · rintro (hfaulted | hpassed)
      · rcases hback.self with ⟨_, hsame⟩ | ⟨⟨hdead, _⟩, _⟩
        · -- The flag was reset before the program.
          rw [hfaulted, hreset] at hsame
          cases hsame
        · exact hdead
      · rw [(henters.leave_eq_ok s a hhdmOffset hstays).mpr hpassed] at herror
        cases herror
  · exact iff_of_true hdone.leftDead (.inr ((henters.leave_eq_ok s a hhdmOffset hstays).mp hok))

/-- One that is not entered leaves its task running. -/
theorem not_leftDead_of_not_entered (huser : Returns user) (hlive : RecordsLive k)
    (hnew : IsNew k.tasks task i j) {out : Except Err Unit × Kernel (Host δ)}
    (hrun : usermodeRunTaskTest s a user (k.tasks.tasks i).addressSpaceCap (k.tasks.threads j).threadCap
      hhdmOffset (k.startTask task i j) = out)
    (herror : ∃ e, out.1 = .error e ∧ out.2.tasks = (k.startTask task i j).tasks) :
    ¬ LeftDead task k.tasks (userTaskRunBuiltin s a user task hhdmOffset k).2.tasks := by
  obtain ⟨e, hstatus, htasks⟩ := herror
  rcases userTaskRunBuiltin_cases s a hhdmOffset huser hlive hnew hrun with
    ⟨_, _, heq, hended⟩ | ⟨hok, _⟩
  · rw [heq, hended.leftDead_iff]
    have hstate : (out.2.backTo k.tasks.currentUserTask).tasks.tasks i =
        (k.startTask task i j).tasks.tasks i := by
      show out.2.tasks.tasks i = _
      rw [htasks]
    rw [hstate, (hnew.goesOn hlive).running]
    simp
  · rw [hstatus] at hok
    cases hok

/-- The run of a program that faults ends with both records dead. -/
theorem done_userTaskRunFaultTest (huser : Returns user) (hlive : RecordsLive k)
    (hnew : IsNew k.tasks task i j) (test : FaultUserTest) {endpoint : UInt64}
    (hlookup : serviceLookup k.services Service.console = .ok endpoint) :
    Done task i j k (userTaskRunFaultTest s a user task test hhdmOffset k).2 := by
  have hrun := usermodeRunFaultTest_run a user s (k.tasks.tasks i).addressSpaceCap
    (k.tasks.threads j).threadCap test endpoint hhdmOffset (k.startTask task i j)
  have hgo := hnew.goesOn hlive
  have hback := (hrun.over huser hgo).back hnew
  have hdead := hrun.faulted huser hgo
  rw [userTaskRunFaultTest_run s a hhdmOffset hnew test hlookup]
  generalize usermodeRunFaultTest s a user (k.tasks.tasks i).addressSpaceCap
    (k.tasks.threads j).threadCap test endpoint hhdmOffset (k.startTask task i j) = out at hback hdead
  rcases out with ⟨status, k₂⟩
  cases status with
  | error e => exact hback.kill (fun s => ⟨.dead, s.exitStatus, rfl⟩) fun _ => rfl
  | ok _ =>
    -- The function only looks at the state, which the fault has changed.
    obtain ⟨htask, hthread⟩ := hdead rfl
    have hstate : ((k₂.backTo k.tasks.currentUserTask).tasks.tasks i).state = .dead := htask
    dsimp only
    rw [Effect.bind_of_ok Effect.get_run, Effect.require_pos hstate]
    exact ⟨hback.live, hback.kept, hback.others, hback.records, hback.current, htask, hthread,
      hback.threads⟩

theorem findNewTask_cases (task : UInt64) (k : Kernel (Host δ)) :
    (∃ e, findNewTask task k = (.error e, k)) ∨ ∃ i j, IsNew k.tasks task i j := by
  unfold findNewTask
  rw [Effect.ask_bind]
  cases hi : taskSlotForCap k.tasks task with
  | error e => exact .inl ⟨e, rfl⟩
  | ok i =>
    dsimp only
    rw [Effect.ask_bind]
    cases hj : threadSlotForCap k.tasks (k.tasks.tasks i).mainThreadCap with
    | error e => exact .inl ⟨e, rfl⟩
    | ok j =>
      dsimp only
      rw [Effect.bind_of_ok Effect.get_run]
      by_cases hnew : (k.tasks.tasks i).state = .new ∧ (k.tasks.threads j).state = .new
      · exact .inr ⟨i, j, ⟨hi, hj⟩, hnew.1, hnew.2⟩
      · rw [Effect.bind_of_error (Effect.require_neg hnew _)]
        exact .inl ⟨_, rfl⟩

end runs

/-! ## Runs -/

/-- The calls on tasks, with all the functions that run one. -/
inductive LifecycleCall where
  | call (c : TaskCall)
  | run (task : UInt64) (r : RunCall)

/-- The step of a call. -/
def lifecycleStep (s : Stubs) (d : Peripherals δ) (hhdmOffset : UInt64) (k : Kernel (Host δ)) :
    LifecycleCall → Except Err Unit × Kernel (Host δ)
  | .call c => taskStep d hhdmOffset k c
  | .run task r => runTask s d hhdmOffset task r k

/-- The runs of the calls. -/
def lifecycleSystem (s : Stubs) (d : Peripherals δ) (hhdmOffset : UInt64) :
    System (Kernel (Host δ)) LifecycleCall (Except Err Unit) where
  init := NoTasks
  step := lifecycleStep s d hhdmOffset

section system

variable {s : Stubs} {d : Peripherals δ} {hhdmOffset : UInt64} {k : Kernel (Host δ)}

theorem RecordsLive.taskStep (h : RecordsLive k) (c : TaskCall) :
    RecordsLive (taskStep d hhdmOffset k c).2 := by
  cases c with
  | taskCreate storage pages =>
    show RecordsLive ((do let _ ← userTaskCreate storage pages : K (Host δ) Unit) k).2
    rw [discard_state]
    exact (orderly_userTaskCreate storage pages k h).live
  | threadCreate task =>
    show RecordsLive ((do let _ ← userThreadCreate task : K (Host δ) Unit) k).2
    rw [discard_state]
    rcases userThreadCreate_run task k with ⟨e, _, hmaking⟩ | ⟨thread, id, i, j, _, hmade⟩
    · have hstep : Orderly k (userThreadCreate task k).2 :=
        orderly_of_tasks hmaking.tasks (by rw [hmaking.syscall]) hmaking.lasting
      exact (hstep h).live
    · exact h.newThread hmade
  | runFlat task a prog image imageSize endpoint =>
    exact (orderly_userTaskRunFlat a task image imageSize endpoint hhdmOffset
      (returns_runProgram d hhdmOffset prog) k h).live
  | exit task statusCode =>
    exact h.of_names (.of_eq rfl) (recordsKept_taskExit k.tasks task statusCode)
      (sameNames_taskExit k.tasks task statusCode)
  | faultCurrent statusCode =>
    exact h.of_names (.of_eq rfl) (recordsKept_taskFaultCurrent k.tasks statusCode)
      (sameNames_taskFaultCurrent k.tasks statusCode)
  | cleanup task => exact (orderly_taskCleanup task k h).live

theorem RecordsLive.runTask (h : RecordsLive k) (task : UInt64) (r : RunCall) :
    RecordsLive (runTask s d hhdmOffset task r k).2 := by
  -- A run that finds no new task returns before it touches a record.
  cases r with
  | builtin a prog =>
    have huser : Returns (runProgram d hhdmOffset prog) := returns_runProgram d hhdmOffset prog
    show RecordsLive (userTaskRunBuiltin s a (runProgram d hhdmOffset prog) task hhdmOffset k).2
    rcases findNewTask_cases task k with ⟨e, hfind⟩ | ⟨i, j, hnew⟩
    · unfold userTaskRunBuiltin
      rw [Effect.bind_of_error hfind]
      exact h
    · rcases userTaskRunBuiltin_cases s a hhdmOffset huser h hnew rfl with
        ⟨e, _, heq, hback⟩ | ⟨_, hdone⟩
      · rw [heq]
        exact hback.live
      · exact hdone.live
  | flat a prog image imageSize endpoint =>
    exact (orderly_userTaskRunFlat a task image imageSize endpoint hhdmOffset
      (returns_runProgram d hhdmOffset prog) k h).live
  | faultTest a prog test =>
    have huser : Returns (runProgram d hhdmOffset prog) := returns_runProgram d hhdmOffset prog
    show RecordsLive
      (userTaskRunFaultTest s a (runProgram d hhdmOffset prog) task test hhdmOffset k).2
    rcases findNewTask_cases task k with ⟨e, hfind⟩ | ⟨i, j, hnew⟩
    · unfold userTaskRunFaultTest
      rw [Effect.bind_of_error hfind]
      exact h
    · cases hlookup : serviceLookup k.services Service.console with
      | error e =>
        have hconsole : K.serviceLookup Service.console k = (.error e, k) :=
          congrArg (·, k) hlookup
        unfold userTaskRunFaultTest
        rw [Effect.bind_of_ok hnew.find]
        dsimp only
        rw [Effect.bind_of_error hconsole]
        exact h
      | ok endpoint =>
        exact (done_userTaskRunFaultTest s a hhdmOffset huser h hnew test hlookup).live

theorem recordsLive_lifecycle {log : List (LifecycleCall × Except Err Unit)}
    (hrun : (lifecycleSystem s d hhdmOffset).Run log k) : RecordsLive k := by
  apply hrun.invariant
  · intro k h
    exact h.inv.live
  · intro k c h _
    cases c with
    | call c => exact h.taskStep c
    | run task r => exact h.runTask task r

/-- **The end of a run.**  In every state that the calls can reach, and for a new
    task with a new main thread: a function that has moved it to running leaves
    both dead, ready to be cleaned up, exactly if it is not the user test, or the
    user test is entered and comes to its end. -/
theorem left_dead (s : Stubs) (d : Peripherals δ) (hhdmOffset : UInt64)
    {log : List (LifecycleCall × Except Err Unit)} {k : Kernel (Host δ)}
    (hrun : (lifecycleSystem s d hhdmOffset).Run log k) {task : UInt64} {i : Fin maxTasks}
    {j : Fin maxThreads} (hnew : IsNew k.tasks task i j) (r : RunCall) (hstart : r.Starts k) :
    LeftDead task k.tasks (runTask s d hhdmOffset task r k).2.tasks ↔
      r.Ends s d hhdmOffset task i j k := by
  have hlive := recordsLive_lifecycle hrun
  cases r with
  | builtin a prog =>
    have huser : Returns (runProgram d hhdmOffset prog) := returns_runProgram d hhdmOffset prog
    -- Only this run looks at how the program ended.
    rcases usermodeRunTaskTest_cases s a (runProgram d hhdmOffset prog) (k.tasks.tasks i).addressSpaceCap
      (k.tasks.threads j).threadCap hhdmOffset (k.startTask task i j) with
      ⟨kᵤ, henters, hout⟩ | ⟨hnever, herror⟩
    · have hiff := henters.leftDead_iff s a hhdmOffset huser (staysUp_runProgram d hhdmOffset prog) hlive hnew
        hout
      constructor
      · intro hleft
        exact ⟨kᵤ, henters, hiff.mp hleft⟩
      · rintro ⟨kᵤ', henters', hends⟩
        obtain rfl := henters.unique henters'
        exact hiff.mpr hends
    · have hnot := not_leftDead_of_not_entered s a hhdmOffset huser hlive hnew rfl herror
      refine iff_of_false hnot ?_
      rintro ⟨kᵤ, henters, _⟩
      exact hnever kᵤ henters
  | flat a prog image imageSize endpoint =>
    have htasks : (userTaskRunFlat task a (runProgram d hhdmOffset prog) image imageSize endpoint
        hhdmOffset k).2.tasks =
      (runFlat task (fun f => usermodeRunFlatImage f a (runProgram d hhdmOffset prog)) image
        imageSize endpoint hhdmOffset k).2.tasks := rfl
    have hdone := done_runNewTask a task image imageSize endpoint hhdmOffset
      (returns_runProgram d hhdmOffset prog) hlive hnew
    -- The task is left dead whatever the image did.
    refine iff_of_true ?_ trivial
    show LeftDead task k.tasks (userTaskRunFlat task a (runProgram d hhdmOffset prog) image imageSize
      endpoint hhdmOffset k).2.tasks
    rw [htasks, runFlat_of_new _ endpoint hhdmOffset hnew hstart]
    exact hdone.leftDead
  | faultTest a prog test =>
    obtain ⟨endpoint, hlookup⟩ := hstart
    exact iff_of_true (done_userTaskRunFaultTest s a hhdmOffset
      (returns_runProgram d hhdmOffset prog) hlive hnew test hlookup).leftDead trivial

end system

/-! ### A task that is left running -/

/-- The machine with its services, before the first task. -/
def servedMachine : Kernel (Host Unit) := (machine ⟨[], true⟩).host RunState.zero

theorem noTasks_servedMachine : NoTasks servedMachine :=
  ⟨tablesWf_machine _, fun _ => rfl, fun _ => rfl⟩

/-- Programs of one byte. -/
def byteStubs : Stubs := ⟨parentStack, [0xf4], [0xf4], [0xf4], [0xf4]⟩

/-- The runs of the calls on this machine. -/
def servedTasks : System (Kernel (Host Unit)) LifecycleCall (Except Err Unit) :=
  lifecycleSystem byteStubs quietPeripherals 0xffff800000000000

/-- The machine with one task, whose token is `firstToken 5`. -/
def taskedMachine : Kernel (Host Unit) :=
  servedTasks.exec servedMachine [.call (.taskCreate (some 0) [.ok 0x10000])]

theorem run_taskedMachine : ∃ log, servedTasks.Run log taskedMachine := by
  have hguard : servedTasks.Guarded (fun _ _ => True) servedMachine
      [.call (.taskCreate (some 0) [.ok 0x10000])] := ⟨trivial, trivial⟩
  exact (System.RunWhen.init noTasks_servedMachine).exec hguard

theorem isNew_taskedMachine : IsNew taskedMachine.tasks (firstToken 5) 0 0 :=
  ⟨⟨by decide +kernel, by decide +kernel⟩, by decide +kernel, by decide +kernel⟩

/-- A program that faults leaves its task dead, and the user test that faults was entered
    before. -/
theorem left_dead_faultTest :
    LeftDead (firstToken 5) taskedMachine.tasks
      (runTask byteStubs quietPeripherals 0xffff800000000000 (firstToken 5)
        (.faultTest childAnswers .exception .pageFault) taskedMachine).2.tasks ∧
    RunCall.Ends byteStubs quietPeripherals 0xffff800000000000 (firstToken 5) 0 0 taskedMachine
      (.builtin childAnswers .exception) := by
  obtain ⟨log, hrun⟩ := run_taskedMachine
  have hstart : RunCall.Starts taskedMachine (.faultTest childAnswers .exception .pageFault) :=
    ⟨firstToken 0, by decide +kernel⟩
  refine ⟨(left_dead _ _ _ hrun isNew_taskedMachine _ hstart).mpr trivial, ?_⟩
  apply (left_dead _ _ _ hrun isNew_taskedMachine (.builtin childAnswers .exception) trivial).mp
  refine ⟨⟨0, 0, ⟨?_, ?_⟩, ?_, ?_⟩, ?_, ?_⟩
  all_goals decide +kernel

/-- There is no page for the code of a program. -/
def noPages : RunAnswers := { childAnswers with code := fun _ => (.error .nomem, []) }

/-- The user test for which there is no page is left running. -/
theorem left_dead_fails :
    ¬ ∀ (log : List (LifecycleCall × Except Err Unit)) (k : Kernel (Host Unit)),
      servedTasks.Run log k → ∀ task i j, IsNew k.tasks task i j → ∀ r : RunCall, r.Starts k →
        LeftDead task k.tasks
          (runTask byteStubs quietPeripherals 0xffff800000000000 task r k).2.tasks := by
  intro hall
  obtain ⟨log, hrun⟩ := run_taskedMachine
  have hleft := hall log taskedMachine hrun (firstToken 5) 0 0 isNew_taskedMachine (.builtin noPages .exception)
    trivial
  have hbusy : (taskCleanup (runTask byteStubs quietPeripherals 0xffff800000000000 (firstToken 5)
      (.builtin noPages .exception) taskedMachine).2.tasks (firstToken 5)).1 = .error .busy := by
    decide +kernel
  rw [hleft.cleanup] at hbusy
  cases hbusy

end Scdk
