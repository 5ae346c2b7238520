import Scdk.Core.TaskSteps

/-! # Faults of user tasks

    A fault of a task ends that task and no other, at every depth of nested runs.

    * `FaultConfined`: the fault changes the record of the task and that of its
      main thread, which are dead afterwards; `RunContained`: what has to hold of
      a call of `scdk_user_task_run_flat` that has returned,
    * `Settled`: no fault is pending, and every call so far was contained,
    * `Contained`: what a task sees of a step in which it does not fault, with the
      runs nested in it; `Ran`: the end of its program, which may be a fault,
    * `runs_runProgram`: by induction over the program, where the runs it spawns
      are `Contained` by `contained_userTaskRunFlat`,
    * `user_fault_contained`. -/

namespace Scdk

variable {δ : Type}

/-! ## The property -/

/-- The fault of `task` changes its record, in slot `i`, and that of its main
    thread, in slot `j`. -/
structure FaultConfined (task : UInt64) (f : Fault) (i : Fin maxTasks) (j : Fin maxThreads) :
    Prop where
  current : f.before.currentUserTask = task
  task : taskSlotForCap f.before task = .ok i
  thread : threadSlotForCap f.before (f.before.tasks i).mainThreadCap = .ok j
  after : f.after =
    { tasks := Function.update f.before.tasks i
        { f.before.tasks i with exitStatus := f.status, state := .dead }
      threads := Function.update f.before.threads j { f.before.threads j with state := .dead }
      currentUserTask := f.before.currentUserTask }

/-- A call that has returned: a fault is that of the task, the call fails, and the
    records are still those that the fault has left; the caller is current again, with
    all of its system call state. -/
structure RunContained (r : RunRecord) : Prop where
  fault : ∀ f, r.fault = some f →
    (∃ i j, FaultConfined r.task f i j) ∧ (∃ e, r.result = .error e) ∧
      r.tasks' = f.after.setCurrent r.caller.current
  caller : r.caller' = r.caller

/-- The runs that have returned were contained. -/
def LogContained (k : Kernel (Host δ)) : Prop := ∀ r ∈ k.devices.run.log, RunContained r

/-! ## Steps -/

/-- No fault is pending. -/
structure Settled (k : Kernel (Host δ)) : Prop where
  live : RecordsLive k
  pending : k.devices.run.pending = none
  log : LogContained k

theorem Settled.of_eq {k k' : Kernel (Host δ)} (h : Settled k) (hlive : RecordsLive k')
    (hpending : k'.devices.run.pending = k.devices.run.pending)
    (hlog : k'.devices.run.log = k.devices.run.log) : Settled k' := by
  refine ⟨hlive, hpending.trans h.pending, ?_⟩
  intro r hr
  rw [hlog] at hr
  exact h.log r hr

/-- A step in which the current task does not fault. -/
def Contained (k k' : Kernel (Host δ)) : Prop := Settled k → OrderlyStep k k' ∧ Settled k'

instance : IsPreorder (Kernel (Host δ)) Contained where
  refl := fun k h => ⟨(refl k : Orderly k k) h.live, h⟩
  trans := by
    intro k k' k'' h h' hsettled
    obtain ⟨hstep, hsettled'⟩ := h hsettled
    obtain ⟨hstep', hsettled''⟩ := h' hsettled'
    have hboth : Orderly k k'' := IsTrans.trans _ k' _ (fun _ => hstep) (fun _ => hstep')
    exact ⟨hboth hsettled.live, hsettled''⟩

/-- Orderly steps that note nothing about runs. -/
theorem Orderly.contained {k k' : Kernel (Host δ)} (h : Orderly k k')
    (hpending : k'.devices.run.pending = k.devices.run.pending)
    (hlog : k'.devices.run.log = k.devices.run.log) : Contained k k' := by
  intro hsettled
  have hstep := h hsettled.live
  exact ⟨hstep, hsettled.of_eq hstep.live hpending hlog⟩

theorem Noted.contained {k k' : Kernel (Host δ)} (h : Noted k k') : Contained k k' := by
  apply h.orderly.contained
  · rw [h.run]
  · rw [h.run]

theorem contained_taskCleanup (task : UInt64) :
    Effect.Within Contained (K.taskCleanup task : K (Host δ) Unit) :=
  fun k => (orderly_taskCleanup task k).contained rfl rfl

theorem contained_userTaskCreate (storage : Option Nat) (pages : PageSupply) :
    Effect.Within Contained (userTaskCreate storage pages : K (Host δ) NewTask) := by
  intro k
  have hbeside := (userTaskCreate_run storage pages k).beside
  exact (orderly_userTaskCreate storage pages k).contained hbeside.pending hbeside.log

/-! ## Running a task -/

section running

variable {task : UInt64} {i : Fin maxTasks} {j : Fin maxThreads} {k k₁ k' : Kernel (Host δ)}

/-- The state in which the program of `task` goes on. -/
structure Running (task : UInt64) (i : Fin maxTasks) (j : Fin maxThreads) (k : Kernel (Host δ)) :
    Prop extends GoesOn task i j k where
  faulted : k.syscall.userFaulted = false
  pending : k.devices.run.pending = none
  log : LogContained k

theorem Running.settled (h : Running task i j k) : Settled k := ⟨h.live, h.pending, h.log⟩

/-- How the user mode of `task` has ended: without a fault, or with one that is
    pending, since which the records have not changed. -/
def Finished (task : UInt64) (i : Fin maxTasks) (j : Fin maxThreads) (k : Kernel (Host δ)) : Prop :=
  k.devices.run.pending = none ∨
    ∃ f, k.devices.run.pending = some f ∧ FaultConfined task f i j ∧ k.tasks = f.after

/-- The program of `task` has come back. -/
structure Ran (task : UInt64) (i : Fin maxTasks) (j : Fin maxThreads) (k : Kernel (Host δ)) :
    Prop where
  log : LogContained k
  finished : Finished task i j k

/-- What `user` has to do, as the program of whatever task. -/
def Runs (user : K (Host δ) Unit) : Prop :=
  ∀ {task i j k}, Running task i j k → Ran task i j (user k).2

/-- A program that comes back without a fault. -/
theorem Settled.ran (h : Settled k) : Ran task i j k := ⟨h.log, .inl h.pending⟩

/-- Nothing that is observed changes. -/
theorem Ran.of_eq (h : Ran task i j k) (htasks : k'.tasks = k.tasks)
    (hpending : k'.devices.run.pending = k.devices.run.pending)
    (hlog : k'.devices.run.log = k.devices.run.log) : Ran task i j k' := by
  constructor
  · intro r hr
    rw [hlog] at hr
    exact h.log r hr
  · unfold Finished
    rw [htasks, hpending]
    exact h.finished

theorem Contained.running (h : Contained k k') (hrun : Running task i j k) : Running task i j k' := by
  obtain ⟨hstep, hsettled⟩ := h hrun.settled
  exact ⟨hstep.goesOn hrun.toGoesOn, hstep.faulted.trans hrun.faulted, hsettled.pending, hsettled.log⟩

variable (f : FlatImage) (a : RunAnswers) {user : K (Host δ) Unit}

/-- The run of an image by the task that is current. -/
theorem ran_usermodeRunFlatImage (huser : Runs user) (hgo : GoesOn task i j k)
    (hpending : k.devices.run.pending = none) (hlog : LogContained k) :
    Ran task i j (usermodeRunFlatImage f a user k).2 := by
  have hself : Ran task i j k := ⟨hlog, .inl hpending⟩
  cases hcheck : (checkFlatImage f k).1 with
  | error e =>
    rw [usermodeRunFlatImage_of_refused f a user hcheck]
    exact hself
  | ok _ =>
    rw [usermodeRunFlatImage_of_checked f a user hcheck]
    cases runSaved_run f a user k with
    | idle _ hkept => exact hself.of_eq hkept.tasks hkept.pending hkept.log
    | failed _ _ hbegan hended =>
      apply hself.of_eq
      · exact hended.tasks.trans hbegan.tasks
      · exact hended.pending.trans hbegan.pending
      · exact hended.log.trans hbegan.log
    | @entered _ k₁ _ _ hbegan hended =>
      have hbegin : Ran task i j k₁ := hself.of_eq hbegan.tasks hbegan.pending hbegan.log
      have hrunning : Running task i j k₁ :=
        ⟨hgo.of_tasks hbegan.tasks hbegan.lasting, hbegan.faulted, hbegan.pending.trans hpending,
          hbegin.log⟩
      exact (huser hrunning).of_eq hended.tasks hended.pending hended.log

end running

/-! ## A call of `scdk_user_task_run_flat` -/

section run

variable {task : UInt64} {i : Fin maxTasks} {j : Fin maxThreads} {k k₂ : Kernel (Host δ)} {f : Fault}

theorem FaultConfined.killed (h : FaultConfined task f i j) :
    f.after = f.before.kill i j fun s => { s with exitStatus := f.status, state := .dead } := h.after

/-- The records of the task are found where the fault has changed them, and are dead. -/
theorem FaultConfined.dead (h : FaultConfined task f i j) (current : UInt64) :
    HasRecords (f.after.setCurrent current) task i j ∧
      ((f.after.setCurrent current).tasks i).state = .dead := by
  have hrec : HasRecords f.before task i j := ⟨h.task, h.thread⟩
  have hnames := sameNames_killBoth f.before i j
    (f := fun s => { s with exitStatus := f.status, state := .dead }) fun s => ⟨.dead, f.status, rfl⟩
  rw [h.killed]
  refine ⟨(sameNames_setCurrent _ current).hasRecords (hnames.hasRecords hrec), ?_⟩
  show ((f.before.kill i j fun s => { s with exitStatus := f.status, state := .dead }).tasks i).state = .dead
  rw [UserTasks.kill_task]

/-- A second death changes nothing. -/
theorem FaultConfined.setStates (h : FaultConfined task f i j) (current : UInt64) :
    (f.after.setCurrent current).setStates i j .dead .dead = f.after.setCurrent current := by
  rw [h.killed]
  simp [UserTasks.setStates, UserTasks.setTask, UserTasks.setThread, UserTasks.setCurrent, UserTasks.kill]

/-- What the function makes of a status, when a fault has ended the user mode: an error,
    and the records as the fault has left them. -/
theorem FaultConfined.endTask (h : FaultConfined task f i j) (htasks : k₂.tasks = f.after)
    (status : Except Err Unit) (current : UInt64) :
    (∃ e, (endTask task i j status (k₂.backTo current)).1 = .error e) ∧
      (endTask task i j status (k₂.backTo current)).2.tasks = f.after.setCurrent current := by
  have hback : (k₂.backTo current).tasks = f.after.setCurrent current :=
    congrArg (UserTasks.setCurrent · current) htasks
  cases status with
  | error e =>
    refine ⟨⟨e, rfl⟩, ?_⟩
    show (k₂.backTo current).tasks.setStates i j .dead .dead = _
    rw [hback, h.setStates]
  | ok _ =>
    obtain ⟨hrec, hdead⟩ := h.dead current
    have hbusy : taskExit (k₂.backTo current).tasks task 0 = (.error .busy, f.after.setCurrent current) := by
      rw [hback]
      exact taskExit_busy hrec (by rw [hdead]; decide) 0
    exact ⟨⟨.busy, congrArg Prod.fst hbusy⟩, congrArg Prod.snd hbusy⟩

theorem endTask_run (task : UInt64) (i : Fin maxTasks) (j : Fin maxThreads) (status : Except Err Unit)
    (k : Kernel (Host δ)) : (endTask task i j status k).2.devices.run = k.devices.run := by
  cases status with
  | error e => rfl
  | ok _ => rfl

theorem endTask_caller (task : UInt64) (i : Fin maxTasks) (j : Fin maxThreads)
    (status : Except Err Unit) (k : Kernel (Host δ)) :
    (endTask task i j status k).2.caller = k.caller := by
  cases status with
  | error e => rfl
  | ok _ => exact congrArg (Caller.mk · (saveTaskState k)) (taskExit_current k.tasks task 0)

variable (a : RunAnswers) {user : K (Host δ) Unit}

/-- A call of `scdk_user_task_run_flat` up to its return. -/
structure Called (task : UInt64) (k : Kernel (Host δ)) (out : Except Err Unit × Kernel (Host δ)) :
    Prop where
  caller : out.2.caller = k.caller
  log : LogContained out.2
  fault : ∀ f, out.2.devices.run.pending = some f →
    (∃ i j, FaultConfined task f i j) ∧ (∃ e, out.1 = .error e) ∧
      out.2.tasks = f.after.setCurrent k.tasks.currentUserTask

theorem called_refused (task : UInt64) (h : Settled k) (e : Err) : Called task k (.error e, k) where
  caller := rfl
  log := h.log
  fault := by
    intro f hf
    rw [h.pending] at hf
    cases hf

variable (task image imageSize endpoint hhdmOffset : UInt64)

theorem called_runNewTask (huser : Runs user) (h : Settled k) (hnew : IsNew k.tasks task i j) :
    Called task k (runNewTask task i j (fun f => usermodeRunFlatImage f a user) image imageSize
      endpoint hhdmOffset k) := by
  rw [runNewTask_eq]
  set k₁ := k.startTask task i j with hk₁
  set f := k₁.tasks.flatImage i j image imageSize endpoint hhdmOffset with hf
  have hran := ran_usermodeRunFlatImage f a huser (hnew.goesOn h.live) h.pending h.log
  have hstate := usermodeRunFlatImage_state f a user k₁
  dsimp only
  generalize usermodeRunFlatImage f a user k₁ = out at hran hstate
  obtain ⟨status, k₂⟩ := out
  have hrun := endTask_run task i j status (k₂.backTo k.tasks.currentUserTask)
  constructor
  · rw [endTask_caller]
    exact congrArg (Caller.mk k.tasks.currentUserTask) hstate
  · intro r hr
    rw [hrun] at hr
    exact hran.log r hr
  · intro f' hf'
    rw [hrun] at hf'
    rcases hran.finished with hnone | ⟨f'', hsome, hconfined, htasks⟩
    · rw [show k₂.devices.run.pending = some f' from hf'] at hnone
      cases hnone
    · obtain rfl : f'' = f' := Option.some.inj (hsome.symm.trans hf')
      obtain ⟨hfails, hrecords⟩ := hconfined.endTask htasks status k.tasks.currentUserTask
      exact ⟨⟨i, j, hconfined⟩, hfails, hrecords⟩

theorem called_runFlat (huser : Runs user) (h : Settled k) :
    Called task k (runFlat task (fun f => usermodeRunFlatImage f a user) image imageSize endpoint
      hhdmOffset k) := by
  rcases runFlat_cases task image imageSize endpoint hhdmOffset
    (fun f => usermodeRunFlatImage f a user) k with ⟨e, hrun⟩ | ⟨i, j, hnew, hrun⟩
  · rw [hrun]
    exact called_refused task h e
  · rw [hrun]
    exact called_runNewTask a task image imageSize endpoint hhdmOffset huser h hnew

/-- A call that has returned is contained, for the task that makes it. -/
theorem contained_userTaskRunFlat (hreturns : Returns user) (huser : Runs user) :
    Effect.Within Contained
      (userTaskRunFlat task a user image imageSize endpoint hhdmOffset) := by
  intro k h
  have hstep := orderly_userTaskRunFlat a task image imageSize endpoint hhdmOffset hreturns k h.live
  refine ⟨hstep, hstep.live, ?_, ?_⟩
  · rfl
  have hcalled := called_runFlat a task image imageSize endpoint hhdmOffset huser h
  have hlog : (userTaskRunFlat task a user image imageSize endpoint hhdmOffset k).2.devices.run.log =
      (recordRun task k.caller (runFlat task (fun f => usermodeRunFlatImage f a user) image
          imageSize endpoint hhdmOffset k).1
        (runFlat task (fun f => usermodeRunFlatImage f a user) image imageSize endpoint
          hhdmOffset k).2).2.devices.run.log := rfl
  intro r hr
  rw [hlog] at hr
  rcases List.mem_append.mp hr with hold | hnew
  · exact hcalled.log r hold
  · rw [List.mem_singleton] at hnew
    rw [hnew]
    exact ⟨hcalled.fault, hcalled.caller⟩

end run

/-! ## Programs -/

section program

/-- A spawn is contained when the program it runs is one that runs. -/
theorem contained_spawnWith (d : Peripherals δ) (hhdmOffset : UInt64) (answers : LoadAnswers)
    {user : K (Host δ) Unit} (hreturns : Returns user) (huser : Runs user) :
    Effect.Within Contained (spawnWith d hhdmOffset answers user) := by
  apply spawnWith_within (R := Contained) Noted.contained
  · exact contained_userTaskCreate _ _
  · intro task image size endpoint
    exact contained_userTaskRunFlat _ task image size endpoint hhdmOffset hreturns huser
  · exact contained_taskCleanup

variable {task : UInt64} {i : Fin maxTasks} {j : Fin maxThreads} {k k' : Kernel (Host δ)}

/-- A step that marks a fault of the running task, once it is noted. -/
theorem Faulted.ran {e : Err} (h : Faulted e k k') (hrun : Running task i j k) :
    Ran task i j (noteFault k.tasks k').2 := by
  have hnote : noteFault k.tasks k' = K.setRun (fun r =>
      { r with pending := some ⟨k'.syscall.userFaultStatus, k.tasks, k'.tasks⟩ }) k' :=
    if_pos h.faulted
  have hne : task ≠ 0 := by
    obtain ⟨huse, hcap⟩ := taskSlotForCap_eq_ok hrun.records.task
    rw [← hcap]
    exact (hrun.live.task i huse).ne_zero
  rw [hnote]
  constructor
  · intro r hr
    have hold : r ∈ k'.devices.run.log := hr
    rw [h.run] at hold
    exact hrun.log r hold
  · refine .inr ⟨_, rfl, ⟨hrun.current, hrun.records.task, hrun.records.thread, ?_⟩, rfl⟩
    rw [h.tasks, h.status]
    exact taskFaultCurrent_kill hrun.records hrun.current hne e.word

/-- A step without a fault leaves nothing to note. -/
theorem Contained.noteFault (h : Contained k k') (hrun : Running task i j k) (before : UserTasks) :
    noteFault before k' = (.ok (), k') := by
  have hfaulted : k'.syscall.userFaulted = false := (h.running hrun).faulted
  unfold Scdk.noteFault
  rw [if_neg (by rw [hfaulted]; decide)]

/-- A system call ends the program in a fault of its own, or is contained. -/
theorem syscallEntry_run {d : Peripherals δ} {spawn : K (Host δ) Unit}
    (hspawn : Effect.Within Contained spawn) (c : Syscall) (regs : UserRegs)
    (hrun : Running task i j k) :
    ((syscallEntry (d.platform spawn) c regs k).1 = .ok true ∧
      Ran task i j (syscallEntry (d.platform spawn) c regs k).2) ∨
    Contained k (syscallEntry (d.platform spawn) c regs k).2 := by
  have hsaved : Contained k (saveRegs c regs k).2 := (orderly_setRun _ k).contained rfl rfl
  have hrun₁ := hsaved.running hrun
  set k₁ := (saveRegs c regs k).2 with hk₁
  have hentry : syscallEntry (d.platform spawn) c regs k =
      (do
        syscallDispatch (d.platform spawn) c
        noteFault k₁.tasks
        let k' ← Effect.get
        pure (decide (syscallLeaves c k₁ k')) : K (Host δ) Bool) k₁ := rfl
  have houtcome := syscallDispatch_outcome (R := Contained) Noted.contained hspawn (d := d) c k₁
  obtain ⟨k₂, hk₂⟩ : ∃ k₂, syscallDispatch (d.platform spawn) c k₁ = (.ok (), k₂) :=
    ⟨_, Prod.ext (syscallDispatch_ok _ c k₁) rfl⟩
  rw [hk₂] at houtcome
  rw [hentry, Effect.bind_of_ok hk₂]
  rcases houtcome with ⟨e, hfault, hleaves⟩ | hstep
  · -- The program has faulted: the entry notes it and leaves.
    left
    have hran := hfault.ran hrun₁
    have hnote : noteFault k₁.tasks k₂ = K.setRun (fun r =>
        { r with pending := some ⟨k₂.syscall.userFaultStatus, k₁.tasks, k₂.tasks⟩ }) k₂ :=
      if_pos hfault.faulted
    rw [hnote] at hran
    have hnoted := hnote.trans (show _ = (.ok (), _) from rfl)
    rw [Effect.bind_of_ok hnoted, Effect.bind_of_ok Effect.get_run]
    refine ⟨?_, hran⟩
    exact congrArg Except.ok (decide_eq_true hleaves)
  · -- Any other call returns to the program.
    right
    rw [Effect.bind_of_ok (hstep.noteFault hrun₁ k₁.tasks)]
    exact IsTrans.trans _ _ _ hsaved hstep

/-- **Runs.**  Every program, with all the programs it spawns, runs as the program
    of whatever task is current. -/
theorem runs_runProgram (d : Peripherals δ) (hhdmOffset : UInt64) (prog : Program) :
    Runs (runProgram d hhdmOffset prog) := by
  induction prog with
  | exit regs =>
    intro task i j k hrun
    have hspawn : Effect.Within Contained (noSpawn : K (Host δ) Unit) := Effect.within_fail _
    have hentry := syscallEntry_run hspawn (d := d) ⟨Sys.exit, 0, 0, 0, 0, 0⟩ regs hrun
    rcases Effect.bind_cases (syscallEntry (d.platform noSpawn) ⟨Sys.exit, 0, 0, 0, 0, 0⟩ regs)
      (fun _ => pure ()) k with heq | ⟨_, heq⟩
    all_goals
      rw [runProgram, heq]
      rcases hentry with ⟨_, hran⟩ | hstep
      · exact hran
      · exact (hstep.running hrun).settled.ran
  | exception =>
    intro task i j k hrun
    exact (faulted_markUserFault .perm k).ran hrun
  | memory frames rest ih =>
    intro task i j k hrun
    have hstep : Contained k { k with frames := frames } :=
      Orderly.contained (orderly_of_tasks rfl rfl (.of_eq rfl)) rfl rfl
    exact ih (hstep.running hrun)
  | syscall c regs answers child rest ihchild ihrest =>
    intro task i j k hrun
    -- The child runs as a task of its own, inside the system call.
    have hspawn := contained_spawnWith d hhdmOffset answers (returns_runProgram d hhdmOffset child) ihchild
    have hentry := syscallEntry_run hspawn (d := d) c regs hrun
    rw [runProgram, Effect.bind_run]
    rcases hcall : syscallEntry (d.platform (spawnWith d hhdmOffset answers
      (runProgram d hhdmOffset child))) c regs k with ⟨r, k'⟩
    rw [hcall] at hentry
    rcases hentry with ⟨hleaves, hran⟩ | hstep
    · rw [show r = .ok true from hleaves]
      exact hran
    · have hgoes : Running task i j k' := hstep.running hrun
      have hreturned : Ran task i j k' := hgoes.settled.ran
      cases r with
      | error e => exact hreturned
      | ok leaves =>
        cases leaves with
        | true => exact hreturned
        | false => exact ihrest hgoes

/-- A call is in the log once it has returned, and it is the last one there. -/
theorem userTaskRunFlat_logged (task : UInt64) (a : RunAnswers) (user : K (Host δ) Unit)
    (image imageSize endpoint hhdmOffset : UInt64) (k : Kernel (Host δ)) :
    ∃ r, (userTaskRunFlat task a user image imageSize endpoint
        hhdmOffset k).2.devices.run.log.getLast? = some r ∧
      r.task = task ∧ r.caller = k.caller ∧
      r.result = (userTaskRunFlat task a user image imageSize endpoint hhdmOffset k).1 ∧
      r.tasks' = (userTaskRunFlat task a user image imageSize endpoint hhdmOffset k).2.tasks :=
  ⟨_, List.getLast?_concat, rfl, rfl, rfl, rfl⟩

/-- **Containment.**  A run of a task, with all the runs nested in it: whenever a
    task faults, only its record and that of its main thread change, from the fault to
    the return of its call, and they are dead then, with the status of the fault; its call
    fails; and every call leaves the caller current, with all of its system call
    state. -/
theorem user_fault_contained (d : Peripherals δ) (hhdmOffset : UInt64) (prog : Program)
    (task : UInt64) (a : RunAnswers) (image imageSize endpoint : UInt64) (k : Kernel (Host δ))
    (hlive : RecordsLive k) (hpending : k.devices.run.pending = none)
    (hlog : k.devices.run.log = []) :
    (∃ r, (userTaskRunFlat task a (runProgram d hhdmOffset prog) image imageSize endpoint
        hhdmOffset k).2.devices.run.log.getLast? = some r ∧
      r.task = task ∧ r.caller = k.caller ∧
      r.result = (userTaskRunFlat task a (runProgram d hhdmOffset prog) image imageSize endpoint
        hhdmOffset k).1 ∧
      r.tasks' = (userTaskRunFlat task a (runProgram d hhdmOffset prog) image imageSize endpoint
        hhdmOffset k).2.tasks) ∧
    ∀ r ∈ (userTaskRunFlat task a (runProgram d hhdmOffset prog) image imageSize endpoint
      hhdmOffset k).2.devices.run.log, RunContained r := by
  refine ⟨userTaskRunFlat_logged _ _ _ _ _ _ _ _, ?_⟩
  have hsettled : Settled k := by
    refine ⟨hlive, hpending, ?_⟩
    intro r hr
    rw [hlog] at hr
    cases hr
  have hstep := contained_userTaskRunFlat a task image imageSize endpoint hhdmOffset
    (returns_runProgram d hhdmOffset prog) (runs_runProgram d hhdmOffset prog) k
  exact (hstep hsettled).2.log

end program

/-! ### A task that faults -/

/-- The records of the two tasks have tokens. -/
theorem recordsLive_parent : RecordsLive parentMachine := by
  have hstart : RecordsLive ((machine ⟨[], true⟩).host RunState.zero) :=
    { wf := tablesWf_machine _
      task := nofun
      thread := nofun
      taskId := nofun
      threadId := nofun }
  have hone := (orderly_userTaskCreate (some 0) [.ok 0x10000] _ hstart).live
  have htwo := orderly_userTaskCreate (some 1) [.ok 0x20000] _ hone
  have hstack : Orderly (userTaskCreate (some 1) [.ok 0x20000]
      (userTaskCreate (some 0) [.ok 0x10000] ((machine ⟨[], true⟩).host RunState.zero)).2).2
    parentMachine := orderly_of_tasks rfl rfl (.of_eq rfl)
  exact (hstack htwo.live).live

/-- The second task takes an exception: the call fails, and the task is dead, with the
    status of the fault, while the first one is still new. -/
theorem user_fault_contained_child :
    ∃ r ∈ (userTaskRunFlat (firstToken 8) childAnswers
        (runProgram quietPeripherals 0xffff800000000000 .exception) 0xffffffffd0002000 16
        (firstToken 0) 0xffff800000000000 parentMachine).2.devices.run.log,
      r.fault.isSome = true ∧ RunContained r ∧ (r.tasks'.tasks 1).state = .dead ∧
        (r.tasks'.tasks 1).exitStatus = Err.perm.word ∧ (r.tasks'.tasks 0).state = .new := by
  have hfault : ∃ r ∈ (userTaskRunFlat (firstToken 8) childAnswers
      (runProgram quietPeripherals 0xffff800000000000 .exception) 0xffffffffd0002000 16
      (firstToken 0) 0xffff800000000000 parentMachine).2.devices.run.log,
      r.fault.isSome = true ∧ (r.tasks'.tasks 1).state = .dead ∧
        (r.tasks'.tasks 1).exitStatus = Err.perm.word ∧ (r.tasks'.tasks 0).state = .new := by
    decide +kernel
  obtain ⟨r, hr, hfault, hdead⟩ := hfault
  refine ⟨r, hr, hfault, ?_, hdead⟩
  exact (user_fault_contained quietPeripherals 0xffff800000000000 .exception (firstToken 8)
    childAnswers 0xffffffffd0002000 16 (firstToken 0) parentMachine recordsLive_parent rfl rfl).2 r hr

end Scdk
