import Scdk.Core.TaskSteps
import Scdk.Lib.Run

/-! # The threads of a dead task

    A task remembers one main thread, and its end takes that thread with it.  A
    second thread replaces the first one in the record of the task, and then
    nothing ends the first one any more.

    * `TaskCall`: the calls that make, run and end tasks and threads,
    * `NoLivingThread`: a task that has ended has dead threads only,
    * `FirstThread`: no task gets a second thread,
    * `no_living_thread`: by `RecordsLive` and `MainThreads`, which every call
      keeps. -/

namespace Scdk

variable {δ : Type}

/-! ## The calls -/

/-- The calls on tasks and threads.  `prog` is the program of a task that is run,
    and the answers are those of the allocators. -/
inductive TaskCall where
  | taskCreate (storage : Option Nat) (pages : PageSupply)
  | threadCreate (task : UInt64)
  | runFlat (task : UInt64) (a : RunAnswers) (prog : Program) (image imageSize endpoint : UInt64)
  | exit (task statusCode : UInt64)
  | faultCurrent (statusCode : UInt64)
  | cleanup (task : UInt64)

/-- `scdk_task_exit` -/
def K.taskExit (task statusCode : UInt64) : K δ Unit := fun k =>
  ((Scdk.taskExit k.tasks task statusCode).1,
    { k with tasks := (Scdk.taskExit k.tasks task statusCode).2 })

/-- `scdk_task_fault_current` -/
def K.taskFaultCurrent (statusCode : UInt64) : K δ Unit := fun k =>
  ((Scdk.taskFaultCurrent k.tasks statusCode).1,
    { k with tasks := (Scdk.taskFaultCurrent k.tasks statusCode).2 })

/-- The step of a call; the tokens that are answered are not observed. -/
def taskStep (d : Peripherals δ) (hhdmOffset : UInt64) (k : Kernel (Host δ)) :
    TaskCall → Except Err Unit × Kernel (Host δ)
  | .taskCreate storage pages => (do let _ ← userTaskCreate storage pages : K (Host δ) Unit) k
  | .threadCreate task => (do let _ ← userThreadCreate task : K (Host δ) Unit) k
  | .runFlat task a prog image imageSize endpoint =>
    userTaskRunFlat task a (runProgram d hhdmOffset prog) image imageSize endpoint hhdmOffset k
  | .exit task statusCode => K.taskExit task statusCode k
  | .faultCurrent statusCode => K.taskFaultCurrent statusCode k
  | .cleanup task => K.taskCleanup task k

/-- A state before the first user task is made. -/
structure NoTasks (k : Kernel (Host δ)) : Prop where
  wf : TablesWf k.objects k.caps
  tasks : ∀ i, (k.tasks.tasks i).inUse = false
  threads : ∀ j, (k.tasks.threads j).inUse = false

/-- The runs of the calls. -/
def taskSystem (d : Peripherals δ) (hhdmOffset : UInt64) :
    System (Kernel (Host δ)) TaskCall (Except Err Unit) where
  init := NoTasks
  step := taskStep d hhdmOffset

/-! ## The property -/

/-- A task that has ended has dead threads only. -/
def NoLivingThread (t : UserTasks) : Prop :=
  ∀ i j, (t.tasks i).inUse = true → ((t.tasks i).state = .dead ∨ (t.tasks i).state = .cleaned) →
    (t.threads j).inUse = true → (t.threads j).taskId = (t.tasks i).taskId →
    (t.threads j).state = .dead

instance (t : UserTasks) : Decidable (NoLivingThread t) :=
  inferInstanceAs (Decidable (∀ _, _))

/-- No task that has a main thread gets another one. -/
def FirstThread (k : Kernel (Host δ)) : TaskCall → Prop
  | .threadCreate task =>
    ∀ i, taskSlotForCap k.tasks task = .ok i → (k.tasks.tasks i).mainThreadCap = 0
  | _ => True

theorem MainThreads.noLivingThread {k : Kernel δ} (h : MainThreads k.tasks) (hlive : RecordsLive k) :
    NoLivingThread k.tasks := by
  intro i j huse hstate hthread hid
  obtain ⟨i', huse', hid', hmain⟩ := h.owner j hthread
  obtain rfl := hlive.taskId huse' huse (hid'.trans hid)
  obtain ⟨j', hthread', hcap, hdead⟩ := h.main i' huse'
  -- The main thread of the task is the thread itself.
  have hslot := hlive.threadSlot hthread' hcap
  have hslot' := hlive.threadSlot hthread hmain.symm
  obtain rfl := Except.ok.inj (hslot.symm.trans hslot')
  exact hdead hstate

/-! ## Steps -/

section steps

variable {k : Kernel (Host δ)}

theorem mainThreads_taskExit (h : MainThreads k.tasks) (hlive : RecordsLive k)
    (task statusCode : UInt64) : MainThreads (taskExit k.tasks task statusCode).2 := by
  cases hslot : taskSlotForCap k.tasks task with
  | error e =>
    unfold taskExit
    rw [hslot]
    exact h
  | ok i =>
    obtain ⟨j, hrec⟩ := h.hasRecords hlive hslot
    by_cases hrun : (k.tasks.tasks i).state = .running
    · rw [taskExit_kill hrec hrun]
      exact h.kill hlive hrec fun s => ⟨.dead, statusCode, rfl⟩
    · rw [taskExit_busy hrec hrun]
      exact h

theorem mainThreads_taskFaultCurrent (h : MainThreads k.tasks) (hlive : RecordsLive k)
    (statusCode : UInt64) : MainThreads (taskFaultCurrent k.tasks statusCode).2 := by
  by_cases hzero : k.tasks.currentUserTask = 0
  · unfold taskFaultCurrent
    rw [if_pos hzero]
    exact h
  · cases hslot : taskSlotForCap k.tasks k.tasks.currentUserTask with
    | error e =>
      unfold taskFaultCurrent
      rw [if_neg hzero, hslot]
      exact h
    | ok i =>
      obtain ⟨j, hrec⟩ := h.hasRecords hlive hslot
      rw [taskFaultCurrent_kill hrec rfl hzero]
      exact h.kill hlive hrec fun s => ⟨.dead, statusCode, rfl⟩

/-- A change of the records by the end of a task. -/
theorem recordsKept_end (t : UserTasks) (i : Fin maxTasks) (statusCode thread : UInt64) :
    RecordsKept t ((t.setTask i fun slot =>
      { slot with exitStatus := statusCode, state := .dead }).killThread thread) :=
  IsTrans.trans _ _ _ (recordsKept_setTask t i fun _ => ⟨.dead, statusCode, rfl⟩)
    (recordsKept_killThread _ thread)

theorem recordsKept_taskExit (t : UserTasks) (task statusCode : UInt64) :
    RecordsKept t (taskExit t task statusCode).2 := by
  unfold taskExit
  split
  · exact refl t
  · split
    · exact refl t
    · exact recordsKept_end t _ statusCode _

theorem recordsKept_taskFaultCurrent (t : UserTasks) (statusCode : UInt64) :
    RecordsKept t (taskFaultCurrent t statusCode).2 := by
  unfold taskFaultCurrent
  split
  · exact refl t
  · split
    · exact refl t
    · exact recordsKept_end t _ statusCode _

end steps

/-! ## Runs -/

/-- The invariant of the runs in which no task gets a second thread. -/
structure TasksInv (k : Kernel (Host δ)) : Prop where
  live : RecordsLive k
  threads : MainThreads k.tasks

theorem NoTasks.inv {k : Kernel (Host δ)} (h : NoTasks k) : TasksInv k := by
  have htask : ∀ {i}, (k.tasks.tasks i).inUse ≠ true := by
    intro i
    rw [h.tasks i]
    decide
  have hthread : ∀ {j}, (k.tasks.threads j).inUse ≠ true := by
    intro j
    rw [h.threads j]
    decide
  refine ⟨⟨h.wf, ?_, ?_, ?_, ?_⟩, ?_, ?_⟩
  · exact fun i huse => absurd huse htask
  · exact fun j huse => absurd huse hthread
  · exact fun huse => absurd huse htask
  · exact fun huse => absurd huse hthread
  · exact fun i huse => absurd huse htask
  · exact fun j huse => absurd huse hthread

theorem OrderlyStep.inv {k k' : Kernel (Host δ)} (h : OrderlyStep k k') (hinv : TasksInv k) :
    TasksInv k' := ⟨h.live, h.threads hinv.threads⟩

/-- The invariant after an action is that after the part of it that does
    something. -/
theorem discard_state {α : Type} (m : K (Host δ) α) (k : Kernel (Host δ)) :
    ((do let _ ← m : K (Host δ) Unit) k).2 = (m k).2 := by
  rcases Effect.bind_cases m (fun _ => (pure () : K (Host δ) Unit)) k with heq | ⟨_, heq⟩
  · exact heq
  · exact congrArg Prod.snd heq

/-- **Step.**  Every call keeps the invariant, where no task gets a second
    thread. -/
theorem TasksInv.step {d : Peripherals δ} {hhdmOffset : UInt64} {k : Kernel (Host δ)}
    (h : TasksInv k) {call : TaskCall} (hfirst : FirstThread k call) :
    TasksInv (taskStep d hhdmOffset k call).2 := by
  cases call with
  | taskCreate storage pages =>
    show TasksInv ((do let _ ← userTaskCreate storage pages : K (Host δ) Unit) k).2
    rw [discard_state]
    exact (orderly_userTaskCreate storage pages k h.live).inv h
  | threadCreate task =>
    show TasksInv ((do let _ ← userThreadCreate task : K (Host δ) Unit) k).2
    rw [discard_state]
    rcases userThreadCreate_run task k with ⟨e, _, hmaking⟩ | ⟨thread, id, i, j, _, hmade⟩
    · have hstep : Orderly k (userThreadCreate task k).2 :=
        orderly_of_tasks hmaking.tasks (by rw [hmaking.syscall]) hmaking.lasting
      exact (hstep h.live).inv h
    · -- A task on record has a main thread, and its token is not zero.
      have hzero := hfirst i hmade.slot
      obtain ⟨huse, _⟩ := taskSlotForCap_eq_ok hmade.slot
      obtain ⟨j', huse', hcap, _⟩ := h.threads.main i huse
      rw [hzero] at hcap
      exact absurd hcap (h.live.thread j' huse').ne_zero
  | runFlat task a prog image imageSize endpoint =>
    have hstep := orderly_userTaskRunFlat a task image imageSize endpoint hhdmOffset
      (returns_runProgram d hhdmOffset prog) k
    exact (hstep h.live).inv h
  | exit task statusCode =>
    -- The calls below rewrite states of records, and no names.
    refine ⟨h.live.of_names (.of_eq rfl) ?_ ?_, ?_⟩
    · exact recordsKept_taskExit k.tasks task statusCode
    · exact sameNames_taskExit k.tasks task statusCode
    · exact mainThreads_taskExit h.threads h.live task statusCode
  | faultCurrent statusCode =>
    refine ⟨h.live.of_names (.of_eq rfl) ?_ ?_, ?_⟩
    · exact recordsKept_taskFaultCurrent k.tasks statusCode
    · exact sameNames_taskFaultCurrent k.tasks statusCode
    · exact mainThreads_taskFaultCurrent h.threads h.live statusCode
  | cleanup task => exact (orderly_taskCleanup task k h.live).inv h

theorem tasksInv_run {d : Peripherals δ} {hhdmOffset : UInt64} {log : List (TaskCall × Except Err Unit)}
    {k : Kernel (Host δ)} (hrun : (taskSystem d hhdmOffset).RunWhen FirstThread log k) :
    TasksInv k := by
  apply hrun.invariant
  · intro k h
    exact h.inv
  · intro k call h hfirst
    exact h.step hfirst

/-- **Dead tasks.**  In every run in which no task gets a second thread, a task
    that is dead or cleaned up has dead threads only. -/
theorem no_living_thread (d : Peripherals δ) (hhdmOffset : UInt64)
    {log : List (TaskCall × Except Err Unit)} {k : Kernel (Host δ)}
    (hrun : (taskSystem d hhdmOffset).RunWhen FirstThread log k) : NoLivingThread k.tasks := by
  have hinv := tasksInv_run hrun
  exact hinv.threads.noLivingThread hinv.live

/-! ### A task that ends -/

/-- A machine without tasks. -/
def emptyMachine : Kernel (Host Unit) := (Kernel.zero ⟨[], true⟩).host RunState.zero

theorem noTasks_emptyMachine : NoTasks emptyMachine :=
  ⟨tablesWf_zero, fun _ => rfl, fun _ => rfl⟩

/-- A task is made, and its run is refused for want of an endpoint. -/
def makeAndRun : List TaskCall :=
  [.taskCreate (some 0) [.ok 0x10000],
    .runFlat (firstToken 1) childAnswers .exception 0xffffffffd0002000 16 0]

/-- The same with a second thread in between. -/
def makeTwoAndRun : List TaskCall :=
  [.taskCreate (some 0) [.ok 0x10000], .threadCreate (firstToken 1),
    .runFlat (firstToken 1) childAnswers .exception 0xffffffffd0002000 16 0]

/-- The runs of the calls on this machine. -/
def quietTasks : System (Kernel (Host Unit)) TaskCall (Except Err Unit) :=
  taskSystem quietPeripherals 0xffff800000000000

theorem quietTasks_init : quietTasks.init emptyMachine := noTasks_emptyMachine

/-- The task is dead at the end, and so is its thread. -/
theorem no_living_thread_one :
    ∃ log k, quietTasks.RunWhen FirstThread log k ∧ (k.tasks.tasks 0).state = .dead ∧
      NoLivingThread k.tasks := by
  have hguard : quietTasks.Guarded FirstThread emptyMachine makeAndRun := ⟨trivial, trivial, trivial⟩
  obtain ⟨log, hrun⟩ := (System.RunWhen.init quietTasks_init).exec hguard
  exact ⟨log, _, hrun, by decide +kernel, no_living_thread _ _ hrun⟩

/-- The first of two threads is still new when its task is dead. -/
theorem no_living_thread_fails :
    ¬ ∀ (log : List (TaskCall × Except Err Unit)) (k : Kernel (Host Unit)),
      quietTasks.Run log k → NoLivingThread k.tasks := by
  intro hall
  obtain ⟨log, hrun⟩ := (System.Run.init quietTasks_init).exec makeTwoAndRun
  have hthread : ¬ NoLivingThread (quietTasks.exec emptyMachine makeTwoAndRun).tasks := by
    decide +kernel
  exact hthread (hall log _ hrun)

end Scdk
