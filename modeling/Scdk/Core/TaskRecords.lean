import Scdk.Core.TaskCreation

/-! # The records of tasks and threads

    * `RecordsLive`: every record in use has a token of its own, so that a lookup
      by token finds that record and no other,
    * `RecordsKept`: steps that change the states of the records in use and
      nothing else of them,
    * `HasRecords`: a task with the slots of its record and of that of its main
      thread; it lasts over steps that keep the records,
    * `MainThreads`: every task has one thread, its main thread, which is dead
      when the task is,
    * `IsNew`: a task that `scdk_user_task_run_flat` runs; `runFlat_cases`: it runs
      no other. -/

namespace Scdk

variable {δ : Type}

/-! ## Records with tokens -/

/-- Every record in use has the token of an object, and no two have the same
    object. -/
structure RecordsLive (k : Kernel δ) : Prop where
  wf : TablesWf k.objects k.caps
  task : ∀ i, (k.tasks.tasks i).inUse = true →
    Live k ObjType.task (k.tasks.tasks i).taskCap (k.tasks.tasks i).taskId
  thread : ∀ j, (k.tasks.threads j).inUse = true →
    Live k ObjType.thread (k.tasks.threads j).threadCap (k.tasks.threads j).threadId
  taskId : ∀ {i i'}, (k.tasks.tasks i).inUse = true → (k.tasks.tasks i').inUse = true →
    (k.tasks.tasks i).taskId = (k.tasks.tasks i').taskId → i = i'
  threadId : ∀ {j j'}, (k.tasks.threads j).inUse = true → (k.tasks.threads j').inUse = true →
    (k.tasks.threads j).threadId = (k.tasks.threads j').threadId → j = j'

theorem Live.unique {k : Kernel δ} {type type' : UInt32} {cap id id' : UInt64}
    (h : Live k type cap id) (h' : Live k type' cap id') : id = id' := by
  obtain ⟨e, hl, _, rfl⟩ := h
  obtain ⟨e', hl', _, rfl⟩ := h'
  obtain rfl := Except.ok.inj (hl.symm.trans hl')
  rfl

section lookup

variable {k : Kernel δ}

/-- A task is found in the slot of its record. -/
theorem RecordsLive.taskSlot (h : RecordsLive k) {i : Fin maxTasks} {task : UInt64}
    (huse : (k.tasks.tasks i).inUse = true) (hcap : (k.tasks.tasks i).taskCap = task) :
    taskSlotForCap k.tasks task = .ok i := by
  cases hslot : taskSlotForCap k.tasks task with
  | error e =>
    unfold taskSlotForCap at hslot
    split at hslot
    · next hnone =>
      have hfree := Slots.firstSlot_eq_none hnone i
      rw [huse, hcap, beq_self_eq_true] at hfree
      cases hfree
    · cases hslot
  | ok i' =>
    obtain ⟨huse', hcap'⟩ := taskSlotForCap_eq_ok hslot
    have hlive := h.task i huse
    have hlive' := h.task i' huse'
    rw [hcap] at hlive
    rw [hcap'] at hlive'
    rw [h.taskId huse' huse (hlive'.unique hlive)]

/-- A thread is found in the slot of its record. -/
theorem RecordsLive.threadSlot (h : RecordsLive k) {j : Fin maxThreads} {thread : UInt64}
    (huse : (k.tasks.threads j).inUse = true) (hcap : (k.tasks.threads j).threadCap = thread) :
    threadSlotForCap k.tasks thread = .ok j := by
  obtain ⟨j', hslot⟩ := threadSlotForCap_of_inUse huse hcap
  obtain ⟨huse', hcap'⟩ := threadSlotForCap_eq_ok hslot
  have hlive := h.thread j huse
  have hlive' := h.thread j' huse'
  rw [hcap] at hlive
  rw [hcap'] at hlive'
  rw [hslot, h.threadId huse' huse (hlive'.unique hlive)]

end lookup

/-! ## Steps that keep the records -/

/-- The records in use stay, but for states and exit statuses. -/
structure RecordsKept (t t' : UserTasks) : Prop where
  task : ∀ i, (t.tasks i).inUse = true →
    ∃ state status, t'.tasks i = { t.tasks i with state := state, exitStatus := status }
  thread : ∀ j, (t.threads j).inUse = true →
    ∃ state, t'.threads j = { t.threads j with state := state }

instance : IsPreorder UserTasks RecordsKept where
  refl := fun t => ⟨fun i _ => ⟨(t.tasks i).state, (t.tasks i).exitStatus, rfl⟩,
    fun j _ => ⟨(t.threads j).state, rfl⟩⟩
  trans := by
    intro t t' t'' h h'
    constructor
    · intro i huse
      obtain ⟨state, status, heq⟩ := h.task i huse
      have huse' : (t'.tasks i).inUse = true := by
        rw [heq]
        exact huse
      obtain ⟨state', status', heq'⟩ := h'.task i huse'
      rw [heq] at heq'
      exact ⟨state', status', heq'⟩
    · intro j huse
      obtain ⟨state, heq⟩ := h.thread j huse
      have huse' : (t'.threads j).inUse = true := by
        rw [heq]
        exact huse
      obtain ⟨state', heq'⟩ := h'.thread j huse'
      rw [heq] at heq'
      exact ⟨state', heq'⟩

/-- The records in use are as before. -/
structure RecordsSame (t t' : UserTasks) : Prop where
  task : ∀ i, (t.tasks i).inUse = true → t'.tasks i = t.tasks i
  thread : ∀ j, (t.threads j).inUse = true → t'.threads j = t.threads j

theorem RecordsSame.kept {t t' : UserTasks} (h : RecordsSame t t') : RecordsKept t t' :=
  ⟨fun i huse => ⟨(t.tasks i).state, (t.tasks i).exitStatus, h.task i huse⟩,
    fun j huse => ⟨(t.threads j).state, h.thread j huse⟩⟩

/-- A change of the state of a task. -/
def StateOnly (f : UserTaskSlot → UserTaskSlot) : Prop :=
  ∀ s, ∃ state status, f s = { s with state := state, exitStatus := status }

section kept

variable (t : UserTasks)

theorem recordsKept_setCurrent (task : UInt64) : RecordsKept t (t.setCurrent task) :=
  ⟨(refl t : RecordsKept t t).task, (refl t : RecordsKept t t).thread⟩

theorem recordsKept_setTask (i : Fin maxTasks) {f : UserTaskSlot → UserTaskSlot}
    (hf : StateOnly f) : RecordsKept t (t.setTask i f) := by
  refine ⟨?_, (refl t : RecordsKept t t).thread⟩
  intro i' huse
  by_cases hi : i' = i
  · subst hi
    obtain ⟨state, status, heq⟩ := hf (t.tasks i')
    exact ⟨state, status, (Function.update_self _ _ _).trans heq⟩
  · rw [show (t.setTask i f).tasks i' = t.tasks i' from Function.update_of_ne hi _ _]
    exact (refl t : RecordsKept t t).task i' huse

theorem recordsKept_setThread (j : Fin maxThreads) (state : ThreadState) :
    RecordsKept t (t.setThread j fun s => { s with state := state }) := by
  refine ⟨(refl t : RecordsKept t t).task, ?_⟩
  intro j' huse
  by_cases hj : j' = j
  · subst hj
    exact ⟨state, Function.update_self _ _ _⟩
  · rw [show (t.setThread j fun s => { s with state := state }).threads j' = t.threads j' from
      Function.update_of_ne hj _ _]
    exact (refl t : RecordsKept t t).thread j' huse

theorem recordsKept_killThread (thread : UInt64) : RecordsKept t (t.killThread thread) := by
  unfold UserTasks.killThread
  split
  · exact refl t
  · next j _ => exact recordsKept_setThread t j .dead

/-- Records in slots that were free. -/
theorem recordsSame_newTask {i : Fin maxTasks} (hfree : (t.tasks i).inUse = false)
    (s : UserTaskSlot) : RecordsSame t (t.setTask i fun _ => s) := by
  refine ⟨?_, fun _ _ => rfl⟩
  intro i' huse
  have hi : i' ≠ i := by
    rintro rfl
    rw [hfree] at huse
    cases huse
  exact Function.update_of_ne hi _ _

end kept

section carry

variable {t t' : UserTasks} {k k' : Kernel δ}

theorem RecordsKept.taskUse (h : RecordsKept t t') {i : Fin maxTasks}
    (huse : (t.tasks i).inUse = true) : (t'.tasks i).inUse = true := by
  obtain ⟨_, _, heq⟩ := h.task i huse
  rw [heq]
  exact huse

theorem RecordsKept.threadUse (h : RecordsKept t t') {j : Fin maxThreads}
    (huse : (t.threads j).inUse = true) : (t'.threads j).inUse = true := by
  obtain ⟨_, heq⟩ := h.thread j huse
  rw [heq]
  exact huse

/-- Steps that change states only, and in which no record gets in use. -/
theorem RecordsLive.of_kept (h : RecordsLive k) (hlast : Lasting k k')
    (hkept : RecordsKept k.tasks k'.tasks)
    (htask : ∀ i, (k'.tasks.tasks i).inUse = true → (k.tasks.tasks i).inUse = true)
    (hthread : ∀ j, (k'.tasks.threads j).inUse = true → (k.tasks.threads j).inUse = true) :
    RecordsLive k' where
  wf := (hlast.tokens h.wf).wf
  task := by
    intro i huse
    obtain ⟨_, _, heq⟩ := hkept.task i (htask i huse)
    rw [heq]
    exact hlast.live h.wf (by decide) (h.task i (htask i huse))
  thread := by
    intro j huse
    obtain ⟨_, heq⟩ := hkept.thread j (hthread j huse)
    rw [heq]
    exact hlast.live h.wf (by decide) (h.thread j (hthread j huse))
  taskId := by
    intro i i' huse huse' hid
    obtain ⟨_, _, heq⟩ := hkept.task i (htask i huse)
    obtain ⟨_, _, heq'⟩ := hkept.task i' (htask i' huse')
    rw [heq, heq'] at hid
    exact h.taskId (htask i huse) (htask i' huse') hid
  threadId := by
    intro j j' huse huse' hid
    obtain ⟨_, heq⟩ := hkept.thread j (hthread j huse)
    obtain ⟨_, heq'⟩ := hkept.thread j' (hthread j' huse')
    rw [heq, heq'] at hid
    exact h.threadId (hthread j huse) (hthread j' huse') hid

/-- The same for records that are as before, whatever their states. -/
theorem RecordsLive.of_names (h : RecordsLive k) (hlast : Lasting k k')
    (hkept : RecordsKept k.tasks k'.tasks) (hnames : SameNames k.tasks k'.tasks) :
    RecordsLive k' := by
  apply h.of_kept hlast hkept
  · intro i huse
    exact (hnames.taskUse i).symm.trans huse
  · intro j huse
    exact (hnames.threadUse j).symm.trans huse

end carry

/-! ## A task with its main thread -/

/-- The record of `task` is in slot `i`, and that of its main thread in slot `j`. -/
structure HasRecords (t : UserTasks) (task : UInt64) (i : Fin maxTasks) (j : Fin maxThreads) :
    Prop where
  task : taskSlotForCap t task = .ok i
  thread : threadSlotForCap t (t.tasks i).mainThreadCap = .ok j

section hasRecords

variable {t t' : UserTasks} {task : UInt64} {i : Fin maxTasks} {j : Fin maxThreads}

theorem HasRecords.taskUse (h : HasRecords t task i j) : (t.tasks i).inUse = true :=
  (taskSlotForCap_eq_ok h.task).1

theorem HasRecords.threadUse (h : HasRecords t task i j) : (t.threads j).inUse = true :=
  (threadSlotForCap_eq_ok h.thread).1

theorem HasRecords.threadCap (h : HasRecords t task i j) :
    (t.threads j).threadCap = (t.tasks i).mainThreadCap := (threadSlotForCap_eq_ok h.thread).2

theorem SameNames.hasRecords (h : SameNames t t') (hrec : HasRecords t task i j) :
    HasRecords t' task i j := by
  refine ⟨(h.taskSlot task).trans hrec.task, ?_⟩
  rw [h.mainThread, h.threadSlot]
  exact hrec.thread

/-- The records of a task are found where they were. -/
theorem RecordsKept.hasRecords {k k' : Kernel δ} (h : RecordsKept k.tasks k'.tasks)
    (hlive : RecordsLive k') (hrec : HasRecords k.tasks task i j) :
    HasRecords k'.tasks task i j := by
  obtain ⟨_, _, htask⟩ := h.task i hrec.taskUse
  obtain ⟨_, hthread⟩ := h.thread j hrec.threadUse
  constructor
  · apply hlive.taskSlot (h.taskUse hrec.taskUse)
    rw [htask]
    exact (taskSlotForCap_eq_ok hrec.task).2
  · apply hlive.threadSlot (h.threadUse hrec.threadUse)
    rw [hthread, htask]
    exact hrec.threadCap

end hasRecords

/-! ## The end of a task -/

/-- The record in slot `i` changes as `f` says, and the thread in slot `j` is
    dead. -/
def UserTasks.kill (t : UserTasks) (i : Fin maxTasks) (j : Fin maxThreads)
    (f : UserTaskSlot → UserTaskSlot) : UserTasks :=
  (t.setTask i f).setThread j fun s => { s with state := .dead }

section kill

variable {t : UserTasks} {task : UInt64} {i : Fin maxTasks} {j : Fin maxThreads}

theorem taskFaultCurrent_kill (h : HasRecords t task i j) (hcurrent : t.currentUserTask = task)
    (hne : task ≠ 0) (status : UInt64) :
    (taskFaultCurrent t status).2 =
      t.kill i j fun s => { s with exitStatus := status, state := .dead } := by
  subst hcurrent
  have hthread : threadSlotForCap (t.setTask i fun s => { s with exitStatus := status, state := .dead })
      (t.tasks i).mainThreadCap = .ok j := h.thread
  unfold taskFaultCurrent
  rw [if_neg hne, h.task]
  show (UserTasks.killThread (t.setTask i fun s => { s with exitStatus := status, state := .dead })
    (t.tasks i).mainThreadCap) = _
  unfold UserTasks.killThread
  rw [hthread]
  rfl

theorem taskExit_kill (h : HasRecords t task i j) (hstate : (t.tasks i).state = .running)
    (status : UInt64) :
    taskExit t task status =
      (.ok (), t.kill i j fun s => { s with exitStatus := status, state := .dead }) := by
  have hthread : threadSlotForCap (t.setTask i fun s => { s with exitStatus := status, state := .dead })
      (t.tasks i).mainThreadCap = .ok j := h.thread
  unfold taskExit
  rw [h.task]
  dsimp only
  rw [if_neg (by simp [hstate])]
  show (Except.ok (), UserTasks.killThread
    (t.setTask i fun s => { s with exitStatus := status, state := .dead })
    (t.tasks i).mainThreadCap) = _
  unfold UserTasks.killThread
  rw [hthread]
  rfl

theorem taskExit_busy (h : HasRecords t task i j) (hstate : (t.tasks i).state ≠ .running)
    (status : UInt64) : taskExit t task status = (.error .busy, t) := by
  unfold taskExit
  rw [h.task]
  dsimp only
  rw [if_pos hstate]

theorem taskCleanup_kill (h : HasRecords t task i j) (hstate : (t.tasks i).state = .dead) :
    taskCleanup t task = (.ok (), t.kill i j fun s => { s with state := .cleaned }) := by
  unfold taskCleanup
  rw [h.task]
  dsimp only
  rw [if_neg (by simp [hstate])]
  unfold UserTasks.killThread
  rw [h.thread]
  rfl

theorem recordsKept_kill (t : UserTasks) (i : Fin maxTasks) (j : Fin maxThreads)
    {f : UserTaskSlot → UserTaskSlot} (hf : StateOnly f) : RecordsKept t (t.kill i j f) :=
  IsTrans.trans _ _ _ (recordsKept_setTask t i hf) (recordsKept_setThread _ j .dead)

theorem sameNames_killBoth (t : UserTasks) (i : Fin maxTasks) (j : Fin maxThreads)
    {f : UserTaskSlot → UserTaskSlot} (hf : StateOnly f) : SameNames t (t.kill i j f) := by
  have huse : ∀ s, (f s).inUse = s.inUse ∧ (f s).taskCap = s.taskCap ∧
      (f s).mainThreadCap = s.mainThreadCap := by
    intro s
    obtain ⟨_, _, heq⟩ := hf s
    rw [heq]
    exact ⟨rfl, rfl, rfl⟩
  have htask := sameNames_setTask t i (fun s => (huse s).1) (fun s => (huse s).2.1)
    (fun s => (huse s).2.2)
  exact IsTrans.trans _ _ _ htask (sameNames_setThread _ j (fun _ => rfl) (fun _ => rfl))

theorem UserTasks.kill_task (t : UserTasks) (i : Fin maxTasks) (j : Fin maxThreads)
    (f : UserTaskSlot → UserTaskSlot) : (t.kill i j f).tasks i = f (t.tasks i) :=
  Function.update_self _ _ _

theorem UserTasks.kill_task_ne (t : UserTasks) {i i' : Fin maxTasks} (j : Fin maxThreads)
    (f : UserTaskSlot → UserTaskSlot) (h : i' ≠ i) : (t.kill i j f).tasks i' = t.tasks i' :=
  Function.update_of_ne h _ _

theorem UserTasks.kill_thread (t : UserTasks) (i : Fin maxTasks) (j : Fin maxThreads)
    (f : UserTaskSlot → UserTaskSlot) : ((t.kill i j f).threads j).state = .dead := by
  have hslot : (t.kill i j f).threads j = { t.threads j with state := .dead } :=
    Function.update_self _ _ _
  rw [hslot]

end kill

/-! ## One thread for each task -/

/-- Every task has its main thread, which is dead when the task is, and every
    thread is the main thread of its task. -/
structure MainThreads (t : UserTasks) : Prop where
  main : ∀ i, (t.tasks i).inUse = true → ∃ j, (t.threads j).inUse = true ∧
    (t.threads j).threadCap = (t.tasks i).mainThreadCap ∧
    ((t.tasks i).state = .dead ∨ (t.tasks i).state = .cleaned → (t.threads j).state = .dead)
  owner : ∀ j, (t.threads j).inUse = true → ∃ i, (t.tasks i).inUse = true ∧
    (t.tasks i).taskId = (t.threads j).taskId ∧
    (t.tasks i).mainThreadCap = (t.threads j).threadCap

section mainThreads

variable {t t' : UserTasks} {i : Fin maxTasks} {j : Fin maxThreads}

/-- The thread records behind both fields of `MainThreads` for a change of states:
    a task that ends takes its main thread with it. -/
theorem MainThreads.of_kept (h : MainThreads t) (hkept : RecordsKept t t')
    (htask : ∀ i, (t'.tasks i).inUse = true → (t.tasks i).inUse = true)
    (hthread : ∀ j, (t'.threads j).inUse = true → (t.threads j).inUse = true)
    (hdead : ∀ i j, (t.tasks i).inUse = true → (t.threads j).inUse = true →
      (t.threads j).threadCap = (t.tasks i).mainThreadCap →
      ((t.tasks i).state = .dead ∨ (t.tasks i).state = .cleaned → (t.threads j).state = .dead) →
      (t'.tasks i).state = .dead ∨ (t'.tasks i).state = .cleaned → (t'.threads j).state = .dead) :
    MainThreads t' where
  main := by
    intro i huse
    obtain ⟨j, hj, hcap, hstate⟩ := h.main i (htask i huse)
    obtain ⟨_, _, htaskEq⟩ := hkept.task i (htask i huse)
    obtain ⟨_, hthreadEq⟩ := hkept.thread j hj
    refine ⟨j, hkept.threadUse hj, ?_, hdead i j (htask i huse) hj hcap hstate⟩
    rw [htaskEq, hthreadEq]
    exact hcap
  owner := by
    intro j huse
    obtain ⟨i, hi, hid, hmain⟩ := h.owner j (hthread j huse)
    obtain ⟨_, _, htaskEq⟩ := hkept.task i hi
    obtain ⟨_, hthreadEq⟩ := hkept.thread j (hthread j huse)
    refine ⟨i, hkept.taskUse hi, ?_, ?_⟩
    · rw [htaskEq, hthreadEq]
      exact hid
    · rw [htaskEq, hthreadEq]
      exact hmain

theorem MainThreads.of_eq (h : MainThreads t) (htasks : t'.tasks = t.tasks)
    (hthreads : t'.threads = t.threads) : MainThreads t' := by
  constructor
  · rw [htasks, hthreads]
    exact h.main
  · rw [htasks, hthreads]
    exact h.owner

/-- The end of a task with its main thread. -/
theorem MainThreads.kill {k : Kernel δ} (h : MainThreads k.tasks) (hlive : RecordsLive k)
    {task : UInt64} (hrec : HasRecords k.tasks task i j) {f : UserTaskSlot → UserTaskSlot}
    (hf : StateOnly f) : MainThreads (k.tasks.kill i j f) := by
  have hnames := sameNames_killBoth k.tasks i j hf
  apply h.of_kept (recordsKept_kill k.tasks i j hf)
  · intro i' huse
    exact (hnames.taskUse i').symm.trans huse
  · intro j' huse
    exact (hnames.threadUse j').symm.trans huse
  intro i' j' huse huse' hcap hstate hdead
  by_cases hj : j' = j
  · rw [hj]
    exact UserTasks.kill_thread _ _ _ _
  · have hi : i' ≠ i := by
      rintro rfl
      -- The main thread is found in one slot only.
      have hslot := hlive.threadSlot huse' hcap
      exact hj (Except.ok.inj (hslot.symm.trans hrec.thread))
    rw [UserTasks.kill_task_ne _ _ _ hi] at hdead
    have hthread : (k.tasks.kill i j f).threads j' = k.tasks.threads j' :=
      Function.update_of_ne hj _ _
    rw [hthread]
    exact hstate hdead

/-- The tasks of `MainThreads` have records. -/
theorem MainThreads.hasRecords {k : Kernel δ} (h : MainThreads k.tasks) (hlive : RecordsLive k)
    {task : UInt64} (hslot : taskSlotForCap k.tasks task = .ok i) :
    ∃ j, HasRecords k.tasks task i j := by
  obtain ⟨j, huse, hcap, _⟩ := h.main i (taskSlotForCap_eq_ok hslot).1
  exact ⟨j, hslot, hlive.threadSlot huse hcap⟩

/-- The start of a new task: its thread is new, so that no task that has ended has
    it as its main thread. -/
theorem MainThreads.start (h : MainThreads t) (hthread : (t.threads j).state = .new) :
    MainThreads (t.setStates i j .running .running) := by
  have hnames := sameNames_setStates t i j .running .running
  have hkept : RecordsKept t (t.setStates i j .running .running) := by
    have htask := recordsKept_setTask t i (f := fun s => { s with state := .running })
      fun s => ⟨.running, s.exitStatus, rfl⟩
    exact IsTrans.trans _ _ _ htask (recordsKept_setThread _ j .running)
  apply h.of_kept hkept
  · intro i' huse
    exact (hnames.taskUse i').symm.trans huse
  · intro j' huse
    exact (hnames.threadUse j').symm.trans huse
  intro i' j' _ _ _ hstate hdead
  -- The task that starts is running; any other keeps its thread, which is another one.
  by_cases hi : i' = i
  · subst hi
    have hslot : (t.setStates i' j .running .running).tasks i' =
        { t.tasks i' with state := .running } := Function.update_self _ _ _
    rw [hslot] at hdead
    rcases hdead with hdead | hdead
    · cases hdead
    · cases hdead
  · have hslot : (t.setStates i j .running .running).tasks i' = t.tasks i' :=
      Function.update_of_ne hi _ _
    rw [hslot] at hdead
    have hj : j' ≠ j := by
      rintro rfl
      rw [hthread] at hstate
      cases hstate hdead
    have hslot' : (t.setStates i j .running .running).threads j' = t.threads j' :=
      Function.update_of_ne hj _ _
    rw [hslot']
    exact hstate hdead

/-- A task of which only a free record is left. -/
theorem MainThreads.undone (h : MainThreads t) {s : UserTaskSlot}
    (hfree : (t.tasks i).inUse = false) (hs : s.inUse = false) :
    MainThreads (t.setTask i fun _ => s) := by
  have hother : ∀ {i'}, i' ≠ i → (t.setTask i fun _ => s).tasks i' = t.tasks i' :=
    fun hi => Function.update_of_ne hi _ _
  have hself : (t.setTask i fun _ => s).tasks i = s := Function.update_self _ _ _
  apply h.of_kept (recordsSame_newTask t hfree s).kept
  · intro i' huse
    by_cases hi : i' = i
    · rw [hi, hself, hs] at huse
      cases huse
    · rw [hother hi] at huse
      exact huse
  · intro j' huse
    exact huse
  intro i' j' huse _ _ hstate hdead
  have hi : i' ≠ i := by
    rintro rfl
    rw [hfree] at huse
    cases huse
  rw [hother hi] at hdead
  exact hstate hdead

/-- A new task with its main thread. -/
theorem MainThreads.create (h : MainThreads t) {s : UserTaskSlot} {thread id : UInt64}
    (hfree : (t.tasks i).inUse = false) (hthread : (t.threads j).inUse = false)
    (hs : s.inUse = true) (hnew : s.state = .new) :
    MainThreads ((t.setTask i fun _ => s).addThread i j thread id) := by
  set t' := (t.setTask i fun _ => s).addThread i j thread id with ht'
  have hself : t'.tasks i = { s with mainThreadCap := thread } := by
    simp [ht', UserTasks.addThread, UserTasks.setTask, UserTasks.setThread]
  have hother : ∀ {i'}, i' ≠ i → t'.tasks i' = t.tasks i' := by
    intro i' hi
    simp [ht', UserTasks.addThread, UserTasks.setTask, UserTasks.setThread, hi]
  have hrec : t'.threads j = ⟨true, thread, id, s.taskId, userTestStackTop, userTestCodeVirt,
      s.ownerCore, .new⟩ := by
    simp [ht', UserTasks.addThread, UserTasks.setTask, UserTasks.setThread]
  have hrest : ∀ {j'}, j' ≠ j → t'.threads j' = t.threads j' := by
    intro j' hj
    simp [ht', UserTasks.addThread, UserTasks.setTask, UserTasks.setThread, hj]
  constructor
  · -- Every task has a main thread: the new one the thread just added.
    intro i' huse
    by_cases hi : i' = i
    · subst hi
      refine ⟨j, by rw [hrec], by rw [hrec, hself], ?_⟩
      rw [hself]
      intro hdead
      rw [show ({ s with mainThreadCap := thread } : UserTaskSlot).state = .new from hnew] at hdead
      rcases hdead with hdead | hdead
      · cases hdead
      · cases hdead
    · rw [hother hi] at huse ⊢
      obtain ⟨j', hj', hcap, hstate⟩ := h.main i' huse
      have hj : j' ≠ j := by
        rintro rfl
        rw [hthread] at hj'
        cases hj'
      refine ⟨j', ?_⟩
      rw [hrest hj]
      exact ⟨hj', hcap, hstate⟩
  · -- Every thread is the main thread of a task: the new one of the task just added.
    intro j' huse
    by_cases hj : j' = j
    · subst hj
      refine ⟨i, ?_⟩
      rw [hself, hrec]
      exact ⟨hs, rfl, rfl⟩
    · rw [hrest hj] at huse ⊢
      obtain ⟨i', hi', hid, hmain⟩ := h.owner j' huse
      have hi : i' ≠ i := by
        rintro rfl
        rw [hfree] at hi'
        cases hi'
      refine ⟨i', ?_⟩
      rw [hother hi]
      exact ⟨hi', hid, hmain⟩

end mainThreads

/-! ## New records -/

section create

/-- The ids of the slots in use stay apart when one slot is filled in with an id that no
    slot in use had. -/
theorem distinct_set {ι S : Type} (use : S → Bool) (id : S → UInt64) {t t' : ι → S} {i : ι}
    (hold : ∀ a b, use (t a) = true → use (t b) = true → id (t a) = id (t b) → a = b)
    (hother : ∀ {a}, a ≠ i → t' a = t a)
    (hnew : ∀ b, use (t' i) = true → use (t b) = true → id (t b) ≠ id (t' i)) (a b : ι)
    (ha : use (t' a) = true) (hb : use (t' b) = true) (hid : id (t' a) = id (t' b)) : a = b := by
  by_cases hai : a = i
  · by_cases hbi : b = i
    · rw [hai, hbi]
    · rw [hai] at ha hid
      rw [hother hbi] at hb hid
      exact absurd hid.symm (hnew b ha hb)
  · rw [hother hai] at ha hid
    by_cases hbi : b = i
    · rw [hbi] at hb hid
      exact absurd hid (hnew a hb ha)
    · rw [hother hbi] at hb hid
      exact hold a b ha hb hid

/-- The object of a record in use is in the table. -/
theorem RecordsLive.taskId_ne {k : Kernel δ} (h : RecordsLive k) {id : UInt64}
    (hnew : ∀ ob, objectLookup k.objects id ≠ .ok ob) {i : Fin maxTasks}
    (huse : (k.tasks.tasks i).inUse = true) : (k.tasks.tasks i).taskId ≠ id := by
  rintro rfl
  obtain ⟨ob, hob⟩ := (h.task i huse).object h.wf
  exact hnew ob hob

theorem RecordsLive.threadId_ne {k : Kernel δ} (h : RecordsLive k) {id : UInt64}
    (hnew : ∀ ob, objectLookup k.objects id ≠ .ok ob) {j : Fin maxThreads}
    (huse : (k.tasks.threads j).inUse = true) : (k.tasks.threads j).threadId ≠ id := by
  rintro rfl
  obtain ⟨ob, hob⟩ := (h.thread j huse).object h.wf
  exact hnew ob hob

/-- A record for a new token in a slot that was free, or a record that is free. -/
theorem RecordsLive.newTask {k k' : Kernel δ} (h : RecordsLive k) (hlast : Lasting k k')
    {i : Fin maxTasks} {s : UserTaskSlot}
    (hs : s.inUse = true → NewToken k k' ObjType.task s.taskCap s.taskId)
    (htasks : k'.tasks = k.tasks.setTask i fun _ => s) : RecordsLive k' := by
  have hother : ∀ {i'}, i' ≠ i → k'.tasks.tasks i' = k.tasks.tasks i' := by
    intro i' hi
    rw [htasks]
    exact Function.update_of_ne hi _ _
  have hself : k'.tasks.tasks i = s := by
    rw [htasks]
    exact Function.update_self _ _ _
  have hthreads : k'.tasks.threads = k.tasks.threads := by
    rw [htasks]
    rfl
  refine ⟨(hlast.tokens h.wf).wf, ?_, ?_, ?_, ?_⟩
  · intro i' huse
    by_cases hi : i' = i
    · rw [hi, hself] at huse ⊢
      exact (hs huse h.wf).1
    · rw [hother hi] at huse ⊢
      exact hlast.live h.wf (by decide) (h.task i' huse)
  · intro j huse
    rw [hthreads] at huse ⊢
    exact hlast.live h.wf (by decide) (h.thread j huse)
  · apply distinct_set UserTaskSlot.inUse UserTaskSlot.taskId (fun _ _ => h.taskId) hother
    intro i' huse huse'
    rw [hself] at huse ⊢
    exact h.taskId_ne (hs huse h.wf).2 huse'
  · rw [hthreads]
    exact h.threadId

variable {k k' : Kernel (Host δ)} {task thread id : UInt64} {i : Fin maxTasks}
  {j : Fin maxThreads}

/-- A record for a new thread. -/
theorem RecordsLive.newThread (h : RecordsLive k) (hmade : ThreadCreated task thread id i j k k') :
    RecordsLive k' := by
  have hlast := hmade.beside.lasting
  have hnames : ∀ i', (k'.tasks.tasks i').inUse = (k.tasks.tasks i').inUse ∧
      (k'.tasks.tasks i').taskCap = (k.tasks.tasks i').taskCap ∧
      (k'.tasks.tasks i').taskId = (k.tasks.tasks i').taskId := by
    intro i'
    rw [hmade.tasks]
    by_cases hi : i' = i
    · subst hi
      simp [UserTasks.addThread, UserTasks.setTask, UserTasks.setThread]
    · simp [UserTasks.addThread, UserTasks.setTask, UserTasks.setThread, hi]
  have hother : ∀ {j'}, j' ≠ j → k'.tasks.threads j' = k.tasks.threads j' := by
    intro j' hj
    rw [hmade.tasks]
    exact Function.update_of_ne hj _ _
  have hself : (k'.tasks.threads j).threadCap = thread ∧ (k'.tasks.threads j).threadId = id := by
    rw [hmade.tasks]
    simp [UserTasks.addThread, UserTasks.setTask, UserTasks.setThread]
  obtain ⟨hlive, hnew⟩ := hmade.token h.wf
  refine ⟨(hlast.tokens h.wf).wf, ?_, ?_, ?_, ?_⟩
  · intro i' huse
    obtain ⟨huse', hcap, hid⟩ := hnames i'
    rw [hcap, hid]
    exact hlast.live h.wf (by decide) (h.task i' (huse'.symm.trans huse))
  · intro j' huse
    by_cases hj : j' = j
    · rw [hj, hself.1, hself.2]
      exact hlive
    · rw [hother hj] at huse ⊢
      exact hlast.live h.wf (by decide) (h.thread j' huse)
  · intro i₁ i₂ h₁ h₂ hid
    rw [(hnames i₁).2.2, (hnames i₂).2.2] at hid
    exact h.taskId ((hnames i₁).1.symm.trans h₁) ((hnames i₂).1.symm.trans h₂) hid
  · apply distinct_set UserThreadSlot.inUse UserThreadSlot.threadId (fun _ _ => h.threadId) hother
    intro j' _ huse'
    rw [hself.2]
    exact h.threadId_ne hnew huse'

/-- A new task whose main thread is made: the two records are in slots that were
    free. -/
structure TaskAdded (new : NewTask) (i : Fin maxTasks) (j : Fin maxThreads)
    (k k' : Kernel (Host δ)) : Prop where
  task : (k.tasks.tasks i).inUse = false
  thread : (k.tasks.threads j).inUse = false
  tasks : ∃ taskId aspaceId id, k'.tasks = (k.tasks.setTask i fun _ =>
    newTaskSlot new.task taskId new.addressSpace aspaceId).addThread i j new.mainThread id
  records : HasRecords k'.tasks new.task i j

variable {r : Except Err NewTask}

/-- What the creation of a task does to the records. -/
theorem TaskCreated.records (h : TaskCreated k k' r) (hlive : RecordsLive k) :
    RecordsLive k' ∧ RecordsSame k.tasks k'.tasks ∧
      (MainThreads k.tasks → MainThreads k'.tasks) ∧
      ∀ new, r = .ok new → ∃ i j, TaskAdded new i j k k' := by
  cases h with
  | failed hmaking =>
    have htasks := hmaking.tasks
    refine ⟨?_, ?_, ?_, nofun⟩
    · apply hlive.of_names hmaking.lasting
      · rw [htasks]
        exact refl _
      · rw [htasks]
        exact refl _
    · rw [htasks]
      exact ⟨fun _ _ => rfl, fun _ _ => rfl⟩
    · rw [htasks]
      exact id
  | undone hfree huse hbeside htasks =>
    refine ⟨?_, ?_, ?_, nofun⟩
    · apply hlive.newTask hbeside.lasting _ htasks
      rw [huse]
      exact nofun
    · rw [htasks]
      exact recordsSame_newTask k.tasks hfree _
    · rw [htasks]
      exact fun hmain => hmain.undone hfree huse
  | @made i i' j taskId aspaceId id k₁ new hfree hbeside htoken _ hrecord hthread =>
    have hlive₁ : RecordsLive k₁ := hlive.newTask hbeside.lasting (fun _ => htoken) hrecord
    have hself : k₁.tasks.tasks i = newTaskSlot new.task taskId new.addressSpace aspaceId := by
      rw [hrecord]
      exact Function.update_self _ _ _
    -- The thread is made for the task of the new record.
    have hslot : taskSlotForCap k₁.tasks new.task = .ok i := by
      apply hlive₁.taskSlot
      · rw [hself]
        rfl
      · rw [hself]
        rfl
    obtain rfl := Except.ok.inj (hslot.symm.trans hthread.slot)
    have hlive' := hlive₁.newThread hthread
    have hfree' : (k.tasks.threads j).inUse = false := by
      have hfree₁ := hthread.free
      rw [hrecord] at hfree₁
      exact hfree₁
    have htasks : k'.tasks = (k.tasks.setTask i fun _ =>
        newTaskSlot new.task taskId new.addressSpace aspaceId).addThread i j new.mainThread id := by
      rw [← hrecord]
      exact hthread.tasks
    have hadded : TaskAdded new i j k k' := by
      refine ⟨hfree, hfree', ⟨taskId, aspaceId, id, htasks⟩, ?_, ?_⟩
      · apply hlive'.taskSlot
        all_goals
          rw [htasks]
          simp [UserTasks.addThread, UserTasks.setTask, UserTasks.setThread, newTaskSlot]
      · apply hlive'.threadSlot
        all_goals
          rw [htasks]
          simp [UserTasks.addThread, UserTasks.setTask, UserTasks.setThread, newTaskSlot]
    refine ⟨hlive', ?_, ?_, ?_⟩
    · rw [htasks]
      constructor
      · intro i' huse
        have hi : i' ≠ i := by
          rintro rfl
          rw [hfree] at huse
          cases huse
        simp [UserTasks.addThread, UserTasks.setTask, UserTasks.setThread, hi]
      · intro j' huse
        have hj : j' ≠ j := by
          rintro rfl
          rw [hfree'] at huse
          cases huse
        simp [UserTasks.addThread, UserTasks.setTask, UserTasks.setThread, hj]
    · rw [htasks]
      exact fun hmain => hmain.create hfree hfree' rfl rfl
    · intro new' hnew
      obtain rfl := Except.ok.inj hnew
      exact ⟨i, j, hadded⟩

end create

/-! ## The call that runs a new task -/

/-- `task` and its main thread are new. -/
structure IsNew (t : UserTasks) (task : UInt64) (i : Fin maxTasks) (j : Fin maxThreads) : Prop
    extends HasRecords t task i j where
  taskState : (t.tasks i).state = .new
  threadState : (t.threads j).state = .new

section runFlat

variable {task : UInt64} {i : Fin maxTasks} {j : Fin maxThreads} {k : Kernel (Host δ)}

/-- The lookups of a task and of its main thread. -/
theorem HasRecords.askTask (h : HasRecords k.tasks task i j) :
    Effect.ask (fun k : Kernel (Host δ) => taskSlotForCap k.tasks task) k = (.ok i, k) :=
  congrArg (·, k) h.task

theorem HasRecords.askThread (h : HasRecords k.tasks task i j) :
    Effect.ask (fun k : Kernel (Host δ) =>
      threadSlotForCap k.tasks (k.tasks.tasks i).mainThreadCap) k = (.ok j, k) :=
  congrArg (·, k) h.thread

theorem runFlat_of_new (run : FlatImage → K (Host δ) Unit) {image imageSize : UInt64}
    (endpoint hhdmOffset : UInt64) (hnew : IsNew k.tasks task i j)
    (hargs : image ≠ 0 ∧ imageSize ≠ 0) :
    runFlat task run image imageSize endpoint hhdmOffset k =
      runNewTask task i j run image imageSize endpoint hhdmOffset k := by
  unfold runFlat
  rw [Effect.bind_of_ok (Effect.require_pos hargs _)]
  rw [Effect.bind_of_ok (hnew.askTask), Effect.bind_of_ok hnew.askThread,
    Effect.bind_of_ok Effect.get_run,
    Effect.bind_of_ok (Effect.require_pos ⟨hnew.taskState, hnew.threadState⟩ _)]

variable (task) (image imageSize endpoint hhdmOffset : UInt64)

/-- The call is refused, or runs a new task. -/
theorem runFlat_cases (run : FlatImage → K (Host δ) Unit) (k : Kernel (Host δ)) :
    (∃ e, runFlat task run image imageSize endpoint hhdmOffset k = (.error e, k)) ∨
    ∃ i j, IsNew k.tasks task i j ∧
      runFlat task run image imageSize endpoint hhdmOffset k =
        runNewTask task i j run image imageSize endpoint hhdmOffset k := by
  unfold runFlat
  by_cases hargs : image ≠ 0 ∧ imageSize ≠ 0
  swap
  · rw [Effect.bind_of_error (Effect.require_neg hargs _)]
    exact .inl ⟨_, rfl⟩
  rw [Effect.bind_of_ok (Effect.require_pos hargs _), Effect.ask_bind]
  cases hi : taskSlotForCap k.tasks task with
  | error e => exact .inl ⟨e, rfl⟩
  | ok i =>
    dsimp only
    rw [Effect.ask_bind]
    cases hj : threadSlotForCap k.tasks (k.tasks.tasks i).mainThreadCap with
    | error e => exact .inl ⟨e, rfl⟩
    | ok j =>
      dsimp only
      rw [Effect.bind_of_ok Effect.get_run]
      by_cases hnew : (k.tasks.tasks i).state = .new ∧ (k.tasks.threads j).state = .new
      · rw [Effect.bind_of_ok (Effect.require_pos hnew _)]
        exact .inr ⟨i, j, ⟨⟨hi, hj⟩, hnew.1, hnew.2⟩, rfl⟩
      · rw [Effect.bind_of_error (Effect.require_neg hnew _)]
        exact .inl ⟨_, rfl⟩

end runFlat

end Scdk
