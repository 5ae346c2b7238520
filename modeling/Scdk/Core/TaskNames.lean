import Scdk.Core.TaskRun
import Scdk.Services.Proc

/-! # The records behind a task token

    A task is found by its token, and its main thread by the token in the record
    of the task.  Everything that happens to tasks leaves the records found.

    * `taskSlotForCap_eq_ok`, `threadSlotForCap_of_inUse`: what a lookup finds, and when,
    * `SameNames`: only states, exit statuses and the current task change; no
      lookup answers differently. -/

namespace Scdk

variable {δ : Type}

/-! ## Lookups -/

section lookup

variable {t t' : UserTasks} {task thread : UInt64}

theorem taskSlotForCap_eq_ok {i : Fin maxTasks} (h : taskSlotForCap t task = .ok i) :
    (t.tasks i).inUse = true ∧ (t.tasks i).taskCap = task := by
  unfold taskSlotForCap at h
  split at h
  · cases h
  · next i' hfirst =>
    obtain rfl := Except.ok.inj h
    have hslot := (Slots.firstSlot_eq_some hfirst).1
    rw [Bool.and_eq_true, beq_iff_eq] at hslot
    exact hslot

theorem threadSlotForCap_eq_ok {j : Fin maxThreads} (h : threadSlotForCap t thread = .ok j) :
    (t.threads j).inUse = true ∧ (t.threads j).threadCap = thread := by
  unfold threadSlotForCap at h
  split at h
  · cases h
  · next j' hfirst =>
    obtain rfl := Except.ok.inj h
    have hslot := (Slots.firstSlot_eq_some hfirst).1
    rw [Bool.and_eq_true, beq_iff_eq] at hslot
    exact hslot

/-- A thread with a record in use is found. -/
theorem threadSlotForCap_of_inUse {j : Fin maxThreads} (huse : (t.threads j).inUse = true)
    (hcap : (t.threads j).threadCap = thread) : ∃ j', threadSlotForCap t thread = .ok j' := by
  unfold threadSlotForCap
  cases hfirst : Slots.firstSlot fun i => (t.threads i).inUse && (t.threads i).threadCap == thread with
  | none =>
    have hfree := Slots.firstSlot_eq_none hfirst j
    rw [huse, hcap, beq_self_eq_true] at hfree
    cases hfree
  | some j' => exact ⟨j', rfl⟩

/-- A lookup only depends on which records are in use for the token. -/
theorem taskSlotForCap_congr (h : ∀ i, ((t'.tasks i).inUse && (t'.tasks i).taskCap == task) =
    ((t.tasks i).inUse && (t.tasks i).taskCap == task)) :
    taskSlotForCap t' task = taskSlotForCap t task := by
  unfold taskSlotForCap
  rw [show (fun i => (t'.tasks i).inUse && (t'.tasks i).taskCap == task) =
    fun i => (t.tasks i).inUse && (t.tasks i).taskCap == task from funext h]

theorem threadSlotForCap_congr (h : ∀ j, ((t'.threads j).inUse && (t'.threads j).threadCap == thread) =
    ((t.threads j).inUse && (t.threads j).threadCap == thread)) :
    threadSlotForCap t' thread = threadSlotForCap t thread := by
  unfold threadSlotForCap
  rw [show (fun j => (t'.threads j).inUse && (t'.threads j).threadCap == thread) =
    fun j => (t.threads j).inUse && (t.threads j).threadCap == thread from funext h]

theorem allocTaskSlot_eq_ok {i : Fin maxTasks} (h : allocTaskSlot t = .ok i) :
    (t.tasks i).inUse = false := by
  unfold allocTaskSlot at h
  split at h
  · cases h
  · next i' hfirst =>
    obtain rfl := Except.ok.inj h
    have hfree := (Slots.firstSlot_eq_some hfirst).1
    rwa [Bool.not_eq_true'] at hfree

theorem allocThreadSlot_eq_ok {j : Fin maxThreads} (h : allocThreadSlot t = .ok j) :
    (t.threads j).inUse = false := by
  unfold allocThreadSlot at h
  split at h
  · cases h
  · next j' hfirst =>
    obtain rfl := Except.ok.inj h
    have hfree := (Slots.firstSlot_eq_some hfirst).1
    rwa [Bool.not_eq_true'] at hfree

end lookup

/-! ## Changes of state -/

/-- The same records are in use for the same tokens. -/
structure SameNames (t t' : UserTasks) : Prop where
  taskUse : ∀ i, (t'.tasks i).inUse = (t.tasks i).inUse
  taskCap : ∀ i, (t'.tasks i).taskCap = (t.tasks i).taskCap
  mainThread : ∀ i, (t'.tasks i).mainThreadCap = (t.tasks i).mainThreadCap
  threadUse : ∀ j, (t'.threads j).inUse = (t.threads j).inUse
  threadCap : ∀ j, (t'.threads j).threadCap = (t.threads j).threadCap

instance : IsPreorder UserTasks SameNames where
  refl := fun _ => ⟨fun _ => rfl, fun _ => rfl, fun _ => rfl, fun _ => rfl, fun _ => rfl⟩
  trans := fun _ _ _ h h' =>
    ⟨fun i => (h'.taskUse i).trans (h.taskUse i), fun i => (h'.taskCap i).trans (h.taskCap i),
      fun i => (h'.mainThread i).trans (h.mainThread i),
      fun j => (h'.threadUse j).trans (h.threadUse j),
      fun j => (h'.threadCap j).trans (h.threadCap j)⟩

section sameNames

variable {t t' : UserTasks}

theorem SameNames.taskSlot (h : SameNames t t') (task : UInt64) :
    taskSlotForCap t' task = taskSlotForCap t task := by
  apply taskSlotForCap_congr
  intro i
  rw [h.taskUse, h.taskCap]

theorem SameNames.threadSlot (h : SameNames t t') (thread : UInt64) :
    threadSlotForCap t' thread = threadSlotForCap t thread := by
  apply threadSlotForCap_congr
  intro j
  rw [h.threadUse, h.threadCap]

theorem sameNames_setCurrent (t : UserTasks) (task : UInt64) : SameNames t (t.setCurrent task) :=
  ⟨fun _ => rfl, fun _ => rfl, fun _ => rfl, fun _ => rfl, fun _ => rfl⟩

/-- A change of one record that leaves its tokens. -/
theorem sameNames_setTask (t : UserTasks) (i : Fin maxTasks) {f : UserTaskSlot → UserTaskSlot}
    (huse : ∀ s, (f s).inUse = s.inUse) (hcap : ∀ s, (f s).taskCap = s.taskCap)
    (hthread : ∀ s, (f s).mainThreadCap = s.mainThreadCap) : SameNames t (t.setTask i f) where
  taskUse := by
    intro i'
    by_cases hi : i' = i
    · subst hi
      simp [UserTasks.setTask, huse]
    · simp [UserTasks.setTask, hi]
  taskCap := by
    intro i'
    by_cases hi : i' = i
    · subst hi
      simp [UserTasks.setTask, hcap]
    · simp [UserTasks.setTask, hi]
  mainThread := by
    intro i'
    by_cases hi : i' = i
    · subst hi
      simp [UserTasks.setTask, hthread]
    · simp [UserTasks.setTask, hi]
  threadUse := fun _ => rfl
  threadCap := fun _ => rfl

theorem sameNames_setThread (t : UserTasks) (j : Fin maxThreads)
    {f : UserThreadSlot → UserThreadSlot} (huse : ∀ s, (f s).inUse = s.inUse)
    (hcap : ∀ s, (f s).threadCap = s.threadCap) : SameNames t (t.setThread j f) where
  taskUse := fun _ => rfl
  taskCap := fun _ => rfl
  mainThread := fun _ => rfl
  threadUse := by
    intro j'
    by_cases hj : j' = j
    · subst hj
      simp [UserTasks.setThread, huse]
    · simp [UserTasks.setThread, hj]
  threadCap := by
    intro j'
    by_cases hj : j' = j
    · subst hj
      simp [UserTasks.setThread, hcap]
    · simp [UserTasks.setThread, hj]

theorem sameNames_setStates (t : UserTasks) (i : Fin maxTasks) (j : Fin maxThreads)
    (state : TaskState) (threadState : ThreadState) :
    SameNames t (t.setStates i j state threadState) := by
  have htask := sameNames_setTask t i (f := fun slot => { slot with state := state })
    (fun _ => rfl) (fun _ => rfl) (fun _ => rfl)
  exact IsTrans.trans _ _ _ htask (sameNames_setThread _ j (fun _ => rfl) (fun _ => rfl))

theorem sameNames_killThread (t : UserTasks) (thread : UInt64) :
    SameNames t (t.killThread thread) := by
  unfold UserTasks.killThread
  split
  · exact refl t
  · next j _ =>
    exact sameNames_setThread t j (f := fun slot => { slot with state := .dead })
      (fun _ => rfl) (fun _ => rfl)

/-- The end of a task, for whatever reason: its record gets a status. -/
theorem sameNames_kill (t : UserTasks) (i : Fin maxTasks) (statusCode thread : UInt64) :
    SameNames t ((t.setTask i fun slot =>
      { slot with exitStatus := statusCode, state := .dead }).killThread thread) := by
  have htask := sameNames_setTask t i
    (f := fun slot => { slot with exitStatus := statusCode, state := .dead })
    (fun _ => rfl) (fun _ => rfl) (fun _ => rfl)
  exact IsTrans.trans _ _ _ htask (sameNames_killThread _ thread)

theorem sameNames_taskFaultCurrent (t : UserTasks) (statusCode : UInt64) :
    SameNames t (taskFaultCurrent t statusCode).2 := by
  unfold taskFaultCurrent
  split
  · exact refl t
  · split
    · exact refl t
    · exact sameNames_kill t _ statusCode _

theorem sameNames_taskExit (t : UserTasks) (task statusCode : UInt64) :
    SameNames t (taskExit t task statusCode).2 := by
  unfold taskExit
  split
  · exact refl t
  · split
    · exact refl t
    · exact sameNames_kill t _ statusCode _

theorem sameNames_taskCleanup (t : UserTasks) (task : UInt64) :
    SameNames t (taskCleanup t task).2 := by
  unfold taskCleanup
  split
  · exact refl t
  · next i _ =>
    split
    · exact refl t
    · have hthread := sameNames_killThread t (t.tasks i).mainThreadCap
      exact IsTrans.trans _ _ _ hthread
        (sameNames_setTask _ i (f := fun slot => { slot with state := .cleaned })
          (fun _ => rfl) (fun _ => rfl) (fun _ => rfl))

end sameNames

end Scdk
