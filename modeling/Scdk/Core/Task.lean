import Scdk.Basic
import Scdk.Lib.Slots

/-! # User tasks

    Model of the records of `core/task.c` and of what the end of a task, by a
    fault or by an exit, does to them; how a task is made and run is in
    `Scdk.Core.TaskRun`.  The field `capability_table_placeholder` is always
    zero and left out. -/

namespace Scdk

/-- `enum scdk_task_state` -/
inductive TaskState where
  | none
  | new
  | running
  | dead
  | cleaned
  deriving DecidableEq, Repr

/-- `enum scdk_thread_state` -/
inductive ThreadState where
  | none
  | new
  | ready
  | running
  | blocked
  | dead
  deriving DecidableEq, Repr

/-- `struct scdk_user_task_slot`; the exit status is a status word. -/
structure UserTaskSlot where
  inUse : Bool
  taskCap : UInt64
  taskId : UInt64
  addressSpaceCap : UInt64
  addressSpaceId : UInt64
  mainThreadCap : UInt64
  ownerCore : UInt32
  state : TaskState
  exitStatus : UInt64
  deriving DecidableEq, Repr

/-- `struct scdk_user_thread_slot` -/
structure UserThreadSlot where
  inUse : Bool
  threadCap : UInt64
  threadId : UInt64
  taskId : UInt64
  userStackTop : UInt64
  instructionPointer : UInt64
  ownerCore : UInt32
  state : ThreadState
  deriving DecidableEq, Repr

/-- The statics of `task.c`. -/
structure UserTasks where
  tasks : Fin maxTasks → UserTaskSlot
  threads : Fin maxThreads → UserThreadSlot
  currentUserTask : UInt64

/-- `task_slot_for_cap` -/
def taskSlotForCap (t : UserTasks) (task : UInt64) : Except Err (Fin maxTasks) :=
  match Slots.firstSlot fun i => (t.tasks i).inUse && (t.tasks i).taskCap == task with
  | none => .error .noent
  | some i => .ok i

/-- `thread_slot_for_cap` -/
def threadSlotForCap (t : UserTasks) (thread : UInt64) : Except Err (Fin maxThreads) :=
  match Slots.firstSlot fun i => (t.threads i).inUse && (t.threads i).threadCap == thread with
  | none => .error .noent
  | some i => .ok i

/-- Set the state of the thread behind a token, if there is one. -/
def UserTasks.killThread (t : UserTasks) (thread : UInt64) : UserTasks :=
  match threadSlotForCap t thread with
  | .error _ => t
  | .ok i => { t with threads := Function.update t.threads i { t.threads i with state := .dead } }

/-- `scdk_task_fault_current` -/
def taskFaultCurrent (t : UserTasks) (statusCode : UInt64) : Except Err Unit × UserTasks :=
  if t.currentUserTask = 0 then (.error .noent, t)
  else
    match taskSlotForCap t t.currentUserTask with
    | .error e => (.error e, t)
    | .ok i =>
      let slot := { t.tasks i with exitStatus := statusCode, state := .dead }
      let t := { t with tasks := Function.update t.tasks i slot }
      (.ok (), t.killThread slot.mainThreadCap)

/-- `scdk_task_exit` -/
def taskExit (t : UserTasks) (task statusCode : UInt64) : Except Err Unit × UserTasks :=
  match taskSlotForCap t task with
  | .error e => (.error e, t)
  | .ok i =>
    if (t.tasks i).state ≠ .running then (.error .busy, t)
    else
      let slot := { t.tasks i with exitStatus := statusCode, state := .dead }
      let t := { t with tasks := Function.update t.tasks i slot }
      (.ok (), t.killThread slot.mainThreadCap)

/-- `scdk_task_cleanup` -/
def taskCleanup (t : UserTasks) (task : UInt64) : Except Err Unit × UserTasks :=
  match taskSlotForCap t task with
  | .error e => (.error e, t)
  | .ok i =>
    if (t.tasks i).state ≠ .dead then (.error .busy, t)
    else
      let t := t.killThread (t.tasks i).mainThreadCap
      (.ok (), { t with tasks := Function.update t.tasks i { t.tasks i with state := .cleaned } })

/-- `scdk_user_task_current` -/
def userTaskCurrent (t : UserTasks) : Except Err UInt64 :=
  if t.currentUserTask = 0 then .error .noent else .ok t.currentUserTask

/-- A fault changes no token of a running task. -/
@[simp] theorem UserTasks.killThread_current (t : UserTasks) (thread : UInt64) :
    (t.killThread thread).currentUserTask = t.currentUserTask := by
  unfold UserTasks.killThread
  split
  · rfl
  · rfl

@[simp] theorem UserTasks.killThread_tasks (t : UserTasks) (thread : UInt64) :
    (t.killThread thread).tasks = t.tasks := by
  unfold UserTasks.killThread
  split
  · rfl
  · rfl

theorem taskFaultCurrent_current (t : UserTasks) (statusCode : UInt64) :
    (taskFaultCurrent t statusCode).2.currentUserTask = t.currentUserTask := by
  unfold taskFaultCurrent
  split
  · rfl
  · split
    · rfl
    · exact UserTasks.killThread_current _ _

theorem taskExit_current (t : UserTasks) (task statusCode : UInt64) :
    (taskExit t task statusCode).2.currentUserTask = t.currentUserTask := by
  unfold taskExit
  split
  · rfl
  · split
    · rfl
    · exact UserTasks.killThread_current _ _

theorem taskCleanup_current (t : UserTasks) (task : UInt64) :
    (taskCleanup t task).2.currentUserTask = t.currentUserTask := by
  unfold taskCleanup
  split
  · rfl
  · split
    · rfl
    · exact UserTasks.killThread_current _ _

end Scdk
