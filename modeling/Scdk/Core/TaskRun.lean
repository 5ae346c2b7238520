import Scdk.Arch.Usermode

/-! # Making and running user tasks

    Model of the part of `core/task.c` that makes a task with its address space
    and its main thread, and runs a flat image in it. -/

namespace Scdk

variable {δ : Type}

/-! ## Records -/

/-- Change the statics of `task.c`. -/
def K.setTasks (f : UserTasks → UserTasks) : K δ Unit :=
  .modify fun k => { k with tasks := f k.tasks }

/-- Replace a task record. -/
def UserTasks.setTask (t : UserTasks) (i : Fin maxTasks) (f : UserTaskSlot → UserTaskSlot) :
    UserTasks :=
  { t with tasks := Function.update t.tasks i (f (t.tasks i)) }

/-- Replace a thread record. -/
def UserTasks.setThread (t : UserTasks) (j : Fin maxThreads)
    (f : UserThreadSlot → UserThreadSlot) : UserTasks :=
  { t with threads := Function.update t.threads j (f (t.threads j)) }

/-- `alloc_task_slot` -/
def allocTaskSlot (t : UserTasks) : Except Err (Fin maxTasks) :=
  match Slots.firstSlot fun i => !(t.tasks i).inUse with
  | none => .error .nomem
  | some i => .ok i

/-- `alloc_thread_slot` -/
def allocThreadSlot (t : UserTasks) : Except Err (Fin maxThreads) :=
  match Slots.firstSlot fun j => !(t.threads j).inUse with
  | none => .error .nomem
  | some j => .ok j

/-- `object_id_from_cap` -/
def objectIdFromCap (cap : UInt64) (expectedType : UInt32) : K δ UInt64 := do
  let entry ← K.capCheck cap Right.read expectedType
  pure entry.objectId

/-! ## Making a task -/

/-- `scdk_address_space_create` -/
def K.addressSpaceCreate (storage : Option Nat) (pages : PageSupply) : K (Host δ) UInt64 := fun k =>
  let (r, objects, caps, aspaces, vmm) :=
    Scdk.addressSpaceCreate k.objects k.caps k.devices.run.aspaces k.vmm storage pages
  (r, { k with
    objects := objects, caps := caps, vmm := vmm
    devices := { k.devices with run := { k.devices.run with aspaces := aspaces } } })

/-- `scdk_task_create` -/
def K.taskCreate (ownerCore : UInt32) (addressSpace : UInt64) : K (Host δ) UInt64 := fun k =>
  let (r, objects, caps, tasks) :=
    Scdk.taskCreate k.objects k.caps k.devices.run.tasks ownerCore addressSpace
  (r, { k with
    objects := objects, caps := caps
    devices := { k.devices with run := { k.devices.run with tasks := tasks } } })

/-- `scdk_thread_create`, for a thread without an entry. -/
def K.threadCreate (task : UInt64) : K (Host δ) UInt64 := fun k =>
  let (r, objects, caps, tasks, threads) :=
    Scdk.threadCreate k.objects k.caps k.devices.run.tasks k.devices.run.threads task 0 0 none
  (r, { k with
    objects := objects, caps := caps
    devices := { k.devices with run := { k.devices.run with tasks := tasks, threads := threads } } })

/-- `scdk_user_thread_create` -/
def userThreadCreate (task : UInt64) : K (Host δ) UInt64 := do
  let i ← .ask fun k => taskSlotForCap k.tasks task
  let j ← .ask fun k => allocThreadSlot k.tasks
  let thread ← K.threadCreate task
  let threadId ← objectIdFromCap thread ObjType.thread
  K.setTasks fun t => t.setThread j fun _ =>
    ⟨true, thread, threadId, (t.tasks i).taskId, userTestStackTop, userTestCodeVirt,
      (t.tasks i).ownerCore, .new⟩
  K.setTasks fun t => t.setTask i fun slot => { slot with mainThreadCap := thread }
  pure thread

/-- The tokens of a new task. -/
structure NewTask where
  task : UInt64
  addressSpace : UInt64
  mainThread : UInt64
  deriving DecidableEq, Repr

/-- `scdk_user_task_create`; what the allocators answer for the address space is
    in `storage` and `pages`. -/
def userTaskCreate (storage : Option Nat) (pages : PageSupply) : K (Host δ) NewTask := do
  let i ← .ask fun k => allocTaskSlot k.tasks
  let aspace ← K.addressSpaceCreate storage pages
  let aspaceId ← objectIdFromCap aspace ObjType.addressSpace
  let task ← K.taskCreate bootCore aspaceId
  let taskId ← objectIdFromCap task ObjType.task
  K.setTasks fun t => t.setTask i fun _ =>
    ⟨true, task, taskId, aspace, aspaceId, 0, bootCore, .new, 0⟩
  match ← (userThreadCreate task).attempt with
  | .error e =>
    K.setTasks fun t => t.setTask i fun slot => { slot with inUse := false }
    Effect.fail e
  | .ok mainThread => pure ⟨task, aspace, mainThread⟩

/-! ## Running a task -/

/-- `current_user_task = task` -/
def UserTasks.setCurrent (t : UserTasks) (task : UInt64) : UserTasks :=
  { t with currentUserTask := task }

/-- What has to be given back to the caller of a run. -/
def Kernel.caller (k : Kernel (Host δ)) : Caller := ⟨k.tasks.currentUserTask, saveTaskState k⟩

/-- Both records get a state. -/
def UserTasks.setStates (t : UserTasks) (i : Fin maxTasks) (j : Fin maxThreads) (state : TaskState)
    (threadState : ThreadState) : UserTasks :=
  (t.setTask i fun slot => { slot with state := state }).setThread j
    fun slot => { slot with state := threadState }

/-- `scdk_user_task_run_flat` for a new task with its record in slot `i` and that
    of its main thread in slot `j`. -/
def runNewTask (task : UInt64) (i : Fin maxTasks) (j : Fin maxThreads)
    (run : FlatImage → K (Host δ) Unit) (image imageSize bootstrapEndpoint hhdmOffset : UInt64) :
    K (Host δ) Unit := do
  K.setTasks fun t => t.setStates i j .running .running
  let k ← Effect.get
  K.setTasks fun t => t.setCurrent task
  let status ← (run ⟨(k.tasks.tasks i).addressSpaceCap, (k.tasks.threads j).threadCap,
    (k.tasks.threads j).instructionPointer, image, imageSize, bootstrapEndpoint, hhdmOffset⟩).attempt
  K.setTasks fun t => t.setCurrent k.tasks.currentUserTask
  match status with
  | .error e =>
    K.setTasks fun t => t.setStates i j .dead .dead
    Effect.fail e
  | .ok _ => fun k => ((taskExit k.tasks task 0).1, { k with tasks := (taskExit k.tasks task 0).2 })

/-- `scdk_user_task_run_flat` without what is observed of it. -/
def runFlat (task : UInt64) (run : FlatImage → K (Host δ) Unit)
    (image imageSize bootstrapEndpoint hhdmOffset : UInt64) : K (Host δ) Unit := do
  Effect.require (image ≠ 0 ∧ imageSize ≠ 0) .inval
  let i ← .ask fun k => taskSlotForCap k.tasks task
  let j ← .ask fun k => threadSlotForCap k.tasks (k.tasks.tasks i).mainThreadCap
  let k ← Effect.get
  Effect.require ((k.tasks.tasks i).state = .new ∧ (k.tasks.threads j).state = .new) .busy
  runNewTask task i j run image imageSize bootstrapEndpoint hhdmOffset

/-- Note that a call has returned, with the fault that is pending. -/
def recordRun (task : UInt64) (caller : Caller) (result : Except Err Unit) : K (Host δ) Unit :=
  fun k =>
    K.setRun (fun r =>
      { r with
        pending := none
        log := r.log ++ [⟨task, r.pending, result, caller, k.caller, k.tasks⟩] }) k

/-- `scdk_user_task_run_flat`; `user` is what the program does in user mode. -/
def userTaskRunFlat (task : UInt64) (a : RunAnswers) (user : K (Host δ) Unit)
    (image imageSize bootstrapEndpoint hhdmOffset : UInt64) : K (Host δ) Unit := do
  let k ← Effect.get
  let status ← (runFlat task (fun f => usermodeRunFlatImage f a user) image imageSize
    bootstrapEndpoint hhdmOffset).attempt
  recordRun task k.caller status
  .ask fun _ => status

/-! ## From the start to the end of user mode -/

/-- The state in which the user mode of a new task starts. -/
def Kernel.startTask (k : Kernel (Host δ)) (task : UInt64) (i : Fin maxTasks)
    (j : Fin maxThreads) : Kernel (Host δ) :=
  { k with tasks := (k.tasks.setStates i j .running .running).setCurrent task }

/-- The state with the task of the caller as the current one. -/
def Kernel.backTo (k : Kernel (Host δ)) (task : UInt64) : Kernel (Host δ) :=
  { k with tasks := k.tasks.setCurrent task }

/-- The arguments of the run of a task with these records. -/
def UserTasks.flatImage (t : UserTasks) (i : Fin maxTasks) (j : Fin maxThreads)
    (image imageSize bootstrapEndpoint hhdmOffset : UInt64) : FlatImage :=
  ⟨(t.tasks i).addressSpaceCap, (t.threads j).threadCap, (t.threads j).instructionPointer, image,
    imageSize, bootstrapEndpoint, hhdmOffset⟩

/-- What `scdk_user_task_run_flat` does with the status of the run. -/
def endTask (task : UInt64) (i : Fin maxTasks) (j : Fin maxThreads) :
    Except Err Unit → K (Host δ) Unit
  | .error e => do
    K.setTasks fun t => t.setStates i j .dead .dead
    Effect.fail e
  | .ok _ => fun k => ((taskExit k.tasks task 0).1, { k with tasks := (taskExit k.tasks task 0).2 })

theorem runNewTask_eq (task : UInt64) (i : Fin maxTasks) (j : Fin maxThreads)
    (run : FlatImage → K (Host δ) Unit) (image imageSize bootstrapEndpoint hhdmOffset : UInt64)
    (k : Kernel (Host δ)) :
    runNewTask task i j run image imageSize bootstrapEndpoint hhdmOffset k =
      (let k₁ := k.startTask task i j
       let out := run (k₁.tasks.flatImage i j image imageSize bootstrapEndpoint hhdmOffset) k₁
       endTask task i j out.1 (out.2.backTo k.tasks.currentUserTask)) := rfl

end Scdk
