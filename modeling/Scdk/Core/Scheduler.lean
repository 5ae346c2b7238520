import Scdk.Core.Capability
import Scdk.Core.Task

/-! # Tasks and threads of the scheduler

    Model of the tables of `core/scheduler.c`: a task and a thread behind their
    capabilities.  The saved registers of a thread, which only the context
    switch reads, are left out; what the heap answers is an argument of the
    call. -/

namespace Scdk

/-- `struct scdk_task_slot` -/
structure TaskSlot where
  objectId : UInt64
  cap : UInt64
  ownerCore : UInt32
  addressSpace : UInt64
  mainThread : UInt64
  deriving DecidableEq, Repr

/-- `struct scdk_thread_slot`; `entry` is zero when the thread has none. -/
structure ThreadSlot where
  objectId : UInt64
  cap : UInt64
  taskCap : UInt64
  taskId : UInt64
  entry : UInt64
  arg : UInt64
  kernelStack : UInt64
  stackTop : UInt64
  ownerCore : UInt32
  state : ThreadState
  queued : Bool
  deriving DecidableEq, Repr

/-- The static `task_table`. -/
abbrev TaskTable : Type := Fin maxTasks → TaskSlot

/-- The static `thread_table`. -/
abbrev ThreadTable : Type := Fin maxThreads → ThreadSlot

/-- `SCDK_KERNEL_STACK_SIZE` -/
def kernelStackSize : UInt64 := 16384

/-- The rights a task capability is minted with. -/
def taskRights : UInt64 := Right.read ||| Right.write ||| Right.bind

/-- The rights a thread capability is minted with. -/
def threadRights : UInt64 := Right.read ||| Right.write ||| Right.exec

namespace Sched

/-- `task_slot_for_cap` of the scheduler.  Objects of type `SCDK_OBJ_TASK` are made
    by `scdk_task_create` only, with a task slot as payload. -/
def taskSlotForCap (o : ObjectTable) (c : CapTable) (tasks : TaskTable) (task : UInt64) :
    Except Err (Fin maxTasks) :=
  payloadLookup o c task Right.read ObjType.task fun payload objectId =>
    match payload with
    | .task i => if (tasks i).objectId ≠ objectId then .error .noent else .ok i
    | _ => .error .noent

/-- `thread_slot_for_cap` of the scheduler. -/
def threadSlotForCap (o : ObjectTable) (c : CapTable) (threads : ThreadTable) (thread : UInt64) :
    Except Err (Fin maxThreads) :=
  payloadLookup o c thread Right.read ObjType.thread fun payload objectId =>
    match payload with
    | .thread i => if (threads i).objectId ≠ objectId then .error .noent else .ok i
    | _ => .error .noent

end Sched

/-- The body of the loop of `scdk_task_create` for the free slot `i`. -/
def taskCreateSlot (o : ObjectTable) (c : CapTable) (tasks : TaskTable) (i : Fin maxTasks)
    (ownerCore : UInt32) (addressSpace : UInt64) :
    Except Err UInt64 × ObjectTable × CapTable × TaskTable :=
  match objectCreate o ObjType.task ownerCore 0 (.task i) with
  | (.error e, o) => (.error e, o, c, tasks)
  | (.ok objectId, o) =>
    let slot : TaskSlot := ⟨objectId, 0, ownerCore, addressSpace, 0⟩
    match capCreate o c objectId taskRights with
    | (.ok cap, c) => (.ok cap, o, c, Function.update tasks i { slot with cap := cap })
    | (.error e, c) => (.error e, o, c, Function.update tasks i { slot with objectId := 0 })

/-- `scdk_task_create` -/
def taskCreate (o : ObjectTable) (c : CapTable) (tasks : TaskTable) (ownerCore : UInt32)
    (addressSpace : UInt64) : Except Err UInt64 × ObjectTable × CapTable × TaskTable :=
  if maxCores ≤ ownerCore then (.error .inval, o, c, tasks)
  else
    match Slots.firstSlot fun i => (tasks i).objectId == 0 with
    | none => (.error .nomem, o, c, tasks)
    | some i => taskCreateSlot o c tasks i ownerCore addressSpace

/-- The body of the loop of `scdk_thread_create` for the free slot `i`, where
    `task_slot_for_cap` has found slot `t`.  `stack` is the kernel stack that
    `scdk_kalloc` returns when the thread has an entry. -/
def threadCreateSlot (o : ObjectTable) (c : CapTable) (tasks : TaskTable) (threads : ThreadTable)
    (i : Fin maxThreads) (t : Fin maxTasks) (task taskId entry arg : UInt64)
    (stack : Option UInt64) :
    Except Err UInt64 × ObjectTable × CapTable × TaskTable × ThreadTable :=
  match objectCreate o ObjType.thread (tasks t).ownerCore 0 (.thread i) with
  | (.error e, o) => (.error e, o, c, tasks, threads)
  | (.ok objectId, o) =>
    let slot : ThreadSlot :=
      ⟨objectId, 0, task, taskId, entry, arg, 0, 0, (tasks t).ownerCore, .new, false⟩
    if entry ≠ 0 ∧ stack = none then
      (.error .nomem, o, c, tasks, Function.update threads i { slot with objectId := 0 })
    else
      let kernelStack := if entry ≠ 0 then stack.getD 0 else 0
      let stackTop := if entry ≠ 0 then kernelStack + kernelStackSize else 0
      let slot := { slot with kernelStack := kernelStack, stackTop := stackTop }
      match capCreate o c objectId threadRights with
      | (.error e, c) => (.error e, o, c, tasks, Function.update threads i { slot with objectId := 0 })
      | (.ok cap, c) =>
        let mainThread := if (tasks t).mainThread = 0 then cap else (tasks t).mainThread
        (.ok cap, o, c, Function.update tasks t { tasks t with mainThread := mainThread },
          Function.update threads i { slot with cap := cap })

/-- `scdk_thread_create` -/
def threadCreate (o : ObjectTable) (c : CapTable) (tasks : TaskTable) (threads : ThreadTable)
    (task entry arg : UInt64) (stack : Option UInt64) :
    Except Err UInt64 × ObjectTable × CapTable × TaskTable × ThreadTable :=
  match capCheck o c task Right.bind ObjType.task with
  | .error e => (.error e, o, c, tasks, threads)
  | .ok taskEntry =>
    match Sched.taskSlotForCap o c tasks task with
    | .error e => (.error e, o, c, tasks, threads)
    | .ok t =>
      match Slots.firstSlot fun i => (threads i).objectId == 0 with
      | none => (.error .nomem, o, c, tasks, threads)
      | some i =>
        threadCreateSlot o c tasks threads i t task taskEntry.objectId entry arg stack

/-! ## What a creation does -/

section create

variable {o o' : ObjectTable} {c c' : CapTable} {tasks tasks' : TaskTable}
  {threads threads' : ThreadTable} {r : Except Err UInt64}

theorem taskCreate_grown {ownerCore : UInt32} {addressSpace : UInt64}
    (h : taskCreate o c tasks ownerCore addressSpace = (r, o', c', tasks')) :
    ∃ i, TablesGrown ObjType.task (.task i) o c o' c' := by
  unfold taskCreate at h
  split at h
  · cases h
    exact ⟨0, .same⟩
  split at h
  · cases h
    exact ⟨0, .same⟩
  next i _ =>
  refine ⟨i, ?_⟩
  unfold taskCreateSlot at h
  split at h
  · next hobject =>
    cases h
    exact tablesGrown_objectCreate c hobject
  · next hobject =>
    split at h
    · next hcap =>
      cases h
      exact tablesGrown_capCreate hobject hcap
    · next hcap =>
      cases h
      exact tablesGrown_capCreate hobject hcap

/-- A record of a thread that was not started. -/
structure ThreadSlot.IsNew (slot : ThreadSlot) : Prop where
  state : slot.state = .new
  queued : slot.queued = false
  ownerCore : slot.ownerCore = bootCore

/-- What `scdk_thread_create` does to the tables: nothing, or it takes the free slot
    `i`.  When it fails after it has made the object, it frees the slot again. -/
inductive ThreadAdded (o : ObjectTable) (c : CapTable) (threads : ThreadTable) :
    ObjectTable → CapTable → ThreadTable → Prop where
  | same : ThreadAdded o c threads o c threads
  | undone {ownerCore flags : UInt32} {i : Fin maxThreads} {id : UInt64} {o' : ObjectTable}
      {slot : ThreadSlot} :
      (threads i).objectId = 0 → slot.IsNew → slot.objectId = 0 →
      objectCreate o ObjType.thread ownerCore flags (.thread i) = (.ok id, o') →
      ThreadAdded o c threads o' c (Function.update threads i slot)
  | made {ownerCore flags : UInt32} {i : Fin maxThreads} {id : UInt64} {o' : ObjectTable}
      {slot : ThreadSlot} {ob : Object} {j : Fin maxCaps} :
      (threads i).objectId = 0 → slot.IsNew → slot.objectId = id →
      objectCreate o ObjType.thread ownerCore flags (.thread i) = (.ok id, o') →
      objectLookup o' id = .ok ob → c.occupied j = false →
      slot.cap = (c.mintSlot j ob threadRights).token j →
      ThreadAdded o c threads o' (c.mintSlot j ob threadRights) (Function.update threads i slot)

/-- Objects are made for the boot core only. -/
theorem objectCreate_core {type ownerCore flags : UInt32} {payload : Payload} {id : UInt64}
    (h : objectCreate o type ownerCore flags payload = (.ok id, o')) : ownerCore = bootCore := by
  unfold objectCreate at h
  split at h
  · cases h
  · next hargs =>
    rw [not_or, UInt32.not_le] at hargs
    have hlt : ownerCore.toNat < 1 := UInt32.lt_iff_toNat_lt.mp hargs.2
    exact UInt32.toNat_inj.mp (Nat.lt_one_iff.mp hlt)

theorem threadCreate_added {task entry arg : UInt64} {stack : Option UInt64}
    (h : threadCreate o c tasks threads task entry arg stack = (r, o', c', tasks', threads')) :
    ThreadAdded o c threads o' c' threads' := by
  unfold threadCreate at h
  split at h
  · cases h
    exact .same
  split at h
  · cases h
    exact .same
  split at h
  · cases h
    exact .same
  next t _ _ i hfirst =>
  have hfree : (threads i).objectId = 0 := beq_iff_eq.mp (Slots.firstSlot_eq_some hfirst).1
  unfold threadCreateSlot at h
  split at h
  · next e o₁ hobject =>
    -- No object, so nothing was changed.
    obtain ⟨e', heq⟩ | ⟨_, _, _, _, _, heq⟩ :=
      objectCreate_cases o ObjType.thread (tasks t).ownerCore 0 (.thread i)
    · rw [heq] at hobject
      cases hobject
      cases h
      exact .same
    · rw [heq] at hobject
      cases hobject
  · next id o₁ hobject =>
    -- The object is there; without a capability for it, it is left an orphan.
    have hcore := objectCreate_core hobject
    dsimp only at h
    split at h
    · cases h
      exact .undone hfree ⟨rfl, rfl, hcore⟩ rfl hobject
    · rcases capCreate_cases o₁ c id threadRights with ⟨e, heq⟩ | ⟨j, ob, _, hob, hocc, heq⟩
      · rw [heq] at h
        cases h
        exact .undone hfree ⟨rfl, rfl, hcore⟩ rfl hobject
      · rw [heq] at h
        cases h
        exact .made hfree ⟨rfl, rfl, hcore⟩ rfl hobject hob hocc rfl

end create

end Scdk
