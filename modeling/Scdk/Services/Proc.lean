import Scdk.Services.Endpoint

/-! # The process service

    Model of `proc_handle_spawn` of `services/proc_service.c`, over the loader.
    A load has no access to the message of the spawn: the loader and the tasks
    it runs have messages of their own. -/

namespace Scdk

variable {δ : Type}

/-- `SCDK_PROC_MAX_PATH` -/
abbrev procMaxPath : Nat := 128

/-- The state without its message. -/
def Kernel.noMessage (k : Kernel δ) : Kernel δ := { k with msg := messageInit 0 0 0, payload := [] }

/-- Run code that has messages of its own. -/
def K.aside {α : Type} (m : K δ α) : K δ α := fun k =>
  ((m k.noMessage).1, { (m k.noMessage).2 with msg := k.msg, payload := k.payload })

/-- `bounded_path_from_message` -/
def boundedPathFromMessage (k : Kernel δ) : Except Err (List UInt8) :=
  if k.msg.arg0 = 0 then .error .inval
  else if k.msg.arg1 = 0 ∨ procMaxPath ≤ k.msg.arg1.toNat then .error .bounds
  else .ok (k.payload.take k.msg.arg1.toNat)

/-- The endpoint that a spawned task starts with: that of the message, or the
    console as in `scdk_loader_load_from_vfs`. -/
def bootstrapEndpoint (k : Kernel δ) : Except Err UInt64 :=
  if k.msg.arg2 ≠ 0 then
    (capCheck k.objects k.caps k.msg.arg2 Right.send ObjType.endpoint).map fun _ => k.msg.arg2
  else serviceLookup k.services Service.console

/-- `scdk_task_cleanup` -/
def K.taskCleanup (task : UInt64) : K δ Unit := fun k =>
  ((Scdk.taskCleanup k.tasks task).1, { k with tasks := (Scdk.taskCleanup k.tasks task).2 })

/-- `proc_handle_spawn`; `load` is `scdk_loader_load_from_vfs_with_endpoint`,
    which answers the token of the task it has run. -/
def procHandleSpawn (load : List UInt8 → UInt64 → K δ UInt64) : K δ Unit := do
  let path ← .ask boundedPathFromMessage
  let endpoint ← .ask bootstrapEndpoint
  let task ← K.aside (load path endpoint)
  K.taskCleanup task
  K.setMsg fun m => { m with arg0 := task, arg1 := 0 }

end Scdk
