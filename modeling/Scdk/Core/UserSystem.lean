import Scdk.Core.Scheduler
import Scdk.Core.Syscall
import Scdk.Lib.Run

/-! # Tasks that make system calls

    The kernel with the user tasks that run on it: any task may be entered from
    inside a system call of another one, to any depth, and while it runs it
    makes system calls with any arguments.  What a task does to its memory, and
    the kernel to the page tables, between two calls is arbitrary. -/

namespace Scdk

/-- The kernel, and what the nested runs will restore when they return: the
    current task, the active root and the system call state, innermost first. -/
structure World (δ : Type) where
  kernel : Kernel δ
  nest : List (UInt64 × UInt64 × SyscallState)

/-- What can happen next. -/
inductive UserStep where
  /-- The current task makes a system call. -/
  | syscall (c : Syscall)
  /-- A run of `task` starts, with the page tables of `root`. -/
  | enter (task root : UInt64)
  /-- The innermost run returns. -/
  | leave
  /-- Memory and page tables change outside of system calls. -/
  | memory (frames : Frames) (tables : PageTables)
  /-- The kernel makes a task, with its record in slot `i` of the task table. -/
  | newTask (i : Fin maxTasks)

/-- `scdk_syscall_reset_task_state` -/
def SyscallState.reset (s : SyscallState) : SyscallState := ⟨s.ready, false, false, false, 0, 0⟩

/-- The object and the token of `scdk_task_create`. -/
def K.newTask {δ : Type} (i : Fin maxTasks) : K δ UInt64 := do
  let objectId ← K.objectCreate ObjType.task bootCore 0 (.task i)
  K.capCreate objectId taskRights

theorem K.newTask_run {δ : Type} (k : Kernel δ) (i : Fin maxTasks) :
    ∃ objects caps, (K.newTask i k).2 = { k with objects := objects, caps := caps } ∧
      TablesGrown ObjType.task (.task i) k.objects k.caps objects caps := by
  unfold K.newTask
  rw [Effect.bind_run]
  unfold K.objectCreate
  rcases hc : Scdk.objectCreate k.objects ObjType.task bootCore 0 (.task i) with ⟨r, objects⟩
  cases r with
  | error e => exact ⟨objects, k.caps, rfl, tablesGrown_objectCreate k.caps hc⟩
  | ok id =>
    rcases hcap : Scdk.capCreate objects k.caps id taskRights with ⟨r, caps⟩
    refine ⟨objects, caps, ?_, tablesGrown_capCreate hc hcap⟩
    simp only [K.capCreate, hcap]

/-- Make `task` current and `root` active, as `scdk_user_task_run_flat` and
    `scdk_usermode_run_flat_image` do. -/
def Kernel.switchTo {δ : Type} (k : Kernel δ) (task root : UInt64) (syscall : SyscallState) :
    Kernel δ :=
  { k with
    tasks := { k.tasks with currentUserTask := task }
    vmm := { k.vmm with activeCr3Phys := root }
    syscall := syscall }

/-- One step; the answer is what a system call returns to the task. -/
def userStep {δ : Type} (p : Platform δ) (w : World δ) : UserStep → UInt64 × World δ
  | .syscall c =>
      let k := (syscallDispatch p c w.kernel).2
      (k.syscall.returnValue, { w with kernel := k })
  | .enter task root =>
      let k := w.kernel
      (0, ⟨k.switchTo task root k.syscall.reset,
        (k.tasks.currentUserTask, k.vmm.activeCr3Phys, k.syscall) :: w.nest⟩)
  | .leave =>
      match w.nest with
      | [] => (0, w)
      | (task, root, syscall) :: nest => (0, ⟨w.kernel.switchTo task root syscall, nest⟩)
  | .memory frames tables =>
      let k := w.kernel
      (0, { w with kernel := { k with frames := frames, vmm := { k.vmm with tables := tables } } })
  | .newTask i => (0, { w with kernel := (K.newTask i w.kernel).2 })

/-- The kernel with its tasks, from the states that satisfy `init`. -/
def userSystem {δ : Type} (p : Platform δ) (init : Kernel δ → Prop) :
    System (World δ) UserStep UInt64 where
  init := fun w => init w.kernel ∧ w.nest = []
  step := userStep p

end Scdk
