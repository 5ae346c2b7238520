import Scdk.Core.Loader
import Scdk.Services.Proc

/-! # Programs and nested runs

    A user task is entered by `scdk_user_task_run_flat` and comes back to the
    kernel by a system call that ends it or by an exception.  Inside a system
    call it may have another task run, which does the same, to any depth.

    * `Program`: what a task does from its entry to its return; the program of a
      task that a system call spawns is part of the system call,
    * `Peripherals.platform`: the code around the handlers,
    * `syscallEntry`, `faultDispatch`: the two ways into the kernel,
    * `runProgram`: the run of a program, by recursion over it. -/

namespace Scdk

variable {δ : Type}

/-! ## The platform -/

/-- The devices below the services, and the answer of the self-test of grants,
    which reads the state only. -/
structure Peripherals (δ : Type) where
  consoleWrite : δ → List UInt8 → δ
  consoleClear : δ → Except Err Unit × δ
  consoleGetInfo : δ → Except Err ConsoleInfo × δ
  consoleScroll : δ → Int → Except Err Unit × δ
  keyboardPoll : δ → Except Err InputEvent × δ
  grantTest : Kernel (Host δ) → Except Err Unit

/-- Work on the devices of a host. -/
def onHost {α : Type} (f : δ → Except Err α × δ) : Host δ → Except Err α × Host δ := fun h =>
  ((f h.devices).1, { h with devices := (f h.devices).2 })

/-- The platform of the user tasks.  No message of a task reaches the device
    manager, and no kernel thread is ready while a user task runs, so that
    `scdk_yield` returns at once. -/
def Peripherals.platform (d : Peripherals δ) (spawn : K (Host δ) Unit) : Platform (Host δ) where
  consoleWrite := fun h bytes => { h with devices := d.consoleWrite h.devices bytes }
  consoleClear := onHost d.consoleClear
  consoleGetInfo := onHost d.consoleGetInfo
  consoleScroll := fun h lines => onHost (fun s => d.consoleScroll s lines) h
  keyboardPoll := onHost d.keyboardPoll
  spawn := spawn
  devmgr := fun k => (.error .notsup, k)
  grantTest := fun k => (d.grantTest k, k)
  yield := fun k => k

/-! ## Into the kernel and back -/

/-- The registers of a task that the entry of a system call saves, besides the
    arguments. -/
structure UserRegs where
  rsp : UInt64
  rip : UInt64
  rflags : UInt64
  deriving DecidableEq, Repr

/-- Note the fault that has just been marked; `before` are the records before
    it. -/
def noteFault (before : UserTasks) : K (Host δ) Unit := fun k =>
  if k.syscall.userFaulted = true then
    K.setRun (fun r => { r with pending := some ⟨k.syscall.userFaultStatus, before, k.tasks⟩ }) k
  else (.ok (), k)

/-- `scdk_syscall_dispatch` returns 1, for a call made in state `k` that ends in
    state `k'`: the task does not go on. -/
def syscallLeaves (c : Syscall) (k k' : Kernel δ) : Prop :=
  k.syscall.ready = false ∨ c.number = Sys.exit ∨ Sys.ringPoll < c.number ∨
    (c.number = Sys.endpointCall ∧ k'.syscall.userFaulted = true)

instance (c : Syscall) (k k' : Kernel δ) : Decidable (syscallLeaves c k k') :=
  inferInstanceAs (Decidable (_ ∨ _))

/-- The first part of `scdk_syscall_entry`. -/
def saveRegs (c : Syscall) (regs : UserRegs) : K (Host δ) Unit :=
  K.setRun fun r =>
    { r with
      entry :=
        { r.entry with
          userRsp := regs.rsp, userRip := regs.rip, userRflags := regs.rflags
          arg0 := c.arg0, arg1 := c.arg1, arg2 := c.arg2, arg3 := c.arg3 } }

/-- `scdk_syscall_entry`: whether the task does not go on. -/
def syscallEntry (p : Platform (Host δ)) (c : Syscall) (regs : UserRegs) : K (Host δ) Bool := do
  saveRegs c regs
  let k ← Effect.get
  syscallDispatch p c
  noteFault k.tasks
  let k' ← Effect.get
  pure (decide (syscallLeaves c k k'))

/-- `scdk_fault_dispatch` for a frame from user mode; every vector is answered in
    the same way. -/
def faultDispatch : K (Host δ) Unit := do
  let k ← Effect.get
  K.markUserFault .perm
  noteFault k.tasks

/-! ## Programs -/

/-- What a task does until it comes back to the kernel for good.  `answers` and
    `child` are for a system call that spawns a task: what the loader is answered
    and the program of that task. -/
inductive Program where
  | exit (regs : UserRegs)
  | exception
  | memory (frames : Frames) (rest : Program)
  | syscall (c : Syscall) (regs : UserRegs) (answers : LoadAnswers) (child rest : Program)

/-- A spawn that does not happen. -/
def noSpawn : K (Host δ) Unit := Effect.fail .notsup

/-- `proc_handle_spawn` where the task to run does `user`.  The calls of the
    loader itself go to the VFS and spawn nothing. -/
def spawnWith (d : Peripherals δ) (hhdmOffset : UInt64) (answers : LoadAnswers)
    (user : K (Host δ) Unit) : K (Host δ) Unit :=
  procHandleSpawn (loaderLoadFromVfs (d.platform noSpawn) hhdmOffset answers user)

/-- Run a program from its entry to its return to the kernel. -/
def runProgram (d : Peripherals δ) (hhdmOffset : UInt64) : Program → K (Host δ) Unit
  | .exit regs => do
    let _ ← syscallEntry (d.platform noSpawn) ⟨Sys.exit, 0, 0, 0, 0, 0⟩ regs
  | .exception => faultDispatch
  | .memory frames rest => do
    .modify fun k => { k with frames := frames }
    runProgram d hhdmOffset rest
  | .syscall c regs answers child rest => do
    let leaves ← syscallEntry
      (d.platform (spawnWith d hhdmOffset answers (runProgram d hhdmOffset child))) c regs
    if leaves = true then pure () else runProgram d hhdmOffset rest

end Scdk
