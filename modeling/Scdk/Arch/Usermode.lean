import Scdk.Core.Scheduler
import Scdk.Core.UserSystem
import Scdk.Mm.AddressSpace

/-! # Running a program in user mode

    Model of `arch/x86_64/usermode.c`, of the statics of `arch/x86_64/syscall.c`
    and of what `core/syscall_dispatch.c` saves and restores around a run.

    * `RunState`: the cells through which the processor enters the kernel, the
      tables of the scheduler and of the address spaces, and what is observed of
      runs: the stacks given back to the heap and the runs that have returned,
      which no function reads,
    * `saveTaskState`, `restoreTaskState`, `usermodeInit`,
    * `usermodeRunFlatImage`, over what the program does in user mode.

    The descriptors, the model-specific registers and the interrupt table are
    written with the same constants at every initialisation and left out, and so
    are the pages that a run gives back: what the page allocator and the heap
    answer is an argument of the run (`RunAnswers`). -/

namespace Scdk

variable {δ : Type}

/-! ## State -/

/-- `struct scdk_syscall_task_state` -/
structure SyscallTaskState where
  kernelStackTop : UInt64
  userRsp : UInt64
  userRip : UInt64
  userRflags : UInt64
  arg0 : UInt64
  arg1 : UInt64
  arg2 : UInt64
  arg3 : UInt64
  returnValue : UInt64
  userReturnRsp : UInt64
  userReturnRip : UInt64
  userExited : Bool
  endpointCallPassed : Bool
  userFaulted : Bool
  userFaultStatus : UInt64
  deriving DecidableEq, Repr

/-- The statics of `syscall.c`. -/
structure EntryCells where
  kernelStackTop : UInt64
  userRsp : UInt64
  userRip : UInt64
  userRflags : UInt64
  arg0 : UInt64
  arg1 : UInt64
  arg2 : UInt64
  arg3 : UInt64
  userReturnRsp : UInt64
  userReturnRip : UInt64
  deriving DecidableEq, Repr

/-- A fault, with the records of tasks and threads before and after it. -/
structure Fault where
  status : UInt64
  before : UserTasks
  after : UserTasks

/-- What a run has to give back to its caller: the current task, and all of
    `scdk_syscall_task_state`. -/
structure Caller where
  current : UInt64
  state : SyscallTaskState
  deriving DecidableEq, Repr

/-- A call of `scdk_user_task_run_flat` that has returned: the fault that ended
    the user mode of its task, if one did, the status, the caller before and
    after the call, and the records after it. -/
structure RunRecord where
  task : UInt64
  fault : Option Fault
  result : Except Err Unit
  caller : Caller
  caller' : Caller
  tasks' : UserTasks

/-- The state around the kernel tables.  `released` are the stacks that runs
    have given back to the heap and that the heap has not handed out again,
    `pending` is the fault that ended the innermost user mode until that run
    returns, and `log` has the runs that have returned. -/
structure RunState where
  entry : EntryCells
  rsp0 : UInt64
  usermodeInitialized : Bool
  tasks : TaskTable
  threads : ThreadTable
  aspaces : AddressSpaces
  released : List UInt64
  pending : Option Fault
  log : List RunRecord

/-- The devices, and the state around the kernel tables. -/
structure Host (δ : Type) where
  devices : δ
  run : RunState

/-- Change the state around the kernel tables. -/
def K.setRun (f : RunState → RunState) : K (Host δ) Unit :=
  .modify fun k => { k with devices := { k.devices with run := f k.devices.run } }

/-! ## Saving and restoring -/

/-- `scdk_syscall_save_task_state` -/
def saveTaskState (k : Kernel (Host δ)) : SyscallTaskState :=
  let entry := k.devices.run.entry
  { kernelStackTop := entry.kernelStackTop
    userRsp := entry.userRsp
    userRip := entry.userRip
    userRflags := entry.userRflags
    arg0 := entry.arg0
    arg1 := entry.arg1
    arg2 := entry.arg2
    arg3 := entry.arg3
    returnValue := k.syscall.returnValue
    userReturnRsp := entry.userReturnRsp
    userReturnRip := entry.userReturnRip
    userExited := k.syscall.userExited
    endpointCallPassed := k.syscall.endpointCallPassed
    userFaulted := k.syscall.userFaulted
    userFaultStatus := k.syscall.userFaultStatus }

/-- The statics of `syscall.c` in a saved state. -/
def SyscallTaskState.entry (s : SyscallTaskState) : EntryCells where
  kernelStackTop := s.kernelStackTop
  userRsp := s.userRsp
  userRip := s.userRip
  userRflags := s.userRflags
  arg0 := s.arg0
  arg1 := s.arg1
  arg2 := s.arg2
  arg3 := s.arg3
  userReturnRsp := s.userReturnRsp
  userReturnRip := s.userReturnRip

/-- `scdk_syscall_restore_task_state` -/
def restoreTaskState (s : SyscallTaskState) : K (Host δ) Unit :=
  .modify fun k =>
    { k with
      syscall := ⟨k.syscall.ready, s.userExited, s.endpointCallPassed, s.userFaulted,
        s.userFaultStatus, s.returnValue⟩
      devices := { k.devices with run := { k.devices.run with entry := s.entry } } }

/-- What was saved is there again. -/
theorem saveTaskState_restore (s : SyscallTaskState) (k : Kernel (Host δ)) :
    saveTaskState (restoreTaskState s k).2 = s := rfl

/-! ## Initialisation -/

/-- The test of `scdk_usermode_init` and `scdk_syscall_init` on a stack. -/
def stackTopOk (top : UInt64) : Prop := top ≠ 0 ∧ top &&& 0xf = 0

instance (top : UInt64) : Decidable (stackTopOk top) := inferInstanceAs (Decidable (_ ∧ _))

/-- `scdk_syscall_init` -/
def syscallInit (kernelStackTop : UInt64) : K (Host δ) Unit := do
  Effect.require (stackTopOk kernelStackTop) .inval
  K.setRun fun r => { r with entry := { r.entry with kernelStackTop := kernelStackTop } }
  .modify fun k => { k with syscall := { k.syscall.reset with ready := true } }

/-- `scdk_usermode_init`; `scdk_fault_init` answers `SCDK_OK`. -/
def usermodeInit (syscallStackTop : UInt64) : K (Host δ) Unit := do
  Effect.require (stackTopOk syscallStackTop) .inval
  K.setRun fun r => { r with rsp0 := syscallStackTop }
  syscallInit syscallStackTop
  K.setRun fun r => { r with usermodeInitialized := true }

/-! ## Stacks -/

/-- A page from `scdk_kalloc`: the heap hands out multiples of 16, inside its
    range. -/
structure StackPage where
  base : UInt64
  ok : stackTopOk (base + 4096)

/-- `(uint64_t)(uintptr_t)task_syscall_stack + SCDK_PAGE_SIZE` -/
def StackPage.top (s : StackPage) : UInt64 := s.base + 4096

/-- The released stacks without one that is handed out again. -/
def handOut (released : List UInt64) (top : UInt64) : List UInt64 :=
  released.filter fun t => t ≠ top

/-- The heap hands out a stack. -/
def K.takeStack (s : StackPage) : K (Host δ) Unit :=
  K.setRun fun r => { r with released := handOut r.released s.top }

/-- `scdk_kfree` of a stack. -/
def K.freeStack (s : StackPage) : K (Host δ) Unit :=
  K.setRun fun r => { r with released := s.top :: r.released }

/-- What the allocators answer in a run, and the frame that
    `scdk_enter_usermode_asm` saves: the stack for system calls, for each page of
    the image its physical page and the pages of its tables, and the same for the
    user stack. -/
structure RunAnswers where
  stack : Option StackPage
  code : Nat → Except Err UInt64 × PageSupply
  userStack : Except Err UInt64 × PageSupply
  returnRsp : UInt64
  returnRip : UInt64

/-! ## Mapping the image -/

/-- `SCDK_USER_TEST_CODE_VIRT` -/
def userTestCodeVirt : UInt64 := 0x400000

/-- `SCDK_USER_TEST_STACK_TOP` -/
def userTestStackTop : UInt64 := 0x70000000

/-- `SCDK_USERMODE_MAX_FLAT_PAGES` -/
def usermodeMaxFlatPages : UInt32 := 16

/-- Zero a physical page and copy bytes to its start. -/
def fillPage (frames : Frames) (phys : UInt64) (bytes : List UInt8) : Frames := fun addr =>
  if (addr - phys).toNat < pageSize then (bytes[(addr - phys).toNat]?).getD 0 else frames addr

/-- `memset` and `memcpy` on a page, through the direct map. -/
def K.fillPage (phys : UInt64) (bytes : List UInt8) : K δ Unit :=
  .modify fun k => { k with frames := Scdk.fillPage k.frames phys bytes }

/-- `scdk_vmm_current_root` -/
def K.vmmCurrentRoot : K δ UInt64 :=
  .ask fun k => if k.vmm.initialized = false then .error .notsup else .ok k.vmm.activeCr3Phys

/-- `scdk_vmm_activate_root` -/
def K.vmmActivateRoot (rootPhys : UInt64) : K δ Unit := fun k =>
  ((Scdk.vmmActivateRoot k.vmm rootPhys).1,
    { k with vmm := (Scdk.vmmActivateRoot k.vmm rootPhys).2 })

/-- `scdk_address_space_map` -/
def K.addressSpaceMap (aspace vaddr paddr flags : UInt64) (pages : PageSupply) :
    K (Host δ) Unit := fun k =>
  let (r, vmm) := Scdk.addressSpaceMap k.objects k.caps k.devices.run.aspaces k.vmm pages aspace
    vaddr paddr flags
  (r, { k with vmm := vmm })

/-- `scdk_address_space_unmap` -/
def K.addressSpaceUnmap (aspace vaddr : UInt64) : K (Host δ) Unit := fun k =>
  let (r, vmm) := Scdk.addressSpaceUnmap k.objects k.caps k.devices.run.aspaces k.vmm aspace vaddr
  (r, { k with vmm := vmm })

/-- `scdk_address_space_activate` -/
def K.addressSpaceActivate (aspace : UInt64) : K (Host δ) Unit := fun k =>
  let (r, vmm) := Scdk.addressSpaceActivate k.objects k.caps k.devices.run.aspaces k.vmm aspace
  (r, { k with vmm := vmm })

/-- The arguments of `scdk_usermode_run_flat_image`; the bytes of the image are
    in memory. -/
structure FlatImage where
  aspace : UInt64
  thread : UInt64
  entry : UInt64
  image : UInt64
  imageSize : UInt64
  bootstrapEndpoint : UInt64
  hhdmOffset : UInt64
  deriving DecidableEq, Repr

/-- `code_pages` -/
def FlatImage.codePages (f : FlatImage) : UInt32 := ((f.imageSize + 4095) / 4096).toUInt32

/-- The bytes of page `i` of the image. -/
def FlatImage.pageBytes (f : FlatImage) (i : Nat) (k : Kernel δ) : List UInt8 :=
  let copied := i * pageSize
  userBytes k.vmm k.frames (f.image + UInt64.ofNat copied) (min (f.imageSize.toNat - copied) pageSize)

/-! ## The run -/

/-- The local variables of `scdk_usermode_run_flat_image` that its cleanup
    reads. -/
structure RunLocals where
  bootRoot : Option UInt64
  stack : Option StackPage
  mappedCodePages : Nat
  stackMapped : Bool

/-- The part of the function before its label `cleanup`, with its locals. -/
abbrev RunBody (δ α : Type) : Type := Effect Err (Kernel (Host δ) × RunLocals) α

namespace RunBody

/-- A call. -/
def call {α : Type} (m : K (Host δ) α) : RunBody δ α := fun s => ((m s.1).1, ((m s.1).2, s.2))

/-- An assignment. -/
def assign (f : RunLocals → RunLocals) : RunBody δ Unit := .modify fun s => (s.1, f s.2)

end RunBody

/-- The loop over the pages of the image: page `i` is next, and `n` are left. -/
def mapCodePages (f : FlatImage) (a : RunAnswers) : Nat → Nat → RunBody δ Unit
  | _, 0 => pure ()
  | i, n + 1 => do
    let phys ← .call (.ask fun _ => (a.code i).1)
    .call (fun k => K.fillPage phys (f.pageBytes i k) k)
    .call (K.addressSpaceMap f.aspace (f.entry + UInt64.ofNat (i * pageSize)) phys 0 (a.code i).2)
    .assign fun l => { l with mappedCodePages := l.mappedCodePages + 1 }
    mapCodePages f a (i + 1) n

/-- The page of the user stack. -/
def mapUserStack (f : FlatImage) (a : RunAnswers) : RunBody δ Unit := do
  let phys ← .call (.ask fun _ => a.userStack.1)
  .call (K.fillPage phys [])
  .call (K.addressSpaceMap f.aspace (userTestStackTop - 4096) phys vmmMapWrite a.userStack.2)
  .assign fun l => { l with stackMapped := true }

/-- `scdk_enter_usermode_asm`: save where to return to, and run the program. -/
def enterUsermode (a : RunAnswers) (user : K (Host δ) Unit) : K (Host δ) Unit := do
  K.setRun fun r =>
    { r with
      entry := { r.entry with userReturnRsp := a.returnRsp, userReturnRip := a.returnRip } }
  let _ ← user.attempt

/-- From the entry into user mode to the label `cleanup`. -/
def runInUsermode (a : RunAnswers) (user : K (Host δ) Unit) (bootRoot : UInt64) : RunBody δ Unit := do
  .call (enterUsermode a user)
  let (k, _) ← Effect.get
  let status ← (RunBody.call (K.vmmActivateRoot bootRoot)).attempt
  .assign fun l => { l with bootRoot := none }
  .ask fun _ => status
  Effect.require (k.devices.run.usermodeInitialized = true ∧ k.syscall.userExited = true ∧
    k.syscall.endpointCallPassed = true) .busy

/-- From the initialisation to the label `cleanup`, with a stack. -/
def runOnStack (f : FlatImage) (a : RunAnswers) (user : K (Host δ) Unit) (bootRoot : UInt64)
    (stack : StackPage) : RunBody δ Unit := do
  .call (K.takeStack stack)
  .assign fun l => { l with stack := some stack }
  .call (usermodeInit stack.top)
  mapCodePages f a 0 f.codePages.toNat
  mapUserStack f a
  .call (K.addressSpaceActivate f.aspace)
  runInUsermode a user bootRoot

/-- From the saved state to the label `cleanup`. -/
def runBody (f : FlatImage) (a : RunAnswers) (user : K (Host δ) Unit) : RunBody δ Unit := do
  let bootRoot ← .call K.vmmCurrentRoot
  .assign fun l => { l with bootRoot := some bootRoot }
  match a.stack with
  | none => Effect.fail .nomem
  | some stack => runOnStack f a user bootRoot stack

/-- The loop of the cleanup over the pages of the image. -/
def unmapCodePages (f : FlatImage) : Nat → Nat → K (Host δ) Unit
  | _, 0 => pure ()
  | i, n + 1 => do
    let _ ← (K.addressSpaceUnmap f.aspace (f.entry + UInt64.ofNat (i * pageSize))).attempt
    unmapCodePages f (i + 1) n

/-- The part of the cleanup that unmaps. -/
def unmapAll (f : FlatImage) (l : RunLocals) : K (Host δ) Unit := do
  match l.bootRoot with
  | some root => let _ ← (K.vmmActivateRoot root).attempt
  | none => pure ()
  if l.stackMapped = true then
    let _ ← (K.addressSpaceUnmap f.aspace (userTestStackTop - 4096)).attempt
  unmapCodePages f 0 l.mappedCodePages

/-- The part of the function from its label `cleanup` on. -/
def runCleanup (f : FlatImage) (saved : SyscallTaskState) (l : RunLocals) : K (Host δ) Unit := do
  unmapAll f l
  restoreTaskState saved
  match l.stack with
  | some stack => K.freeStack stack
  | none => pure ()

/-- The tests of `scdk_usermode_run_flat_image` on its arguments. -/
def checkFlatImage (f : FlatImage) : K δ Unit := do
  Effect.require (f.aspace ≠ 0 ∧ f.thread ≠ 0 ∧ f.entry ≠ 0 ∧ f.image ≠ 0 ∧ f.imageSize ≠ 0 ∧
    f.bootstrapEndpoint ≠ 0 ∧ f.hhdmOffset ≠ 0) .inval
  Effect.require (f.entry &&& 0xfff = 0 ∧ userVirtBase ≤ f.entry ∧ f.entry ≤ userVirtTop - 4096)
    .bounds
  Effect.require (f.codePages ≠ 0 ∧ f.codePages ≤ usermodeMaxFlatPages) .bounds
  Effect.require (f.entry ≤ userVirtTop - f.codePages.toUInt64 * 4096) .bounds
  let _ ← K.capCheck f.thread Right.read ObjType.thread
  let _ ← K.capCheck f.bootstrapEndpoint Right.send ObjType.endpoint
  pure ()

/-- `scdk_usermode_run_flat_image` once the system call state is saved. -/
def runSaved (f : FlatImage) (a : RunAnswers) (user : K (Host δ) Unit) : K (Host δ) Unit := fun k =>
  let (status, k', locals) := runBody f a user (k, ⟨none, none, 0, false⟩)
  (status, (runCleanup f (saveTaskState k) locals k').2)

/-- `scdk_usermode_run_flat_image`; `user` is what the program does from its
    entry to its return to the kernel. -/
def usermodeRunFlatImage (f : FlatImage) (a : RunAnswers) (user : K (Host δ) Unit) :
    K (Host δ) Unit := do
  checkFlatImage f
  runSaved f a user

end Scdk
