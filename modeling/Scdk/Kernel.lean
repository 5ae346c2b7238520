import Scdk.Core.Endpoint
import Scdk.Core.Ring
import Scdk.Core.Task
import Scdk.Core.UserGrant
import Scdk.Lib.Effect
import Scdk.Mm.Initrd

/-! # The kernel state

    The static variables of the subsystems that a system call can reach, in one
    record, and the actions on it.

    * `Kernel`: the tables, user memory, the message being delivered, and a
      trace of what the properties of the development look at (`Event`), which
      no function reads,
    * `Platform`: what is below or beside the modelled code (the text console,
      the keyboard, the programs that the process service runs),
    * `K`: actions on the kernel state, and the primitive ones. -/

namespace Scdk

/-! ## State -/

/-- `struct scdk_message` -/
structure Message where
  sender : UInt64
  target : UInt64
  type : UInt64
  arg0 : UInt64
  arg1 : UInt64
  arg2 : UInt64
  arg3 : UInt64
  status : UInt64
  deriving DecidableEq, Repr

namespace Msg

def openFile : UInt64 := 1
def close : UInt64 := 2
def read : UInt64 := 3
def write : UInt64 := 4
def deviceRegister : UInt64 := 5
def deviceQueueBind : UInt64 := 6
def serviceLookup : UInt64 := 8
def processSpawn : UInt64 := 9
def processExit : UInt64 := 10
def ringProcess : UInt64 := 12
def consoleWrite : UInt64 := 0x2000
def consoleClear : UInt64 := 0x2001
def consoleGetInfo : UInt64 := 0x2002
def consoleScroll : UInt64 := 0x2004
def ttyPollEvent : UInt64 := 0x2100
def ttyGetInfo : UInt64 := 0x2102
def stat : UInt64 := 0x3000
def listdir : UInt64 := 0x3001

end Msg

/-- `sizeof(struct scdk_message)` -/
def messageSize : UInt64 := 64

/-- A message read from memory. -/
def Message.ofBytes (bytes : List UInt8) : Message where
  sender := wordAt bytes 0
  target := wordAt bytes 1
  type := wordAt bytes 2
  arg0 := wordAt bytes 3
  arg1 := wordAt bytes 4
  arg2 := wordAt bytes 5
  arg3 := wordAt bytes 6
  status := wordAt bytes 7

/-- A message in memory. -/
def Message.toBytes (m : Message) : List UInt8 :=
  [m.sender, m.target, m.type, m.arg0, m.arg1, m.arg2, m.arg3, m.status].flatMap bytesOfWord

/-- `scdk_message_init` -/
def messageInit (sender target type : UInt64) : Message :=
  ⟨sender, target, type, 0, 0, 0, 0, Err.inval.word⟩

/-- `struct scdk_user_ring_slot` -/
structure UserRingSlot where
  inUse : Bool
  sourceTask : UInt64
  ringCap : UInt64
  targetEndpoint : UInt64
  deriving DecidableEq, Repr

/-- `struct scdk_tmpfs_file` -/
structure TmpfsFile where
  objectId : UInt64
  cap : UInt64
  backing : InitrdFile
  isOpen : Bool
  deriving DecidableEq, Repr

/-- The statics of `syscall_dispatch.c`, and whether the entry path is set up. -/
structure SyscallState where
  ready : Bool
  userExited : Bool
  endpointCallPassed : Bool
  userFaulted : Bool
  userFaultStatus : UInt64
  returnValue : UInt64
  deriving DecidableEq, Repr

/-- What is observed of a run. -/
inductive Event where
  /-- `scdk_user_validate_range` accepted a range. -/
  | validated (ptr size : UInt64) (writable : Bool)
  /-- The tmpfs handler wrote `size` bytes from `dst` on. -/
  | copied (dst size : UInt64)
  /-- `scdk_user_grant_copy_from` returned `SCDK_OK` while `task` was current,
      for a grant of `source`. -/
  | grantRead (task grant source : UInt64)
  /-- The console took a descriptor from a ring. -/
  | consumed (ring : UInt64) (desc : RingDesc)
  /-- A completion was copied to the memory of the task that polled. -/
  | delivered (ring : UInt64) (completion : Completion)
  deriving DecidableEq, Repr

/-- The kernel state.  `msg` is the message that the callers and the handlers of
    `scdk_endpoint_call` share by pointer, and `payload` the characters that its
    `arg0` points to where a message carries a pointer.  `devices` is the state
    of what is below the modelled code. -/
structure Kernel (δ : Type) where
  objects : ObjectTable
  caps : CapTable
  endpoints : EndpointTable
  services : ServiceTable
  rings : RingTable
  userRings : Fin maxUserRings → UserRingSlot
  grants : GrantTables
  files : Fin tmpfsMaxOpenFiles → TmpfsFile
  initrd : Initrd
  rootTmpfsEndpoint : UInt64
  tasks : UserTasks
  vmm : Vmm
  frames : Frames
  syscall : SyscallState
  msg : Message
  payload : List UInt8
  devices : δ
  trace : List Event

/-! ## What is outside -/

/-- `struct scdk_console_info` -/
structure ConsoleInfo where
  columns : UInt32
  rows : UInt32
  cursorX : UInt32
  cursorY : UInt32
  flags : UInt32
  deriving DecidableEq, Repr

/-- `struct scdk_input_event` -/
structure InputEvent where
  timestamp : UInt64
  type : UInt32
  keycode : UInt32
  ascii : UInt32
  modifiers : UInt32
  flags : UInt32
  deriving DecidableEq, Repr

/-- The code that is not modelled.  `consoleWrite` has no status:
    `scdk_console_backend_write` answers `SCDK_OK` for every buffer.  `spawn` is
    `proc_handle_spawn`, which loads and runs a program, `devmgr` the two
    messages of the device manager, `grantTest` the self-test of grants, and
    `yield` the scheduler. -/
structure Platform (δ : Type) where
  consoleWrite : δ → List UInt8 → δ
  consoleClear : δ → Except Err Unit × δ
  consoleGetInfo : δ → Except Err ConsoleInfo × δ
  consoleScroll : δ → Int → Except Err Unit × δ
  keyboardPoll : δ → Except Err InputEvent × δ
  spawn : Kernel δ → Except Err Unit × Kernel δ
  devmgr : Kernel δ → Except Err Unit × Kernel δ
  grantTest : Kernel δ → Except Err Unit × Kernel δ
  yield : Kernel δ → Kernel δ

/-! ## Actions -/

/-- Actions on the kernel state. -/
abbrev K (δ α : Type) : Type := Effect Err (Kernel δ) α

namespace K

variable {δ : Type}

/-- Record an observation. -/
def emit (ev : Event) : K δ Unit := .modify fun k => { k with trace := k.trace ++ [ev] }

/-- Run code that is not modelled.  What it does is not part of the trace. -/
def outside (f : Kernel δ → Except Err Unit × Kernel δ) : K δ Unit := fun k =>
  ((f k).1, { (f k).2 with trace := k.trace })

/-- Work on the devices. -/
def onDevices {α : Type} (f : δ → Except Err α × δ) : K δ α := fun k =>
  ((f k.devices).1, { k with devices := (f k.devices).2 })

/-- The message being delivered. -/
def msg : K δ Message := .ask fun k => .ok k.msg

/-- Change the message being delivered. -/
def setMsg (f : Message → Message) : K δ Unit := .modify fun k => { k with msg := f k.msg }

/-- `scdk_cap_check` -/
def capCheck (cap requiredRights : UInt64) (expectedType : UInt32) : K δ CapEntry :=
  .ask fun k => Scdk.capCheck k.objects k.caps cap requiredRights expectedType

/-- `scdk_object_create` -/
def objectCreate (type ownerCore flags : UInt32) (payload : Payload) : K δ UInt64 := fun k =>
  let (r, objects) := Scdk.objectCreate k.objects type ownerCore flags payload
  (r, { k with objects := objects })

/-- `scdk_cap_create` -/
def capCreate (objectId rights : UInt64) : K δ UInt64 := fun k =>
  let (r, caps) := Scdk.capCreate k.objects k.caps objectId rights
  (r, { k with caps := caps })

/-- `scdk_user_validate_range` -/
def userValidateRange (userPtr size : UInt64) (writable : Bool) : K δ Unit := do
  .ask fun k => Scdk.userValidateRange k.vmm userPtr size writable
  emit (.validated userPtr size writable)

/-- `scdk_user_copy_from` -/
def userCopyFrom (userPtr size : UInt64) : K δ (List UInt8) := do
  Effect.require (size ≠ 0) .inval
  userValidateRange userPtr size false
  .ask fun k => .ok (userBytes k.vmm k.frames userPtr size.toNat)

/-- Store bytes at a virtual address. -/
def store (virt : UInt64) (bytes : List UInt8) : K δ Unit :=
  .modify fun k => { k with frames := storeBytes k.vmm k.frames virt bytes }

/-- `scdk_user_copy_to` -/
def userCopyTo (userPtr : UInt64) (bytes : List UInt8) : K δ Unit := do
  Effect.require (bytes ≠ []) .inval
  userValidateRange userPtr (UInt64.ofNat bytes.length) true
  store userPtr bytes

/-- `scdk_user_grant_copy_from` -/
def userGrantCopyFrom (targetEndpoint grantCap offset length : UInt64) : K δ (List UInt8) := do
  let (bytes, source) ← .ask fun k =>
    Scdk.userGrantCopyFrom k.objects k.caps k.grants k.vmm k.frames targetEndpoint grantCap offset
      length
  let k ← Effect.get
  emit (.grantRead k.tasks.currentUserTask grantCap source)
  pure bytes

/-- `mark_user_fault` of `fault.c`, with `scdk_syscall_mark_user_fault`. -/
def markUserFault (status : Err) : K δ Unit := .modify fun k =>
  { k with
    tasks := (taskFaultCurrent k.tasks status.word).2
    syscall :=
      { k.syscall with
        userFaulted := true
        userFaultStatus := status.word
        userExited := true
        returnValue := status.word } }

end K

end Scdk
