import Scdk.Services.Endpoint

/-! # Endpoint calls from user mode

    Model of the second half of `ipc/user_ipc.c`: the message of a task is
    copied in, its target and its pointers are checked, the endpoint is called,
    and the message is copied back. -/

namespace Scdk

variable {δ : Type}

/-- `SCDK_USER_IPC_MAX_WRITE`, the size of the payload buffer without its
    terminating zero. -/
def userIpcMaxWrite : UInt64 := 256

/-- `validate_user_message_target` -/
def validateUserMessageTarget (k : Kernel δ) (endpointCap : UInt64) : Except Err Unit :=
  if k.msg.target = Service.none then .error .inval
  else
    match serviceLookup k.services k.msg.target with
    | .error e => .error e
    | .ok serviceEndpoint => if serviceEndpoint ≠ endpointCap then .error .perm else .ok ()

/-- The types whose `arg0` points to a text. -/
def Message.hasText (m : Message) : Prop :=
  m.type = Msg.write ∨ m.type = Msg.openFile ∨ m.type = Msg.processSpawn ∨ m.type = Msg.stat ∨
    m.type = Msg.listdir

instance (m : Message) : Decidable m.hasText := inferInstanceAs (Decidable (_ ∨ _))

/-- The types that are delivered as they are. -/
def Message.isPlain (m : Message) : Prop :=
  m.type = Msg.consoleWrite ∨ m.type = Msg.consoleClear ∨ m.type = Msg.consoleGetInfo ∨
    m.type = Msg.consoleScroll ∨ m.type = Msg.ttyPollEvent ∨ m.type = Msg.ttyGetInfo ∨
    m.type = Msg.close ∨ m.type = Msg.serviceLookup

instance (m : Message) : Decidable m.isPlain := inferInstanceAs (Decidable (_ ∨ _))

/-- `prepare_user_buffer_arg`; the buffer is at the kernel address `buffer`. -/
def prepareUserBufferArg (buffer : UInt64) : K δ Unit := do
  let msg ← K.msg
  Effect.require msg.hasText .notsup
  Effect.require (msg.arg0 ≠ 0 ∧ msg.arg1 ≠ 0 ∧ msg.arg1 ≤ userIpcMaxWrite) .bounds
  let bytes ← K.userCopyFrom msg.arg0 msg.arg1
  .modify fun k => { k with payload := bytes }
  K.setMsg fun m => { m with arg0 := buffer }

/-- `msg.status = status; (void)scdk_user_copy_to(user_message_ptr, &msg, ...)`,
    and return the status. -/
def refuse {α : Type} (userMessagePtr : UInt64) (status : Err) (fault : K δ Unit) : K δ α := do
  K.setMsg fun m => { m with status := status.word }
  let k ← Effect.get
  let _ ← (K.userCopyTo userMessagePtr k.msg.toBytes).attempt
  fault
  Effect.fail status

/-- The validation of the destination that `arg2` and `arg3` give. -/
def validateDestination (userMessagePtr : UInt64) : K δ Unit := do
  let msg ← K.msg
  match ← (K.userValidateRange msg.arg2 msg.arg3 true).attempt with
  | .error e => refuse userMessagePtr e (K.markUserFault e)
  | .ok _ => pure ()

/-- The `switch` of `scdk_sys_endpoint_call`. -/
def prepareMessage (userMessagePtr buffer : UInt64) : K δ Unit := do
  let msg ← K.msg
  if msg.hasText then do
    match ← (prepareUserBufferArg buffer).attempt with
    | .error e =>
      refuse userMessagePtr e
        (if e = .bounds ∨ e = .noent ∨ e = .perm then K.markUserFault e else pure ())
    | .ok _ =>
      if msg.type = Msg.listdir then validateDestination userMessagePtr else pure ()
  else if msg.type = Msg.read then
    if msg.target = Service.vfs then validateDestination userMessagePtr else pure ()
  else if msg.isPlain then pure ()
  else refuse userMessagePtr .notsup (pure ())

/-- The end of `scdk_sys_endpoint_call`: the call, and the copy of the message
    back to the task. -/
def callAndReply (p : Platform δ) (endpointCap userMessagePtr : UInt64) : K δ Unit := do
  let status ← (endpointCall p endpointCap).attempt
  K.setMsg fun m => { m with status := statusWord status }
  let k ← Effect.get
  match ← (K.userCopyTo userMessagePtr k.msg.toBytes).attempt with
  | .error _ => Effect.fail .perm
  | .ok _ => .ask fun _ => status

/-- `scdk_sys_endpoint_call` once the message is copied in. -/
def checkAndCall (p : Platform δ) (endpointCap userMessagePtr buffer : UInt64) : K δ Unit := do
  match ← (Effect.ask fun k => validateUserMessageTarget k endpointCap).attempt with
  | .error e => refuse userMessagePtr e (K.markUserFault e)
  | .ok _ =>
    prepareMessage userMessagePtr buffer
    callAndReply p endpointCap userMessagePtr

/-- `scdk_sys_endpoint_call`; the payload buffer is at the kernel address
    `buffer`. -/
def sysEndpointCall (p : Platform δ) (endpointCap userMessagePtr buffer : UInt64) : K δ Unit := do
  match ← (K.capCheck endpointCap Right.send ObjType.endpoint).attempt with
  | .error e =>
    K.markUserFault e
    Effect.fail e
  | .ok _ =>
    match ← (K.userCopyFrom userMessagePtr messageSize).attempt with
    | .error e =>
      K.markUserFault e
      Effect.fail e
    | .ok bytes =>
      K.setMsg fun _ => Message.ofBytes bytes
      checkAndCall p endpointCap userMessagePtr buffer

end Scdk
