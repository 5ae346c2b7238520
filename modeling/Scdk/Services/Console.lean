import Scdk.Kernel

/-! # The console service

    Model of `services/console_service.c`: text output from messages, from
    grants and from the descriptors of a ring. -/

namespace Scdk

variable {δ : Type}

/-- `SCDK_CONSOLE_RING_MAX_WRITE` -/
def consoleRingMaxWrite : UInt64 := 128

/-- `SCDK_RING_OP_CONSOLE_WRITE` -/
def ringOpConsoleWrite : UInt64 := 1

/-- `console_handle_write`, with the characters that `arg0` points to. -/
def consoleHandleWrite (p : Platform δ) (buffer : List UInt8) (arg0 arg1 : UInt64) : K δ Unit := do
  Effect.require (arg0 ≠ 0) .inval
  let length := if arg1 = 0 then (cString buffer).length else arg1.toNat
  K.onDevices fun d => (.ok (), p.consoleWrite d (buffer.take length))

/-- `console_handle_grant_write` -/
def consoleHandleGrantWrite (p : Platform δ) (endpoint : UInt64) : K δ Unit := do
  let msg ← K.msg
  Effect.require (msg.arg0 ≠ 0) .inval
  Effect.require (msg.arg2 ≠ 0 ∧ msg.arg2 ≤ consoleRingMaxWrite) .bounds
  let buffer ← K.userGrantCopyFrom endpoint msg.arg0 msg.arg1 msg.arg2
  K.onDevices fun d => (.ok (), p.consoleWrite d buffer)

/-- `console_handle_get_info` -/
def consoleHandleGetInfo (p : Platform δ) : K δ Unit := do
  let info ← K.onDevices p.consoleGetInfo
  K.setMsg fun m =>
    { m with
      arg0 := info.columns.toUInt64
      arg1 := info.rows.toUInt64
      arg2 := info.cursorX.toUInt64 <<< 32 ||| info.cursorY.toUInt64
      arg3 := info.flags.toUInt64 }

/-- `console_handle_scroll` -/
def consoleHandleScroll (p : Platform δ) : K δ Unit := do
  let msg ← K.msg
  let lines := msg.arg0.toBitVec.toInt
  Effect.require (-2 ^ 31 ≤ lines ∧ lines < 2 ^ 31) .bounds
  K.onDevices fun d => p.consoleScroll d lines

/-- The check of `console_handle_ring_process` on the fields of a descriptor. -/
def RingDesc.wellFormed (desc : RingDesc) (endpoint : UInt64) : Prop :=
  desc.op = ringOpConsoleWrite ∧ desc.cap = endpoint ∧ desc.grant ≠ 0 ∧ desc.length ≠ 0 ∧
    desc.length ≤ consoleRingMaxWrite

instance (desc : RingDesc) (endpoint : UInt64) : Decidable (desc.wellFormed endpoint) :=
  inferInstanceAs (Decidable (_ ∧ _))

/-- What `console_handle_ring_process` does for one descriptor, with `op_status`
    as its status.  The buffer written from is not null. -/
def consoleProcessDesc (p : Platform δ) (endpoint : UInt64) (desc : RingDesc) : K δ Unit := do
  Effect.require (desc.wellFormed endpoint) .inval
  let buffer ← K.userGrantCopyFrom endpoint desc.grant desc.offset desc.length
  K.onDevices fun d => (.ok (), p.consoleWrite d buffer)

/-- `scdk_ring_consume` -/
def K.ringConsume (ring : UInt64) : K δ RingDesc := fun k =>
  let (r, rings) := Scdk.ringConsume k.objects k.caps k.rings ring
  (r, { k with rings := rings })

/-- The console takes a descriptor from a ring. -/
def consoleConsume (ring : UInt64) : K δ RingDesc := do
  let desc ← K.ringConsume ring
  K.emit (.consumed ring desc)
  pure desc

/-- `scdk_ring_complete` -/
def K.ringComplete (ring : UInt64) (completion : Completion) : K δ Unit := fun k =>
  let (r, rings) := Scdk.ringComplete k.objects k.caps k.rings ring completion
  (r, { k with rings := rings })

/-- The completion of a descriptor. -/
def RingDesc.completion (desc : RingDesc) (status : Except Err Unit) : Completion where
  op := desc.op
  status := statusWord status
  result0 := match status with
    | .ok _ => desc.length
    | .error _ => 0
  result1 := desc.flags

/-- The loop of `console_handle_ring_process`: `n` descriptors are left. -/
def consoleRingLoop (p : Platform δ) (endpoint ring : UInt64) : Nat → K δ Unit
  | 0 => pure ()
  | n + 1 => do
    let desc ← consoleConsume ring
    let opStatus ← (consoleProcessDesc p endpoint desc).attempt
    K.ringComplete ring (desc.completion opStatus)
    .ask fun _ => opStatus
    consoleRingLoop p endpoint ring n

/-- `console_handle_ring_process` -/
def consoleHandleRingProcess (p : Platform δ) (endpoint : UInt64) : K δ Unit := do
  let msg ← K.msg
  Effect.require (msg.arg0 ≠ 0 ∧ msg.arg1 ≠ 0) .inval
  Effect.require (msg.arg1.toNat ≤ ringMaxEntries) .bounds
  let bound ← .ask fun k => ringBoundTarget k.objects k.caps k.rings msg.arg0
  Effect.require (bound = endpoint) .perm
  consoleRingLoop p endpoint msg.arg0 msg.arg1.toNat

/-- `console_endpoint_handler` -/
def consoleEndpointHandler (p : Platform δ) (endpoint : UInt64) : K δ Unit := do
  let msg ← K.msg
  if msg.type = Msg.write then do
    let k ← Effect.get
    consoleHandleWrite p k.payload msg.arg0 msg.arg1
  else if msg.type = Msg.consoleWrite then consoleHandleGrantWrite p endpoint
  else if msg.type = Msg.consoleClear then K.onDevices p.consoleClear
  else if msg.type = Msg.consoleGetInfo then consoleHandleGetInfo p
  else if msg.type = Msg.consoleScroll then consoleHandleScroll p
  else if msg.type = Msg.ringProcess then consoleHandleRingProcess p endpoint
  else Effect.fail .notsup

/-! ## Messages with grants -/

section messages

variable (p : Platform δ) (endpoint : UInt64) {k : Kernel δ}

theorem consoleEndpointHandler_consoleWrite (h : k.msg.type = Msg.consoleWrite) :
    consoleEndpointHandler p endpoint k = consoleHandleGrantWrite p endpoint k := by
  unfold consoleEndpointHandler
  rw [Effect.bind_of_ok (show K.msg k = (.ok k.msg, k) from rfl)]
  simp [h, Msg.write, Msg.consoleWrite]

theorem consoleEndpointHandler_ringProcess (h : k.msg.type = Msg.ringProcess) :
    consoleEndpointHandler p endpoint k = consoleHandleRingProcess p endpoint k := by
  unfold consoleEndpointHandler
  rw [Effect.bind_of_ok (show K.msg k = (.ok k.msg, k) from rfl)]
  simp [h, Msg.ringProcess, Msg.write, Msg.consoleWrite, Msg.consoleClear, Msg.consoleGetInfo,
    Msg.consoleScroll]

end messages

end Scdk
