import Scdk.Services.Endpoint

/-! # User rings

    Model of `core/user_ring.c`: rings that belong to a task, filled from its
    memory in batches that the bound endpoint is told to process. -/

namespace Scdk

variable {δ : Type}

/-- `sizeof(struct scdk_ring_desc)` -/
def ringDescSize : UInt64 := 48

/-- `sizeof(struct scdk_completion)` -/
def completionSize : UInt64 := 32

/-- A descriptor read from memory. -/
def RingDesc.ofBytes (bytes : List UInt8) : RingDesc where
  op := wordAt bytes 0
  cap := wordAt bytes 1
  grant := wordAt bytes 2
  offset := wordAt bytes 3
  length := wordAt bytes 4
  flags := wordAt bytes 5

/-- A completion in memory. -/
def Completion.toBytes (c : Completion) : List UInt8 :=
  [c.op, c.status, c.result0, c.result1].flatMap bytesOfWord

/-- `validate_count` -/
def validateCount (count : UInt32) : Except Err Unit :=
  if count = 0 ∨ ringMaxEntries < count.toNat then .error .bounds else .ok ()

/-- `user_ring_slot_for` -/
def userRingSlotFor (k : Kernel δ) (sourceTask ringCap : UInt64) : Except Err (Fin maxUserRings) :=
  if sourceTask = 0 ∨ ringCap = 0 then .error .inval
  else
    match capCheck k.objects k.caps sourceTask Right.read ObjType.task with
    | .error e => .error e
    | .ok _ =>
      match capCheck k.objects k.caps ringCap Right.read ObjType.ring with
      | .error e => .error e
      | .ok _ =>
        match Slots.firstSlot fun i => (k.userRings i).inUse &&
            ((k.userRings i).sourceTask == sourceTask && (k.userRings i).ringCap == ringCap) with
        | none => .error .noent
        | some i => .ok i

/-- `scdk_ring_create` -/
def K.ringCreate (ownerCore entries : UInt32) (boundTarget : UInt64) : K δ UInt64 := fun k =>
  let (r, objects, caps, rings) :=
    Scdk.ringCreate k.objects k.caps k.rings ownerCore entries boundTarget
  (r, { k with objects := objects, caps := caps, rings := rings })

/-- The search of `scdk_user_ring_create` for a slot. -/
def freeUserRing (k : Kernel δ) : Except Err (Fin maxUserRings) :=
  match Slots.firstSlot fun i => !(k.userRings i).inUse with
  | none => .error .nomem
  | some i => .ok i

/-- Replace a slot of `user_rings`. -/
def setUserRing (i : Fin maxUserRings) (f : UserRingSlot → UserRingSlot) : K δ Unit :=
  .modify fun k => { k with userRings := Function.update k.userRings i (f (k.userRings i)) }

/-- `scdk_user_ring_create` -/
def userRingCreate (sourceTask : UInt64) (entries : UInt32) : K δ UInt64 := do
  Effect.require (sourceTask ≠ 0) .inval
  .ask fun _ => validateCount entries
  let _ ← K.capCheck sourceTask Right.read ObjType.task
  let i ← .ask freeUserRing
  let ring ← K.ringCreate bootCore entries 0
  setUserRing i fun _ => ⟨true, sourceTask, ring, 0⟩
  pure ring

/-- `scdk_ring_bind_target` -/
def K.ringBindTarget (ring target : UInt64) : K δ Unit := fun k =>
  let (r, rings) := Scdk.ringBindTarget k.objects k.caps k.rings ring target
  (r, { k with rings := rings })

/-- `scdk_user_ring_bind` -/
def userRingBind (sourceTask ringCap targetEndpoint : UInt64) : K δ Unit := do
  Effect.require (targetEndpoint ≠ 0) .inval
  let i ← .ask fun k => userRingSlotFor k sourceTask ringCap
  K.ringBindTarget ringCap targetEndpoint
  setUserRing i fun slot => { slot with targetEndpoint := targetEndpoint }

/-- The checks that `scdk_user_ring_submit` and `scdk_user_ring_poll` share: the
    endpoint that the ring of a task is bound to. -/
def userRingTarget (sourceTask ringCap userPtr : UInt64) (count : UInt32) : K δ UInt64 := do
  .ask fun _ => validateCount count
  Effect.require (userPtr ≠ 0) .inval
  let i ← .ask fun k => userRingSlotFor k sourceTask ringCap
  let k ← Effect.get
  let target := (k.userRings i).targetEndpoint
  Effect.require (target ≠ 0) .busy
  let _ ← K.capCheck target Right.send ObjType.endpoint
  pure target

/-- `scdk_ring_submit` -/
def K.ringSubmit (ring : UInt64) (desc : RingDesc) : K δ Unit := fun k =>
  let (r, rings) := Scdk.ringSubmit k.objects k.caps k.rings ring desc
  (r, { k with rings := rings })

/-- The loop of `scdk_user_ring_submit`: `n` descriptors are left, from `ptr`
    on. -/
def submitLoop (ringCap : UInt64) : Nat → UInt64 → K δ Unit
  | 0, _ => pure ()
  | n + 1, ptr => do
    let bytes ← K.userCopyFrom ptr ringDescSize
    K.ringSubmit ringCap (RingDesc.ofBytes bytes)
    submitLoop ringCap n (ptr + ringDescSize)

/-- `scdk_user_ring_submit` -/
def userRingSubmit (p : Platform δ) (sourceTask ringCap userDescs : UInt64) (count : UInt32) :
    K δ Unit := do
  let target ← userRingTarget sourceTask ringCap userDescs count
  K.userValidateRange userDescs (ringDescSize * count.toUInt64) false
  submitLoop ringCap count.toNat userDescs
  K.setMsg fun _ =>
    { messageInit sourceTask 0 Msg.ringProcess with arg0 := ringCap, arg1 := count.toUInt64 }
  endpointCall p target

/-- `scdk_ring_poll` -/
def K.ringPoll (ring : UInt64) : K δ Completion := fun k =>
  let (r, rings) := Scdk.ringPoll k.objects k.caps k.rings ring
  (r, { k with rings := rings })

/-- The loop of `scdk_user_ring_poll`: `n` more completions may be taken, to
    `ptr` on.  The answer is the number of completions taken. -/
def pollLoop (ringCap : UInt64) : Nat → UInt64 → K δ UInt32
  | 0, _ => pure 0
  | n + 1, ptr => do
    match ← (K.ringPoll ringCap).attempt with
    | .error e => if e = .noent then pure 0 else Effect.fail e
    | .ok completion => do
      K.userCopyTo ptr completion.toBytes
      K.emit (.delivered ringCap completion)
      let polled ← pollLoop ringCap n (ptr + completionSize)
      pure (polled + 1)

/-- `scdk_user_ring_poll` -/
def userRingPoll (sourceTask ringCap userCompletions : UInt64) (maxCount : UInt32) : K δ UInt32 := do
  let _ ← userRingTarget sourceTask ringCap userCompletions maxCount
  K.userValidateRange userCompletions (completionSize * maxCount.toUInt64) true
  pollLoop ringCap maxCount.toNat userCompletions

end Scdk
