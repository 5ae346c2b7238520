import Scdk.Services.Console
import Scdk.Services.Tmpfs

/-! # Delivering a message

    Model of `scdk_endpoint_call` and of the handlers it runs: `vfs_service.c`,
    `session_service.c`, `tty_service.c`, and the dispatch of
    `proc_service.c`, `devmgr_service.c` and the self-tests.

    The only handler that calls another endpoint is that of the VFS, which
    forwards to the endpoint mounted at its root.  A call carries the number of
    such forwards that may still follow (`depth`); one is enough when a tmpfs is
    mounted (`endpointCall_depth`). -/

namespace Scdk

variable {δ : Type}

/-- `SCDK_TTY_INFO_POLLING` -/
def ttyInfoPolling : UInt64 := 1

/-- `sizeof(struct scdk_input_event)` -/
def inputEventSize : UInt64 := 32

/-! ## Handlers -/

/-- `session_service_allowed` -/
def sessionServiceAllowed (serviceId : UInt64) : Prop :=
  serviceId = Service.console ∨ serviceId = Service.vfs ∨ serviceId = Service.proc ∨
    serviceId = Service.tty ∨ serviceId = Service.grantTest

instance (serviceId : UInt64) : Decidable (sessionServiceAllowed serviceId) :=
  inferInstanceAs (Decidable (_ ∨ _))

/-- `session_endpoint_handler` -/
def sessionEndpointHandler : K δ Unit := do
  let msg ← K.msg
  if msg.type = Msg.serviceLookup then do
    Effect.require (sessionServiceAllowed msg.arg0) .perm
    let endpoint ← .ask fun k => serviceLookup k.services msg.arg0
    K.setMsg fun m => { m with arg0 := endpoint, arg1 := 0, arg2 := 0, arg3 := 0 }
  else Effect.fail .notsup

/-- `tty_endpoint_handler`, with `scdk_tty_pack_event`. -/
def ttyEndpointHandler (p : Platform δ) : K δ Unit := do
  let msg ← K.msg
  if msg.type = Msg.ttyPollEvent then do
    let event ← K.onDevices p.keyboardPoll
    K.setMsg fun m =>
      { m with
        arg0 := event.timestamp
        arg1 := event.type.toUInt64 <<< 32 ||| event.keycode.toUInt64
        arg2 := event.ascii.toUInt64
        arg3 := event.modifiers.toUInt64 <<< 32 ||| event.flags.toUInt64 }
  else if msg.type = Msg.ttyGetInfo then
    K.setMsg fun m =>
      { m with arg0 := inputEventSize, arg1 := ttyInfoPolling, arg2 := 0, arg3 := 0 }
  else Effect.fail .notsup

/-- `proc_endpoint_handler` -/
def procEndpointHandler (p : Platform δ) : K δ Unit := do
  let msg ← K.msg
  if msg.type = Msg.processSpawn then K.outside p.spawn
  else if msg.type = Msg.processExit then pure ()
  else Effect.fail .notsup

/-- `devmgr_endpoint_handler` -/
def devmgrEndpointHandler (p : Platform δ) : K δ Unit := do
  let msg ← K.msg
  if msg.type = Msg.deviceRegister ∨ msg.type = Msg.deviceQueueBind then K.outside p.devmgr
  else Effect.fail .notsup

/-- `grant_test_endpoint_handler` -/
def grantTestEndpointHandler (p : Platform δ) : K δ Unit := do
  let msg ← K.msg
  if msg.type = Msg.read then K.outside p.grantTest else Effect.fail .inval

/-- `path_under_root` -/
def pathUnderRoot (payload : List UInt8) : Prop := payload[0]? = some slash

instance (payload : List UInt8) : Decidable (pathUnderRoot payload) :=
  inferInstanceAs (Decidable (_ = _))

/-- `vfs_endpoint_handler` and `vfs_handle_open`; `forward` is
    `vfs_forward_to_tmpfs`. -/
def vfsEndpointHandler (forward : K δ Unit) : K δ Unit := do
  let k ← Effect.get
  let msg := k.msg
  if msg.type = Msg.openFile then do
    Effect.require (msg.arg0 ≠ 0) .inval
    Effect.require (pathUnderRoot k.payload) .noent
    forward
  else if msg.type = Msg.stat ∨ msg.type = Msg.listdir then do
    Effect.require (msg.arg0 ≠ 0 ∧ pathUnderRoot k.payload) .noent
    forward
  else if msg.type = Msg.read ∨ msg.type = Msg.close then forward
  else Effect.fail .notsup

/-! ## Calls -/

/-- `scdk_endpoint_call` on the message of the state; `handle` runs a handler on
    behalf of an endpoint token. -/
def deliver (handle : Handler → UInt64 → K δ Unit) (endpoint : UInt64) : K δ Unit := do
  match ← (Effect.ask fun k => endpointTarget k.objects k.caps k.endpoints endpoint).attempt with
  | .error e =>
    K.setMsg fun m => { m with status := e.word }
    Effect.fail e
  | .ok (objectId, handler) =>
    K.setMsg fun m => { m with target := objectId }
    let status ← (handle handler endpoint).attempt
    K.setMsg fun m => { m with status := statusWord status }
    .ask fun _ => status

/-- `vfs_forward_to_tmpfs`, over the call of the mounted endpoint. -/
def vfsForwardToTmpfs (call : UInt64 → K δ Unit) : K δ Unit := do
  let k ← Effect.get
  Effect.require (k.rootTmpfsEndpoint ≠ 0) .inval
  K.setMsg fun m => { m with target := Service.tmpfs }
  let status ← (call k.rootTmpfsEndpoint).attempt
  K.setMsg fun m => { m with target := Service.vfs }
  .ask fun _ => status

/-- Run a handler; `forward` is what the VFS does to forward a message. -/
def runHandler (p : Platform δ) (forward : K δ Unit) (handler : Handler) (endpoint : UInt64) :
    K δ Unit :=
  match handler with
  | .console => consoleEndpointHandler p endpoint
  | .tmpfs => tmpfsEndpointHandler
  | .vfs => vfsEndpointHandler forward
  | .proc => procEndpointHandler p
  | .grantTest => grantTestEndpointHandler p
  | .devmgr => devmgrEndpointHandler p
  | .tty => ttyEndpointHandler p
  | .session => sessionEndpointHandler
  | .accept => pure ()

/-- `scdk_endpoint_call`, with at most `depth` forwards. -/
def endpointCallDepth (p : Platform δ) : Nat → UInt64 → K δ Unit
  | 0 => deliver (runHandler p (Effect.fail .busy))
  | depth + 1 => deliver (runHandler p (vfsForwardToTmpfs (endpointCallDepth p depth)))

/-- `scdk_endpoint_call` -/
def endpointCall (p : Platform δ) : UInt64 → K δ Unit := endpointCallDepth p 1

/-! ## What a call does -/

section deliver

variable {handle : Handler → UInt64 → K δ Unit} {endpoint : UInt64} {k : Kernel δ}

/-- The message with the object it is delivered to. -/
def Kernel.toTarget (k : Kernel δ) (objectId : UInt64) : Kernel δ :=
  { k with msg := { k.msg with target := objectId } }

/-- The message with the status of its handler. -/
def Kernel.withStatus (k : Kernel δ) (status : UInt64) : Kernel δ :=
  { k with msg := { k.msg with status := status } }

theorem deliver_of_error {e : Err}
    (h : endpointTarget k.objects k.caps k.endpoints endpoint = .error e) :
    deliver handle endpoint k = (.error e, k.withStatus e.word) := by
  unfold deliver
  rw [Effect.bind_run]
  simp only [Effect.attempt, Effect.ask, h]
  rfl

/-- The handler runs, and its status is the answer. -/
theorem deliver_of_target {objectId : UInt64} {handler : Handler}
    (h : endpointTarget k.objects k.caps k.endpoints endpoint = .ok (objectId, handler)) :
    deliver handle endpoint k =
      ((handle handler endpoint (k.toTarget objectId)).1,
        (handle handler endpoint (k.toTarget objectId)).2.withStatus
          (statusWord (handle handler endpoint (k.toTarget objectId)).1)) := by
  unfold deliver
  rw [Effect.bind_run]
  simp only [Effect.attempt, Effect.ask, h]
  rfl

end deliver

section frame

variable {R : Kernel δ → Kernel δ → Prop} [IsPreorder (Kernel δ) R] {p : Platform δ}

/-- Delivering a message is a step of `R` when its handler makes one. -/
theorem deliver_frame (hmsg : ∀ k msg, R k { k with msg := msg })
    {handle : Handler → UInt64 → K δ Unit} {endpoint : UInt64} {k : Kernel δ}
    (h : ∀ objectId handler, endpointTarget k.objects k.caps k.endpoints endpoint =
        .ok (objectId, handler) →
      R (k.toTarget objectId) (handle handler endpoint (k.toTarget objectId)).2) :
    R k (deliver handle endpoint k).2 := by
  cases htarget : endpointTarget k.objects k.caps k.endpoints endpoint with
  | error e =>
    rw [deliver_of_error htarget]
    exact hmsg k _
  | ok r =>
    obtain ⟨objectId, handler⟩ := r
    rw [deliver_of_target htarget]
    have hrun := h objectId handler htarget
    exact IsTrans.trans _ _ _ (hmsg k _) (IsTrans.trans _ _ _ hrun (hmsg _ _))

/-- The VFS forwards the message as it is, if at all. -/
theorem vfsEndpointHandler_frame {forward : K δ Unit} {k : Kernel δ} (h : R k (forward k).2) :
    R k (vfsEndpointHandler forward k).2 := by
  have hrequire : ∀ (q : Prop) [Decidable q] (e : Err) (m : K δ Unit), R k (m k).2 →
      R k ((Effect.require q e >>= fun _ => m) k).2 := by
    intro q _ e m hm
    by_cases hq : q
    · rw [Effect.bind_of_ok (Effect.require_pos hq e)]
      exact hm
    · rw [Effect.bind_of_error (Effect.require_neg hq e)]
      exact refl k
  unfold vfsEndpointHandler
  rw [Effect.bind_of_ok Effect.get_run]
  split
  · exact hrequire _ _ _ (hrequire _ _ _ h)
  split
  · exact hrequire _ _ _ h
  split
  · exact h
  · exact refl k

/-- A call runs at most two handlers, that of the endpoint and that of the mounted
    one, each on the message of the call with another target. -/
theorem endpointCall_frame (hmsg : ∀ k msg, R k { k with msg := msg }) {endpoint : UInt64}
    {k : Kernel δ}
    (h : ∀ e objectId handler forward target,
      e = endpoint ∨ e = k.rootTmpfsEndpoint →
      endpointTarget k.objects k.caps k.endpoints e = .ok (objectId, handler) →
      handler ≠ .vfs →
      R (k.toTarget target) (runHandler p forward handler e (k.toTarget target)).2) :
    R k (endpointCall p endpoint k).2 := by
  -- Forwarding a message of the call, by the handler of the VFS.
  have hforward : ∀ target, R (k.toTarget target)
      (vfsForwardToTmpfs (endpointCallDepth p 0) (k.toTarget target)).2 := by
    intro target
    unfold vfsForwardToTmpfs
    rw [Effect.bind_of_ok Effect.get_run]
    by_cases hroot : (k.toTarget target).rootTmpfsEndpoint ≠ 0
    · rw [Effect.bind_of_ok (Effect.require_pos hroot _)]
      have hinner : R (k.toTarget Service.tmpfs)
          (endpointCallDepth p 0 k.rootTmpfsEndpoint (k.toTarget Service.tmpfs)).2 := by
        apply deliver_frame hmsg
        intro objectId handler htarget
        by_cases hvfs : handler = .vfs
        · -- No second forward.
          rw [hvfs]
          exact vfsEndpointHandler_frame (refl _)
        · exact h _ _ _ _ _ (.inr rfl) htarget hvfs
      exact IsTrans.trans _ _ _ (hmsg _ _) (IsTrans.trans _ _ _ hinner (hmsg _ _))
    · rw [Effect.bind_of_error (Effect.require_neg hroot _)]
      exact refl _
  apply deliver_frame hmsg
  intro objectId handler htarget
  by_cases hvfs : handler = .vfs
  · rw [hvfs]
    exact vfsEndpointHandler_frame (hforward objectId)
  · exact h _ _ _ _ _ (.inl rfl) htarget hvfs

end frame

end Scdk
