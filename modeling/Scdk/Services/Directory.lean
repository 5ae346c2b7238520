import Scdk.Core.RingIsolation
import Scdk.Ipc.MessageBytes
import Scdk.Ipc.RangeCheck

/-! # The directory of services

    Tasks get to know the services by asking the session service
    (`services/session_service.c`).  What they are told comes from a table that is filled
    when the kernel starts.

    * `Stays` along runs: no step of a task changes the table, or what the endpoints in it
      run; the code that is not modelled is assumed not to (`OutsideStays`),
    * `sessionAnswer`: what the session service knows,
    * `sysEndpointCall_session`: how a question of a task is answered, in its own memory,
    * `session_answers`: after any run the answer is that of the services of the start. -/

namespace Scdk

variable {δ : Type}

/-! ## Runs -/

/-- The code that is not modelled registers no service, and takes no object or token away
    but those of grants. -/
structure OutsideStays (p : Platform δ) : Prop where
  spawn : Effect.Within Stays (K.outside p.spawn)
  devmgr : Effect.Within Stays (K.outside p.devmgr)
  grantTest : Effect.Within Stays (K.outside p.grantTest)
  yield : Effect.Within Stays (K.outside fun k => (.ok (), p.yield k))

section steps

variable {p : Platform δ} {k k' : Kernel δ}

/-- Steps outside of these tables. -/
theorem Stays.of_eq (h : (k'.objects, k'.caps, k'.endpoints, k'.services, k'.initrd,
    k'.rootTmpfsEndpoint) = (k.objects, k.caps, k.endpoints, k.services, k.initrd,
    k.rootTmpfsEndpoint)) : Stays k k' := (Lasting.of_eq h).stays

/-- The steps of the handlers. -/
theorem steps_stays (p : Platform δ) : Steps p Stays where
  msg := fun _ _ => .of_eq rfl
  frames := fun _ _ => .of_eq rfl
  trace := fun _ _ => .of_eq rfl
  files := fun _ _ => .of_eq rfl
  object := fun i k => (lasting_objectCreate (.file i) bootCore 0 k).stays
  cap := fun objectId k => (lasting_capCreate objectId Right.read k).stays
  consoleWrite := fun _ _ => .of_eq rfl
  consoleClear := fun _ => .of_eq rfl
  consoleGetInfo := fun _ => .of_eq rfl
  consoleScroll := fun _ _ => .of_eq rfl
  keyboardPoll := fun _ => .of_eq rfl

theorem endpointCall_stays (h : OutsideStays p) (endpoint : UInt64) :
    Effect.Within Stays (endpointCall p endpoint) := by
  intro k
  apply endpointCall_steps (steps_stays p)
  · exact ⟨fun _ => h.spawn, fun _ => h.devmgr, fun _ => h.grantTest⟩
  · exact fun _ => ringSteps_of_rings (fun _ _ => .of_eq rfl) _

theorem sysEndpointCall_stays (h : OutsideStays p) (endpointCap ptr buffer : UInt64) :
    Effect.Within Stays (sysEndpointCall p endpointCap ptr buffer) := by
  intro k
  rcases sysEndpointCall_run p endpointCap ptr buffer k with hq | ⟨k', events, hprep, hq⟩
  · exact hq.stays
  · have hstart : Stays k (k.withMessage ptr) := .of_eq rfl
    have hready : Stays (k.withMessage ptr) k' := hprep.accepted.quiet.stays
    have hcall : Stays k' (endpointCall p endpointCap k').2 := endpointCall_stays h endpointCap k'
    exact IsTrans.trans _ _ _ hstart (IsTrans.trans _ _ _ hready (IsTrans.trans _ _ _ hcall hq.stays))

theorem stays_userRingCreate (task : UInt64) (entries : UInt32) :
    Effect.Within Stays (userRingCreate task entries : K δ UInt64) := by
  refine .bind (Effect.within_require _ _) fun _ => ?_
  refine .bind (Effect.within_ask _) fun _ => ?_
  refine .bind (Effect.within_ask _) fun _ => ?_
  refine .bind (Effect.within_ask _) fun _ => ?_
  refine .bind (fun k => (lasting_ringCreate bootCore entries 0 k).stays) fun _ => ?_
  refine .bind (fun _ => .of_eq rfl) fun _ => ?_
  exact Effect.within_pure _

theorem stays_userRingBind (task ring target : UInt64) :
    Effect.Within Stays (userRingBind task ring target : K δ Unit) := by
  refine .bind (Effect.within_require _ _) fun _ => ?_
  refine .bind (Effect.within_ask _) fun _ => ?_
  refine .bind (fun _ => .of_eq rfl) fun _ => ?_
  exact fun _ => .of_eq rfl

theorem stays_notePassed (status : Except Err Unit) :
    Effect.Within Stays (notePassed status : K δ Unit) :=
  fun k => (ringsStep_notePassed status k).stays

theorem stays_setReturnValue (value : UInt64) :
    Effect.Within Stays (setReturnValue value : K δ Unit) := fun _ => .of_eq rfl

theorem stays_answerValue {m : K δ UInt64} (h : Effect.Within Stays m) :
    Effect.Within Stays (answerValue m) := by
  refine .bind h.attempt fun r => ?_
  cases r with
  | error e => exact stays_setReturnValue _
  | ok value => exact stays_setReturnValue _

theorem stays_answerStatus {m : K δ Unit} (h : Effect.Within Stays m) :
    Effect.Within Stays (answerStatus m) := h.attempt.bind fun _ => stays_setReturnValue _

/-- **System calls.**  None changes the services, or what their endpoints run. -/
theorem syscallDispatch_stays (h : OutsideStays p) (c : Syscall) :
    Effect.Within Stays (syscallDispatch p c) := by
  intro k
  have htask : Effect.Within Stays (K.userTaskCurrent : K δ UInt64) := Effect.within_ask _
  apply syscallDispatch_cases (P := fun out => Stays k out.2)
  case notReady => exact stays_setReturnValue _ k
  case debugWrite => exact fun _ => stays_setReturnValue _ k
  case call =>
    intro _
    refine Effect.Within.bind (sysEndpointCall_stays h _ _ _).attempt (fun _ => ?_) k
    refine .bind Effect.within_get fun _ => ?_
    exact .ite (Effect.within_pure ()) ((stays_notePassed _).bind fun _ => stays_setReturnValue _)
  case yield => exact fun _ => h.yield.bind (fun _ => stays_setReturnValue _) k
  case exit => exact fun _ => .of_eq rfl
  case grantCreate =>
    intro _
    have hcreate : ∀ task, Effect.Within Stays
        (K.userGrantCreate task c.arg0 c.arg1 c.arg2 c.arg3 : K δ UInt64) :=
      fun task k => (lasting_userGrantCreate task _ _ _ _ k).stays
    exact stays_answerValue (htask.bind hcreate) k
  case grantRevoke =>
    intro _
    have hrevoke : Effect.Within Stays (K.userGrantRevoke c.arg0 : K δ Unit) :=
      fun k => (lasting_userGrantRevoke _ k).stays
    exact stays_answerStatus hrevoke k
  case ringCreate =>
    intro _
    exact stays_answerValue (htask.bind fun _ => stays_userRingCreate _ _) k
  case ringBind =>
    intro _
    exact stays_answerStatus (htask.bind fun _ => stays_userRingBind _ _ _) k
  case ringSubmit =>
    intro _
    -- the batch is for the ring that the token names, if any
    have hsubmit : ∀ task, Effect.Within Stays
        (userRingSubmit p task c.arg0 c.arg1 c.arg2.toUInt32) :=
      fun task k => (@ringsStep_userRingSubmit δ c.arg0 0 p task c.arg1 c.arg2.toUInt32 k).stays
    refine Effect.Within.bind (htask.bind hsubmit).attempt (fun _ => ?_) k
    exact (stays_notePassed _).bind fun _ => stays_setReturnValue _
  case ringPoll =>
    intro _
    have hpoll : ∀ task, Effect.Within Stays (do
        let polled ← userRingPoll task c.arg0 c.arg1 c.arg2.toUInt32
        pure polled.toUInt64 : K δ UInt64) := by
      intro task
      refine .bind (fun k => ?_) fun _ => Effect.within_pure _
      exact (@ringsStep_userRingPoll δ c.arg0 0 task c.arg1 c.arg2.toUInt32 k).stays
    exact stays_answerValue (htask.bind hpoll) k
  case unknown => exact fun _ => .of_eq rfl

/-- One step of the system. -/
theorem userStep_stays (h : OutsideStays p) (w : World δ) (s : UserStep) :
    Stays w.kernel (userStep p w s).2.kernel := by
  cases s with
  | syscall c => exact syscallDispatch_stays h c w.kernel
  | enter task root => exact .of_eq rfl
  | leave =>
    unfold userStep
    cases w.nest with
    | nil => exact refl _
    | cons saved nest => exact .of_eq rfl
  | memory frames tables => exact .of_eq rfl
  | newTask i =>
    have hnew : Effect.Within Stays (K.newTask i : K δ UInt64) :=
      .bind (fun k => (lasting_objectCreate (.task i) bootCore 0 k).stays) fun id k =>
        (lasting_capCreate id taskRights k).stays
    exact hnew w.kernel

/-- **Runs.** -/
theorem stays_of_run (h : OutsideStays p) {k₀ : Kernel δ} {log : List (UserStep × UInt64)}
    {w : World δ} (hrun : (userSystem p (· = k₀)).Run log w) : Stays k₀ w.kernel := by
  apply hrun.invariant (P := fun w => Stays k₀ w.kernel)
  · intro w hinit
    rw [hinit.1]
    exact refl k₀
  · intro w s hw _
    exact IsTrans.trans _ _ _ hw (userStep_stays h w s)

end steps

/-! ## Questions -/

/-- What the session service knows of a service. -/
def sessionAnswer (services : ServiceTable) (serviceId : UInt64) : Except Err UInt64 :=
  if sessionServiceAllowed serviceId then serviceLookup services serviceId else .error .perm

/-- A question as it comes back from the endpoint `target`. -/
def Message.answered (m : Message) (target : UInt64) : Except Err UInt64 → Message
  | .ok endpoint =>
    { m with target := target, arg0 := endpoint, arg1 := 0, arg2 := 0, arg3 := 0, status := 0 }
  | .error e => { m with target := target, status := e.word }

section questions

variable {p : Platform δ} {k : Kernel δ} {endpoint id : UInt64}

theorem sessionEndpointHandler_lookup (htype : k.msg.type = Msg.serviceLookup) {r : Except Err UInt64}
    (hr : sessionAnswer k.services k.msg.arg0 = r) :
    (sessionEndpointHandler k).1 = toStatus r ∧
      (sessionEndpointHandler k).2.withStatus (statusWord (sessionEndpointHandler k).1) =
        { k with msg := k.msg.answered k.msg.target r } := by
  unfold sessionEndpointHandler
  rw [Effect.bind_of_ok (show K.msg k = (.ok k.msg, k) from rfl), if_pos htype]
  unfold sessionAnswer at hr
  by_cases hallowed : sessionServiceAllowed k.msg.arg0
  · rw [if_pos hallowed] at hr
    rw [Effect.bind_of_ok (Effect.require_pos hallowed _), Effect.ask_bind, hr]
    cases r with
    | error e => exact ⟨rfl, rfl⟩
    | ok endpoint => exact ⟨rfl, rfl⟩
  · rw [if_neg hallowed] at hr
    rw [Effect.bind_of_error (Effect.require_neg hallowed _), ← hr]
    exact ⟨rfl, rfl⟩

/-- The call of the session service. -/
theorem endpointCall_session
    (htarget : endpointTarget k.objects k.caps k.endpoints endpoint = .ok (id, .session))
    (htype : k.msg.type = Msg.serviceLookup) :
    endpointCall p endpoint k = (toStatus (sessionAnswer k.services k.msg.arg0),
      { k with msg := k.msg.answered id (sessionAnswer k.services k.msg.arg0) }) := by
  have hhandler := @sessionEndpointHandler_lookup δ (k.toTarget id) htype _ rfl
  unfold endpointCall endpointCallDepth
  rw [deliver_of_target htarget]
  exact Prod.ext hhandler.1 hhandler.2

/-- What may be written to may be read. -/
theorem userValidateRange_readable {v : Vmm} {ptr size : UInt64}
    (h : userValidateRange v ptr size true = .ok ()) : userValidateRange v ptr size false = .ok () := by
  rw [userValidateRange_iff] at h ⊢
  refine ⟨h.1, fun n hn => ?_⟩
  obtain ⟨phys, flags, hphys, huser, _⟩ := h.2 n hn
  exact ⟨phys, flags, hphys, huser, fun hread => absurd hread Bool.false_ne_true⟩

/-- A copy of a message from memory that was validated. -/
theorem K.userCopyFrom_message {ptr : UInt64}
    (hval : Scdk.userValidateRange k.vmm ptr messageSize false = .ok ()) :
    K.userCopyFrom ptr messageSize k = (.ok (userBytes k.vmm k.frames ptr messageSize.toNat),
      k.after k.rings k.devices [.validated ptr messageSize false]) := by
  unfold K.userCopyFrom
  rw [Effect.bind_of_ok (Effect.require_pos (by decide) _), Effect.bind_run, K.userValidateRange_run, hval]
  rfl

/-- A copy of a message to memory that was validated. -/
theorem K.userCopyTo_message {ptr : UInt64}
    (hval : Scdk.userValidateRange k.vmm ptr messageSize true = .ok ()) (m : Message) :
    K.userCopyTo ptr m.toBytes k =
      (.ok (), { k.after k.rings k.devices [.validated ptr messageSize true] with
        frames := storeBytes k.vmm k.frames ptr m.toBytes }) := by
  have hlen := m.length_toBytes
  have hne : m.toBytes ≠ [] := by
    intro hnil
    rw [hnil] at hlen
    cases hlen
  have hsize : UInt64.ofNat m.toBytes.length = messageSize := by
    rw [hlen]
    rfl
  unfold K.userCopyTo
  rw [Effect.bind_of_ok (Effect.require_pos hne _), hsize, Effect.bind_run, K.userValidateRange_run, hval]
  rfl

/-- The message in memory that it was copied to. -/
theorem messageAt_stored {ptr : UInt64}
    (hval : userValidateRange k.vmm ptr messageSize true = .ok ()) {k' : Kernel δ} (hvmm : k'.vmm = k.vmm)
    {m : Message} (hframes : k'.frames = storeBytes k.vmm k.frames ptr m.toBytes) :
    messageAt k' ptr = m := by
  have hlen := m.length_toBytes
  have hsize : UInt64.ofNat m.toBytes.length = messageSize := by
    rw [hlen]
    rfl
  have hread : userBytes k.vmm (storeBytes k.vmm k.frames ptr m.toBytes) ptr m.toBytes.length =
      m.toBytes := by
    apply userBytes_storeBytes
    · rw [hlen]
      decide
    · rw [hsize]
      exact hval
  unfold messageAt
  rw [hvmm, hframes]
  rw [hlen] at hread
  show Message.ofBytes (userBytes _ _ ptr 64) = m
  rw [hread, Message.ofBytes_toBytes]

/-- The message is a question for the session service, in memory that the task may write. -/
structure Asks (k : Kernel δ) (ptr : UInt64) : Prop where
  memory : userValidateRange k.vmm ptr messageSize true = .ok ()
  target : (messageAt k ptr).target = Service.session
  type : (messageAt k ptr).type = Msg.serviceLookup

/-- The question is passed on as it is. -/
theorem Asks.prepare {ptr : UInt64} (h : Asks k ptr) (buffer : UInt64) :
    prepareMessage ptr buffer (k.withMessage ptr) = (.ok (), k.withMessage ptr) := by
  have htype : (k.withMessage ptr).msg.type = Msg.serviceLookup := h.type
  have htext : ¬ (k.withMessage ptr).msg.hasText := by
    unfold Message.hasText
    rw [htype]
    decide
  have hplain : (k.withMessage ptr).msg.isPlain := by
    unfold Message.isPlain
    rw [htype]
    decide
  unfold prepareMessage
  rw [Effect.bind_of_ok (show K.msg (k.withMessage ptr) = (.ok (k.withMessage ptr).msg, _) from rfl),
    if_neg htext, if_neg (by rw [htype]; decide), if_pos hplain]
  rfl

/-- **A question.**  The answer is in the memory of the task, in the place of the message. -/
theorem sysEndpointCall_session {ptr : UInt64} (h : Asks k ptr)
    (hsession : serviceLookup k.services Service.session = .ok endpoint)
    (htarget : endpointTarget k.objects k.caps k.endpoints endpoint = .ok (id, .session))
    {r : Except Err UInt64} (hr : sessionAnswer k.services (messageAt k ptr).arg0 = r) (buffer : UInt64) :
    (sysEndpointCall p endpoint ptr buffer k).1 = toStatus r ∧
      (sysEndpointCall p endpoint ptr buffer k).2.syscall = k.syscall ∧
      messageAt (sysEndpointCall p endpoint ptr buffer k).2 ptr = (messageAt k ptr).answered id r := by
  obtain ⟨entry, hcheck⟩ := capCheck_of_endpointTarget htarget
  have haccepted : validateUserMessageTarget (k.withMessage ptr) endpoint = .ok () := by
    have hservices : serviceLookup (k.withMessage ptr).services Service.session = .ok endpoint := hsession
    have hname : (k.withMessage ptr).msg.target = Service.session := h.target
    unfold validateUserMessageTarget
    rw [hname, if_neg (by decide), hservices]
    exact if_neg (not_not.mpr rfl)
  have hcall : endpointCall p endpoint (k.withMessage ptr) =
      (toStatus r, { k.withMessage ptr with msg := (messageAt k ptr).answered id r }) := by
    rw [← hr]
    exact endpointCall_session htarget h.type
  -- the call of the endpoint, once everything is checked
  have hrun : sysEndpointCall p endpoint ptr buffer k = callAndReply p endpoint ptr (k.withMessage ptr) := by
    unfold sysEndpointCall
    rw [K.capCheck, Effect.ask_attempt_bind, hcheck]
    dsimp only
    rw [Effect.attempt_bind, K.userCopyFrom_message (userValidateRange_readable h.memory)]
    show checkAndCall p endpoint ptr buffer (k.withMessage ptr) = _
    unfold checkAndCall
    rw [Effect.ask_attempt_bind, haccepted]
    dsimp only
    exact Effect.bind_of_ok (h.prepare buffer) _
  set k₂ : Kernel δ := { k.withMessage ptr with msg := (messageAt k ptr).answered id r } with hk₂
  have hstatus : K.setMsg (fun m => { m with status := statusWord (toStatus r) }) k₂ = (.ok (), k₂) := by
    cases r with
    | error e => rfl
    | ok endpoint => rfl
  have hmemory : userValidateRange k₂.vmm ptr messageSize true = .ok () := h.memory
  have hreply : callAndReply p endpoint ptr (k.withMessage ptr) =
      (toStatus r, { k₂.after k₂.rings k₂.devices [.validated ptr messageSize true] with
        frames := storeBytes k.vmm k.frames ptr k₂.msg.toBytes }) := by
    unfold callAndReply
    rw [Effect.attempt_bind, hcall, Effect.bind_of_ok hstatus, Effect.bind_of_ok Effect.get_run,
      Effect.attempt_bind, K.userCopyTo_message hmemory]
    rfl
  rw [hrun, hreply]
  refine ⟨rfl, rfl, ?_⟩
  apply messageAt_stored h.memory
  · rfl
  · rfl

/-- The system call answers what the endpoint does. -/
theorem syscallDispatch_session {c : Syscall} (hn : c.number = Sys.endpointCall)
    (hready : k.syscall.ready = true) (hfaulted : k.syscall.userFaulted = false) (h : Asks k c.arg1)
    (hsession : serviceLookup k.services Service.session = .ok c.arg0)
    (htarget : endpointTarget k.objects k.caps k.endpoints c.arg0 = .ok (id, .session))
    {r : Except Err UInt64} (hr : sessionAnswer k.services (messageAt k c.arg1).arg0 = r) :
    (syscallDispatch p c k).2.syscall.returnValue = statusWord r ∧
      messageAt (syscallDispatch p c k).2 c.arg1 = (messageAt k c.arg1).answered id r := by
  obtain ⟨hstatus, hsyscall, hmessage⟩ := @sysEndpointCall_session δ p k c.arg0 id c.arg1 h hsession
    htarget r hr c.buffer
  have hdispatch : syscallDispatch p c k = dispatchEndpointCall p c k := by
    unfold syscallDispatch
    rw [Effect.bind_of_ok Effect.get_run]
    simp [hready, hn, Sys.debugWrite, Sys.endpointCall]
  rw [hdispatch]
  unfold dispatchEndpointCall
  rw [Effect.attempt_bind, Effect.bind_of_ok Effect.get_run, hsyscall, hfaulted,
    if_neg Bool.false_ne_true, hstatus]
  cases r with
  | error e => exact ⟨rfl, hmessage⟩
  | ok endpoint => exact ⟨rfl, hmessage⟩

end questions

/-! ## Any run -/

/-- A task that has not faulted asks the session service, by a system call. -/
structure AsksSession (k : Kernel δ) (c : Syscall) : Prop where
  number : c.number = Sys.endpointCall
  ready : k.syscall.ready = true
  running : k.syscall.userFaulted = false
  message : Asks k c.arg1

/-- **The directory of services.**  Whatever the tasks have done since the start, a task that
    asks the session service for a service reads in its memory the token of the endpoint that
    was registered at the start, if tasks may know the service, and an error if not; and
    calls with such a token still run the handler that they ran at the start. -/
theorem session_answers {p : Platform δ} (hout : OutsideStays p) {k₀ : Kernel δ}
    (hwf : TablesWf k₀.objects k₀.caps) {log : List (UserStep × UInt64)} {w : World δ}
    (hrun : (userSystem p (· = k₀)).Run log w) {c : Syscall} (hasks : AsksSession w.kernel c) {id : UInt64}
    (hsession : serviceLookup k₀.services Service.session = .ok c.arg0)
    (htarget : endpointTarget k₀.objects k₀.caps k₀.endpoints c.arg0 = .ok (id, .session))
    {r : Except Err UInt64}
    (hr : sessionAnswer k₀.services (messageAt w.kernel c.arg1).arg0 = r) :
    (userStep p w (.syscall c)).1 = statusWord r ∧
      messageAt (userStep p w (.syscall c)).2.kernel c.arg1 =
        (messageAt w.kernel c.arg1).answered id r ∧
      ∀ endpoint target, endpointTarget k₀.objects k₀.caps k₀.endpoints endpoint = .ok target →
        endpointTarget (userStep p w (.syscall c)).2.kernel.objects
          (userStep p w (.syscall c)).2.kernel.caps
          (userStep p w (.syscall c)).2.kernel.endpoints endpoint = .ok target := by
  have hstays := stays_of_run hout hrun
  rw [← hstays.services] at hsession hr
  have hnow := (hstays.tokens hwf).endpointTarget hwf htarget
  rw [← hstays.endpoints] at hnow
  obtain ⟨hvalue, hmessage⟩ := syscallDispatch_session (p := p) hasks.number hasks.ready hasks.running
    hasks.message hsession hnow hr
  refine ⟨hvalue, hmessage, ?_⟩
  intro endpoint target hold
  have hafter : Stays k₀ (userStep p w (.syscall c)).2.kernel :=
    IsTrans.trans _ _ _ hstays (userStep_stays hout w (.syscall c))
  rw [hafter.endpoints]
  exact (hafter.tokens hwf).endpointTarget hwf hold

/-! ### A task that asks for the console -/

/-- The words of a message that asks the session service for the console. -/
def consoleQuestion : Frames :=
  framesOfWords 0x105000 [0, Service.session, Msg.serviceLookup, Service.console, 0, 0, 0, 0]

/-- A task was made, and has the question in its memory. -/
def questionSteps : List UserStep :=
  [.newTask 0, .enter (firstToken 4) 0x1000, .memory consoleQuestion flatTables]

def questionSystem : System (World Unit) UserStep UInt64 :=
  userSystem quietPlatform (· = machine ⟨[], true⟩)

def questionWorld : World Unit := questionSystem.exec ⟨machine ⟨[], true⟩, []⟩ questionSteps

/-- The call that asks. -/
def askConsole : Syscall := ⟨Sys.endpointCall, firstToken 1, 0x100000, 0, 0, 0⟩

theorem outsideStays_quiet : OutsideStays quietPlatform :=
  ⟨fun _ => .of_eq rfl, fun _ => .of_eq rfl, fun _ => .of_eq rfl, fun _ => .of_eq rfl⟩

theorem questionWorld_asks : AsksSession questionWorld.kernel askConsole := by
  refine ⟨rfl, ?_, ?_, ?_, ?_, ?_⟩
  all_goals decide +kernel

/-- The console has the first token. -/
theorem session_answers_console :
    (userStep quietPlatform questionWorld (.syscall askConsole)).1 = 0 ∧
      (messageAt (userStep quietPlatform questionWorld (.syscall askConsole)).2.kernel 0x100000).arg0 =
        firstToken 0 := by
  have hinit : questionSystem.init ⟨machine ⟨[], true⟩, []⟩ := ⟨rfl, rfl⟩
  obtain ⟨log, hrun⟩ := (System.Run.init hinit).exec questionSteps
  have hsession : serviceLookup (machine ⟨[], true⟩).services Service.session = .ok (firstToken 1) := by
    decide +kernel
  have htarget : endpointTarget (machine ⟨[], true⟩).objects (machine ⟨[], true⟩).caps
      (machine ⟨[], true⟩).endpoints (firstToken 1) = .ok (0x100000001, .session) := by
    decide +kernel
  have hr : sessionAnswer (machine ⟨[], true⟩).services
      (messageAt questionWorld.kernel 0x100000).arg0 = .ok (firstToken 0) := by
    decide +kernel
  obtain ⟨hvalue, hmessage, _⟩ := session_answers outsideStays_quiet (grantBoot_machine ⟨[], true⟩).wf hrun
    questionWorld_asks hsession htarget hr
  refine ⟨hvalue, ?_⟩
  have hwhere : askConsole.arg1 = 0x100000 := rfl
  rw [hwhere] at hmessage
  exact congrArg Message.arg0 hmessage

end Scdk
