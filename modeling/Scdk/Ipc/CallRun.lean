import Scdk.Core.RingBatch
import Scdk.Ipc.UserIpc

/-! # What an endpoint call of a task does

    The parts of `scdk_sys_endpoint_call` around the call itself only copy the
    message, validate ranges of user memory and mark faults.

    * `Quiet`: the steps of these parts, which leave all tables alone,
    * `Prepared`: the state in which the endpoint is called,
    * `sysEndpointCall_run`: the system call is quiet, or it is the endpoint call
      from a prepared state between quiet parts. -/

namespace Scdk

variable {δ : Type}

/-! ## Quiet steps -/

/-- Only the message, user memory, the records of tasks and the trace change,
    and the trace grows by validations. -/
structure Quiet (k k' : Kernel δ) : Prop where
  objects : k'.objects = k.objects
  caps : k'.caps = k.caps
  endpoints : k'.endpoints = k.endpoints
  services : k'.services = k.services
  rings : k'.rings = k.rings
  userRings : k'.userRings = k.userRings
  grants : k'.grants = k.grants
  files : k'.files = k.files
  root : k'.rootTmpfsEndpoint = k.rootTmpfsEndpoint
  vmm : k'.vmm = k.vmm
  current : k'.tasks.currentUserTask = k.tasks.currentUserTask
  ready : k'.syscall.ready = k.syscall.ready
  trace : ∃ events, Validations events ∧ k'.trace = k.trace ++ events

instance : IsPreorder (Kernel δ) Quiet where
  refl := fun k =>
    ⟨rfl, rfl, rfl, rfl, rfl, rfl, rfl, rfl, rfl, rfl, rfl, rfl, [], validations_nil,
      (List.append_nil _).symm⟩
  trans := by
    intro k k' k'' h h'
    obtain ⟨events, hev, htrace⟩ := h.trace
    obtain ⟨events', hev', htrace'⟩ := h'.trace
    exact
      { objects := h'.objects.trans h.objects
        caps := h'.caps.trans h.caps
        endpoints := h'.endpoints.trans h.endpoints
        services := h'.services.trans h.services
        rings := h'.rings.trans h.rings
        userRings := h'.userRings.trans h.userRings
        grants := h'.grants.trans h.grants
        files := h'.files.trans h.files
        root := h'.root.trans h.root
        vmm := h'.vmm.trans h.vmm
        current := h'.current.trans h.current
        ready := h'.ready.trans h.ready
        trace := ⟨events ++ events', hev.append hev', by
          rw [htrace', htrace, List.append_assoc]⟩ }

theorem Quiet.trans {k k' k'' : Kernel δ} (h : Quiet k k') (h' : Quiet k' k'') : Quiet k k'' :=
  IsTrans.trans k k' k'' h h'

theorem quiet_after (k : Kernel δ) {events : List Event} (h : Validations events) :
    Quiet k (k.after k.rings k.devices events) :=
  ⟨rfl, rfl, rfl, rfl, rfl, rfl, rfl, rfl, rfl, rfl, rfl, rfl, events, h, rfl⟩

theorem quiet_setMsg (f : Message → Message) : Effect.Within Quiet (K.setMsg f : K δ Unit) :=
  fun _ => ⟨rfl, rfl, rfl, rfl, rfl, rfl, rfl, rfl, rfl, rfl, rfl, rfl, [], validations_nil,
    (List.append_nil _).symm⟩

theorem quiet_store (virt : UInt64) (bytes : List UInt8) :
    Effect.Within Quiet (K.store virt bytes : K δ Unit) :=
  fun _ => ⟨rfl, rfl, rfl, rfl, rfl, rfl, rfl, rfl, rfl, rfl, rfl, rfl, [], validations_nil,
    (List.append_nil _).symm⟩

theorem quiet_markUserFault (status : Err) :
    Effect.Within Quiet (K.markUserFault status : K δ Unit) :=
  fun k => ⟨rfl, rfl, rfl, rfl, rfl, rfl, rfl, rfl, rfl, rfl, taskFaultCurrent_current k.tasks _,
    rfl, [], validations_nil, (List.append_nil _).symm⟩

theorem quiet_userValidateRange (ptr size : UInt64) (writable : Bool) :
    Effect.Within Quiet (K.userValidateRange ptr size writable : K δ Unit) := by
  intro k
  rw [K.userValidateRange_run]
  cases userValidateRange k.vmm ptr size writable with
  | error e => exact refl k
  | ok u => exact quiet_after k (validations_nil.cons ptr size writable)

theorem quiet_userCopyTo (ptr : UInt64) (bytes : List UInt8) :
    Effect.Within Quiet (K.userCopyTo ptr bytes : K δ Unit) := by
  refine .bind (Effect.within_require _ _) fun _ => ?_
  refine .bind (quiet_userValidateRange _ _ _) fun _ => ?_
  exact quiet_store ptr bytes

theorem quiet_refuse {α : Type} (ptr : UInt64) (status : Err) {fault : K δ Unit}
    (hfault : Effect.Within Quiet fault) :
    Effect.Within Quiet (refuse ptr status fault : K δ α) := by
  refine .bind (quiet_setMsg _) fun _ => ?_
  refine .bind Effect.within_get fun k => ?_
  refine .bind (quiet_userCopyTo ptr _).attempt fun _ => ?_
  refine .bind hfault fun _ => ?_
  exact Effect.within_fail status

/-- A refusal answers its status. -/
theorem refuse_status {α : Type} (ptr : UInt64) (status : Err) {fault : K δ Unit}
    (hfault : ∀ k, (fault k).1 = .ok ()) (k : Kernel δ) :
    (refuse ptr status fault k : Except Err α × Kernel δ).1 = .error status := by
  unfold refuse
  rw [Effect.bind_of_ok (show K.setMsg _ k = (.ok (), _) from rfl),
    Effect.bind_of_ok Effect.get_run, Effect.attempt_bind, Effect.bind_of_ok]
  · rfl
  · exact Prod.ext (hfault _) rfl

/-! ## Preparing the message -/

/-- The messages whose destination is validated. -/
def Message.checksDestination (m : Message) : Prop :=
  m.type = Msg.listdir ∨ (m.type = Msg.read ∧ m.target = Service.vfs)

/-- The message was accepted in state `k`, and the endpoint is called in `k'`. -/
structure Accepted (k k' : Kernel δ) (events : List Event) : Prop where
  quiet : Quiet k k'
  msg : ∃ arg0, k'.msg = { k.msg with arg0 := arg0 }
  plain : ¬ k.msg.hasText → k'.msg = k.msg
  type : k.msg.hasText ∨ k.msg.type = Msg.read ∨ k.msg.isPlain
  trace : k'.trace = k.trace ++ events
  validations : Validations events
  checked : k.msg.checksDestination →
    .validated k.msg.arg2 k.msg.arg3 true ∈ events ∧ UserRange k.msg.arg2 k.msg.arg3
  unchecked : ¬ k.msg.checksDestination → ∀ ptr size, .validated ptr size true ∉ events

section prepare

variable {k : Kernel δ}

/-- The state with the text of the message copied to a buffer. -/
def Kernel.textCopied (k : Kernel δ) (bytes : List UInt8) (buffer : UInt64) : Kernel δ :=
  { k.after k.rings k.devices [.validated k.msg.arg0 k.msg.arg1 false] with
    payload := bytes, msg := { k.msg with arg0 := buffer } }

/-- The state with the destination of the message validated. -/
def Kernel.destinationValidated (k : Kernel δ) : Kernel δ :=
  k.after k.rings k.devices [.validated k.msg.arg2 k.msg.arg3 true]

/-- The text of the message is copied in, or the message is refused. -/
theorem prepareUserBufferArg_run (htext : k.msg.hasText) (buffer : UInt64) :
    (∃ e, prepareUserBufferArg buffer k = (.error e, k)) ∨
    ∃ bytes, prepareUserBufferArg buffer k = (.ok (), k.textCopied bytes buffer) := by
  unfold prepareUserBufferArg
  rw [Effect.bind_of_ok (show K.msg k = (.ok k.msg, k) from rfl),
    Effect.bind_of_ok (Effect.require_pos htext _)]
  by_cases hargs : k.msg.arg0 ≠ 0 ∧ k.msg.arg1 ≠ 0 ∧ k.msg.arg1 ≤ userIpcMaxWrite
  · rw [Effect.bind_of_ok (Effect.require_pos hargs _)]
    rcases K.userCopyFrom_run k k.msg.arg0 k.msg.arg1 with ⟨e, hcopy⟩ | ⟨_, _, hcopy⟩
    · exact .inl ⟨e, Effect.bind_of_error hcopy _⟩
    · rw [Effect.bind_of_ok hcopy]
      exact .inr ⟨_, rfl⟩
  · exact .inl ⟨_, Effect.bind_of_error (Effect.require_neg hargs _) _⟩

/-- The destination is validated, or the message is refused. -/
theorem validateDestination_run (ptr : UInt64) (k : Kernel δ) :
    (∃ e, (validateDestination ptr k).1 = .error e ∧ Quiet k (validateDestination ptr k).2) ∨
    (userValidateRange k.vmm k.msg.arg2 k.msg.arg3 true = .ok () ∧
      validateDestination ptr k = (.ok (), k.destinationValidated)) := by
  unfold validateDestination
  rw [Effect.bind_of_ok (show K.msg k = (.ok k.msg, k) from rfl), Effect.attempt_bind,
    K.userValidateRange_run]
  cases hval : userValidateRange k.vmm k.msg.arg2 k.msg.arg3 true with
  | error e =>
    exact .inl ⟨e, refuse_status ptr e (fun _ => rfl) k,
      quiet_refuse ptr e (quiet_markUserFault e) k⟩
  | ok u => exact .inr ⟨rfl, rfl⟩

theorem Message.type_of_hasText {m : Message} (h : m.hasText) : m.type ≠ Msg.read := by
  intro hread
  rcases h with h | h | h | h | h
  all_goals
    rw [hread] at h
    exact absurd h (by decide)

theorem not_checksDestination_of_hasText (htext : k.msg.hasText) (hlist : k.msg.type ≠ Msg.listdir) :
    ¬ k.msg.checksDestination := by
  intro h
  rcases h with h | h
  · exact hlist h
  · exact Message.type_of_hasText htext h.1

/-- A message that is delivered as it is. -/
theorem accepted_plain (hdest : ¬ k.msg.checksDestination)
    (htype : k.msg.type = Msg.read ∨ k.msg.isPlain) : Accepted k k [] where
  quiet := refl k
  msg := ⟨k.msg.arg0, rfl⟩
  plain := fun _ => rfl
  type := .inr htype
  trace := (List.append_nil _).symm
  validations := validations_nil
  checked := fun h => absurd h hdest
  unchecked := fun _ _ _ => List.not_mem_nil

theorem quiet_textCopied (k : Kernel δ) (bytes : List UInt8) (buffer : UInt64) :
    Quiet k (k.textCopied bytes buffer) :=
  ⟨rfl, rfl, rfl, rfl, rfl, rfl, rfl, rfl, rfl, rfl, rfl, rfl, _,
    validations_nil.cons k.msg.arg0 k.msg.arg1 false, rfl⟩

/-- A message with a text, and no destination. -/
theorem accepted_text (htext : k.msg.hasText) (hlist : k.msg.type ≠ Msg.listdir) (bytes : List UInt8)
    (buffer : UInt64) :
    Accepted k (k.textCopied bytes buffer) [.validated k.msg.arg0 k.msg.arg1 false] where
  quiet := quiet_textCopied k bytes buffer
  msg := ⟨buffer, rfl⟩
  plain := fun h => absurd htext h
  type := .inl htext
  trace := rfl
  validations := validations_nil.cons k.msg.arg0 k.msg.arg1 false
  checked := fun h => absurd h (not_checksDestination_of_hasText htext hlist)
  unchecked := fun _ _ _ hmem => by simp at hmem

/-- A listing has a text and a destination. -/
theorem accepted_listdir (htext : k.msg.hasText) (hlist : k.msg.type = Msg.listdir)
    (hval : userValidateRange k.vmm k.msg.arg2 k.msg.arg3 true = .ok ()) (bytes : List UInt8)
    (buffer : UInt64) :
    Accepted k (k.textCopied bytes buffer).destinationValidated
      ([.validated k.msg.arg0 k.msg.arg1 false] ++ [.validated k.msg.arg2 k.msg.arg3 true]) where
  quiet := (quiet_textCopied k bytes buffer).trans (quiet_after _ (validations_nil.cons _ _ true))
  msg := ⟨buffer, rfl⟩
  plain := fun h => absurd htext h
  type := .inl htext
  trace := List.append_assoc _ _ _
  validations := (validations_nil.cons _ _ false).append (validations_nil.cons _ _ true)
  checked := fun _ => ⟨by simp, ((userValidateRange_eq_ok _ _ _ _).mp hval).1⟩
  unchecked := fun h => absurd (.inl hlist) h

/-- A read from the VFS has a destination only. -/
theorem accepted_read (hread : k.msg.type = Msg.read) (hvfs : k.msg.target = Service.vfs)
    (hval : userValidateRange k.vmm k.msg.arg2 k.msg.arg3 true = .ok ()) :
    Accepted k k.destinationValidated [.validated k.msg.arg2 k.msg.arg3 true] where
  quiet := quiet_after k (validations_nil.cons _ _ true)
  msg := ⟨k.msg.arg0, rfl⟩
  plain := fun _ => rfl
  type := .inr (.inl hread)
  trace := rfl
  validations := validations_nil.cons _ _ true
  checked := fun _ => ⟨by simp, ((userValidateRange_eq_ok _ _ _ _).mp hval).1⟩
  unchecked := fun h => absurd (.inr ⟨hread, hvfs⟩) h

/-- The `switch` of `scdk_sys_endpoint_call` refuses the message, or accepts it. -/
theorem prepareMessage_run (ptr buffer : UInt64) (k : Kernel δ) :
    (∃ e, (prepareMessage ptr buffer k).1 = .error e ∧ Quiet k (prepareMessage ptr buffer k).2) ∨
    ((prepareMessage ptr buffer k).1 = .ok () ∧
      ∃ events, Accepted k (prepareMessage ptr buffer k).2 events) := by
  unfold prepareMessage
  rw [Effect.bind_of_ok (show K.msg k = (.ok k.msg, k) from rfl)]
  by_cases htext : k.msg.hasText
  · rw [if_pos htext, Effect.attempt_bind]
    rcases prepareUserBufferArg_run htext buffer with ⟨e, hbuf⟩ | ⟨bytes, hbuf⟩
    · rw [hbuf]
      left
      refine ⟨e, refuse_status ptr e ?_ k, quiet_refuse ptr e ?_ k⟩
      · intro k
        split
        · rfl
        · rfl
      · split
        · exact quiet_markUserFault e
        · exact Effect.within_pure ()
    · rw [hbuf]
      dsimp only
      by_cases hlist : k.msg.type = Msg.listdir
      · rw [if_pos hlist]
        rcases validateDestination_run ptr (k.textCopied bytes buffer) with
          ⟨e, herr, hq⟩ | ⟨hval, hrun⟩
        · exact .inl ⟨e, herr, (quiet_textCopied k bytes buffer).trans hq⟩
        · rw [hrun]
          exact .inr ⟨rfl, _, accepted_listdir htext hlist hval bytes buffer⟩
      · rw [if_neg hlist]
        exact .inr ⟨rfl, _, accepted_text htext hlist bytes buffer⟩
  · rw [if_neg htext]
    by_cases hread : k.msg.type = Msg.read
    · rw [if_pos hread]
      by_cases hvfs : k.msg.target = Service.vfs
      · rw [if_pos hvfs]
        rcases validateDestination_run ptr k with ⟨e, herr, hq⟩ | ⟨hval, hrun⟩
        · exact .inl ⟨e, herr, hq⟩
        · rw [hrun]
          exact .inr ⟨rfl, _, accepted_read hread hvfs hval⟩
      · rw [if_neg hvfs]
        right
        refine ⟨rfl, [], accepted_plain ?_ (.inl hread)⟩
        intro h
        rcases h with h | h
        · rw [hread] at h
          exact absurd h (by decide)
        · exact hvfs h.2
    · rw [if_neg hread]
      by_cases hp : k.msg.isPlain
      · rw [if_pos hp]
        right
        refine ⟨rfl, [], accepted_plain ?_ (.inr hp)⟩
        intro h
        rcases h with h | h
        · exact htext (.inr (.inr (.inr (.inr h))))
        · exact hread h.1
      · rw [if_neg hp]
        exact .inl ⟨_, refuse_status ptr _ (fun _ => rfl) k,
          quiet_refuse ptr _ (Effect.within_pure ()) k⟩

end prepare

/-! ## The system call -/

/-- The message in user memory at `ptr`. -/
def messageAt (k : Kernel δ) (ptr : UInt64) : Message :=
  Message.ofBytes (userBytes k.vmm k.frames ptr messageSize.toNat)

/-- The state in which the message of the system call is looked at. -/
def Kernel.withMessage (k : Kernel δ) (ptr : UInt64) : Kernel δ :=
  { k.after k.rings k.devices [.validated ptr messageSize false] with msg := messageAt k ptr }

/-- The system call of a task calls its endpoint in state `k'`. -/
structure Prepared (k : Kernel δ) (endpointCap ptr : UInt64) (k' : Kernel δ)
    (events : List Event) : Prop where
  endpoint : ∃ entry, capCheck k.objects k.caps endpointCap Right.send ObjType.endpoint = .ok entry
  message : userValidateRange k.vmm ptr messageSize false = .ok ()
  target : validateUserMessageTarget (k.withMessage ptr) endpointCap = .ok ()
  accepted : Accepted (k.withMessage ptr) k' events

/-- What follows the call of the endpoint is quiet. -/
theorem callAndReply_run (p : Platform δ) (endpointCap ptr : UInt64) (k : Kernel δ) :
    Quiet (endpointCall p endpointCap k).2 (callAndReply p endpointCap ptr k).2 := by
  unfold callAndReply
  rw [Effect.attempt_bind]
  refine Effect.Within.bind (quiet_setMsg _) (fun _ => ?_) _
  refine .bind Effect.within_get fun k => ?_
  refine .bind (quiet_userCopyTo ptr _).attempt fun r => ?_
  cases r with
  | error _ => exact Effect.within_fail _
  | ok _ => exact Effect.within_ask _

/-- The system call fails with a quiet step, or goes on with the message copied
    in. -/
theorem sysEndpointCall_start (p : Platform δ) (endpointCap ptr buffer : UInt64) (k : Kernel δ) :
    Quiet k (sysEndpointCall p endpointCap ptr buffer k).2 ∨
    ((∃ entry, capCheck k.objects k.caps endpointCap Right.send ObjType.endpoint = .ok entry) ∧
      userValidateRange k.vmm ptr messageSize false = .ok () ∧
      sysEndpointCall p endpointCap ptr buffer k =
        checkAndCall p endpointCap ptr buffer (k.withMessage ptr)) := by
  have hfail : ∀ e : Err, Effect.Within Quiet
      (K.markUserFault e >>= fun _ => Effect.fail e : K δ Unit) :=
    fun e => .bind (quiet_markUserFault e) fun _ => Effect.within_fail e
  unfold sysEndpointCall
  rw [K.capCheck, Effect.ask_attempt_bind]
  cases hcheck : capCheck k.objects k.caps endpointCap Right.send ObjType.endpoint with
  | error e => exact .inl (hfail e k)
  | ok entry =>
    dsimp only
    rw [Effect.attempt_bind]
    rcases K.userCopyFrom_run k ptr messageSize with ⟨e, hcopy⟩ | ⟨_, hval, hcopy⟩
    · rw [hcopy]
      exact .inl (hfail e k)
    · rw [hcopy]
      exact .inr ⟨⟨entry, rfl⟩, hval, rfl⟩

/-- The message copied in is refused, or it is accepted and the endpoint is
    called. -/
theorem checkAndCall_run (p : Platform δ) (endpointCap ptr buffer : UInt64) (k : Kernel δ) :
    Quiet k (checkAndCall p endpointCap ptr buffer k).2 ∨
    ∃ k' events, validateUserMessageTarget k endpointCap = .ok () ∧ Accepted k k' events ∧
      Quiet (endpointCall p endpointCap k').2 (checkAndCall p endpointCap ptr buffer k).2 := by
  unfold checkAndCall
  rw [Effect.ask_attempt_bind]
  cases htarget : validateUserMessageTarget k endpointCap with
  | error e => exact .inl (quiet_refuse ptr e (quiet_markUserFault e) _)
  | ok u =>
    dsimp only
    rcases hprep : prepareMessage ptr buffer k with ⟨r, k'⟩
    rcases prepareMessage_run ptr buffer k with ⟨e, herr, hq⟩ | ⟨hok, events, hacc⟩
    · rw [hprep] at herr hq
      obtain rfl : r = .error e := herr
      rw [Effect.bind_of_error hprep]
      exact .inl hq
    · rw [hprep] at hok hacc
      obtain rfl : r = .ok () := hok
      rw [Effect.bind_of_ok hprep]
      exact .inr ⟨k', events, rfl, hacc, callAndReply_run p endpointCap ptr k'⟩

/-- The system call is quiet, or it calls the endpoint between quiet parts. -/
theorem sysEndpointCall_run (p : Platform δ) (endpointCap ptr buffer : UInt64) (k : Kernel δ) :
    Quiet k (sysEndpointCall p endpointCap ptr buffer k).2 ∨
    ∃ k' events, Prepared k endpointCap ptr k' events ∧
      Quiet (endpointCall p endpointCap k').2 (sysEndpointCall p endpointCap ptr buffer k).2 := by
  rcases sysEndpointCall_start p endpointCap ptr buffer k with hq | ⟨hcheck, hval, hrun⟩
  · exact .inl hq
  · rw [hrun]
    have hquiet : Quiet k (k.withMessage ptr) :=
      ⟨rfl, rfl, rfl, rfl, rfl, rfl, rfl, rfl, rfl, rfl, rfl, rfl, _,
        validations_nil.cons ptr messageSize false, rfl⟩
    rcases checkAndCall_run p endpointCap ptr buffer (k.withMessage ptr) with
      hq | ⟨k', events, htarget, hacc, hq⟩
    · exact .inl (hquiet.trans hq)
    · exact .inr ⟨k', events, ⟨hcheck, hval, htarget, hacc⟩, hq⟩

end Scdk
