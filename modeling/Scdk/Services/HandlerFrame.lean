import Scdk.Services.Endpoint

/-! # What the handlers leave alone

    The handlers of the services work on the message, user memory, the trace, the
    open files, the tables of objects and tokens, the rings and the devices.

    * `Steps`: a relation between states that has these steps, for the rings
      apart; `RingSteps`: those of the console on a ring,
    * one lemma for each handler: its step is one of the relation,
    * `endpointCall_steps`: the same for a call, over the code that is not
      modelled. -/

namespace Scdk

variable {δ : Type}

/-- The steps of the handlers, without the rings. -/
structure Steps (p : Platform δ) (R : Kernel δ → Kernel δ → Prop) : Prop where
  msg : ∀ k msg, R k { k with msg := msg }
  frames : ∀ k frames, R k { k with frames := frames }
  trace : ∀ k trace, R k { k with trace := trace }
  files : ∀ k files, R k { k with files := files }
  object : ∀ i, Effect.Within R (K.objectCreate ObjType.file bootCore 0 (.file i) : K δ UInt64)
  cap : ∀ objectId, Effect.Within R (K.capCreate objectId Right.read : K δ UInt64)
  consoleWrite : ∀ bytes, Effect.Within R (K.onDevices fun d => (.ok (), p.consoleWrite d bytes))
  consoleClear : Effect.Within R (K.onDevices p.consoleClear)
  consoleGetInfo : Effect.Within R (K.onDevices p.consoleGetInfo)
  consoleScroll : ∀ lines, Effect.Within R (K.onDevices fun d => p.consoleScroll d lines)
  keyboardPoll : Effect.Within R (K.onDevices p.keyboardPoll)

section handlers

variable {p : Platform δ} {R : Kernel δ → Kernel δ → Prop}

theorem Steps.setMsg (h : Steps p R) (f : Message → Message) :
    Effect.Within R (K.setMsg f : K δ Unit) := fun k => h.msg k _

theorem Steps.emit (h : Steps p R) (ev : Event) : Effect.Within R (K.emit ev : K δ Unit) :=
  fun k => h.trace k _

theorem Steps.store (h : Steps p R) (virt : UInt64) (bytes : List UInt8) :
    Effect.Within R (K.store virt bytes : K δ Unit) := fun k => h.frames k _

theorem Steps.setFile (h : Steps p R) (i : Fin tmpfsMaxOpenFiles) (f : TmpfsFile → TmpfsFile) :
    Effect.Within R (setFile i f : K δ Unit) := fun k => h.files k _

variable [IsPreorder (Kernel δ) R]

theorem Steps.readMsg (_ : Steps p R) : Effect.Within R (K.msg : K δ Message) := Effect.within_ask _

/-! ## The console -/

theorem Steps.userGrantCopyFrom (h : Steps p R) (targetEndpoint grantCap offset length : UInt64) :
    Effect.Within R
      (K.userGrantCopyFrom targetEndpoint grantCap offset length : K δ (List UInt8)) := by
  refine .bind (Effect.within_ask _) fun _ => ?_
  refine .bind Effect.within_get fun _ => ?_
  refine .bind (h.emit _) fun _ => ?_
  exact Effect.within_pure _

theorem Steps.consoleHandleGrantWrite (h : Steps p R) (endpoint : UInt64) :
    Effect.Within R (consoleHandleGrantWrite p endpoint) := by
  refine .bind h.readMsg fun _ => ?_
  refine .bind (Effect.within_require _ _) fun _ => ?_
  refine .bind (Effect.within_require _ _) fun _ => ?_
  refine .bind (h.userGrantCopyFrom _ _ _ _) fun _ => ?_
  exact h.consoleWrite _

theorem Steps.consoleHandleScroll (h : Steps p R) : Effect.Within R (consoleHandleScroll p) := by
  refine .bind h.readMsg fun _ => ?_
  refine .bind (Effect.within_require _ _) fun _ => ?_
  exact h.consoleScroll _

/-- The steps of the console on a ring. -/
structure RingSteps (R : Kernel δ → Kernel δ → Prop) (ring : UInt64) : Prop where
  consume : Effect.Within R (K.ringConsume ring : K δ RingDesc)
  complete : ∀ completion, Effect.Within R (K.ringComplete ring completion : K δ Unit)

omit [IsPreorder (Kernel δ) R] in
theorem ringSteps_of_rings (h : ∀ k rings, R k { k with rings := rings }) (ring : UInt64) :
    RingSteps R ring := ⟨fun k => h k _, fun _ k => h k _⟩

/-- The descriptors of a ring. -/
theorem Steps.consoleRingLoop (h : Steps p R) {ring : UInt64} (hring : RingSteps R ring)
    (endpoint : UInt64) (n : Nat) : Effect.Within R (consoleRingLoop p endpoint ring n) := by
  -- Each round consumes, writes and completes one descriptor.
  induction n with
  | zero => exact Effect.within_pure ()
  | succ n ih =>
    have hconsume : Effect.Within R (consoleConsume ring : K δ RingDesc) := by
      refine .bind hring.consume fun _ => ?_
      refine .bind (h.emit _) fun _ => ?_
      exact Effect.within_pure _
    refine hconsume.bind fun desc => ?_
    have hdesc : Effect.Within R (consoleProcessDesc p endpoint desc) := by
      refine .bind (Effect.within_require _ _) fun _ => ?_
      refine .bind (h.userGrantCopyFrom _ _ _ _) fun _ => ?_
      exact h.consoleWrite _
    refine .bind hdesc.attempt fun _ => ?_
    refine .bind (hring.complete _) fun _ => ?_
    refine .bind (Effect.within_ask _) fun _ => ?_
    exact ih

/-- The message names the ring. -/
theorem Steps.consoleHandleRingProcess (h : Steps p R) (endpoint : UInt64) (k : Kernel δ)
    (hring : RingSteps R k.msg.arg0) : R k (consoleHandleRingProcess p endpoint k).2 := by
  unfold Scdk.consoleHandleRingProcess
  rw [Effect.bind_of_ok (show K.msg k = (.ok k.msg, k) from rfl)]
  refine Effect.Within.bind (Effect.within_require _ _) (fun _ => ?_) k
  refine .bind (Effect.within_require _ _) fun _ => ?_
  refine .bind (Effect.within_ask _) fun _ => ?_
  refine .bind (Effect.within_require _ _) fun _ => ?_
  exact h.consoleRingLoop hring _ _

/-- The console touches rings for one type of message. -/
theorem Steps.consoleEndpointHandler (h : Steps p R) (endpoint : UInt64) (k : Kernel δ)
    (hring : k.msg.type = Msg.ringProcess → RingSteps R k.msg.arg0) :
    R k (consoleEndpointHandler p endpoint k).2 := by
  unfold Scdk.consoleEndpointHandler
  rw [Effect.bind_of_ok (show K.msg k = (.ok k.msg, k) from rfl)]
  split
  · refine Effect.Within.bind Effect.within_get (fun _ => ?_) k
    refine .bind (Effect.within_require _ _) fun _ => ?_
    exact h.consoleWrite _
  split
  · exact h.consoleHandleGrantWrite endpoint k
  split
  · exact h.consoleClear k
  split
  · exact Effect.Within.bind h.consoleGetInfo (fun _ => h.setMsg _) k
  split
  · exact h.consoleHandleScroll k
  split
  · next htype => exact h.consoleHandleRingProcess endpoint k (hring htype)
  · exact refl k

/-! ## Tmpfs -/

theorem Steps.tmpfsHandleOpen (h : Steps p R) : Effect.Within R (tmpfsHandleOpen : K δ Unit) := by
  refine .bind (Effect.within_ask _) fun _ => ?_
  refine .bind (Effect.within_ask _) fun _ => ?_
  refine .bind (Effect.within_ask _) fun i => ?_
  refine .bind (h.object i) fun objectId => ?_
  refine .bind (h.cap objectId).attempt fun r => ?_
  cases r with
  | error e =>
    refine .bind (h.setFile _ _) fun _ => ?_
    exact Effect.within_fail e
  | ok cap =>
    refine .bind (h.setFile _ _) fun _ => ?_
    exact h.setMsg _

theorem Steps.tmpfsHandleListdir (h : Steps p R) :
    Effect.Within R (tmpfsHandleListdir : K δ Unit) := by
  refine .bind h.readMsg fun _ => ?_
  refine .bind (Effect.within_require _ _) fun _ => ?_
  refine .bind (Effect.within_ask _) fun _ => ?_
  refine .bind (Effect.within_ask _) fun _ => ?_
  refine .bind Effect.within_get fun _ => ?_
  refine .bind (h.store _ _) fun _ => ?_
  refine .bind (h.store _ _) fun _ => ?_
  refine .bind (h.emit _) fun _ => ?_
  refine .bind (Effect.within_ask _) fun _ => ?_
  exact h.setMsg _

theorem Steps.tmpfsHandleRead (h : Steps p R) : Effect.Within R (tmpfsHandleRead : K δ Unit) := by
  refine .bind h.readMsg fun _ => ?_
  refine .bind (Effect.within_require _ _) fun _ => ?_
  refine .bind (Effect.within_ask _) fun _ => ?_
  refine .bind Effect.within_get fun _ => ?_
  refine .ite (h.setMsg _) ?_
  refine .bind (Effect.within_require _ _) fun _ => ?_
  refine .bind (h.store _ _) fun _ => ?_
  refine .bind (h.emit _) fun _ => ?_
  exact h.setMsg _

theorem Steps.tmpfsEndpointHandler (h : Steps p R) :
    Effect.Within R (tmpfsEndpointHandler : K δ Unit) := by
  refine .bind h.readMsg fun msg => ?_
  refine .ite h.tmpfsHandleOpen (.ite ?_ (.ite h.tmpfsHandleListdir (.ite h.tmpfsHandleRead
    (.ite ?_ (Effect.within_fail _)))))
  · refine .bind (Effect.within_ask _) fun _ => ?_
    refine .bind (Effect.within_ask _) fun _ => ?_
    exact h.setMsg _
  · refine .bind h.readMsg fun _ => ?_
    refine .bind (Effect.within_ask _) fun _ => ?_
    exact h.setFile _ _

/-! ## The other services -/

theorem Steps.sessionEndpointHandler (h : Steps p R) :
    Effect.Within R (sessionEndpointHandler : K δ Unit) := by
  refine .bind h.readMsg fun msg => ?_
  refine .ite ?_ (Effect.within_fail _)
  refine .bind (Effect.within_require _ _) fun _ => ?_
  refine .bind (Effect.within_ask _) fun _ => ?_
  exact h.setMsg _

theorem Steps.ttyEndpointHandler (h : Steps p R) : Effect.Within R (ttyEndpointHandler p) := by
  refine .bind h.readMsg fun msg => ?_
  refine .ite ?_ (.ite (h.setMsg _) (Effect.within_fail _))
  refine .bind h.keyboardPoll fun _ => ?_
  exact h.setMsg _

/-- The steps of the code that is not modelled, where a message of a type reaches
    it. -/
structure OutsideSteps (p : Platform δ) (R : Kernel δ → Kernel δ → Prop) (type : UInt64) : Prop where
  spawn : type = Msg.processSpawn → Effect.Within R (K.outside p.spawn)
  devmgr : type = Msg.deviceRegister ∨ type = Msg.deviceQueueBind →
    Effect.Within R (K.outside p.devmgr)
  grantTest : type = Msg.read → Effect.Within R (K.outside p.grantTest)

/-- Every handler but that of the VFS. -/
theorem Steps.runHandler (h : Steps p R) (forward : K δ Unit) {handler : Handler}
    (endpoint : UInt64) (k : Kernel δ) (hvfs : handler ≠ .vfs) (hout : OutsideSteps p R k.msg.type)
    (hring : k.msg.type = Msg.ringProcess → RingSteps R k.msg.arg0) :
    R k (runHandler p forward handler endpoint k).2 := by
  -- A handler that goes outside for some types of messages.
  have hbranch : ∀ (q : Prop) [Decidable q] (m m' : K δ Unit), (q → Effect.Within R m) →
      Effect.Within R m' → R k ((if q then m else m') k).2 := by
    intro q _ m m' hm hm'
    split
    · next hq => exact hm hq k
    · exact hm' k
  cases handler with
  | console => exact h.consoleEndpointHandler endpoint k hring
  | tmpfs => exact h.tmpfsEndpointHandler k
  | vfs => exact absurd rfl hvfs
  | proc =>
    exact hbranch _ _ _ hout.spawn (.ite (Effect.within_pure ()) (Effect.within_fail _))
  | grantTest => exact hbranch _ _ _ hout.grantTest (Effect.within_fail _)
  | devmgr => exact hbranch _ _ _ hout.devmgr (Effect.within_fail _)
  | tty => exact h.ttyEndpointHandler k
  | session => exact h.sessionEndpointHandler k
  | accept => exact refl k

/-- The step of a call. -/
theorem endpointCall_steps (h : Steps p R) (endpoint : UInt64) (k : Kernel δ)
    (hout : OutsideSteps p R k.msg.type)
    (hring : k.msg.type = Msg.ringProcess → RingSteps R k.msg.arg0) :
    R k (endpointCall p endpoint k).2 := by
  apply endpointCall_frame h.msg
  intro e objectId handler forward target _ _ hvfs
  exact h.runHandler forward e (k.toTarget target) hvfs hout hring

end handlers

end Scdk
