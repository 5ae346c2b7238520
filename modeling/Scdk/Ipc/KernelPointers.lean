import Scdk.Boot
import Scdk.Ipc.CallRun
import Scdk.Ipc.MessageArgument

/-! # Kernel addresses in user messages

    `scdk_sys_endpoint_call` copies the text of a message to a buffer of its own,
    puts the address of the buffer in the message, and copies the message back
    when the service has answered.

    * `HidesBuffer`: two runs that differ in the address of the buffer leave the
      same bytes in the message of the task,
    * `TextAccepted`: the call gets as far as to put the address in the message;
      otherwise the address is not used at all (`sysEndpointCall_of_not_accepted`),
    * `Leaks`: nobody takes the address out again, and the message is copied back,
    * `hides_buffer_iff`: the two runs differ exactly then. -/

namespace Scdk

variable {δ : Type}

/-! ## The message in user memory -/

/-- The bytes of the message at `ptr`. -/
def messageBytes (k : Kernel δ) (ptr : UInt64) : List UInt8 :=
  userBytes k.vmm k.frames ptr messageSize.toNat

theorem Message.toBytes_length (m : Message) : m.toBytes.length = messageSize.toNat := rfl

/-- The low byte of `arg0`. -/
theorem Message.toBytes_arg0 (m : Message) : m.toBytes[24]? = some (m.arg0 >>> 0).toUInt8 := rfl

/-- The message can be written. -/
def Writable (v : Vmm) (ptr : UInt64) : Prop := userValidateRange v ptr messageSize true = .ok ()

instance (v : Vmm) (ptr : UInt64) : Decidable (Writable v ptr) :=
  inferInstanceAs (Decidable (_ = _))

/-- What a copy of a message to user memory leaves there. -/
theorem messageBytes_copy (k : Kernel δ) (m : Message) (ptr : UInt64) :
    messageBytes (K.userCopyTo ptr m.toBytes k).2 ptr =
      if Writable k.vmm ptr then m.toBytes else messageBytes k ptr := by
  have hne : m.toBytes ≠ [] := by
    intro h
    have hlen := m.toBytes_length
    rw [h] at hlen
    exact absurd hlen (by decide)
  have hsize : UInt64.ofNat m.toBytes.length = messageSize := rfl
  unfold K.userCopyTo
  rw [Effect.bind_of_ok (Effect.require_pos hne _), Effect.bind_run, hsize, K.userValidateRange_run]
  by_cases hwrite : Writable k.vmm ptr
  · have hval : userValidateRange k.vmm ptr messageSize true = .ok () := hwrite
    rw [if_pos hwrite, hval]
    exact userBytes_storeBytes (by rw [m.toBytes_length]; decide) (by rw [hsize]; exact hval)
  · rw [if_neg hwrite]
    unfold Writable at hwrite
    cases hval : userValidateRange k.vmm ptr messageSize true with
    | error e => rfl
    | ok u => exact absurd hval hwrite

/-- Only the page tables and user memory decide what is in the message. -/
theorem messageBytes_congr {k k' : Kernel δ} (hvmm : k'.vmm = k.vmm) (hframes : k'.frames = k.frames)
    (ptr : UInt64) : messageBytes k' ptr = messageBytes k ptr := by
  unfold messageBytes
  rw [hvmm, hframes]

/-- What a refusal leaves in the message. -/
theorem messageBytes_refuse {α : Type} (ptr : UInt64) (status : Err) {fault : K δ Unit}
    (hfault : ∀ k, (fault k).2.vmm = k.vmm ∧ (fault k).2.frames = k.frames) (k : Kernel δ) :
    messageBytes (refuse ptr status fault k : Except Err α × Kernel δ).2 ptr =
      if Writable k.vmm ptr then ({ k.msg with status := status.word } : Message).toBytes
      else messageBytes k ptr := by
  set k₁ : Kernel δ := k.withStatus status.word with hk₁
  have hrun : (refuse ptr status fault : K δ α) k =
      (fault >>= fun _ => Effect.fail status) (K.userCopyTo ptr k₁.msg.toBytes k₁).2 := rfl
  have hlast : ∀ k₂ : Kernel δ,
      ((fault >>= fun _ => (Effect.fail status : K δ α)) k₂).2 = (fault k₂).2 := by
    intro k₂
    rw [Effect.bind_run]
    rcases fault k₂ with ⟨r, k₃⟩
    cases r with
    | error e => rfl
    | ok u => rfl
  rw [hrun, hlast, messageBytes_congr (hfault _).1 (hfault _).2, messageBytes_copy]
  rfl

/-- What the call of the endpoint and the reply leave in the message. -/
theorem messageBytes_callAndReply (p : Platform δ) (endpoint ptr : UInt64) (k : Kernel δ) :
    messageBytes (callAndReply p endpoint ptr k).2 ptr =
      if Writable (endpointCall p endpoint k).2.vmm ptr then
        ({ (endpointCall p endpoint k).2.msg with
          status := statusWord (endpointCall p endpoint k).1 } : Message).toBytes
      else messageBytes (endpointCall p endpoint k).2 ptr := by
  unfold callAndReply
  rw [Effect.attempt_bind]
  rcases endpointCall p endpoint k with ⟨status, k₁⟩
  set k₂ : Kernel δ := k₁.withStatus (statusWord status) with hk₂
  have hcopy := messageBytes_copy k₂ k₂.msg ptr
  rw [Effect.bind_of_ok (show K.setMsg _ k₁ = (.ok (), k₂) from rfl),
    Effect.bind_of_ok Effect.get_run, Effect.attempt_bind]
  generalize K.userCopyTo ptr k₂.msg.toBytes k₂ = out at hcopy ⊢
  rcases out with ⟨r, k₃⟩
  cases r with
  | error e => exact hcopy
  | ok u => exact hcopy

/-! ## The address of the buffer -/

/-- The text of the message of the state can be copied in. -/
structure TextOk (k : Kernel δ) : Prop where
  args : k.msg.arg0 ≠ 0 ∧ k.msg.arg1 ≠ 0 ∧ k.msg.arg1 ≤ userIpcMaxWrite
  readable : userValidateRange k.vmm k.msg.arg0 k.msg.arg1 false = .ok ()

/-- The state with the text copied to a buffer, and the message pointing there. -/
def Kernel.withText (k : Kernel δ) (buffer : UInt64) : Kernel δ :=
  { k.after k.rings k.devices [.validated k.msg.arg0 k.msg.arg1 false] with
    payload := userBytes k.vmm k.frames k.msg.arg0 k.msg.arg1.toNat
    msg := { k.msg with arg0 := buffer } }

/-- The message in user memory is accepted up to its text, so that the address of
    the buffer is put in it. -/
structure TextAccepted (endpoint ptr : UInt64) (k : Kernel δ) : Prop where
  capability : ∃ entry, capCheck k.objects k.caps endpoint Right.send ObjType.endpoint = .ok entry
  message : userValidateRange k.vmm ptr messageSize false = .ok ()
  target : validateUserMessageTarget (k.withMessage ptr) endpoint = .ok ()
  hasText : (messageAt k ptr).hasText
  text : TextOk (k.withMessage ptr)

/-- What follows once the text is copied in. -/
def afterText (p : Platform δ) (endpoint ptr : UInt64) : K δ Unit := do
  let msg ← K.msg
  (if msg.type = Msg.listdir then validateDestination ptr else pure () : K δ Unit)
  callAndReply p endpoint ptr

section accepted

variable {k : Kernel δ}

theorem prepareUserBufferArg_of_ok (htext : k.msg.hasText) (h : TextOk k) (buffer : UInt64) :
    prepareUserBufferArg buffer k = (.ok (), k.withText buffer) := by
  unfold prepareUserBufferArg
  rw [Effect.bind_of_ok (show K.msg k = (.ok k.msg, k) from rfl),
    Effect.bind_of_ok (Effect.require_pos htext _), Effect.bind_of_ok (Effect.require_pos h.args _)]
  rcases K.userCopyFrom_run k k.msg.arg0 k.msg.arg1 with ⟨e, hcopy⟩ | ⟨_, _, hcopy⟩
  · have hreadable := h.readable
    unfold K.userCopyFrom at hcopy
    rw [Effect.bind_of_ok (Effect.require_pos h.args.2.1 _), Effect.bind_run,
      K.userValidateRange_run, hreadable] at hcopy
    cases congrArg Prod.fst hcopy
  · rw [Effect.bind_of_ok hcopy]
    rfl

/-- Without a text the address is not used. -/
theorem prepareUserBufferArg_of_not_ok (htext : k.msg.hasText) (h : ¬ TextOk k) :
    ∃ e, ∀ buffer, prepareUserBufferArg buffer k = (.error e, k) := by
  unfold prepareUserBufferArg
  by_cases hargs : k.msg.arg0 ≠ 0 ∧ k.msg.arg1 ≠ 0 ∧ k.msg.arg1 ≤ userIpcMaxWrite
  · rcases K.userCopyFrom_run k k.msg.arg0 k.msg.arg1 with ⟨e, hcopy⟩ | ⟨_, hval, _⟩
    · refine ⟨e, fun buffer => ?_⟩
      rw [Effect.bind_of_ok (show K.msg k = (.ok k.msg, k) from rfl),
        Effect.bind_of_ok (Effect.require_pos htext _),
        Effect.bind_of_ok (Effect.require_pos hargs _), Effect.bind_of_error hcopy]
    · exact absurd ⟨hargs, hval⟩ h
  · refine ⟨.bounds, fun buffer => ?_⟩
    rw [Effect.bind_of_ok (show K.msg k = (.ok k.msg, k) from rfl),
      Effect.bind_of_ok (Effect.require_pos htext _),
      Effect.bind_of_error (Effect.require_neg hargs _)]

theorem prepareMessage_of_text (htext : k.msg.hasText) (h : TextOk k) (ptr buffer : UInt64) :
    prepareMessage ptr buffer k =
      (if k.msg.type = Msg.listdir then validateDestination ptr else pure () : K δ Unit)
        (k.withText buffer) := by
  unfold prepareMessage
  rw [Effect.bind_of_ok (show K.msg k = (.ok k.msg, k) from rfl), if_pos htext,
    Effect.attempt_bind, prepareUserBufferArg_of_ok htext h]

/-- The `switch` treats a message without a text in the same way for all buffers. -/
theorem prepareMessage_of_not_text (h : ¬ (k.msg.hasText ∧ TextOk k)) (ptr b b' : UInt64) :
    prepareMessage ptr b k = prepareMessage ptr b' k := by
  unfold prepareMessage
  rw [Effect.bind_of_ok (show K.msg k = (.ok k.msg, k) from rfl),
    Effect.bind_of_ok (show K.msg k = (.ok k.msg, k) from rfl)]
  by_cases htext : k.msg.hasText
  · obtain ⟨e, herror⟩ := prepareUserBufferArg_of_not_ok htext fun hok => h ⟨htext, hok⟩
    rw [if_pos htext, if_pos htext, Effect.attempt_bind, Effect.attempt_bind, herror, herror]
  · rw [if_neg htext, if_neg htext]

variable {p : Platform δ} {endpoint ptr : UInt64}

/-- The message is copied in, whatever the buffer, or the call fails. -/
theorem sysEndpointCall_copied (p : Platform δ) (endpoint ptr : UInt64) (k : Kernel δ) :
    (∃ out, ∀ buffer, sysEndpointCall p endpoint ptr buffer k = out ∧ ¬ TextAccepted endpoint ptr k) ∨
    ((∃ entry, capCheck k.objects k.caps endpoint Right.send ObjType.endpoint = .ok entry) ∧
      userValidateRange k.vmm ptr messageSize false = .ok () ∧
      ∀ buffer, sysEndpointCall p endpoint ptr buffer k =
        checkAndCall p endpoint ptr buffer (k.withMessage ptr)) := by
  unfold sysEndpointCall
  -- Neither refusal mentions the buffer.
  cases hcheck : capCheck k.objects k.caps endpoint Right.send ObjType.endpoint with
  | error e =>
    left
    refine ⟨(K.markUserFault e >>= fun _ => Effect.fail e : K δ Unit) k, fun buffer => ⟨?_, ?_⟩⟩
    · rw [K.capCheck, Effect.ask_attempt_bind, hcheck]
    · intro h
      obtain ⟨entry, hentry⟩ := h.capability
      rw [hcheck] at hentry
      cases hentry
  | ok entry =>
    rcases K.userCopyFrom_run k ptr messageSize with ⟨e, hcopy⟩ | ⟨_, hval, hcopy⟩
    · left
      refine ⟨(K.markUserFault e >>= fun _ => Effect.fail e : K δ Unit) k, fun buffer => ⟨?_, ?_⟩⟩
      · rw [K.capCheck, Effect.ask_attempt_bind, hcheck]
        dsimp only
        rw [Effect.attempt_bind, hcopy]
      · intro h
        have hmessage := h.message
        unfold K.userCopyFrom at hcopy
        rw [Effect.bind_of_ok (Effect.require_pos (by decide) _), Effect.bind_run,
          K.userValidateRange_run, hmessage] at hcopy
        cases congrArg Prod.fst hcopy
    · right
      refine ⟨⟨entry, rfl⟩, hval, fun buffer => ?_⟩
      rw [K.capCheck, Effect.ask_attempt_bind, hcheck]
      dsimp only
      rw [Effect.attempt_bind, hcopy]
      rfl

/-- A message that is not accepted up to its text is treated in the same way for
    all buffers. -/
theorem sysEndpointCall_of_not_accepted (h : ¬ TextAccepted endpoint ptr k) (b b' : UInt64) :
    sysEndpointCall p endpoint ptr b k = sysEndpointCall p endpoint ptr b' k := by
  rcases sysEndpointCall_copied p endpoint ptr k with
    ⟨out, hout⟩ | ⟨hcapability, hmessage, hrun⟩
  · rw [(hout b).1, (hout b').1]
  · rw [hrun b, hrun b']
    unfold checkAndCall
    rw [Effect.ask_attempt_bind, Effect.ask_attempt_bind]
    cases htarget : validateUserMessageTarget (k.withMessage ptr) endpoint with
    | error e => rfl
    | ok u =>
      have hprepare := prepareMessage_of_not_text (k := k.withMessage ptr)
        (fun htext => h ⟨hcapability, hmessage, htarget, htext.1, htext.2⟩) ptr b b'
      dsimp only
      rw [Effect.bind_run, Effect.bind_run, hprepare]

theorem sysEndpointCall_of_accepted (h : TextAccepted endpoint ptr k) (buffer : UInt64) :
    sysEndpointCall p endpoint ptr buffer k =
      afterText p endpoint ptr ((k.withMessage ptr).withText buffer) := by
  rcases sysEndpointCall_copied p endpoint ptr k with
    ⟨out, hout⟩ | ⟨_, _, hrun⟩
  · exact absurd h (hout buffer).2
  · have hprepare := prepareMessage_of_text (k := k.withMessage ptr) h.hasText h.text ptr buffer
    rw [hrun buffer]
    unfold checkAndCall
    rw [Effect.ask_attempt_bind, h.target]
    dsimp only
    rw [Effect.bind_run, hprepare]
    rfl

end accepted

/-! ## The property -/

/-- The message in user memory after the call does not depend on where the buffer
    of the call is. -/
def HidesBuffer (p : Platform δ) (endpoint ptr : UInt64) (k : Kernel δ) : Prop :=
  ∀ b b' : UInt64, b ≠ 0 → b' ≠ 0 →
    messageBytes (sysEndpointCall p endpoint ptr b k).2 ptr =
      messageBytes (sysEndpointCall p endpoint ptr b' k).2 ptr

/-- The destination of a `LISTDIR` is refused. -/
def DestinationRefused (k : Kernel δ) : Prop :=
  k.msg.type = Msg.listdir ∧ userValidateRange k.vmm k.msg.arg2 k.msg.arg3 true ≠ .ok ()

/-- The state once the destination of a `LISTDIR` is validated. -/
def Kernel.withDestination (k : Kernel δ) : Kernel δ :=
  if k.msg.type = Msg.listdir then
    k.after k.rings k.devices [.validated k.msg.arg2 k.msg.arg3 true]
  else k

/-- The state in which the service is called, for a buffer at the address 1. -/
def Kernel.prepared (k : Kernel δ) (ptr : UInt64) : Kernel δ :=
  ((k.withMessage ptr).withText 1).withDestination

/-- The address of the buffer is put in the message, nobody takes it out, and the
    message is copied back. -/
structure Leaks (load : List UInt8 → UInt64 → K δ UInt64) (endpoint ptr : UInt64) (k : Kernel δ) :
    Prop where
  accepted : TextAccepted endpoint ptr k
  unanswered : DestinationRefused (k.withMessage ptr) ∨ ¬ Answered load endpoint (k.prepared ptr)
  written : Writable (vmmAfter load endpoint (k.prepared ptr)) ptr

section hides

variable {p : Platform δ} {load : List UInt8 → UInt64 → K δ UInt64} {endpoint ptr : UInt64}
  {k : Kernel δ}

/-- The bytes that are left for each address: they have the address, if they are
    written. -/
def Shows (f : UInt64 → List UInt8) (written : Prop) [Decidable written] : Prop :=
  ∃ (m : Message) (base : List UInt8), ∀ b : UInt64, b ≠ 0 →
    f b = if written then ({ m with arg0 := b } : Message).toBytes else base

theorem Shows.hidden {f : UInt64 → List UInt8} {written : Prop} [Decidable written]
    (h : Shows f written) : (∀ b b' : UInt64, b ≠ 0 → b' ≠ 0 → f b = f b') ↔ ¬ written := by
  obtain ⟨m, base, hf⟩ := h
  constructor
  · intro hsame hwritten
    -- The addresses 1 and 2 have different low bytes.
    have hbytes := hsame 1 2 (by decide) (by decide)
    rw [hf 1 (by decide), hf 2 (by decide), if_pos hwritten, if_pos hwritten] at hbytes
    have hlow := congrArg (fun bytes => bytes[24]?) hbytes
    simp only [Message.toBytes_arg0] at hlow
    exact absurd hlow (by decide)
  · intro hwritten b b' hb hb'
    rw [hf b hb, hf b' hb', if_neg hwritten, if_neg hwritten]

theorem withDestination_msg (k : Kernel δ) : k.withDestination.msg = k.msg := by
  unfold Kernel.withDestination
  split
  · rfl
  · rfl

theorem withDestination_vmm (k : Kernel δ) : k.withDestination.vmm = k.vmm := by
  unfold Kernel.withDestination
  split
  · rfl
  · rfl

theorem withDestination_withArg0 (k : Kernel δ) (b : UInt64) :
    (k.withArg0 b).withDestination = k.withDestination.withArg0 b := by
  by_cases h : k.msg.type = Msg.listdir
  · have h' : (k.withArg0 b).msg.type = Msg.listdir := h
    unfold Kernel.withDestination
    rw [if_pos h, if_pos h']
    rfl
  · have h' : ¬ (k.withArg0 b).msg.type = Msg.listdir := h
    unfold Kernel.withDestination
    rw [if_neg h, if_neg h']

theorem Served.withMessage (h : Served k endpoint) (ptr : UInt64) :
    Served (k.withMessage ptr) endpoint := by
  unfold Kernel.withMessage
  exact ⟨h.service, h.mounted⟩

theorem Served.withText (h : Served k endpoint) (buffer : UInt64) :
    Served (k.withText buffer) endpoint := by
  unfold Kernel.withText
  exact ⟨h.service, h.mounted⟩

theorem Served.withDestination (h : Served k endpoint) : Served k.withDestination endpoint := by
  unfold Kernel.withDestination
  split
  · exact ⟨h.service, h.mounted⟩
  · exact h

/-- A refused destination ends the call. -/
theorem afterText_of_refused (p : Platform δ) (endpoint ptr : UInt64) (h : DestinationRefused k) :
    ∃ e : Err, ∀ b : UInt64, (afterText p endpoint ptr (k.withArg0 b)).2 =
      (refuse ptr e (K.markUserFault e) (k.withArg0 b) : Except Err Unit × Kernel δ).2 := by
  cases hval : userValidateRange k.vmm k.msg.arg2 k.msg.arg3 true with
  | ok u => exact absurd hval h.2
  | error e =>
    refine ⟨e, fun b => ?_⟩
    have htype : (k.withArg0 b).msg.type = Msg.listdir := h.1
    have hval' : userValidateRange (k.withArg0 b).vmm (k.withArg0 b).msg.arg2
        (k.withArg0 b).msg.arg3 true = .error e := hval
    have hdest : validateDestination ptr (k.withArg0 b) =
        refuse ptr e (K.markUserFault e) (k.withArg0 b) := by
      unfold validateDestination
      rw [Effect.bind_of_ok (show K.msg (k.withArg0 b) = (.ok (k.withArg0 b).msg, _) from rfl),
        Effect.attempt_bind, K.userValidateRange_run, hval']
    unfold afterText
    rw [Effect.bind_of_ok (show K.msg (k.withArg0 b) = (.ok (k.withArg0 b).msg, _) from rfl),
      if_pos htype]
    obtain ⟨k', hk'⟩ : ∃ k', (refuse ptr e (K.markUserFault e) : K δ Unit) (k.withArg0 b) =
        (.error e, k') := ⟨_, Prod.ext (refuse_status ptr e (fun _ => rfl) _) rfl⟩
    rw [Effect.bind_of_error (hdest.trans hk'), hk']

theorem afterText_of_valid (h : ¬ DestinationRefused k) :
    afterText p endpoint ptr k = callAndReply p endpoint ptr k.withDestination := by
  unfold afterText Kernel.withDestination
  rw [Effect.bind_of_ok (show K.msg k = (.ok k.msg, _) from rfl)]
  by_cases htype : k.msg.type = Msg.listdir
  · have hval : userValidateRange k.vmm k.msg.arg2 k.msg.arg3 true = .ok () := by
      by_contra hno
      exact h ⟨htype, hno⟩
    rw [if_pos htype, if_pos htype]
    unfold validateDestination
    rw [Effect.bind_run, Effect.bind_of_ok (show K.msg k = (.ok k.msg, _) from rfl),
      Effect.attempt_bind, K.userValidateRange_run, hval]
    rfl
  · rw [if_neg htype, if_neg htype]
    rfl

/-- The refused message goes back with the address of the buffer. -/
theorem afterText_shows (h : DestinationRefused k) :
    Shows (fun b => messageBytes (afterText p endpoint ptr (k.withArg0 b)).2 ptr)
      (Writable k.vmm ptr) := by
  obtain ⟨e, hrun⟩ := afterText_of_refused p endpoint ptr h
  refine ⟨{ k.msg with status := e.word }, messageBytes k ptr, fun b _ => ?_⟩
  dsimp only
  rw [hrun b, messageBytes_refuse ptr e fun _ => ⟨rfl, rfl⟩]
  rfl

/-- Without an answer the message goes back with the address of the buffer. -/
theorem callAndReply_shows (hspawn : p.spawn = procHandleSpawn load) (hserved : Served k endpoint)
    (h0 : k.msg.arg0 ≠ 0) (htext : k.msg.hasText) (h : ¬ Answered load endpoint k) :
    Shows (fun b => messageBytes (callAndReply p endpoint ptr (k.withArg0 b)).2 ptr)
      (Writable (vmmAfter load endpoint k) ptr) := by
  refine ⟨{ (endpointCall p endpoint k).2.msg with status := statusWord (endpointCall p endpoint k).1 },
    messageBytes (endpointCall p endpoint k).2 ptr, fun b hb => ?_⟩
  have hrun : endpointCall p endpoint (k.withArg0 b) = _ :=
    (endpointCall_splits hspawn hserved h0 hb htext).carries h
  dsimp only
  rw [messageBytes_callAndReply, hrun, ← endpointCall_vmm hspawn hserved]
  rfl

/-- With an answer nothing is left of the address. -/
theorem callAndReply_same (hspawn : p.spawn = procHandleSpawn load) (hserved : Served k endpoint)
    (h0 : k.msg.arg0 ≠ 0) (htext : k.msg.hasText) (h : Answered load endpoint k) {b : UInt64}
    (hb : b ≠ 0) :
    callAndReply p endpoint ptr (k.withArg0 b) = callAndReply p endpoint ptr k := by
  have hrun : endpointCall p endpoint (k.withArg0 b) = endpointCall p endpoint k :=
    (endpointCall_splits hspawn hserved h0 hb htext).forgets h
  unfold callAndReply
  rw [Effect.attempt_bind, Effect.attempt_bind, hrun]

/-- **Kernel addresses.**  The message that goes back to the task shows where the
    buffer of the call is exactly when the address is put in it, no service answers
    in its place, and the message can be written. -/
theorem hides_buffer_iff (hspawn : p.spawn = procHandleSpawn load) (hserved : Served k endpoint) :
    HidesBuffer p endpoint ptr k ↔ ¬ Leaks load endpoint ptr k := by
  by_cases haccepted : TextAccepted endpoint ptr k
  swap
  · -- The address is not used.
    constructor
    · intro _ hleaks
      exact haccepted hleaks.accepted
    · intro _ b b' _ _
      rw [sysEndpointCall_of_not_accepted haccepted b b']
  set k₂ := (k.withMessage ptr).withText 1 with hk₂
  have hcall : ∀ b, sysEndpointCall p endpoint ptr b k =
      afterText p endpoint ptr (k₂.withArg0 b) := fun b => sysEndpointCall_of_accepted haccepted b
  have hserved₂ : Served k₂ endpoint := (hserved.withMessage ptr).withText 1
  have hserved₃ : Served (k.prepared ptr) endpoint := hserved₂.withDestination
  have hmsg : (k.prepared ptr).msg = k₂.msg := withDestination_msg k₂
  have htext : (k.prepared ptr).msg.hasText := by
    rw [hmsg]
    exact haccepted.hasText
  have h0 : (k.prepared ptr).msg.arg0 ≠ 0 := by
    rw [hmsg]
    show (1 : UInt64) ≠ 0
    decide
  unfold HidesBuffer
  simp only [hcall]
  by_cases hrefused : DestinationRefused k₂
  · rw [(afterText_shows hrefused).hidden]
    have hvmm : vmmAfter load endpoint (k.prepared ptr) = k₂.vmm := by
      have htype : (k.prepared ptr).msg.type ≠ Msg.processSpawn := by
        rw [hmsg, hrefused.1]
        decide
      rw [vmmAfter_of_type htype]
      exact withDestination_vmm k₂
    -- Refused before the endpoint is called: the address is still in the message.
    constructor
    · intro hwritten hleaks
      have hleak := hleaks.written
      rw [hvmm] at hleak
      exact hwritten hleak
    · intro hno hwritten
      apply hno
      refine ⟨haccepted, .inl hrefused, ?_⟩
      rw [hvmm]
      exact hwritten
  · have hvalid : ∀ b, afterText p endpoint ptr (k₂.withArg0 b) =
        callAndReply p endpoint ptr ((k.prepared ptr).withArg0 b) := by
      intro b
      have hrefused' : ¬ DestinationRefused (k₂.withArg0 b) := hrefused
      rw [afterText_of_valid hrefused', withDestination_withArg0]
      rfl
    simp only [hvalid]
    by_cases hanswered : Answered load endpoint (k.prepared ptr)
    · -- The answer of the service stands where the address was.
      constructor
      · intro _ hleaks
        rcases hleaks.unanswered with h | h
        · exact hrefused h
        · exact h hanswered
      · intro _ b b' hb hb'
        rw [callAndReply_same hspawn hserved₃ h0 htext hanswered hb,
          callAndReply_same hspawn hserved₃ h0 htext hanswered hb']
    · -- No answer: the message goes back as it was sent.
      rw [(callAndReply_shows hspawn hserved₃ h0 htext hanswered).hidden]
      constructor
      · intro hwritten hleaks
        exact hwritten hleaks.written
      · intro hno hwritten
        exact hno ⟨haccepted, .inr hanswered, hwritten⟩

end hides

/-! ### A write to the console -/

/-- A loader that has no program. -/
def loadNothing : List UInt8 → UInt64 → K Unit UInt64 := fun _ _ => Effect.fail .noent

/-- The quiet platform with a process service. -/
def writePlatform : Platform Unit := { quietPlatform with spawn := procHandleSpawn loadNothing }

/-- The machine with a message at `0x100000` that writes the two characters behind
    it to the console. -/
def writeMachine : Kernel Unit :=
  { machine ⟨[], true⟩ with
    frames := framesOfWords 0x105000
      [0, Service.console, Msg.write, 0x100040, 2, 0, 0, 0, 0x6968] }

theorem served_writeMachine : Served writeMachine (firstToken 0) where
  service := by
    intro id handler h
    have hconsole : (endpointTarget writeMachine.objects writeMachine.caps writeMachine.endpoints
        (firstToken 0)).map Prod.snd = .ok .console := by decide +kernel
    rw [h] at hconsole
    exact .inl (Except.ok.inj hconsole)
  mounted := by
    intro id handler h
    have htmpfs : (endpointTarget writeMachine.objects writeMachine.caps writeMachine.endpoints
        writeMachine.rootTmpfsEndpoint).map Prod.snd = .ok .tmpfs := by decide +kernel
    rw [h] at htmpfs
    exact Except.ok.inj htmpfs

/-- The write succeeds, and the task can read where the buffer was. -/
theorem hides_buffer_fails :
    ¬ ∀ (p : Platform Unit) (load : List UInt8 → UInt64 → K Unit UInt64) (endpoint ptr : UInt64)
        (k : Kernel Unit), p.spawn = procHandleSpawn load → Served k endpoint →
      HidesBuffer p endpoint ptr k := by
  intro hall
  have hsame := hall writePlatform loadNothing (firstToken 0) 0x100000 writeMachine rfl
    served_writeMachine 0xffffffff80100000 0xffffffff80200000 (by decide) (by decide)
  exact absurd hsame (by decide +kernel)

/-- The same by the condition. -/
theorem hides_buffer_iff_write : Leaks loadNothing (firstToken 0) 0x100000 writeMachine := by
  by_contra hno
  have hhides : HidesBuffer writePlatform (firstToken 0) 0x100000 writeMachine :=
    (hides_buffer_iff rfl served_writeMachine).mpr hno
  have hsame := hhides 0xffffffff80100000 0xffffffff80200000 (by decide) (by decide)
  exact absurd hsame (by decide +kernel)

end Scdk
