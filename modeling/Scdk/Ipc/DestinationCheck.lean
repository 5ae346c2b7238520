import Scdk.Boot
import Scdk.Services.FileHandles
import Scdk.Services.HandlerTrace

/-! # Destinations in user messages

    The handler of tmpfs writes file bytes and directory entries to an address that the
    message of a task names.  `scdk_sys_endpoint_call` validates it for two types of
    messages before it calls the endpoint.

    * `DestinationsChecked`: each write goes to user memory that was validated before,
    * `readEvents`: what a `READ` adds to the trace; `endpointCall_read`,
    * `UncheckedRead`: a `READ` that reaches tmpfs and is not addressed to the VFS,
    * `destinations_checked_iff`: all other calls are checked. -/

namespace Scdk

variable {δ : Type}

/-! ## The property -/

/-- A range that was accepted for writing has the `size` bytes from `dst` on. -/
def AcceptedFor (events : List Event) (dst size : UInt64) : Prop :=
  ∃ ptr n, .validated ptr n true ∈ events ∧ ptr.toNat ≤ dst.toNat ∧
    dst.toNat + size.toNat ≤ ptr.toNat + n.toNat

/-- What is written lies in user memory, and in a range that was accepted before. -/
def DestinationsChecked (events : List Event) : Prop :=
  ∀ before dst size after, events = before ++ .copied dst size :: after → size ≠ 0 →
    UserRange dst size ∧ AcceptedFor before dst size

/-- The same for the events of a system call. -/
def CallChecked (p : Platform δ) (endpoint ptr buffer : UInt64) (k : Kernel δ) : Prop :=
  ∃ events, (sysEndpointCall p endpoint ptr buffer k).2.trace = k.trace ++ events ∧
    DestinationsChecked events

/-- Nothing is written. -/
theorem destinationsChecked_of_none {events : List Event}
    (h : ∀ dst size, .copied dst size ∈ events → size = 0) : DestinationsChecked events := by
  intro before dst size after heq hsize
  refine absurd (h dst size ?_) hsize
  rw [heq]
  exact List.mem_append_right _ List.mem_cons_self

/-- All that is written lies in one range, which was accepted at the start. -/
theorem destinationsChecked_of_first {first rest : List Event} {dst n : UInt64}
    (hfirst : .validated dst n true ∈ first) (hnone : Validations first) (hrange : UserRange dst n)
    (hrest : ∀ dst' size, .copied dst' size ∈ rest → dst' = dst ∧ size.toNat ≤ n.toNat) :
    DestinationsChecked (first ++ rest) := by
  intro before dst' size after heq hsize
  -- the write is none of the first events
  obtain ⟨middle, rfl, hmiddle⟩ : ∃ middle, before = first ++ middle ∧
      rest = middle ++ .copied dst' size :: after := by
    rcases List.append_eq_append_iff.mp heq with ⟨middle, hb, hr⟩ | ⟨middle, hf, hr⟩
    · exact ⟨middle, hb, hr⟩
    · cases middle with
      | nil =>
        rw [List.append_nil] at hf
        exact ⟨[], by rw [hf, List.append_nil], hr.symm⟩
      | cons ev middle =>
        obtain ⟨rfl, _⟩ := List.cons.inj hr
        obtain ⟨_, _, _, hev⟩ := hnone (.copied dst' size) (by
          rw [hf]
          exact List.mem_append_right _ List.mem_cons_self)
        cases hev
  obtain ⟨rfl, hle⟩ := hrest dst' size (by
    rw [hmiddle]
    exact List.mem_append_right _ List.mem_cons_self)
  have hbase := hrange.base
  have htop := hrange.top
  refine ⟨⟨hsize, hbase, by omega⟩, dst', n, List.mem_append_left _ hfirst, Nat.le_refl _, by omega⟩

/-! ## Reads -/

/-- The message is delivered to tmpfs, by its own endpoint or by that of the VFS. -/
def LeadsToTmpfs (k : Kernel δ) (endpoint : UInt64) : Prop :=
  ∃ id handler, endpointTarget k.objects k.caps k.endpoints endpoint = .ok (id, handler) ∧
    (handler = .tmpfs ∨ (handler = .vfs ∧ k.rootTmpfsEndpoint ≠ 0 ∧
      ∃ id', endpointTarget k.objects k.caps k.endpoints k.rootTmpfsEndpoint = .ok (id', .tmpfs)))

/-- What a `READ` message writes. -/
def readEvents (k : Kernel δ) (m : Message) : List Event :=
  if m.arg2 = 0 then []
  else
    match tmpfsSlotForCap k m.arg0 with
    | .error _ => []
    | .ok i =>
      let size := (k.files i).backing.size
      if m.arg3 = 0 then []
      else if size < m.arg1 then []
      else
        [.copied m.arg2 (if m.arg3 < size - m.arg1 then m.arg3 else size - m.arg1)]

theorem tmpfsHandleRead_trace (k : Kernel δ) :
    (tmpfsHandleRead k).2.trace = k.trace ++ readEvents k k.msg := by
  rw [tmpfsHandleRead_run]
  unfold readEvents
  split
  · exact (List.append_nil _).symm
  cases tmpfsSlotForCap k k.msg.arg0 with
  | error e => exact (List.append_nil _).symm
  | ok i =>
    unfold Kernel.readFile
    dsimp only
    split
    · exact (List.append_nil _).symm
    split
    · exact (List.append_nil _).symm
    · rfl

section read

variable (p : Platform δ) {k : Kernel δ} (hread : k.msg.type = Msg.read)

include hread

theorem tmpfsEndpointHandler_read_trace :
    (tmpfsEndpointHandler k).2.trace = k.trace ++ readEvents k k.msg := by
  rw [tmpfsEndpointHandler_read hread]
  exact tmpfsHandleRead_trace k

/-- The other handlers write nothing. -/
theorem runHandler_read (forward : K δ Unit) {handler : Handler} (endpoint : UInt64)
    (htmpfs : handler ≠ .tmpfs) (hvfs : handler ≠ .vfs) :
    (runHandler p forward handler endpoint k).2.trace = k.trace := by
  have hextends : Extends (fun _ => False) k (runHandler p forward handler endpoint k).2 := by
    by_cases hconsole : handler = .console
    · rw [hconsole]
      apply consoleEndpointHandler_extends
      rw [hread]
      intro h
      exact absurd h (by decide)
    · exact runHandler_extends p forward endpoint k hconsole hvfs fun heq => absurd heq htmpfs
  obtain ⟨events, htrace, hnone⟩ := hextends
  rw [htrace, List.eq_nil_iff_forall_not_mem.mpr fun ev hev => hnone ev hev, List.append_nil]

/-- A message is delivered without a second forward. -/
theorem deliver_read (endpoint : UInt64) {id : UInt64} {handler : Handler}
    (htarget : endpointTarget k.objects k.caps k.endpoints endpoint = .ok (id, handler))
    (forward : K δ Unit) (hvfs : handler ≠ .vfs) :
    (deliver (runHandler p forward) endpoint k).2.trace =
      k.trace ++ if handler = .tmpfs then readEvents k k.msg else [] := by
  rw [deliver_of_target htarget]
  show (runHandler p forward handler endpoint (k.toTarget id)).2.trace = _
  by_cases htmpfs : handler = .tmpfs
  · rw [if_pos htmpfs, htmpfs]
    have hread' : (k.toTarget id).msg.type = Msg.read := hread
    exact tmpfsEndpointHandler_read_trace hread'
  · rw [if_neg htmpfs, List.append_nil]
    have hread' : (k.toTarget id).msg.type = Msg.read := hread
    exact runHandler_read p hread' forward endpoint htmpfs hvfs

/-- The VFS forwards a `READ` as it is. -/
theorem vfsEndpointHandler_read (forward : K δ Unit) : vfsEndpointHandler forward k = forward k := by
  unfold vfsEndpointHandler
  rw [Effect.bind_of_ok Effect.get_run, hread]
  rfl

omit hread in
/-- The forward to the mounted endpoint. -/
theorem vfsForwardToTmpfs_read (call : UInt64 → K δ Unit) (hroot : k.rootTmpfsEndpoint ≠ 0) :
    (vfsForwardToTmpfs call k).2.trace =
      (call k.rootTmpfsEndpoint (k.toTarget Service.tmpfs)).2.trace := by
  unfold vfsForwardToTmpfs
  rw [Effect.bind_of_ok Effect.get_run, Effect.bind_of_ok (Effect.require_pos hroot _)]
  rfl

/-- **A `READ`** writes what tmpfs reads for it, if it gets there. -/
theorem endpointCall_read {endpoint : UInt64} (h : LeadsToTmpfs k endpoint) :
    (endpointCall p endpoint k).2.trace = k.trace ++ readEvents k k.msg := by
  obtain ⟨id, handler, htarget, rfl | ⟨rfl, hroot, id', hmounted⟩⟩ := h
  · have hrun := deliver_read p hread endpoint htarget (vfsForwardToTmpfs (endpointCallDepth p 0)) (by decide)
    rwa [if_pos rfl] at hrun
  · have hread' : (k.toTarget id).msg.type = Msg.read := hread
    have hroot' : (k.toTarget id).rootTmpfsEndpoint ≠ 0 := hroot
    have hread'' : (k.toTarget Service.tmpfs).msg.type = Msg.read := hread
    have hinner := deliver_read p hread'' k.rootTmpfsEndpoint hmounted (Effect.fail .busy) (by decide)
    rw [if_pos rfl] at hinner
    unfold endpointCall endpointCallDepth
    rw [deliver_of_target htarget]
    show (vfsEndpointHandler _ (k.toTarget id)).2.trace = _
    rw [vfsEndpointHandler_read hread', vfsForwardToTmpfs_read _ hroot']
    exact hinner

/-- A message that is delivered to another handler. -/
theorem deliver_read_elsewhere (endpoint : UInt64) (forward : K δ Unit)
    (htmpfs : ∀ id, endpointTarget k.objects k.caps k.endpoints endpoint ≠ .ok (id, .tmpfs))
    (hforward : ∀ id, endpointTarget k.objects k.caps k.endpoints endpoint = .ok (id, .vfs) →
      (forward (k.toTarget id)).2.trace = k.trace) :
    (deliver (runHandler p forward) endpoint k).2.trace = k.trace := by
  cases htarget : endpointTarget k.objects k.caps k.endpoints endpoint with
  | error e =>
    rw [deliver_of_error htarget]
    rfl
  | ok r =>
    obtain ⟨id, handler⟩ := r
    by_cases hvfs : handler = .vfs
    · subst hvfs
      have hread' : (k.toTarget id).msg.type = Msg.read := hread
      rw [deliver_of_target htarget]
      show (vfsEndpointHandler _ (k.toTarget id)).2.trace = _
      rw [vfsEndpointHandler_read hread']
      exact hforward id htarget
    · have hother : handler ≠ .tmpfs := by
        rintro rfl
        exact htmpfs id htarget
      rw [deliver_read p hread endpoint htarget forward hvfs, if_neg hother, List.append_nil]

/-- And nothing if it does not. -/
theorem endpointCall_read_elsewhere {endpoint : UInt64} (h : ¬ LeadsToTmpfs k endpoint) :
    (endpointCall p endpoint k).2.trace = k.trace := by
  apply deliver_read_elsewhere p hread
  · intro id htarget
    exact h ⟨id, .tmpfs, htarget, .inl rfl⟩
  · intro id htarget
    by_cases hroot : (k.toTarget id).rootTmpfsEndpoint = 0
    · unfold vfsForwardToTmpfs
      rw [Effect.bind_of_ok Effect.get_run,
        Effect.bind_of_error (Effect.require_neg (not_not.mpr hroot) _)]
      rfl
    · have hread' : (k.toTarget Service.tmpfs).msg.type = Msg.read := hread
      rw [vfsForwardToTmpfs_read _ hroot]
      -- there is no second forward
      apply deliver_read_elsewhere p hread'
      · intro id' hmounted
        exact h ⟨id, .vfs, htarget, .inr ⟨rfl, hroot, id', hmounted⟩⟩
      · intro id' _
        rfl

end read

/-! ## System calls -/

/-- The `READ` message `m` names an open file, a destination, and bytes of the file. -/
def ReadCopies (k : Kernel δ) (m : Message) : Prop :=
  m.arg2 ≠ 0 ∧ m.arg3 ≠ 0 ∧ ∃ i, tmpfsSlotForCap k m.arg0 = .ok i ∧ m.arg1 < (k.files i).backing.size

/-- A message at `ptr` that can be read, with an endpoint that is its target, and that tmpfs
    answers with bytes of a file, but not by the service number of the VFS. -/
structure UncheckedRead (endpoint ptr : UInt64) (k : Kernel δ) : Prop where
  message : userValidateRange k.vmm ptr messageSize false = .ok ()
  target : validateUserMessageTarget (k.withMessage ptr) endpoint = .ok ()
  type : (messageAt k ptr).type = Msg.read
  other : (messageAt k ptr).target ≠ Service.vfs
  tmpfs : LeadsToTmpfs k endpoint
  copies : ReadCopies k (messageAt k ptr)

section events

variable {k : Kernel δ} {m : Message}

theorem readEvents_of_copies (h : ReadCopies k m) :
    ∃ size, size ≠ 0 ∧ readEvents k m = [.copied m.arg2 size] := by
  obtain ⟨h2, h3, i, hslot, hlt⟩ := h
  have hpos : (k.files i).backing.size - m.arg1 ≠ 0 := by
    intro hzero
    have hle := UInt64.le_of_lt hlt
    have hsub := congrArg UInt64.toNat hzero
    rw [UInt64.toNat_sub_of_le _ _ hle] at hsub
    rw [UInt64.lt_iff_toNat_lt] at hlt
    have hnat : (0 : UInt64).toNat = 0 := rfl
    omega
  refine ⟨if m.arg3 < (k.files i).backing.size - m.arg1 then m.arg3
    else (k.files i).backing.size - m.arg1, ?_, ?_⟩
  · split
    · exact h3
    · exact hpos
  · unfold readEvents
    rw [if_neg h2, hslot]
    dsimp only
    rw [if_neg h3, if_neg (UInt64.not_lt.mpr (UInt64.le_of_lt hlt))]

theorem readEvents_of_not (h : ¬ ReadCopies k m) {dst size : UInt64}
    (hmem : .copied dst size ∈ readEvents k m) : size = 0 := by
  unfold readEvents at hmem
  split at hmem
  · cases hmem
  next h2 =>
  cases hslot : tmpfsSlotForCap k m.arg0 with
  | error e =>
    rw [hslot] at hmem
    cases hmem
  | ok i =>
    rw [hslot] at hmem
    dsimp only at hmem
    split at hmem
    · cases hmem
    next h3 =>
    split at hmem
    · cases hmem
    next hle =>
    -- the offset is the end of the file
    have hend : (k.files i).backing.size = m.arg1 := by
      apply UInt64.le_antisymm
      · by_contra hlt
        exact h ⟨h2, h3, i, hslot, UInt64.not_le.mp hlt⟩
      · exact UInt64.not_lt.mp hle
    have hevent := List.mem_singleton.mp hmem
    rw [hend, UInt64.sub_self, if_neg (UInt64.not_lt.mpr UInt64.zero_le)] at hevent
    exact (Event.copied.inj hevent).2

end events

section call

variable (p : Platform δ) {endpoint ptr : UInt64} (buffer : UInt64) {k : Kernel δ}

/-- An unchecked read is delivered as it is. -/
theorem UncheckedRead.run (h : UncheckedRead endpoint ptr k) :
    sysEndpointCall p endpoint ptr buffer k = callAndReply p endpoint ptr (k.withMessage ptr) := by
  obtain ⟨_, _, htarget, _⟩ := h.tmpfs
  obtain ⟨entry, hcheck⟩ := capCheck_of_endpointTarget htarget
  -- The message itself is validated, its destination is not.
  have hcopy : K.userCopyFrom ptr messageSize k =
      (.ok (userBytes k.vmm k.frames ptr messageSize.toNat),
        k.after k.rings k.devices [.validated ptr messageSize false]) := by
    unfold K.userCopyFrom
    rw [Effect.bind_of_ok (Effect.require_pos (by decide) _), Effect.bind_run, K.userValidateRange_run,
      h.message]
    rfl
  have hstart : sysEndpointCall p endpoint ptr buffer k =
      checkAndCall p endpoint ptr buffer (k.withMessage ptr) := by
    unfold sysEndpointCall
    rw [K.capCheck, Effect.ask_attempt_bind, hcheck]
    dsimp only
    rw [Effect.attempt_bind, hcopy]
    rfl
  have htext : ¬ (messageAt k ptr).hasText := fun ht => Message.type_of_hasText ht h.type
  have hprepare : prepareMessage ptr buffer (k.withMessage ptr) = (.ok (), k.withMessage ptr) := by
    unfold prepareMessage
    rw [Effect.bind_of_ok (show K.msg (k.withMessage ptr) = (.ok (messageAt k ptr), _) from rfl),
      if_neg htext, if_pos h.type, if_neg h.other]
    rfl
  rw [hstart]
  unfold checkAndCall
  rw [Effect.ask_attempt_bind, h.target]
  dsimp only
  rw [Effect.bind_of_ok hprepare]

/-- It writes to a destination that was not accepted. -/
theorem UncheckedRead.not_checked (h : UncheckedRead endpoint ptr k) :
    ¬ CallChecked p endpoint ptr buffer k := by
  rintro ⟨events, htrace, hchecked⟩
  obtain ⟨size, hsize, hread⟩ := readEvents_of_copies h.copies
  obtain ⟨last, _, hlast⟩ := (callAndReply_run p endpoint ptr (k.withMessage ptr)).trace
  have hcall : (endpointCall p endpoint (k.withMessage ptr)).2.trace =
      k.trace ++ [.validated ptr messageSize false] ++ [.copied (messageAt k ptr).arg2 size] := by
    have hrun := endpointCall_read p (k := k.withMessage ptr) h.type h.tmpfs
    rw [hrun]
    exact congrArg (_ ++ ·) hread
  rw [h.run p buffer, hlast, hcall, List.append_assoc, List.append_assoc] at htrace
  have hevents := List.append_cancel_left htrace
  obtain ⟨_, ptr', n, hmem, _⟩ := hchecked [.validated ptr messageSize false] _ size last hevents.symm hsize
  cases List.mem_singleton.mp hmem

/-- Validations write nothing. -/
theorem not_copied_of_validations {l : List Event} (h : Validations l) (dst size : UInt64) :
    .copied dst size ∉ l := by
  intro hmem
  obtain ⟨_, _, _, hev⟩ := h _ hmem
  cases hev

section prepared

variable {p buffer} {k' : Kernel δ} {events : List Event}

/-- What is known about the events of the call: those before the service has the message
    are validations, and so are those after it. -/
theorem Prepared.callChecked (h : Prepared k endpoint ptr k' events)
    (hquiet : Quiet (endpointCall p endpoint k').2 (sysEndpointCall p endpoint ptr buffer k).2)
    {middle : List Event} (hmiddle : (endpointCall p endpoint k').2.trace = k'.trace ++ middle)
    (hchecked : ∀ last, Validations last →
      DestinationsChecked ([.validated ptr messageSize false] ++ events ++ (middle ++ last))) :
    CallChecked p endpoint ptr buffer k := by
  obtain ⟨last, hlast, htrace⟩ := hquiet.trace
  have hbefore : k'.trace = k.trace ++ ([.validated ptr messageSize false] ++ events) := by
    rw [h.accepted.trace, ← List.append_assoc]
    rfl
  refine ⟨_, ?_, hchecked last hlast⟩
  rw [htrace, hmiddle, hbefore]
  simp only [List.append_assoc]

theorem Prepared.validations (h : Prepared k endpoint ptr k' events) :
    Validations ([.validated ptr messageSize false] ++ events) :=
  (validations_nil.cons ptr messageSize false).append h.accepted.validations

/-- The message of the endpoint is that of the task, apart from the address of its text. -/
theorem Prepared.sameMessage (h : Prepared k endpoint ptr k' events) :
    k'.msg.type = (messageAt k ptr).type ∧ k'.msg.arg2 = (messageAt k ptr).arg2 ∧
      k'.msg.arg3 = (messageAt k ptr).arg3 := by
  obtain ⟨arg0, hmsg⟩ := h.accepted.msg
  rw [hmsg]
  exact ⟨rfl, rfl, rfl⟩

/-- A call is checked if the service writes nothing. -/
theorem Prepared.callChecked_of_none (h : Prepared k endpoint ptr k' events)
    (hquiet : Quiet (endpointCall p endpoint k').2 (sysEndpointCall p endpoint ptr buffer k).2)
    {middle : List Event} (hmiddle : (endpointCall p endpoint k').2.trace = k'.trace ++ middle)
    (hzero : ∀ dst size, .copied dst size ∈ middle → size = 0) :
    CallChecked p endpoint ptr buffer k := by
  refine h.callChecked hquiet hmiddle fun last hlast =>
    destinationsChecked_of_none fun dst size hmem => ?_
  rcases List.mem_append.mp hmem with hmem | hmem
  · exact absurd hmem (not_copied_of_validations h.validations dst size)
  rcases List.mem_append.mp hmem with hmem | hmem
  · exact hzero dst size hmem
  · exact absurd hmem (not_copied_of_validations hlast dst size)

/-- A call is checked if the destination of its message is. -/
theorem Prepared.callChecked_of_destination (h : Prepared k endpoint ptr k' events)
    (hquiet : Quiet (endpointCall p endpoint k').2 (sysEndpointCall p endpoint ptr buffer k).2)
    (hdest : (messageAt k ptr).checksDestination) : CallChecked p endpoint ptr buffer k := by
  obtain ⟨_, harg2, harg3⟩ := h.sameMessage
  obtain ⟨hvalidated, hrange⟩ := h.accepted.checked hdest
  obtain ⟨middle, hmiddle, hwrites⟩ := endpointCall_extends p endpoint k'
    (Q := fun ev => ∀ dst size, ev = .copied dst size →
      dst = (messageAt k ptr).arg2 ∧ size.toNat ≤ (messageAt k ptr).arg3.toNat)
    (fun _ => ⟨fun _ _ _ _ _ hev => (nomatch hev), fun _ _ _ _ hev => nomatch hev⟩)
    (fun _ size hsize dst size' hev => by
      obtain ⟨rfl, rfl⟩ := Event.copied.inj hev
      rw [harg3] at hsize
      exact ⟨harg2, hsize⟩)
  refine h.callChecked hquiet hmiddle fun last hlast => ?_
  refine destinationsChecked_of_first (List.mem_append_right _ hvalidated) h.validations hrange ?_
  intro dst size hmem
  rcases List.mem_append.mp hmem with hmem | hmem
  · exact hwrites _ hmem dst size rfl
  · exact absurd hmem (not_copied_of_validations hlast dst size)

/-- A `READ` for another service is checked if tmpfs does not answer it. -/
theorem Prepared.callChecked_of_read (h : Prepared k endpoint ptr k' events)
    (hquiet : Quiet (endpointCall p endpoint k').2 (sysEndpointCall p endpoint ptr buffer k).2)
    (hread : (messageAt k ptr).type = Msg.read) (hother : (messageAt k ptr).target ≠ Service.vfs)
    (hno : ¬ UncheckedRead endpoint ptr k) : CallChecked p endpoint ptr buffer k := by
  have hplain : k'.msg = messageAt k ptr := h.accepted.plain fun ht => Message.type_of_hasText ht hread
  have htype : k'.msg.type = Msg.read := h.sameMessage.1.trans hread
  have hquiet' := h.accepted.quiet
  have hleads : LeadsToTmpfs k' endpoint → LeadsToTmpfs k endpoint := by
    unfold LeadsToTmpfs
    rw [hquiet'.objects, hquiet'.caps, hquiet'.endpoints, hquiet'.root]
    exact id
  have hcopies : ReadCopies k' k'.msg → ReadCopies k (messageAt k ptr) := by
    unfold ReadCopies tmpfsSlotForCap
    rw [hplain, hquiet'.objects, hquiet'.caps, hquiet'.files]
    exact id
  by_cases htmpfs : LeadsToTmpfs k' endpoint
  · refine h.callChecked_of_none hquiet (endpointCall_read p htype htmpfs) fun dst size hmem => ?_
    refine readEvents_of_not (fun hc => hno ?_) hmem
    exact ⟨h.message, h.target, hread, hother, hleads htmpfs, hcopies hc⟩
  · have hnone : (endpointCall p endpoint k').2.trace = k'.trace ++ [] := by
      rw [endpointCall_read_elsewhere p htype htmpfs, List.append_nil]
    exact h.callChecked_of_none hquiet hnone fun dst size hmem => nomatch hmem

end prepared

/-- Every other call is checked. -/
theorem callChecked_of_not (h : ¬ UncheckedRead endpoint ptr k) : CallChecked p endpoint ptr buffer k := by
  rcases sysEndpointCall_run p endpoint ptr buffer k with hquiet | ⟨k', events, hprepared, hquiet⟩
  · obtain ⟨events, hvals, htrace⟩ := hquiet.trace
    refine ⟨events, htrace, destinationsChecked_of_none fun dst size hmem => ?_⟩
    exact absurd hmem (not_copied_of_validations hvals dst size)
  by_cases hdest : (messageAt k ptr).checksDestination
  · exact hprepared.callChecked_of_destination hquiet hdest
  by_cases hread : (messageAt k ptr).type = Msg.read
  · exact hprepared.callChecked_of_read hquiet hread (fun hvfs => hdest (.inr ⟨hread, hvfs⟩)) h
  · obtain ⟨middle, hmiddle, hwrites⟩ := endpointCall_extends p endpoint k'
      (Q := fun ev => ∀ dst size, ev ≠ .copied dst size)
      (fun _ => ⟨fun _ _ _ _ _ hev => (nomatch hev), fun _ _ _ _ hev => nomatch hev⟩)
      (fun htype => by
        rw [hprepared.sameMessage.1] at htype
        rcases htype with htype | htype
        · exact absurd htype hread
        · exact absurd (.inl htype) hdest)
    refine hprepared.callChecked_of_none hquiet hmiddle fun dst size hmem => ?_
    exact absurd rfl (hwrites _ hmem dst size)

/-- **Destinations.**  What tmpfs writes for a call goes to user memory that was validated
    before, except for a `READ` that reaches it by another service number than that of the
    VFS. -/
theorem destinations_checked_iff (p : Platform δ) (endpoint ptr buffer : UInt64) (k : Kernel δ) :
    CallChecked p endpoint ptr buffer k ↔ ¬ UncheckedRead endpoint ptr k :=
  ⟨fun hchecked h => h.not_checked p buffer hchecked, callChecked_of_not p buffer⟩

end call

/-! ### A read from tmpfs -/

/-- A machine with a file of three bytes that has been opened, and with a message at
    `0x100000` that reads it from tmpfs to an address of the kernel. -/
def readMachine : Kernel Unit :=
  let k := machine ⟨[⟨[slash, 97], [1, 2, 3], 0⟩], true⟩
  let k := (tmpfsHandleOpen
    { k with msg := { k.msg with arg0 := 1, arg1 := 2 }, payload := [slash, 97, 0] }).2
  { k with
    frames := framesOfWords 0x105000
      [0, Service.tmpfs, Msg.read, firstToken 4, 0, 0xffffffff80000000, 3, 0] }

/-- The message is delivered by the endpoint of tmpfs. -/
theorem uncheckedRead_readMachine : UncheckedRead (firstToken 2) 0x100000 readMachine where
  message := by decide +kernel
  target := by decide +kernel
  type := by decide +kernel
  other := by decide +kernel
  tmpfs := by
    have htarget : (endpointTarget readMachine.objects readMachine.caps readMachine.endpoints
        (firstToken 2)).map Prod.snd = .ok .tmpfs := by decide +kernel
    cases hrun : endpointTarget readMachine.objects readMachine.caps readMachine.endpoints (firstToken 2) with
    | error e =>
      rw [hrun] at htarget
      cases htarget
    | ok r =>
      rw [hrun] at htarget
      exact ⟨r.1, r.2, hrun, .inl (Except.ok.inj htarget)⟩
  copies := ⟨by decide +kernel, by decide +kernel, 0, by decide +kernel, by decide +kernel⟩

/-- Three bytes of the file go to an address of the kernel. -/
theorem destinations_checked_fails :
    ¬ ∀ (p : Platform Unit) (endpoint ptr buffer : UInt64) (k : Kernel Unit),
      CallChecked p endpoint ptr buffer k := by
  intro hall
  exact uncheckedRead_readMachine.not_checked quietPlatform 0 (hall _ _ _ _ _)

end Scdk
