import Mathlib.Data.Nat.Bitwise
import Scdk.Drivers.KeyEvents
import Scdk.Boot

/-! # The TTY service

    The service that hands the events of the keyboard to its callers, as four words of
    a message.

    * `ttyPackEvent`, `ttyUnpackEvent`: an event in a message, `ttyUnpack_pack`: nothing
      of it is lost,
    * `ttySystem`: callers that send any messages to the service while keys are typed,
    * `tty_delivers_keys`: what the callers unpack is what was typed. -/

namespace Scdk

/-! ## Events in messages -/

/-- `scdk_tty_pack_event` -/
def ttyPackEvent (event : InputEvent) (m : Message) : Message :=
  { m with
    arg0 := event.timestamp
    arg1 := event.type.toUInt64 <<< 32 ||| event.keycode.toUInt64
    arg2 := event.ascii.toUInt64
    arg3 := event.modifiers.toUInt64 <<< 32 ||| event.flags.toUInt64 }

/-- The event that a caller reads out of a message. -/
def ttyUnpackEvent (m : Message) : InputEvent where
  timestamp := m.arg0
  type := (m.arg1 >>> 32).toUInt32
  keycode := m.arg1.toUInt32
  ascii := m.arg2.toUInt32
  modifiers := (m.arg3 >>> 32).toUInt32
  flags := m.arg3.toUInt32

section words

variable (hi lo : UInt32)

/-- Two words in one. -/
theorem toNat_words :
    (hi.toUInt64 <<< 32 ||| lo.toUInt64).toNat = 2 ^ 32 * hi.toNat + lo.toNat := by
  have hhi := hi.toNat_lt
  have hlo := lo.toNat_lt
  have hshift : (hi.toUInt64 <<< 32).toNat = 2 ^ 32 * hi.toNat := by
    rw [UInt64.toNat_shiftLeft, UInt32.toNat_toUInt64, Nat.shiftLeft_eq]
    have hamount : (32 : UInt64).toNat % 64 = 32 := rfl
    rw [hamount, Nat.mul_comm, Nat.mod_eq_of_lt (by omega)]
  rw [UInt64.toNat_or, hshift, UInt32.toNat_toUInt64]
  exact (Nat.two_pow_add_eq_or_of_lt hlo hi.toNat).symm

theorem high_word : ((hi.toUInt64 <<< 32 ||| lo.toUInt64) >>> 32).toUInt32 = hi := by
  have hlo := lo.toNat_lt
  apply UInt32.toNat_inj.mp
  have hamount : (32 : UInt64).toNat % 64 = 32 := rfl
  rw [UInt64.toNat_toUInt32, UInt64.toNat_shiftRight, toNat_words, hamount, Nat.shiftRight_eq_div_pow]
  have hhi := hi.toNat_lt
  omega

theorem low_word : (hi.toUInt64 <<< 32 ||| lo.toUInt64).toUInt32 = lo := by
  have hlo := lo.toNat_lt
  apply UInt32.toNat_inj.mp
  rw [UInt64.toNat_toUInt32, toNat_words]
  omega

end words

/-- An event is read back as it was packed. -/
theorem ttyUnpack_pack (event : InputEvent) (m : Message) :
    ttyUnpackEvent (ttyPackEvent event m) = event := by
  have hascii : event.ascii.toUInt64.toUInt32 = event.ascii := by simp
  simp only [ttyUnpackEvent, ttyPackEvent, high_word, low_word, hascii]

/-! ## One message -/

/-- The message that comes back from a poll. -/
def ttyReply (m : Message) : Except Err InputEvent → Message
  | .ok event => { ttyPackEvent event m with status := 0 }
  | .error e => { m with status := e.word }

section message

variable {p : Platform KeyboardPort} {endpoint objectId : UInt64} {k : Kernel KeyboardPort}

/-- The handler on a poll. -/
theorem ttyEndpointHandler_poll (hp : p.keyboardPoll = keyboardPoll)
    (htype : k.msg.type = Msg.ttyPollEvent) :
    ttyEndpointHandler p k =
      (toStatus (keyboardPoll k.devices).1,
        { k with
          devices := (keyboardPoll k.devices).2
          msg := (((keyboardPoll k.devices).1.toOption).map fun e => ttyPackEvent e k.msg).getD
            k.msg }) := by
  have hmsg : (K.msg : K KeyboardPort Message) k = (.ok k.msg, k) := rfl
  unfold ttyEndpointHandler
  rw [Effect.bind_of_ok hmsg, if_pos htype, hp, Effect.bind_run]
  unfold K.onDevices
  cases (keyboardPoll k.devices).1 <;> rfl

/-- Other messages leave the keyboard alone. -/
theorem ttyEndpointHandler_other (htype : k.msg.type ≠ Msg.ttyPollEvent) :
    (ttyEndpointHandler p k).2.devices = k.devices := by
  have hmsg : (K.msg : K KeyboardPort Message) k = (.ok k.msg, k) := rfl
  unfold ttyEndpointHandler
  rw [Effect.bind_of_ok hmsg, if_neg htype]
  split
  · rfl
  · rfl

/-- A poll of the service is a poll of the keyboard.  One that fails leaves the words of
    the message as they are. -/
theorem endpointCall_ttyPoll (hp : p.keyboardPoll = keyboardPoll)
    (htarget : endpointTarget k.objects k.caps k.endpoints endpoint = .ok (objectId, .tty))
    (htype : k.msg.type = Msg.ttyPollEvent) :
    endpointCall p endpoint k =
      (toStatus (keyboardPoll k.devices).1,
        { k with
          devices := (keyboardPoll k.devices).2
          msg := ttyReply { k.msg with target := objectId } (keyboardPoll k.devices).1 }) := by
  unfold endpointCall endpointCallDepth
  rw [deliver_of_target htarget]
  have hrun : ∀ forward, runHandler p forward .tty endpoint (k.toTarget objectId) =
      ttyEndpointHandler p (k.toTarget objectId) := fun _ => rfl
  have htype' : (k.toTarget objectId).msg.type = Msg.ttyPollEvent := htype
  rw [hrun, ttyEndpointHandler_poll hp htype']
  cases hpoll : (keyboardPoll k.devices).1 <;>
    simp [Kernel.toTarget, Kernel.withStatus, hpoll, ttyReply, statusWord, Except.toOption]

/-- Other messages to the service, and those that reach no service, leave the keyboard
    alone. -/
theorem endpointCall_ttyOther
    (htarget : ∀ objectId handler,
      endpointTarget k.objects k.caps k.endpoints endpoint = .ok (objectId, handler) → handler = .tty)
    (htype : k.msg.type ≠ Msg.ttyPollEvent ∨
      ∃ e, endpointTarget k.objects k.caps k.endpoints endpoint = .error e) :
    (endpointCall p endpoint k).2.devices = k.devices := by
  unfold endpointCall endpointCallDepth
  cases h : endpointTarget k.objects k.caps k.endpoints endpoint with
  | error e =>
    rw [deliver_of_error h]
    rfl
  | ok r =>
    obtain ⟨objectId, handler⟩ := r
    obtain rfl := htarget objectId handler h
    rw [deliver_of_target h]
    have htype' : (k.toTarget objectId).msg.type ≠ Msg.ttyPollEvent := by
      rcases htype with htype | ⟨e, he⟩
      · exact htype
      · rw [h] at he
        cases he
    exact ttyEndpointHandler_other htype'

end message

/-! ## Runs -/

/-- A key is typed, or a message is sent with a token. -/
inductive TtyCall where
  | key (scancode : UInt8)
  | message (endpoint : UInt64) (msg : Message)
  deriving DecidableEq, Repr

/-- The status of a message and the message that comes back. -/
abbrev TtyAnswer : Type := Option (Except Err Unit × Message)

/-- One step. -/
def ttyStep (p : Platform KeyboardPort) (k : Kernel KeyboardPort) :
    TtyCall → TtyAnswer × Kernel KeyboardPort
  | .key scancode =>
    (none, { k with devices := { k.devices with wire := k.devices.wire ++ [scancode] } })
  | .message endpoint msg =>
    let (r, k) := endpointCall p endpoint { k with msg := msg }
    (some (r, k.msg), k)

/-- The kernel with a keyboard that was not used. -/
def ttySystem (p : Platform KeyboardPort) :
    System (Kernel KeyboardPort) TtyCall TtyAnswer where
  init := fun k => KeyboardStart k.devices
  step := ttyStep p

/-- The messages are for the service, or their token is refused. -/
def ForTty (k : Kernel KeyboardPort) : TtyCall → Prop
  | .key _ => True
  | .message endpoint _ => ∀ objectId handler,
      endpointTarget k.objects k.caps k.endpoints endpoint = .ok (objectId, handler) → handler = .tty

abbrev TtyLog : Type := List (TtyCall × TtyAnswer)

/-- The scan codes that were typed. -/
def typedOf (log : TtyLog) : List UInt8 :=
  log.filterMap fun
    | (.key scancode, _) => some scancode
    | _ => none

/-- The event that a caller reads out of an answer. -/
def unpackedFrom (msg : Message) : TtyAnswer → Option InputEvent
  | some (.ok _, reply) => if msg.type = Msg.ttyPollEvent then some (ttyUnpackEvent reply) else none
  | _ => none

/-- The events that the callers read out of their answers. -/
def unpackedOf (log : TtyLog) : List InputEvent :=
  log.filterMap fun
    | (.message _ msg, answer) => unpackedFrom msg answer
    | _ => none

/-- The events of some scan codes, when no test key is among them. -/
def keyEvents (read : List UInt8) : List InputEvent := (KeyHistory.of (read.map .scan)).events

section runs

variable {p : Platform KeyboardPort} {log : TtyLog} {k : Kernel KeyboardPort}

/-- A run of the service is one of the keyboard. -/
structure TtyShows (log : TtyLog) (klog : KeyLog) : Prop where
  sent : sentOf klog = typedOf log
  delivered : deliveredOf klog = unpackedOf log
  injected : injectedOf klog = []

theorem TtyShows.poll {klog : KeyLog} (h : TtyShows log klog) {endpoint : UInt64} {msg reply : Message}
    {r : Except Err InputEvent} (htype : msg.type = Msg.ttyPollEvent)
    (hreply : ∀ e, r = .ok e → ttyUnpackEvent reply = e) :
    TtyShows (log ++ [(.message endpoint msg, some (toStatus r, reply))])
      (klog ++ [(.poll, .polled r)]) where
  sent := by
    simp [sentOf, typedOf] at *
    exact h.sent
  delivered := by
    have hold := h.delivered
    simp only [deliveredOf, unpackedOf, List.filterMap_append] at hold ⊢
    rw [hold]
    cases r with
    | error e => rfl
    | ok e => simp [unpackedFrom, htype, hreply e rfl]
  injected := by
    have hold := h.injected
    simp only [injectedOf, List.filterMap_append] at hold ⊢
    rw [hold]
    rfl

/-- A message without an event. -/
theorem TtyShows.silent {klog : KeyLog} (h : TtyShows log klog) {endpoint : UInt64} {msg : Message}
    {answer : TtyAnswer} (hnone : unpackedFrom msg answer = none) :
    TtyShows (log ++ [(.message endpoint msg, answer)]) klog where
  sent := by
    rw [h.sent]
    simp [typedOf]
  delivered := by
    rw [h.delivered]
    simp [unpackedOf, hnone]
  injected := h.injected

theorem TtyShows.key {klog : KeyLog} (h : TtyShows log klog) (scancode : UInt8) :
    TtyShows (log ++ [(.key scancode, none)]) (klog ++ [(.send scancode, .sent)]) where
  sent := by
    have hold := h.sent
    simp only [sentOf, typedOf, List.filterMap_append] at hold ⊢
    rw [hold]
    rfl
  delivered := by
    have hold := h.delivered
    simp only [deliveredOf, unpackedOf, List.filterMap_append] at hold ⊢
    rw [hold]
    rfl
  injected := by
    have hold := h.injected
    simp only [injectedOf, List.filterMap_append] at hold ⊢
    rw [hold]
    rfl

/-- What a caller reads out of the reply to a poll is what the keyboard returned. -/
theorem ttyUnpack_reply {m : Message} {r : Except Err InputEvent} {e : InputEvent} (h : r = .ok e) :
    ttyUnpackEvent (ttyReply m r) = e := by
  rw [h]
  exact ttyUnpack_pack e m

/-- **Refinement.**  A run of the service does to the keyboard what polls do. -/
theorem tty_refines_keyboard (hp : p.keyboardPoll = keyboardPoll)
    (h : (ttySystem p).RunWhen ForTty log k) :
    ∃ klog, keyboardSystem.Run klog k.devices ∧ TtyShows log klog := by
  induction h with
  | init h0 => exact ⟨[], .init h0, rfl, rfl, rfl⟩
  | @step log k call _ hguard ih =>
    obtain ⟨klog, hrun, hshows⟩ := ih
    cases call with
    | key scancode => exact ⟨_, hrun.step (.send scancode), hshows.key scancode⟩
    | message endpoint msg =>
      have htty := hguard
      show ∃ klog, keyboardSystem.Run klog (endpointCall p endpoint { k with msg := msg }).2.devices ∧
        TtyShows (log ++ [(.message endpoint msg, some ((endpointCall p endpoint
          { k with msg := msg }).1, (endpointCall p endpoint { k with msg := msg }).2.msg))]) klog
      have hothers := @endpointCall_ttyOther p endpoint { k with msg := msg } htty
      cases htarget : endpointTarget k.objects k.caps k.endpoints endpoint with
      | error e =>
        -- The token is refused.
        rw [hothers (.inr ⟨e, htarget⟩)]
        refine ⟨klog, hrun, hshows.silent ?_⟩
        have hrefused : (endpointCall p endpoint { k with msg := msg }).1 = .error e := by
          unfold endpointCall endpointCallDepth
          rw [deliver_of_error (k := { k with msg := msg }) htarget]
        rw [hrefused]
        rfl
      | ok r =>
        obtain ⟨objectId, handler⟩ := r
        obtain rfl := htty objectId handler htarget
        by_cases htype : msg.type = Msg.ttyPollEvent
        · rw [endpointCall_ttyPoll (k := { k with msg := msg }) hp htarget htype]
          exact ⟨_, hrun.step .poll, hshows.poll htype fun e he => ttyUnpack_reply he⟩
        · rw [hothers (.inl htype)]
          refine ⟨klog, hrun, hshows.silent ?_⟩
          unfold unpackedFrom
          split
          · exact if_neg htype
          · rfl

/-- With no test keys, the inputs are the scan codes that were read. -/
theorem scans_of_no_tests {inputs : List KeyInput} (h : testsOf inputs = []) :
    inputs = (KeyHistory.of inputs).read.map .scan := by
  induction inputs using List.reverseRecOn with
  | nil => rfl
  | append_singleton inputs i ih =>
    unfold testsOf at h
    rw [List.filterMap_append, List.append_eq_nil_iff] at h
    cases i with
    | test ascii queued => exact absurd h.2 (by simp)
    | scan scancode =>
      rw [KeyHistory.of_concat]
      show inputs ++ [.scan scancode] = ((KeyHistory.of inputs).read ++ [scancode]).map .scan
      rw [List.map_append, ← ih h.1]
      rfl

/-- **The keyboard through its service.**  While keys are typed, any callers send any
    messages to the service.  The events that they read out of the replies, followed by
    those that wait in the driver, are the events of the scan codes that were read, in
    order; and these, followed by those on the wire, are all that were typed. -/
theorem tty_delivers_keys (hp : p.keyboardPoll = keyboardPoll)
    (h : (ttySystem p).RunWhen ForTty log k) :
    ∃ read, read ++ k.devices.wire = typedOf log ∧
      unpackedOf log ++ k.devices.waiting = keyEvents read := by
  obtain ⟨klog, hrun, hshows⟩ := tty_refines_keyboard hp h
  obtain ⟨inputs, _, hdriven⟩ := Driven.run hrun
  have htests := hdriven.tests
  rw [hshows.injected] at htests
  refine ⟨(KeyHistory.of inputs).read, ?_, ?_⟩
  · rw [hdriven.scans, hshows.sent]
  · have hevents : deliveredOf klog ++ k.devices.waiting = (KeyHistory.of inputs).events :=
      hdriven.events
    unfold keyEvents
    rw [← scans_of_no_tests htests, ← hshows.delivered]
    exact hevents

end runs

/-! ## A letter -/

/-- `scdk_tty_service_init` -/
def ttyServiceInit : K KeyboardPort UInt64 := do
  .modify fun k => { k with devices := { k.devices with keyboard := k.devices.keyboard.init } }
  serviceInit .tty Service.tty

/-- A platform with a keyboard. -/
def keyboardPlatform : Platform KeyboardPort where
  consoleWrite := fun d _ => d
  consoleClear := fun d => (.ok (), d)
  consoleGetInfo := fun d => (.ok ⟨80, 25, 0, 0, 0⟩, d)
  consoleScroll := fun d _ => (.ok (), d)
  keyboardPoll := keyboardPoll
  spawn := fun k => (.error .notsup, k)
  devmgr := fun k => (.error .notsup, k)
  grantTest := fun k => (.error .notsup, k)
  yield := fun k => k

/-- A machine with the service, which has the first token of slot 0. -/
def ttyMachine : Kernel KeyboardPort :=
  let k := Kernel.zero ⟨[], true⟩
  (ttyServiceInit { k with devices := (⟨Keyboard.boot, []⟩ : KeyboardPort) }).2

/-- The letter was typed, and a caller polls. -/
def letterTyped : Kernel KeyboardPort := (ttyStep keyboardPlatform ttyMachine (.key 0x1e)).2

def letterPoll : TtyCall := .message (firstToken 0) (messageInit 0 Service.tty Msg.ttyPollEvent)

theorem tty_delivers_keys_letter :
    ∃ read, read ++ (ttyStep keyboardPlatform letterTyped letterPoll).2.devices.wire = [0x1e] ∧
      [⟨1, inputKeyDown, 97, 97, 0, 0⟩] = keyEvents read := by
  have hstart : (ttySystem keyboardPlatform).RunWhen ForTty [] ttyMachine :=
    .init ⟨.inr ⟨Keyboard.boot, rfl⟩, rfl⟩
  have hkey : ForTty ttyMachine (.key 0x1e) := trivial
  have htyped : (ttySystem keyboardPlatform).RunWhen ForTty [(.key 0x1e, none)] letterTyped :=
    hstart.step _ hkey
  have htty : ForTty letterTyped letterPoll := by
    intro objectId handler h
    have htarget : (endpointTarget letterTyped.objects letterTyped.caps letterTyped.endpoints
        (firstToken 0)).map Prod.snd = .ok .tty := by decide +kernel
    have hmap := congrArg (Except.map Prod.snd) h
    exact (Except.ok.inj (htarget.symm.trans hmap)).symm
  obtain ⟨read, hread, hevents⟩ := tty_delivers_keys rfl (htyped.step letterPoll htty)
  have hunpacked : unpackedOf ([(.key 0x1e, none)] ++
      [(letterPoll, (ttyStep keyboardPlatform letterTyped letterPoll).1)]) ++
      (ttyStep keyboardPlatform letterTyped letterPoll).2.devices.waiting =
      [⟨1, inputKeyDown, 97, 97, 0, 0⟩] := by decide +kernel
  exact ⟨read, hread, hunpacked.symm.trans hevents⟩

end Scdk
