import Scdk.Drivers.Keyboard
import Scdk.Lib.Run

/-! # The events of the keyboard

    What the driver makes of the scan codes it has read, in terms of the strokes they
    stand for: the modifiers are not flags here, but questions about the strokes so
    far.

    * `Stroke`, `strokes`: scan codes as presses and releases of keys,
    * `isHeld`, `capsIsOn`, `strokeEvent`: the event of a stroke, from the strokes before it,
    * `Decodes`: the flags of the driver answer the questions about the strokes,
    * `keyboardSystem`: the driver, driven by the keyboard and by its callers,
    * `key_events_exact`: in every run, the events that were polled and those that wait
      are the events of what was read, in order,
    * `keyboard_drains`: polling often enough delivers everything,
    * `timestamps_increase`: the order of the events is that of their timestamps. -/

namespace Scdk

/-! ## Strokes -/

/-- A key of the keyboard goes down or up. -/
structure Stroke where
  extended : Bool
  released : Bool
  code : UInt8
  deriving DecidableEq, Repr

/-- `0xe0` -/
def extendedPrefix : UInt8 := 0xe0

/-- The stroke of a scan code that is no prefix. -/
def Stroke.ofScancode (extended : Bool) (scancode : UInt8) : Stroke :=
  ⟨extended, decide (scancode &&& 0x80 ≠ 0), scancode &&& 0x7f⟩

/-- The strokes of some scan codes; `pending` when a prefix was read before them. -/
def strokesFrom (pending : Bool) : List UInt8 → List Stroke
  | [] => []
  | scancode :: rest =>
    if scancode = extendedPrefix then strokesFrom true rest
    else .ofScancode pending scancode :: strokesFrom false rest

/-- The strokes of all scan codes. -/
def strokes (read : List UInt8) : List Stroke := strokesFrom false read

/-- A prefix was read last. -/
def endsInPrefix (read : List UInt8) : Bool := decide (read.getLast? = some extendedPrefix)

theorem strokesFrom_concat (pending : Bool) (read : List UInt8) (scancode : UInt8) :
    strokesFrom pending (read ++ [scancode]) =
      if scancode = extendedPrefix then strokesFrom pending read
      else strokesFrom pending read ++
        [.ofScancode (if read = [] then pending else endsInPrefix read) scancode] := by
  induction read generalizing pending with
  | nil => simp [strokesFrom]
  | cons first rest ih =>
    have hlast : endsInPrefix (first :: rest) =
        if rest = [] then decide (first = extendedPrefix) else endsInPrefix rest := by
      cases rest <;> simp [endsInPrefix]
    simp only [List.cons_append, strokesFrom, ih, hlast]
    grind

theorem strokes_concat (read : List UInt8) (scancode : UInt8) :
    strokes (read ++ [scancode]) =
      if scancode = extendedPrefix then strokes read
      else strokes read ++ [.ofScancode (endsInPrefix read) scancode] := by
  have hnil : (if read = [] then false else endsInPrefix read) = endsInPrefix read := by
    cases read <;> simp [endsInPrefix]
  unfold strokes
  rw [strokesFrom_concat, hnil]

theorem endsInPrefix_concat (read : List UInt8) (scancode : UInt8) :
    endsInPrefix (read ++ [scancode]) = decide (scancode = extendedPrefix) := by
  simp [endsInPrefix]

/-! ## The event of a stroke -/

/-- The scan codes of the two shift keys. -/
def leftShift : UInt8 := 0x2a

def rightShift : UInt8 := 0x36

/-- The scan code of the caps lock key. -/
def capsKey : UInt8 := 0x3a

/-- The stroke is of the plain key with this code. -/
def Stroke.IsOf (code : UInt8) (s : Stroke) : Bool := !s.extended && s.code == code

/-- The key was pressed and not released since. -/
def isHeld (code : UInt8) (before : List Stroke) : Bool :=
  match (before.filter (Stroke.IsOf code)).getLast? with
  | none => false
  | some s => !s.released

def shiftIsHeld (before : List Stroke) : Bool := isHeld leftShift before || isHeld rightShift before

/-- The caps lock key was pressed an odd number of times. -/
def capsIsOn (before : List Stroke) : Bool :=
  (before.countP fun s => s.IsOf capsKey && !s.released) % 2 == 1

/-- The key of a stroke; the shift keys have none. -/
def Stroke.entry (s : Stroke) : KeyMapEntry :=
  if s.extended = true then extendedScancodeSet1 s.code else scancodeSet1 s.code

/-- The event of the last of some strokes, with its number. -/
def strokeEvent (clock : UInt64) (before : List Stroke) (s : Stroke) : Option InputEvent :=
  if s.IsOf leftShift = true ∨ s.IsOf rightShift = true ∨ s.entry.keycode = 0 then none
  else
    let shift := shiftIsHeld before
    let caps := capsIsOn (before ++ [s])
    some
      { timestamp := clock
        type := if s.released = true then inputKeyUp else inputKeyDown
        keycode := s.entry.keycode
        ascii := if s.released = true then 0 else Keyboard.asciiOf s.entry shift caps
        modifiers := Keyboard.modifierBits shift caps
        flags := 0 }

theorem isHeld_concat (code : UInt8) (before : List Stroke) (s : Stroke) :
    isHeld code (before ++ [s]) = if s.IsOf code = true then !s.released else isHeld code before := by
  unfold isHeld
  rw [List.filter_append]
  by_cases h : s.IsOf code = true
  · simp [h]
  · simp [h]

theorem capsIsOn_concat (before : List Stroke) (s : Stroke) :
    capsIsOn (before ++ [s]) = ((s.IsOf capsKey && !s.released) != capsIsOn before) := by
  unfold capsIsOn
  rw [List.countP_append]
  by_cases h : (s.IsOf capsKey && !s.released) = true
  · simp only [h, List.countP_singleton, if_true]
    rcases Nat.mod_two_eq_zero_or_one (before.countP fun s => s.IsOf capsKey && !s.released)
      with hmod | hmod <;> simp [Nat.add_mod, hmod]
  · simp [h]

/-! ## The flags -/

/-- The only key with the caps lock code is the plain caps lock key. -/
theorem keyMap_capsLock {entries : List (UInt8 × KeyMapEntry)} {code : UInt8}
    (h : (keyMap entries code).keycode = Key.capsLock) :
    ∃ p ∈ entries, p.1 = code ∧ p.2.keycode = Key.capsLock := by
  unfold keyMap at h
  cases hfind : entries.lookup code with
  | none =>
    rw [hfind] at h
    exact absurd h (by decide)
  | some entry =>
    rw [hfind] at h
    obtain ⟨l, l', rfl, _⟩ := List.lookup_eq_some_iff.mp hfind
    exact ⟨(code, entry), by simp, rfl, h⟩

theorem entry_capsLock (s : Stroke) : s.entry.keycode = Key.capsLock ↔ s.IsOf capsKey = true := by
  unfold Stroke.entry Stroke.IsOf
  cases s.extended with
  | true =>
    -- No extended key is a caps lock.
    simp only [if_true, Bool.not_true, Bool.false_and, Bool.false_eq_true, iff_false]
    intro h
    obtain ⟨p, hp, _, hkey⟩ := keyMap_capsLock h
    have hnone : ∀ p ∈ extendedScancodeSet1Entries, p.2.keycode ≠ Key.capsLock := by decide
    exact hnone p hp hkey
  | false =>
    simp only [Bool.false_eq_true, if_false, Bool.not_false, Bool.true_and, beq_iff_eq]
    constructor
    · intro h
      obtain ⟨p, hp, hcode, hkey⟩ := keyMap_capsLock h
      have honly : ∀ p ∈ scancodeSet1Entries, p.2.keycode = Key.capsLock → p.1 = capsKey := by decide
      rw [← hcode]
      exact honly p hp hkey
    · intro h
      rw [h]
      decide

/-- The flags of the driver answer the questions about the strokes it has read. -/
structure Decodes (kb : Keyboard) (read : List UInt8) : Prop where
  pending : kb.extendedPending = endsInPrefix read
  left : kb.leftShiftDown = isHeld leftShift (strokes read)
  right : kb.rightShiftDown = isHeld rightShift (strokes read)
  caps : kb.capsLockOn = capsIsOn (strokes read)

/-- The event of the scan code that is read next, with its number. -/
def scanEvent (clock : UInt64) (read : List UInt8) (scancode : UInt8) : Option InputEvent :=
  if scancode = extendedPrefix then none
  else strokeEvent clock (strokes read) (.ofScancode (endsInPrefix read) scancode)

/-- No code is out of the tables. -/
theorem code_lt (scancode : UInt8) : ¬ 128 ≤ scancode &&& 0x7f := by
  rw [UInt8.not_le, UInt8.lt_iff_toNat_lt, UInt8.toNat_and]
  exact Nat.and_lt_two_pow _ (show (0x7f : UInt8).toNat < 2 ^ 7 by decide)

/-- What reading a scan code does to the driver, apart from the flags of the strokes:
    with an event there is one more in the queue. -/
inductive Reads (kb : Keyboard) : Option InputEvent → Keyboard → Prop where
  | nothing {kb' : Keyboard} : kb'.queue = kb.queue → kb'.eventClock = kb.eventClock →
      kb'.initialized = kb.initialized → Reads kb none kb'
  | event {kb' : Keyboard} {e : InputEvent} : kb'.queue = kb.queue.push e →
      kb'.eventClock = kb.eventClock + 1 → kb'.initialized = kb.initialized → Reads kb (some e) kb'

section handle

variable {kb kb' : Keyboard} {read : List UInt8} {scancode : UInt8}

theorem Stroke.isOf_unique {s : Stroke} {code code' : UInt8} (h : s.IsOf code = true)
    (hne : code ≠ code') : s.IsOf code' = false := by
  simp only [Stroke.IsOf, Bool.and_eq_true, Bool.not_eq_true', beq_iff_eq] at h
  simp [Stroke.IsOf, h.1, h.2, hne]

/-- The flags after a stroke. -/
theorem Decodes.stroke (h : Decodes kb read) (hplain : scancode ≠ extendedPrefix) {s : Stroke}
    (hs : s = .ofScancode (endsInPrefix read) scancode) (hpending : kb'.extendedPending = false)
    (hleft : kb'.leftShiftDown = if s.IsOf leftShift = true then !s.released else kb.leftShiftDown)
    (hright : kb'.rightShiftDown =
      if s.IsOf rightShift = true then !s.released else kb.rightShiftDown)
    (hcaps : kb'.capsLockOn = ((s.IsOf capsKey && !s.released) != kb.capsLockOn)) :
    Decodes kb' (read ++ [scancode]) := by
  have hsnoc : strokes (read ++ [scancode]) = strokes read ++ [s] := by
    rw [strokes_concat, if_neg hplain, hs]
  constructor
  · simp [endsInPrefix_concat, hplain, hpending]
  · rw [hleft, hsnoc, isHeld_concat, h.left]
  · rw [hright, hsnoc, isHeld_concat, h.right]
  · rw [hcaps, hsnoc, capsIsOn_concat, h.caps]

/-- The end of `handle_scancode` queues the event of the stroke. -/
theorem Keyboard.keyEvent_room (hroom : kb.queue.count < keyQueueSize) (entry : KeyMapEntry)
    (released : Bool) :
    (kb.keyEvent entry released).2 =
      { kb with
        capsLockOn := (decide (entry.keycode = Key.capsLock) && !released) != kb.capsLockOn
        eventClock := kb.eventClock + 1
        queue := kb.queue.push
          { timestamp := kb.eventClock + 1
            type := if released = true then inputKeyUp else inputKeyDown
            keycode := entry.keycode
            ascii := if released = true then 0 else asciiOf entry kb.shiftDown
              ((decide (entry.keycode = Key.capsLock) && !released) != kb.capsLockOn)
            modifiers := modifierBits kb.shiftDown
              ((decide (entry.keycode = Key.capsLock) && !released) != kb.capsLockOn)
            flags := 0 } } := by
  unfold Keyboard.keyEvent Keyboard.enqueueEvent
  by_cases hcaps : entry.keycode = Key.capsLock ∧ released = false
  · have hyes : (decide (entry.keycode = Key.capsLock) && !released) = true := by
      simpa using hcaps
    simp only [if_pos hcaps, if_neg (Nat.not_le.mpr hroom), hyes, Bool.true_bne]
    rfl
  · have hno : (decide (entry.keycode = Key.capsLock) && !released) = false := by
      simpa using hcaps
    simp only [if_neg hcaps, if_neg (Nat.not_le.mpr hroom), hno, Bool.false_bne]
    rfl

/-- **One scan code.**  With room in the queue, the driver queues the event of the
    stroke that the scan code completes, if it has one. -/
theorem Decodes.handleScancode (h : Decodes kb read) (hroom : kb.queue.count < keyQueueSize)
    (scancode : UInt8) :
    Decodes (kb.handleScancode scancode).2 (read ++ [scancode]) ∧
      Reads kb (scanEvent (kb.eventClock + 1) read scancode) (kb.handleScancode scancode).2 := by
  unfold Keyboard.handleScancode scanEvent
  by_cases hplain : scancode = extendedPrefix
  · -- A prefix changes the meaning of the next scan code only.
    subst hplain
    have hsame : strokes (read ++ [extendedPrefix]) = strokes read := by
      rw [strokes_concat, if_pos rfl]
    rw [if_pos (show extendedPrefix = 0xe0 from rfl), if_pos rfl]
    refine ⟨⟨?_, ?_, ?_, ?_⟩, .nothing rfl rfl rfl⟩
    · simp [endsInPrefix_concat]
    · simp [hsame, h.left]
    · simp [hsame, h.right]
    · simp [hsame, h.caps]
  · rw [if_neg (show ¬ scancode = 0xe0 from hplain), if_neg hplain]
    generalize hs : Stroke.ofScancode (endsInPrefix read) scancode = s
    have hcode : scancode &&& 0x7f = s.code := by rw [← hs]; rfl
    have hreleased : decide (scancode &&& 0x80 ≠ 0) = s.released := by rw [← hs]; rfl
    have hextended : kb.extendedPending = s.extended := by rw [h.pending, ← hs]; rfl
    have hof : ∀ code, s.extended = false ∧ s.code = code ↔ s.IsOf code = true := by
      simp [Stroke.IsOf]
    have hofLeft : s.extended = false ∧ s.code = 0x2a ↔ s.IsOf leftShift = true := hof leftShift
    have hofRight : s.extended = false ∧ s.code = 0x36 ↔ s.IsOf rightShift = true := hof rightShift
    have hlt := code_lt scancode
    dsimp only
    unfold strokeEvent
    rw [hcode] at hlt
    simp only [hcode, hreleased, hextended, hofLeft, hofRight]
    by_cases hleft : s.IsOf leftShift = true
    · rw [if_pos hleft, if_pos (.inl hleft)]
      refine ⟨h.stroke hplain hs.symm rfl ?_ ?_ ?_, .nothing rfl rfl rfl⟩
      · simp [hleft]
      · simp [Stroke.isOf_unique hleft (show leftShift ≠ rightShift by decide)]
      · simp [Stroke.isOf_unique hleft (show leftShift ≠ capsKey by decide)]
    rw [if_neg hleft]
    by_cases hright : s.IsOf rightShift = true
    · rw [if_pos hright, if_pos (.inr (.inl hright))]
      refine ⟨h.stroke hplain hs.symm rfl ?_ ?_ ?_, .nothing rfl rfl rfl⟩
      · simp [hleft]
      · simp [hright]
      · simp [Stroke.isOf_unique hright (show rightShift ≠ capsKey by decide)]
    rw [if_neg hright, if_neg hlt]
    have hentry : (if s.extended = true then extendedScancodeSet1 s.code else scancodeSet1 s.code) =
        s.entry := rfl
    rw [hentry]
    by_cases hkey : s.entry.keycode = 0
    · -- A key without an entry is no caps lock either.
      have hcaps : s.IsOf capsKey = false := by
        rw [← Bool.not_eq_true, ← entry_capsLock, hkey]
        decide
      rw [if_pos hkey, if_pos (.inr (.inr hkey))]
      refine ⟨h.stroke hplain hs.symm rfl ?_ ?_ ?_, .nothing rfl rfl rfl⟩
      · simp [hleft]
      · simp [hright]
      · simp [hcaps]
    · have hcaps : decide (s.entry.keycode = Key.capsLock) = s.IsOf capsKey := by
        rw [Bool.eq_iff_iff, decide_eq_true_eq]
        exact entry_capsLock s
      have hshift : kb.shiftDown = shiftIsHeld (strokes read) := by
        simp [Keyboard.shiftDown, shiftIsHeld, h.left, h.right]
      rw [if_neg hkey, if_neg (by simp [hleft, hright, hkey])]
      have hroom' : ({ kb with extendedPending := false } : Keyboard).queue.count < keyQueueSize := hroom
      rw [Keyboard.keyEvent_room hroom']
      refine ⟨h.stroke hplain hs.symm rfl ?_ ?_ ?_, .event ?_ rfl rfl⟩
      · simp [hleft]
      · simp [hright]
      · simp [hcaps]
      · rw [capsIsOn_concat, ← h.caps, ← hshift, ← hcaps]
        rfl

end handle

/-! ## Histories -/

/-- What the driver has taken in: scan codes, and test keys, which may have found the
    queue full. -/
inductive KeyInput where
  | scan (scancode : UInt8)
  | test (ascii : UInt32) (queued : Bool)
  deriving DecidableEq, Repr

/-- What the inputs amount to: the number of the last event, the scan codes, and the
    events that were queued. -/
structure KeyHistory where
  clock : UInt64
  read : List UInt8
  events : List InputEvent

namespace KeyHistory

/-- One more input.  A test key that finds the queue full has a number, but no event. -/
def next (h : KeyHistory) : KeyInput → KeyHistory
  | .scan scancode =>
    let event := scanEvent (h.clock + 1) h.read scancode
    { clock := if event.isSome = true then h.clock + 1 else h.clock
      read := h.read ++ [scancode]
      events := h.events ++ event.toList }
  | .test ascii queued =>
    { h with
      clock := h.clock + 1
      events :=
        if queued = true then h.events ++ [⟨h.clock + 1, inputKeyDown, ascii, ascii, 0, 0⟩]
        else h.events }

theorem next_scan_none {h : KeyHistory} {scancode : UInt8}
    (hevent : scanEvent (h.clock + 1) h.read scancode = none) :
    h.next (.scan scancode) = ⟨h.clock, h.read ++ [scancode], h.events⟩ := by
  simp [next, hevent]

theorem next_scan_some {h : KeyHistory} {scancode : UInt8} {e : InputEvent}
    (hevent : scanEvent (h.clock + 1) h.read scancode = some e) :
    h.next (.scan scancode) = ⟨h.clock + 1, h.read ++ [scancode], h.events ++ [e]⟩ := by
  simp [next, hevent]

/-- The history of some inputs, oldest first. -/
def of (inputs : List KeyInput) : KeyHistory := inputs.foldl next ⟨0, [], []⟩

theorem of_concat (inputs : List KeyInput) (i : KeyInput) : of (inputs ++ [i]) = (of inputs).next i :=
  List.foldl_concat _ _ _ _

end KeyHistory

/-- The test keys among some inputs, and whether they were queued. -/
def testsOf (inputs : List KeyInput) : List (UInt32 × Bool) :=
  inputs.filterMap fun
    | .test ascii queued => some (ascii, queued)
    | .scan _ => none

/-! ## Runs -/

/-- The keyboard sends a scan code, or the driver is called. -/
inductive KeyCall where
  | send (scancode : UInt8)
  | poll
  | inject (ascii : UInt32)
  deriving DecidableEq, Repr

inductive KeyAnswer where
  | sent
  | polled (r : Except Err InputEvent)
  | injected (r : Except Err Unit)
  deriving DecidableEq

/-- One call. -/
def keyStep (port : KeyboardPort) : KeyCall → KeyAnswer × KeyboardPort
  | .send scancode => (.sent, { port with wire := port.wire ++ [scancode] })
  | .poll => (.polled (keyboardPoll port).1, (keyboardPoll port).2)
  | .inject ascii =>
    (.injected (port.keyboard.injectTestKey ascii).1,
      { port with keyboard := (port.keyboard.injectTestKey ascii).2 })

/-- The driver before its first call, or after `scdk_keyboard_init`. -/
structure KeyboardStart (port : KeyboardPort) : Prop where
  keyboard : port.keyboard = Keyboard.boot ∨ ∃ kb : Keyboard, port.keyboard = kb.init
  wire : port.wire = []

/-- The keyboard and its driver. -/
def keyboardSystem : System KeyboardPort KeyCall KeyAnswer where
  init := KeyboardStart
  step := keyStep

/-- The events that wait for a poll. -/
def KeyboardPort.waiting (port : KeyboardPort) : List InputEvent :=
  port.keyboard.ensureInitialized.queue.items

abbrev KeyLog : Type := List (KeyCall × KeyAnswer)

/-- The scan codes that were sent. -/
def sentOf (log : KeyLog) : List UInt8 :=
  log.filterMap fun
    | (.send scancode, _) => some scancode
    | _ => none

/-- The events that were returned by polls. -/
def deliveredOf (log : KeyLog) : List InputEvent :=
  log.filterMap fun
    | (_, .polled (.ok e)) => some e
    | _ => none

/-- The test keys that were injected, and whether they were queued. -/
def injectedOf (log : KeyLog) : List (UInt32 × Bool) :=
  log.filterMap fun
    | (.inject ascii, .injected (.ok _)) => some (ascii, true)
    | (.inject ascii, .injected (.error .busy)) => some (ascii, false)
    | _ => none

/-- The driver, which is initialized, has taken in some inputs, and these scan codes
    are on the wire. -/
structure Driven (inputs : List KeyInput) (log : KeyLog) (kb : Keyboard) (wire : List UInt8) :
    Prop where
  initialized : kb.initialized = true
  scans : (KeyHistory.of inputs).read ++ wire = sentOf log
  tests : testsOf inputs = injectedOf log
  events : deliveredOf log ++ kb.queue.items = (KeyHistory.of inputs).events
  decodes : Decodes kb (KeyHistory.of inputs).read
  clock : kb.eventClock = (KeyHistory.of inputs).clock
  wf : kb.queue.Wf

/-! ## One call -/

section step

variable {inputs : List KeyInput} {log : KeyLog} {port : KeyboardPort} {kb : Keyboard}
  {wire : List UInt8}

theorem Keyboard.ensureInitialized_of (h : kb.initialized = true) : kb.ensureInitialized = kb :=
  if_pos h

/-- The driver after `scdk_keyboard_init` has taken in nothing. -/
theorem Driven.start (h : KeyboardStart port) :
    Driven [] [] port.keyboard.ensureInitialized port.wire := by
  obtain ⟨hkeyboard, hwire⟩ := h
  obtain ⟨kb, hkb⟩ : ∃ kb : Keyboard, port.keyboard.ensureInitialized = kb.init := by
    rcases hkeyboard with hboot | ⟨kb, hinit⟩
    · exact ⟨Keyboard.boot, by rw [hboot]; rfl⟩
    · exact ⟨kb, by rw [hinit]; rfl⟩
  rw [hkb, hwire]
  constructor
  · rfl
  · simp [KeyHistory.of, sentOf]
  · rfl
  · simp [Keyboard.init, Fifo.items, KeyHistory.of, deliveredOf]
  · exact ⟨rfl, rfl, rfl, rfl⟩
  · rfl
  · exact ⟨rfl, Nat.zero_le _⟩

/-- The keyboard sends a scan code. -/
theorem Driven.send (h : Driven inputs log kb wire) (scancode : UInt8) :
    Driven inputs (log ++ [(.send scancode, .sent)]) kb (wire ++ [scancode]) where
  initialized := h.initialized
  scans := by
    rw [← List.append_assoc, h.scans]
    simp [sentOf]
  tests := by
    rw [h.tests]
    simp [injectedOf]
  events := by
    rw [← h.events]
    simp [deliveredOf]
  decodes := h.decodes
  clock := h.clock
  wf := h.wf

/-- A poll takes the first event that waits, or finds none. -/
theorem Driven.dequeue (h : Driven inputs log kb wire) :
    Driven inputs (log ++ [(.poll, .polled kb.dequeueEvent.1)]) kb.dequeueEvent.2 wire := by
  have hscans : ∀ r, sentOf (log ++ [(.poll, .polled r)]) = sentOf log := by simp [sentOf]
  have htests : ∀ r, injectedOf (log ++ [(.poll, .polled r)]) = injectedOf log := by simp [injectedOf]
  unfold Keyboard.dequeueEvent
  by_cases hcount : kb.queue.count = 0
  · rw [if_pos hcount]
    refine ⟨h.initialized, ?_, ?_, ?_, h.decodes, h.clock, h.wf⟩
    · rw [hscans, h.scans]
    · rw [htests, h.tests]
    · rw [← h.events]
      simp [deliveredOf]
  · rw [if_neg hcount]
    refine ⟨h.initialized, ?_, ?_, ?_, ?_, h.clock, h.wf.pop hcount⟩
    · rw [hscans, h.scans]
    · rw [htests, h.tests]
    · rw [← h.events, Fifo.items_pop hcount]
      simp [deliveredOf]
    · exact ⟨h.decodes.pending, h.decodes.left, h.decodes.right, h.decodes.caps⟩

/-- A scan code is read from the wire. -/
theorem Driven.scan {scancode : UInt8} (h : Driven inputs log kb (scancode :: wire))
    (hroom : kb.queue.count < keyQueueSize) :
    Driven (inputs ++ [.scan scancode]) log (kb.handleScancode scancode).2 wire := by
  obtain ⟨hdecodes, hreads⟩ := h.decodes.handleScancode hroom scancode
  rw [h.clock] at hreads
  have hnext : KeyHistory.of (inputs ++ [.scan scancode]) =
      (KeyHistory.of inputs).next (.scan scancode) := KeyHistory.of_concat _ _
  have hscans : ((KeyHistory.of inputs).read ++ [scancode]) ++ wire = sentOf log := by
    rw [List.append_assoc]
    exact h.scans
  have htests : testsOf (inputs ++ [.scan scancode]) = injectedOf log := by
    rw [← h.tests]
    simp [testsOf]
  generalize hevent :
    scanEvent ((KeyHistory.of inputs).clock + 1) (KeyHistory.of inputs).read scancode = event at hreads
  cases hreads with
  | nothing hqueue hclock hinit =>
    refine ⟨hinit.trans h.initialized, ?_, htests, ?_, ?_, ?_, ?_⟩
    · rw [hnext]
      exact hscans
    · rw [hnext, KeyHistory.next_scan_none hevent, hqueue, h.events]
    · rw [hnext]
      exact hdecodes
    · rw [hnext, KeyHistory.next_scan_none hevent, hclock, h.clock]
    · rw [hqueue]
      exact h.wf
  | event hqueue hclock hinit =>
    refine ⟨hinit.trans h.initialized, ?_, htests, ?_, ?_, ?_, ?_⟩
    · rw [hnext]
      exact hscans
    · rw [hnext, KeyHistory.next_scan_some hevent, hqueue, Fifo.items_push h.wf hroom,
        ← List.append_assoc, h.events]
    · rw [hnext]
      exact hdecodes
    · rw [hnext, KeyHistory.next_scan_some hevent, hclock, h.clock]
    · rw [hqueue]
      exact h.wf.push hroom _

/-- A test key gets a number, and an event where the queue takes it. -/
theorem Driven.test (h : Driven inputs log kb wire) {ascii : UInt32} {queued : Bool}
    {r : Except Err Unit} (hr : injectedOf [(.inject ascii, .injected r)] = [(ascii, queued)])
    {queue : Fifo keyQueueSize InputEvent} (hwf : queue.Wf)
    (hitems : queue.items = if queued = true then
        kb.queue.items ++ [⟨kb.eventClock + 1, inputKeyDown, ascii, ascii, 0, 0⟩]
      else kb.queue.items) :
    Driven (inputs ++ [.test ascii queued]) (log ++ [(.inject ascii, .injected r)])
      { kb with eventClock := kb.eventClock + 1, queue := queue } wire := by
  have hnext : KeyHistory.of (inputs ++ [.test ascii queued]) =
      (KeyHistory.of inputs).next (.test ascii queued) := KeyHistory.of_concat _ _
  have hdecodes := h.decodes
  refine ⟨h.initialized, ?_, ?_, ?_, ?_, ?_, hwf⟩
  · have hscans : sentOf (log ++ [(.inject ascii, .injected r)]) = sentOf log := by simp [sentOf]
    rw [hscans, hnext]
    exact h.scans
  · have htests := h.tests
    simp only [testsOf, injectedOf, List.filterMap_append] at htests hr ⊢
    rw [htests, hr]
    rfl
  · have hdelivered : deliveredOf (log ++ [(.inject ascii, .injected r)]) = deliveredOf log := by
      simp [deliveredOf]
    rw [hdelivered, hnext, hitems, h.clock]
    cases queued with
    | false => exact h.events
    | true =>
      rw [if_pos rfl, ← List.append_assoc, h.events]
      rfl
  · rw [hnext]
    exact ⟨hdecodes.pending, hdecodes.left, hdecodes.right, hdecodes.caps⟩
  · rw [hnext]
    exact congrArg (· + 1) h.clock

/-- A test key is injected. -/
theorem Driven.inject (h : Driven inputs log kb wire) (ascii : UInt32) :
    ∃ inputs', inputs'.length ≤ inputs.length + 1 ∧
      Driven inputs' (log ++ [(.inject ascii, .injected (kb.injectTestKey ascii).1)])
        (kb.injectTestKey ascii).2 wire := by
  unfold Keyboard.injectTestKey
  rw [Keyboard.ensureInitialized_of h.initialized]
  by_cases hinval : ascii = 0 ∨ 0x7f < ascii
  · -- Nothing was taken in.
    refine ⟨inputs, by omega, ?_⟩
    simp only [if_pos hinval]
    refine ⟨h.initialized, ?_, ?_, ?_, h.decodes, h.clock, h.wf⟩
    · rw [h.scans]
      simp [sentOf]
    · rw [h.tests]
      simp [injectedOf]
    · rw [← h.events]
      simp [deliveredOf]
  · -- The event has a number, and there may be room for it.
    simp only [if_neg hinval]
    by_cases hroom : kb.queue.count < keyQueueSize
    · refine ⟨inputs ++ [.test ascii true], by simp, ?_⟩
      simp only [Keyboard.enqueueEvent, if_neg (Nat.not_le.mpr hroom)]
      exact h.test rfl (h.wf.push hroom _) (Fifo.items_push h.wf hroom _)
    · refine ⟨inputs ++ [.test ascii false], by simp, ?_⟩
      simp only [Keyboard.enqueueEvent, if_pos (Nat.not_lt.mp hroom)]
      exact h.test rfl h.wf rfl

theorem KeyboardPort.waiting_eq_nil :
    port.waiting = [] ↔ port.keyboard.ensureInitialized.queue.count = 0 := by
  unfold KeyboardPort.waiting
  rw [← List.length_eq_zero_iff, Fifo.length_items]

/-- A poll takes the first event that waits; with none, it reads a scan code. -/
theorem keyboardPoll_cases (port : KeyboardPort) :
    (port.waiting ≠ [] ∨ port.wire = []) ∧
        keyboardPoll port =
          (port.keyboard.ensureInitialized.dequeueEvent.1,
            { port with keyboard := port.keyboard.ensureInitialized.dequeueEvent.2 }) ∨
      port.waiting = [] ∧ ∃ scancode wire, port.wire = scancode :: wire ∧
        keyboardPoll port =
          ((port.keyboard.ensureInitialized.handleScancode scancode).2.dequeueEvent.1,
            ⟨(port.keyboard.ensureInitialized.handleScancode scancode).2.dequeueEvent.2, wire⟩) := by
  unfold keyboardPoll
  rw [ne_eq, KeyboardPort.waiting_eq_nil]
  generalize port.keyboard.ensureInitialized = kb
  by_cases hcount : kb.queue.count = 0
  · have hnone : kb.dequeueEvent = (.error .noent, kb) := if_pos hcount
    simp only [hnone]
    cases hwire : port.wire with
    | nil => exact .inl ⟨.inr rfl, rfl⟩
    | cons scancode wire => exact .inr ⟨hcount, scancode, wire, rfl, rfl⟩
  · have hsome : kb.dequeueEvent = (.ok kb.queue.front, { kb with queue := kb.queue.pop }) :=
      if_neg hcount
    simp only [hsome]
    exact .inl ⟨.inl hcount, rfl⟩

theorem Keyboard.injectTestKey_ensure (kb : Keyboard) (ascii : UInt32) :
    kb.injectTestKey ascii = kb.ensureInitialized.injectTestKey ascii := by
  have hinit : kb.ensureInitialized.initialized = true := by
    unfold Keyboard.ensureInitialized
    split
    · assumption
    · rfl
  unfold Keyboard.injectTestKey
  rw [Keyboard.ensureInitialized_of hinit]

/-- A test key is refused for want of room only when the queue is full. -/
theorem Driven.inject_answer (h : Driven inputs log port.keyboard.ensureInitialized port.wire)
    (ascii : UInt32) :
    (port.keyboard.injectTestKey ascii).1 =
      if ascii = 0 ∨ 0x7f < ascii then .error .inval
      else if port.waiting.length = keyQueueSize then .error .busy
      else .ok () := by
  unfold Keyboard.injectTestKey KeyboardPort.waiting
  by_cases hinval : ascii = 0 ∨ 0x7f < ascii
  · simp only [if_pos hinval]
  · have hcount := h.wf.count
    simp only [if_neg hinval, Keyboard.enqueueEvent, Fifo.length_items]
    by_cases hfull : port.keyboard.ensureInitialized.queue.count = keyQueueSize
    · rw [if_pos (Nat.le_of_eq hfull.symm), if_pos hfull]
    · rw [if_neg (by omega), if_neg hfull]

/-- One call. -/
theorem Driven.step (h : Driven inputs log port.keyboard.ensureInitialized port.wire)
    (call : KeyCall) :
    ∃ inputs', inputs'.length ≤ inputs.length + 1 ∧
      Driven inputs' (log ++ [(call, (keyStep port call).1)])
        (keyStep port call).2.keyboard.ensureInitialized (keyStep port call).2.wire := by
  -- A driver that was called is initialized.
  have hready : ∀ {inputs : List KeyInput} {log : KeyLog} {kb : Keyboard} {wire : List UInt8},
      Driven inputs log kb wire → Driven inputs log kb.ensureInitialized wire := by
    intro inputs log kb wire h'
    rw [Keyboard.ensureInitialized_of h'.initialized]
    exact h'
  cases call with
  | send scancode => exact ⟨inputs, by omega, h.send scancode⟩
  | inject ascii =>
    obtain ⟨inputs', hlen, h'⟩ := h.inject ascii
    rw [← Keyboard.injectTestKey_ensure] at h'
    exact ⟨inputs', hlen, hready h'⟩
  | poll =>
    simp only [keyStep]
    rcases keyboardPoll_cases port with ⟨_, hpoll⟩ | ⟨hnone, scancode, wire, hwire, hpoll⟩
    · rw [hpoll]
      exact ⟨inputs, by omega, hready h.dequeue⟩
    · rw [hpoll]
      rw [hwire] at h
      have hcount := KeyboardPort.waiting_eq_nil.mp hnone
      exact ⟨_, by simp, hready (h.scan (by rw [hcount]; decide)).dequeue⟩

end step

/-! ## Runs -/

section runs

variable {log : KeyLog} {port : KeyboardPort}

theorem Driven.run (h : keyboardSystem.Run log port) :
    ∃ inputs, inputs.length ≤ log.length ∧
      Driven inputs log port.keyboard.ensureInitialized port.wire := by
  induction h with
  | init h0 => exact ⟨[], Nat.le_refl _, .start h0⟩
  | step call _ _ ih =>
    obtain ⟨inputs, hlen, hdriven⟩ := ih
    obtain ⟨inputs', hlen', hdriven'⟩ := hdriven.step call
    refine ⟨inputs', ?_, hdriven'⟩
    rw [List.length_append, List.length_singleton]
    omega

/-- **Key events.**  In every run, the scan codes that were sent are those the driver
    has read, in order, and those still on the wire.  The events that polls returned,
    followed by those that wait, are the events of what was read and of the test keys
    that were accepted: each once, in the order in which they came in, and each with
    the modifiers that the strokes before it call for.  A test key was lost only where
    the queue was full when it was injected. -/
theorem key_events_exact (h : keyboardSystem.Run log port) :
    (∃ inputs,
      (KeyHistory.of inputs).read ++ port.wire = sentOf log ∧
      testsOf inputs = injectedOf log ∧
      deliveredOf log ++ port.waiting = (KeyHistory.of inputs).events) ∧
    ∀ pre ascii answer post, log = pre ++ (.inject ascii, answer) :: post →
      ∃ port₀, keyboardSystem.Run pre port₀ ∧
        answer = .injected (if ascii = 0 ∨ 0x7f < ascii then .error .inval
          else if port₀.waiting.length = keyQueueSize then .error .busy
          else .ok ()) := by
  constructor
  · obtain ⟨inputs, _, hdriven⟩ := Driven.run h
    exact ⟨inputs, hdriven.scans, hdriven.tests, hdriven.events⟩
  · intro pre ascii answer post hlog
    obtain ⟨port₀, hrun, _, hanswer⟩ := System.RunWhen.cut h hlog
    obtain ⟨_, _, hdriven⟩ := Driven.run hrun
    exact ⟨port₀, hrun, by rw [← hanswer, ← hdriven.inject_answer]; rfl⟩

/-- A shift key and a letter, two polls and a test key; and after 32 test keys the next one
    finds the queue full. -/
theorem key_events_exact_letter :
    (∃ inputs, (KeyHistory.of inputs).read = [0x2a, 0x1e] ∧ testsOf inputs = [(98, true)] ∧
      (KeyHistory.of inputs).events =
        [⟨1, inputKeyDown, 97, 65, inputModShift, 0⟩, ⟨2, inputKeyDown, 98, 98, 0, 0⟩]) ∧
    ∃ log port, keyboardSystem.Run log port ∧ port.waiting.length = keyQueueSize := by
  have hstart : keyboardSystem.Run [] ⟨Keyboard.boot, []⟩ := .init ⟨.inl rfl, rfl⟩
  constructor
  · obtain ⟨⟨inputs, hread, htests, hevents⟩, _⟩ := key_events_exact
      (((((hstart.step (.send 0x2a)).step (.send 0x1e)).step .poll).step .poll).step (.inject 98))
    refine ⟨inputs, ?_, htests, hevents.symm⟩
    exact (List.append_nil _).symm.trans hread
  · -- The last of 33 test keys is refused, and that says that 32 events wait.
    obtain ⟨log, hfull⟩ := hstart.exec (List.replicate 32 (.inject 97))
    obtain ⟨port, hrun, hanswer⟩ := (key_events_exact (hfull.step (.inject 97))).2 log 97 _ [] rfl
    refine ⟨log, port, hrun, ?_⟩
    by_contra hroom
    rw [if_neg (by decide), if_neg hroom] at hanswer
    have hbusy : (keyStep (keyboardSystem.exec ⟨Keyboard.boot, []⟩ (List.replicate 32 (.inject 97)))
        (.inject 97)).1 = .injected (.error .busy) := by decide +kernel
    exact absurd (hbusy.symm.trans hanswer) (by simp)

/-! ### Draining -/

/-- So many polls, one after the other: the events they return, and what is left. -/
def pollTimes : Nat → KeyboardPort → List InputEvent × KeyboardPort
  | 0, port => ([], port)
  | n + 1, port =>
    let rest := pollTimes n (keyboardPoll port).2
    ((keyboardPoll port).1.toOption.toList ++ rest.1, rest.2)

/-- How many polls it takes until everything is delivered. -/
def KeyboardPort.backlog (port : KeyboardPort) : Nat := port.wire.length + port.waiting.length

/-- A queue with one event at most is empty after it was asked. -/
theorem Keyboard.dequeueEvent_count {kb : Keyboard} (h : kb.queue.count ≤ 1) :
    kb.dequeueEvent.2.queue.count = 0 := by
  unfold Keyboard.dequeueEvent
  split
  · assumption
  · simp only [Fifo.pop]
    omega

theorem KeyboardPort.backlog_poll (h : keyboardSystem.Run log port) :
    (keyboardPoll port).2.backlog = port.backlog - 1 := by
  obtain ⟨inputs, _, hdriven⟩ := Driven.run h
  have hinit := hdriven.initialized
  unfold KeyboardPort.backlog KeyboardPort.waiting
  rw [Fifo.length_items, Fifo.length_items]
  rcases keyboardPoll_cases port with ⟨hsome, hpoll⟩ | ⟨hnone, scancode, wire, hwire, hpoll⟩
  · rw [hpoll]
    rw [ne_eq, KeyboardPort.waiting_eq_nil] at hsome
    have hready := hdriven.dequeue.initialized
    simp only [Keyboard.ensureInitialized_of hready]
    unfold Keyboard.dequeueEvent
    by_cases hcount : port.keyboard.ensureInitialized.queue.count = 0
    · have hwire := hsome.resolve_left (not_not.mpr hcount)
      simp [hcount, hwire]
    · simp only [if_neg hcount, Fifo.pop]
      omega
  · rw [hpoll]
    have hcount := KeyboardPort.waiting_eq_nil.mp hnone
    rw [hwire] at hdriven
    have hroom : port.keyboard.ensureInitialized.queue.count < keyQueueSize := by
      rw [hcount]
      decide
    -- One scan code makes one event at most, and that one is returned.
    obtain ⟨_, hreads⟩ := hdriven.decodes.handleScancode hroom scancode
    have hone : (port.keyboard.ensureInitialized.handleScancode scancode).2.queue.count ≤ 1 := by
      generalize scanEvent _ _ scancode = event at hreads
      cases hreads with
      | nothing hqueue _ _ =>
        rw [hqueue, hcount]
        exact Nat.zero_le 1
      | event hqueue _ _ =>
        rw [hqueue]
        show port.keyboard.ensureInitialized.queue.count + 1 ≤ 1
        rw [hcount]
    have hready := (hdriven.scan hroom).dequeue.initialized
    simp only [Keyboard.ensureInitialized_of hready, Keyboard.dequeueEvent_count hone, hwire, hcount,
      List.length_cons]
    omega

/-- **Draining.**  After as many polls as there are scan codes on the wire and events in
    the queue, everything that was sent has been read, and its events, with those of the
    test keys, have been delivered. -/
theorem keyboard_drains (h : keyboardSystem.Run log port) {n : Nat}
    (hn : port.wire.length + port.waiting.length ≤ n) :
    (pollTimes n port).2.wire = [] ∧ (pollTimes n port).2.waiting = [] ∧
      ∃ inputs, (KeyHistory.of inputs).read = sentOf log ∧ testsOf inputs = injectedOf log ∧
        deliveredOf log ++ (pollTimes n port).1 = (KeyHistory.of inputs).events := by
  induction n generalizing log port with
  | zero =>
    obtain ⟨inputs, _, hdriven⟩ := Driven.run h
    have hwire : port.wire = [] := List.length_eq_zero_iff.mp (by omega)
    have hwaiting : port.waiting = [] := List.length_eq_zero_iff.mp (by omega)
    have hread : (KeyHistory.of inputs).read ++ port.wire = sentOf log := hdriven.scans
    rw [hwire, List.append_nil] at hread
    have hevents : deliveredOf log ++ port.waiting = (KeyHistory.of inputs).events := hdriven.events
    rw [hwaiting] at hevents
    exact ⟨hwire, hwaiting, inputs, hread, hdriven.tests, hevents⟩
  | succ n ih =>
    have hnext : keyboardSystem.Run (log ++ [(.poll, .polled (keyboardPoll port).1)])
        (keyboardPoll port).2 := h.step .poll
    have hless := KeyboardPort.backlog_poll h
    unfold KeyboardPort.backlog at hless
    obtain ⟨hwire, hwaiting, inputs, hread, htests, hevents⟩ := ih hnext (by omega)
    refine ⟨hwire, hwaiting, inputs, ?_, ?_, ?_⟩
    · rw [hread]
      simp [sentOf]
    · rw [htests]
      simp [injectedOf]
    · rw [← hevents]
      cases hpoll : (keyboardPoll port).1 <;>
        simp [deliveredOf, pollTimes, hpoll, Except.toOption]

/-- A prefix and the code of an arrow key. -/
theorem keyboard_drains_arrow :
    (pollTimes 2 ⟨Keyboard.boot, [0xe0, 0x48]⟩).2.wire = [] ∧
      (pollTimes 2 ⟨Keyboard.boot, [0xe0, 0x48]⟩).2.waiting = [] ∧
      ∃ inputs, (KeyHistory.of inputs).read = [0xe0, 0x48] ∧ testsOf inputs = [] ∧
        (pollTimes 2 ⟨Keyboard.boot, [0xe0, 0x48]⟩).1 = (KeyHistory.of inputs).events :=
  have hstart : keyboardSystem.Run [] ⟨Keyboard.boot, []⟩ := .init ⟨.inl rfl, rfl⟩
  keyboard_drains ((hstart.step (.send 0xe0)).step (.send 0x48)) (n := 2) (by decide)

/-! ### Timestamps -/

theorem scanEvent_timestamp {clock : UInt64} {read : List UInt8} {scancode : UInt8} {e : InputEvent}
    (h : scanEvent clock read scancode = some e) : e.timestamp = clock := by
  unfold scanEvent strokeEvent at h
  split at h
  · cases h
  split at h
  · cases h
  · cases h
    rfl

/-- The events so far are numbered upwards, up to the clock. -/
structure KeyHistory.Numbered (h : KeyHistory) : Prop where
  sorted : h.events.Pairwise fun e e' => e.timestamp < e'.timestamp
  upto : ∀ e ∈ h.events, e.timestamp ≤ h.clock

/-- One more event with the next number. -/
theorem KeyHistory.Numbered.concat {h : KeyHistory} (hnum : h.Numbered)
    (hclock : h.clock < h.clock + 1) {e : InputEvent} (he : e.timestamp = h.clock + 1)
    (read : List UInt8) : (KeyHistory.mk (h.clock + 1) read (h.events ++ [e])).Numbered where
  sorted := by
    rw [List.pairwise_append]
    refine ⟨hnum.sorted, List.pairwise_singleton _ _, fun e₀ he₀ e₁ he₁ => ?_⟩
    rw [List.mem_singleton.mp he₁, he]
    exact UInt64.lt_of_le_of_lt (hnum.upto e₀ he₀) hclock
  upto := by
    intro e₀ he₀
    rcases List.mem_append.mp he₀ with hold | hnew
    · exact UInt64.le_of_lt (UInt64.lt_of_le_of_lt (hnum.upto e₀ hold) hclock)
    · rw [List.mem_singleton.mp hnew, he]
      exact UInt64.le_refl _

/-- A number that no event has. -/
theorem KeyHistory.Numbered.skip {h : KeyHistory} (hnum : h.Numbered)
    (hclock : h.clock < h.clock + 1) (read : List UInt8) :
    (KeyHistory.mk (h.clock + 1) read h.events).Numbered where
  sorted := hnum.sorted
  upto := fun e he => UInt64.le_of_lt (UInt64.lt_of_le_of_lt (hnum.upto e he) hclock)

/-- As long as the clock does not wrap, the events are numbered upwards. -/
theorem KeyHistory.numbered (inputs : List KeyInput) (hlen : inputs.length < 2 ^ 64) :
    (of inputs).clock.toNat ≤ inputs.length ∧ (of inputs).Numbered := by
  induction inputs using List.reverseRecOn with
  | nil => exact ⟨Nat.le_refl _, .nil, fun e he => absurd he List.not_mem_nil⟩
  | append_singleton inputs i ih =>
    rw [List.length_append, List.length_singleton] at hlen ⊢
    obtain ⟨hle, hnum⟩ := ih (by omega)
    rw [of_concat]
    generalize of inputs = h at hle hnum
    have hsucc : (h.clock + 1).toNat = h.clock.toNat + 1 := by
      rw [UInt64.toNat_add, UInt64.toNat_one, Nat.mod_eq_of_lt (by omega)]
    have hclock : h.clock < h.clock + 1 := by
      rw [UInt64.lt_iff_toNat_lt, hsucc]
      exact Nat.lt_succ_self _
    cases i with
    | test ascii queued =>
      refine ⟨by simp only [next]; omega, ?_⟩
      cases queued with
      | true => exact hnum.concat hclock rfl _
      | false => exact hnum.skip hclock _
    | scan scancode =>
      cases hevent : scanEvent (h.clock + 1) h.read scancode with
      | none =>
        rw [next_scan_none hevent]
        exact ⟨Nat.le_succ_of_le hle, hnum.sorted, hnum.upto⟩
      | some e =>
        rw [next_scan_some hevent]
        refine ⟨?_, hnum.concat hclock (scanEvent_timestamp hevent) _⟩
        rw [hsucc]
        exact Nat.succ_le_succ hle

/-- **Timestamps.**  In a run of fewer than `2 ^ 64` calls, the events that polls have
    returned and those that wait have different timestamps, which grow in the order
    in which the events are delivered. -/
theorem timestamps_increase (h : keyboardSystem.Run log port) (hlen : log.length < 2 ^ 64) :
    (deliveredOf log ++ port.waiting).Pairwise fun e e' => e.timestamp < e'.timestamp := by
  obtain ⟨inputs, hshort, hdriven⟩ := Driven.run h
  have hevents : deliveredOf log ++ port.waiting = (KeyHistory.of inputs).events := hdriven.events
  rw [hevents]
  exact (KeyHistory.numbered inputs (Nat.lt_of_le_of_lt hshort hlen)).2.sorted

/-- Two test keys, of which one was polled. -/
theorem timestamps_increase_two :
    ([⟨1, inputKeyDown, 97, 97, 0, 0⟩, ⟨2, inputKeyDown, 98, 98, 0, 0⟩] : List InputEvent).Pairwise
      fun e e' => e.timestamp < e'.timestamp :=
  have hstart : keyboardSystem.Run [] ⟨Keyboard.boot, []⟩ := .init ⟨.inl rfl, rfl⟩
  timestamps_increase (((hstart.step (.inject 97)).step (.inject 98)).step .poll) (by decide)

end runs

end Scdk
