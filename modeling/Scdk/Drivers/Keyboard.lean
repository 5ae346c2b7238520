import Scdk.Kernel
import Scdk.Lib.Fifo

/-! # The keyboard

    Model of `drivers/input/ps2_keyboard.c`: scan codes of set 1 become input events,
    which wait in a ring of 32 until they are polled.

    * `scancodeSet1`, `extendedScancodeSet1`: the key maps,
    * `Keyboard`: the statics of the driver,
    * `handleScancode`, `keyboardPoll`, `keyboardInjectTestKey`: the functions of the
      source.

    The controller holds the scan codes that the keyboard has sent and the driver has
    not read (`wire`).  The status port says that there is one, and the data port
    returns the first. -/

namespace Scdk

/-! ## Key maps -/

/-- `KEY_QUEUE_SIZE` -/
abbrev keyQueueSize : Nat := 32

instance neZero_keyQueueSize : NeZero keyQueueSize := ⟨by decide⟩

/-! `enum scdk_keycode` -/

namespace Key

def enter : UInt32 := 13
def backspace : UInt32 := 8
def tab : UInt32 := 9
def escape : UInt32 := 27
def capsLock : UInt32 := 0x3a
def home : UInt32 := 0x100
def up : UInt32 := 0x101
def pageUp : UInt32 := 0x102
def left : UInt32 := 0x103
def right : UInt32 := 0x104
def endKey : UInt32 := 0x105
def down : UInt32 := 0x106
def pageDown : UInt32 := 0x107

end Key

/-- `SCDK_INPUT_KEY_DOWN` -/
def inputKeyDown : UInt32 := 1

/-- `SCDK_INPUT_KEY_UP` -/
def inputKeyUp : UInt32 := 2

/-- `SCDK_INPUT_MOD_SHIFT` -/
def inputModShift : UInt32 := 1

/-- `SCDK_INPUT_MOD_CAPS_LOCK` -/
def inputModCapsLock : UInt32 := 2

/-- `struct key_map_entry` -/
structure KeyMapEntry where
  keycode : UInt32
  normal : UInt8
  shifted : UInt8
  deriving DecidableEq, Repr

/-- The entries of `scancode_set1` that the source gives. -/
def scancodeSet1Entries : List (UInt8 × KeyMapEntry) :=
  [(0x01, ⟨Key.escape, 27, 27⟩),
   (0x02, ⟨49, 49, 33⟩),
   (0x03, ⟨50, 50, 64⟩),
   (0x04, ⟨51, 51, 35⟩),
   (0x05, ⟨52, 52, 36⟩),
   (0x06, ⟨53, 53, 37⟩),
   (0x07, ⟨54, 54, 94⟩),
   (0x08, ⟨55, 55, 38⟩),
   (0x09, ⟨56, 56, 42⟩),
   (0x0a, ⟨57, 57, 40⟩),
   (0x0b, ⟨48, 48, 41⟩),
   (0x0c, ⟨45, 45, 95⟩),
   (0x0d, ⟨61, 61, 43⟩),
   (0x0e, ⟨Key.backspace, 8, 8⟩),
   (0x0f, ⟨Key.tab, 9, 9⟩),
   (0x10, ⟨113, 113, 81⟩),
   (0x11, ⟨119, 119, 87⟩),
   (0x12, ⟨101, 101, 69⟩),
   (0x13, ⟨114, 114, 82⟩),
   (0x14, ⟨116, 116, 84⟩),
   (0x15, ⟨121, 121, 89⟩),
   (0x16, ⟨117, 117, 85⟩),
   (0x17, ⟨105, 105, 73⟩),
   (0x18, ⟨111, 111, 79⟩),
   (0x19, ⟨112, 112, 80⟩),
   (0x1a, ⟨91, 91, 123⟩),
   (0x1b, ⟨93, 93, 125⟩),
   (0x1c, ⟨Key.enter, 10, 10⟩),
   (0x1e, ⟨97, 97, 65⟩),
   (0x1f, ⟨115, 115, 83⟩),
   (0x20, ⟨100, 100, 68⟩),
   (0x21, ⟨102, 102, 70⟩),
   (0x22, ⟨103, 103, 71⟩),
   (0x23, ⟨104, 104, 72⟩),
   (0x24, ⟨106, 106, 74⟩),
   (0x25, ⟨107, 107, 75⟩),
   (0x26, ⟨108, 108, 76⟩),
   (0x27, ⟨59, 59, 58⟩),
   (0x28, ⟨39, 39, 34⟩),
   (0x29, ⟨96, 96, 126⟩),
   (0x2b, ⟨92, 92, 124⟩),
   (0x2c, ⟨122, 122, 90⟩),
   (0x2d, ⟨120, 120, 88⟩),
   (0x2e, ⟨99, 99, 67⟩),
   (0x2f, ⟨118, 118, 86⟩),
   (0x30, ⟨98, 98, 66⟩),
   (0x31, ⟨110, 110, 78⟩),
   (0x32, ⟨109, 109, 77⟩),
   (0x33, ⟨44, 44, 60⟩),
   (0x34, ⟨46, 46, 62⟩),
   (0x35, ⟨47, 47, 63⟩),
   (0x39, ⟨32, 32, 32⟩),
   (0x3a, ⟨Key.capsLock, 0, 0⟩)]

/-- The entries of `extended_scancode_set1` that the source gives. -/
def extendedScancodeSet1Entries : List (UInt8 × KeyMapEntry) :=
  [(0x47, ⟨Key.home, 0, 0⟩),
   (0x48, ⟨Key.up, 0, 0⟩),
   (0x49, ⟨Key.pageUp, 0, 0⟩),
   (0x4b, ⟨Key.left, 0, 0⟩),
   (0x4d, ⟨Key.right, 0, 0⟩),
   (0x4f, ⟨Key.endKey, 0, 0⟩),
   (0x50, ⟨Key.down, 0, 0⟩),
   (0x51, ⟨Key.pageDown, 0, 0⟩)]

/-- A table of the source: the entries that are not given are zero. -/
def keyMap (entries : List (UInt8 × KeyMapEntry)) (code : UInt8) : KeyMapEntry :=
  (entries.lookup code).getD ⟨0, 0, 0⟩

/-- `scancode_set1` -/
def scancodeSet1 : UInt8 → KeyMapEntry := keyMap scancodeSet1Entries

/-- `extended_scancode_set1` -/
def extendedScancodeSet1 : UInt8 → KeyMapEntry := keyMap extendedScancodeSet1Entries

/-- `is_alpha_entry` -/
def KeyMapEntry.isAlpha (entry : KeyMapEntry) : Bool :=
  97 ≤ entry.normal && entry.normal ≤ 122 && 65 ≤ entry.shifted && entry.shifted ≤ 90

/-! ## State -/

/-- The statics of the driver.  The head, the tail and the count of the queue are in
    its `Fifo`. -/
structure Keyboard where
  queue : Fifo keyQueueSize InputEvent
  eventClock : UInt64
  initialized : Bool
  leftShiftDown : Bool
  rightShiftDown : Bool
  capsLockOn : Bool
  extendedPending : Bool

/-- The statics at boot. -/
def Keyboard.boot : Keyboard where
  queue := ⟨fun _ => ⟨0, 0, 0, 0, 0, 0⟩, 0, 0, 0⟩
  eventClock := 0
  initialized := false
  leftShiftDown := false
  rightShiftDown := false
  capsLockOn := false
  extendedPending := false

/-- The driver, and the scan codes that it has not read. -/
structure KeyboardPort where
  keyboard : Keyboard
  wire : List UInt8

namespace Keyboard

/-! ## Events -/

/-- `shift_down` -/
def shiftDown (kb : Keyboard) : Bool := kb.leftShiftDown || kb.rightShiftDown

/-- The bits of `current_modifiers`. -/
def modifierBits (shift caps : Bool) : UInt32 :=
  (if shift = true then inputModShift else 0) ||| (if caps = true then inputModCapsLock else 0)

/-- `current_modifiers` -/
def currentModifiers (kb : Keyboard) : UInt32 := modifierBits kb.shiftDown kb.capsLockOn

/-- The character of an entry, as `ascii_for_entry` has it for given modifiers: caps
    lock turns shift round for letters only. -/
def asciiOf (entry : KeyMapEntry) (shift caps : Bool) : UInt32 :=
  if entry.isAlpha = true then (if shift ≠ caps then entry.shifted else entry.normal).toUInt32
  else (if shift = true then entry.shifted else entry.normal).toUInt32

/-- `ascii_for_entry` -/
def asciiForEntry (kb : Keyboard) (entry : KeyMapEntry) : UInt32 :=
  asciiOf entry kb.shiftDown kb.capsLockOn

/-- `enqueue_event` -/
def enqueueEvent (kb : Keyboard) (event : InputEvent) : Except Err Unit × Keyboard :=
  if keyQueueSize ≤ kb.queue.count then (.error .busy, kb)
  else (.ok (), { kb with queue := kb.queue.push event })

/-- `dequeue_event` -/
def dequeueEvent (kb : Keyboard) : Except Err InputEvent × Keyboard :=
  if kb.queue.count = 0 then (.error .noent, kb)
  else (.ok kb.queue.front, { kb with queue := kb.queue.pop })

/-- The end of `handle_scancode`: an event for the key of `entry`. -/
def keyEvent (kb : Keyboard) (entry : KeyMapEntry) (released : Bool) : Except Err Unit × Keyboard :=
  let kb :=
    if entry.keycode = Key.capsLock ∧ released = false then
      { kb with capsLockOn := !kb.capsLockOn }
    else kb
  let kb := { kb with eventClock := kb.eventClock + 1 }
  kb.enqueueEvent
    { timestamp := kb.eventClock
      type := if released = true then inputKeyUp else inputKeyDown
      keycode := entry.keycode
      ascii := if released = true then 0 else kb.asciiForEntry entry
      modifiers := kb.currentModifiers
      flags := 0 }

/-- `handle_scancode` -/
def handleScancode (kb : Keyboard) (scancode : UInt8) : Except Err Unit × Keyboard :=
  if scancode = 0xe0 then (.error .noent, { kb with extendedPending := true })
  else
    let extended := kb.extendedPending
    let kb := { kb with extendedPending := false }
    let released := decide (scancode &&& 0x80 ≠ 0)
    let code := scancode &&& 0x7f
    if extended = false ∧ code = 0x2a then
      (.error .noent, { kb with leftShiftDown := !released })
    else if extended = false ∧ code = 0x36 then
      (.error .noent, { kb with rightShiftDown := !released })
    else if 128 ≤ code then (.error .noent, kb)
    else
      let entry := if extended = true then extendedScancodeSet1 code else scancodeSet1 code
      if entry.keycode = 0 then (.error .noent, kb) else kb.keyEvent entry released

/-! ## Calls -/

/-- `scdk_keyboard_init` -/
def init (kb : Keyboard) : Keyboard :=
  { kb with
    queue := { kb.queue with head := 0, tail := 0, count := 0 }
    eventClock := 0
    leftShiftDown := false
    rightShiftDown := false
    capsLockOn := false
    extendedPending := false
    initialized := true }

/-- What the calls do first. -/
def ensureInitialized (kb : Keyboard) : Keyboard := if kb.initialized = true then kb else kb.init

/-- `scdk_keyboard_inject_test_key` -/
def injectTestKey (kb : Keyboard) (ascii : UInt32) : Except Err Unit × Keyboard :=
  let kb := kb.ensureInitialized
  if ascii = 0 ∨ 0x7f < ascii then (.error .inval, kb)
  else
    let kb := { kb with eventClock := kb.eventClock + 1 }
    kb.enqueueEvent ⟨kb.eventClock, inputKeyDown, ascii, ascii, 0, 0⟩

end Keyboard

/-- `scdk_keyboard_poll` -/
def keyboardPoll (port : KeyboardPort) : Except Err InputEvent × KeyboardPort :=
  let kb := port.keyboard.ensureInitialized
  let first := kb.dequeueEvent
  if first.1.isOk = true then (first.1, { port with keyboard := first.2 })
  else
    match port.wire with
    | [] => (.error .noent, { port with keyboard := kb })
    | scancode :: wire =>
      let next := (kb.handleScancode scancode).2.dequeueEvent
      (next.1, ⟨next.2, wire⟩)

end Scdk
