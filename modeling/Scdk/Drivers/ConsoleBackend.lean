import Scdk.Arch.Framebuffer
import Scdk.Arch.Serial
import Scdk.Kernel

/-! # The console backend

    Model of `drivers/console_backend.c`: text goes to the screen, and to the serial line
    as long as the port takes it.

    * `ConsoleBackend`: the state of the backend, of the screen and of the port,
    * `consoleBackendWrite` and its siblings: the functions of the source,
    * `SameScreen.performAll`: what is on the screen does not depend on the port,
    * `carried_performAll`, `prompt_performAll`: the bytes on the line are those of the
      text that was written, up to where the port was given up,
    * `backend_outputs`: both. -/

namespace Scdk

open TextConsole

/-! ## Functions -/

/-- `SCDK_CONSOLE_INFO_SERIAL_MIRROR` -/
def consoleInfoSerialMirror : UInt32 := 1

/-- `SCDK_CONSOLE_INFO_FRAMEBUFFER_TEXT` -/
def consoleInfoFramebufferText : UInt32 := 2

/-- `console_backend_initialized`, `serial_mirror_enabled`, and the two outputs. -/
structure ConsoleBackend where
  initialized : Bool
  serialMirror : Bool
  serial : Serial
  screen : TextConsole

/-- `scdk_fb_text_get_info` -/
def fbTextGetInfo (fb : Framebuffer) (s : TextConsole) : Except Err ConsoleInfo × TextConsole :=
  if fb.bpp ≠ 32 then (.error .notsup, s)
  else
    let s := s.ensureConsoleCursor fb
    let rows := fb.consoleRows.toUInt32
    let cursorY :=
      if (s.historyLineVisible fb s.currentLine).isSome = true then
        (s.currentLine - s.viewTopLine).toUInt32
      else if rows ≠ 0 then rows - 1
      else 0
    (.ok ⟨fb.consoleVisibleColumns.toUInt32, rows, s.cursorColumn.toUInt32, cursorY,
      consoleInfoFramebufferText⟩, s)

section functions

variable (fb : Framebuffer) (line : Nat → Bool)

/-- `scdk_console_backend_init`, and `scdk_console_backend_ready`. -/
def consoleBackendInit (b : ConsoleBackend) : ConsoleBackend where
  initialized := true
  serialMirror := serialIsAvailable b.serial
  serial := b.serial
  screen := (b.screen.fbTextClear fb).2

/-- What the calls do first. -/
def ConsoleBackend.ensureInitialized (b : ConsoleBackend) : ConsoleBackend :=
  if b.initialized = true then b else consoleBackendInit fb b

/-- The loop of `scdk_console_backend_write` that mirrors the characters. -/
def mirrorChars (text : List UInt8) (b : ConsoleBackend) : ConsoleBackend :=
  let out := serialWriteChars line text b.serial
  { b with serialMirror := b.serialMirror && out.1.isOk, serial := out.2 }

/-- Mirror the characters, if that is enabled. -/
def ConsoleBackend.mirror (b : ConsoleBackend) (text : List UInt8) : ConsoleBackend :=
  if b.serialMirror = true then mirrorChars line text b else b

/-- `scdk_console_backend_write`, with the bytes from `buffer` on. -/
def consoleBackendWrite (b : ConsoleBackend) (buffer : List UInt8) (length : UInt64) :
    Except Err Unit × ConsoleBackend :=
  let text := writtenText buffer length
  let b := b.ensureInitialized fb
  let b := { b with serialMirror := serialIsAvailable b.serial }
  let b := b.mirror line text
  (.ok (), { b with screen := (writeLoop fb text b.screen).2 })

/-- `scdk_console_backend_clear` -/
def consoleBackendClear (b : ConsoleBackend) : Except Err Unit × ConsoleBackend :=
  let b := b.ensureInitialized fb
  ((b.screen.fbTextClear fb).1, { b with screen := (b.screen.fbTextClear fb).2 })

/-- `scdk_console_backend_scroll` -/
def consoleBackendScroll (b : ConsoleBackend) (lines : Int32) : Except Err Unit × ConsoleBackend :=
  let b := b.ensureInitialized fb
  ((b.screen.fbTextScroll fb lines).1, { b with screen := (b.screen.fbTextScroll fb lines).2 })

/-- The flags of the outputs. -/
def ConsoleInfo.mirrored (info : ConsoleInfo) (mirror : Bool) : ConsoleInfo :=
  if mirror = true then { info with flags := info.flags ||| consoleInfoSerialMirror } else info

/-- `scdk_console_backend_get_info` -/
def consoleBackendGetInfo (b : ConsoleBackend) : Except Err ConsoleInfo × ConsoleBackend :=
  match fbTextGetInfo fb b.screen with
  | (.error e, screen) => (.error e, { b with screen := screen })
  | (.ok info, screen) =>
    let b := { b with screen := screen, serialMirror := serialIsAvailable b.serial }
    (.ok (info.mirrored b.serialMirror), b)

/-- A call of the backend. -/
inductive BackendCall where
  | write (buffer : List UInt8) (length : UInt64)
  | clear
  | scroll (lines : Int32)
  | getInfo
  deriving DecidableEq, Repr

/-- The backend after one call. -/
def ConsoleBackend.perform (b : ConsoleBackend) : BackendCall → ConsoleBackend
  | .write buffer length => (consoleBackendWrite fb line b buffer length).2
  | .clear => (consoleBackendClear fb b).2
  | .scroll lines => (consoleBackendScroll fb b lines).2
  | .getInfo => (consoleBackendGetInfo fb b).2

/-- The backend after some calls. -/
def ConsoleBackend.performAll (b : ConsoleBackend) (calls : List BackendCall) : ConsoleBackend :=
  calls.foldl (ConsoleBackend.perform fb line) b

end functions

/-- The text of a call. -/
def BackendCall.text : BackendCall → List UInt8
  | .write buffer length => writtenText buffer length
  | _ => []

/-- The text of some calls. -/
def textOf (calls : List BackendCall) : List UInt8 := calls.flatMap BackendCall.text

namespace ConsoleBackend

variable {fb : Framebuffer} {line line' : Nat → Bool} {b b' : ConsoleBackend}

/-! ## One call -/

@[simp] theorem ensureInitialized_serial (b : ConsoleBackend) :
    (b.ensureInitialized fb).serial = b.serial := by
  unfold ensureInitialized
  split <;> rfl

/-- What a write does.  A port that was given up would not be changed by sending. -/
theorem write_eq (b : ConsoleBackend) (buffer : List UInt8) (length : UInt64) :
    (b.perform fb line (.write buffer length)).initialized = (b.ensureInitialized fb).initialized ∧
      (b.perform fb line (.write buffer length)).screen =
        (writeLoop fb (writtenText buffer length) (b.ensureInitialized fb).screen).2 ∧
      (b.perform fb line (.write buffer length)).serial =
        (serialSend line (crlf (writtenText buffer length)) b.serial).2 := by
  simp only [perform, consoleBackendWrite, mirror, serialIsAvailable, ensureInitialized_serial]
  cases hready : b.serial.ready with
  | true =>
    refine ⟨rfl, rfl, ?_⟩
    simp only [mirrorChars, if_true, serialWriteChars_eq]
  | false =>
    refine ⟨rfl, rfl, ?_⟩
    rw [serialSend_unready hready, if_neg Bool.false_ne_true]

/-- Asking for the geometry shows the screen before the first text, at most. -/
theorem getInfo_eq (b : ConsoleBackend) :
    (b.perform fb line .getInfo).initialized = b.initialized ∧
      (b.perform fb line .getInfo).screen = (fbTextGetInfo fb b.screen).2 ∧
      (b.perform fb line .getInfo).serial = b.serial := by
  simp only [perform, consoleBackendGetInfo]
  rcases fbTextGetInfo fb b.screen with ⟨r, screen⟩
  cases r <;> exact ⟨rfl, rfl, rfl⟩

/-! ## The screen -/

/-- Two backends with the same screen. -/
structure SameScreen (b b' : ConsoleBackend) : Prop where
  initialized : b'.initialized = b.initialized
  screen : b'.screen = b.screen

theorem SameScreen.ensure (fb : Framebuffer) (h : SameScreen b b') :
    SameScreen (b.ensureInitialized fb) (b'.ensureInitialized fb) := by
  unfold ensureInitialized
  rw [h.initialized]
  split
  · exact h
  · exact ⟨rfl, by simp only [consoleBackendInit, h.screen]⟩

/-- A call does the same to the screen, whatever the ports do. -/
theorem SameScreen.perform (h : SameScreen b b') (call : BackendCall) :
    SameScreen (b.perform fb line call) (b'.perform fb line' call) := by
  have hready := h.ensure fb
  cases call with
  | write buffer length =>
    obtain ⟨hinit, hscreen, _⟩ := @write_eq fb line b buffer length
    obtain ⟨hinit', hscreen', _⟩ := @write_eq fb line' b' buffer length
    constructor
    · rw [hinit, hinit', hready.initialized]
    · rw [hscreen, hscreen', hready.screen]
  | clear =>
    exact ⟨hready.initialized, by simp only [ConsoleBackend.perform, consoleBackendClear, hready.screen]⟩
  | scroll lines =>
    exact ⟨hready.initialized, by simp only [ConsoleBackend.perform, consoleBackendScroll, hready.screen]⟩
  | getInfo =>
    obtain ⟨hinit, hscreen, _⟩ := @getInfo_eq fb line b
    obtain ⟨hinit', hscreen', _⟩ := @getInfo_eq fb line' b'
    constructor
    · rw [hinit, hinit', h.initialized]
    · rw [hscreen, hscreen', h.screen]

theorem SameScreen.performAll (h : SameScreen b b') (calls : List BackendCall) :
    SameScreen (b.performAll fb line calls) (b'.performAll fb line' calls) := by
  induction calls generalizing b b' with
  | nil => exact h
  | cons call calls ih => exact ih (h.perform call)

/-! ## The line -/

/-- The port sends the text of a call. -/
theorem perform_serial (b : ConsoleBackend) (call : BackendCall) :
    (b.perform fb line call).serial = (serialSend line (crlf call.text) b.serial).2 := by
  cases call with
  | write buffer length => exact (write_eq b buffer length).2.2
  | clear => exact ensureInitialized_serial b
  | scroll lines => exact ensureInitialized_serial b
  | getInfo => exact (getInfo_eq b).2.2

theorem carried_performAll {bs : List UInt8} (h : Carried bs b.serial) (calls : List BackendCall) :
    Carried (bs ++ crlf (textOf calls)) (b.performAll fb line calls).serial := by
  induction calls generalizing b bs with
  | nil =>
    rw [show textOf [] = [] from rfl, show crlf [] = [] from rfl, List.append_nil]
    exact h
  | cons call calls ih =>
    have hcons : textOf (call :: calls) = call.text ++ textOf calls := rfl
    rw [hcons, crlf_append, ← List.append_assoc]
    apply ih
    rw [perform_serial]
    exact h.send _

theorem prompt_performAll (hprompt : Prompt line) (hready : b.serial.ready = true)
    (calls : List BackendCall) : (b.performAll fb line calls).serial.ready = true := by
  induction calls generalizing b with
  | nil => exact hready
  | cons call calls ih =>
    apply ih
    rw [perform_serial]
    exact hprompt.ready hready _

/-- **Outputs.**  A port that is in use carries the bytes of all text that is written,
    in order, up to a byte that it does not take in time, and none after that; if it
    keeps up, it carries all of them.  The screen shows what it would show with any other
    port, or with none. -/
theorem backend_outputs (fb : Framebuffer) (line : Nat → Bool) (b : ConsoleBackend)
    (calls : List BackendCall) (hready : b.serial.ready = true) (hsent : b.serial.sent = []) :
    Carried (crlf (textOf calls)) (b.performAll fb line calls).serial ∧
      (Prompt line → (b.performAll fb line calls).serial.sent = crlf (textOf calls)) ∧
      ∀ serial line', (({ b with serial := serial } : ConsoleBackend).performAll fb line' calls).screen =
        (b.performAll fb line calls).screen := by
  have hstart : Carried [] b.serial := by
    refine ⟨fun _ => hsent, fun hr => ?_⟩
    rw [hready] at hr
    cases hr
  have hcarried : Carried (crlf (textOf calls)) (b.performAll fb line calls).serial :=
    carried_performAll hstart calls
  refine ⟨hcarried, fun hprompt => ?_, fun serial line' => ?_⟩
  · exact hcarried.all (prompt_performAll hprompt hready calls)
  · have hsame : SameScreen b { b with serial := serial } := ⟨rfl, rfl⟩
    exact (hsame.performAll calls).screen

/-- A port that is always ready, and a line break. -/
theorem backend_outputs_newline :
    ((⟨true, true, ⟨true, 0, []⟩, ⟨fun _ _ => 0, 0, 0, 0, false, fun _ _ => 0⟩⟩ :
      ConsoleBackend).performAll ⟨640, 480, 32⟩ (fun _ => true) [.write [97, 10] 2]).serial.sent =
      [97, 13, 10] :=
  (backend_outputs ⟨640, 480, 32⟩ (fun _ => true)
    ⟨true, true, ⟨true, 0, []⟩, ⟨fun _ _ => 0, 0, 0, 0, false, fun _ _ => 0⟩⟩
    [.write [97, 10] 2] rfl rfl).2.1 fun n =>
      ⟨n, Nat.le_refl n, Nat.lt_add_of_pos_right (by decide), rfl⟩

end ConsoleBackend

end Scdk
