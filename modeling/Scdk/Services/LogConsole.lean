import Scdk.Boot
import Scdk.Core.ImageRead
import Scdk.Core.LogLine

/-! # The log and the console

    Model of what `kernel/log.c` does with a line: it goes into the trace, and to the
    console, by a message to the endpoint of the console or straight to the backend.

    * `Logging`: the kernel with the statics of the log,
    * `logVwrite`, `logSetConsoleEndpoint`: the functions of the source,
    * `endpointCall_write`: what becomes of the message, for each handler it may reach,
    * `Logged`: the invariant, and its step lemmas,
    * `log_reaches_console`: over every run, the trace and the console have all lines.

    The arguments of a line are those of `logLine`; `stack` is the address of its buffer. -/

namespace Scdk

variable {δ : Type}

/-! ## Functions -/

/-- `log_console_endpoint`, `log_dispatching` and the trace. -/
structure LogState where
  consoleEndpoint : UInt64
  dispatching : Bool
  trace : LogTrace

/-- The statics at boot. -/
def LogState.boot : LogState := ⟨0, false, LogTrace.boot⟩

/-- The kernel with its log. -/
structure Logging (δ : Type) where
  log : LogState
  kernel : Kernel δ

/-- Actions on the kernel and its log. -/
abbrev L (δ α : Type) : Type := Effect Err (Logging δ) α

/-- `scdk_message_init_write` -/
def messageInitWrite (sender target buffer length : UInt64) : Except Err Message :=
  if buffer = 0 then .error .inval
  else
    .ok { messageInit sender target Msg.write with
      arg0 := buffer, arg1 := length, status := 0 }

/-- A message on its way, with the characters that it points to. -/
def Kernel.sending (k : Kernel δ) (msg : Message) (payload : List UInt8) : Kernel δ :=
  { k with msg := msg, payload := payload }

/-- `scdk_endpoint_call` on a message of the caller. -/
def callWith (p : Platform δ) (endpoint : UInt64) (msg : Message) (payload : List UInt8) : K δ Unit :=
  fun k =>
    let (r, k') := endpointCall p endpoint (k.sending msg payload)
    (r, k'.sending k.msg k.payload)

section functions

variable (p : Platform δ) (stack : { address : UInt64 // address ≠ 0 })

/-- An action of the kernel. -/
def L.onKernel {α : Type} (m : K δ α) : L δ α := fun l =>
  ((m l.kernel).1, { l with kernel := (m l.kernel).2 })

/-- Change the statics of the log. -/
def L.setLog (f : LogState → LogState) : L δ Unit := .modify fun l => { l with log := f l.log }

/-- `write_backend_line` -/
def writeBackendLine (s : LogBuffer) : L δ Unit :=
  L.onKernel (K.onDevices fun d => (.ok (), p.consoleWrite d (cString s.cells)))

/-- `write_console_line` -/
def writeConsoleLine (s : LogBuffer) : L δ Unit := do
  let l ← Effect.get
  if l.log.consoleEndpoint = 0 ∨ l.log.dispatching = true then writeBackendLine p s
  else do
    let msg ← .ask fun _ => messageInitWrite 0 0 stack (UInt64.ofNat s.len)
    L.setLog fun log => { log with dispatching := true }
    let status ← (L.onKernel (callWith p l.log.consoleEndpoint msg s.cells)).attempt
    L.setLog fun log => { log with dispatching := false }
    .ask fun _ => status

/-- `scdk_log_set_console_endpoint` -/
def logSetConsoleEndpoint (endpoint : UInt64) : L δ Unit := do
  let _ ← L.onKernel (K.capCheck endpoint Right.send ObjType.endpoint)
  L.setLog fun log => { log with consoleEndpoint := endpoint }

/-- `scdk_log_vwrite`, and `scdk_log_write`; `scdk_log_info`, `scdk_log_warn` and
    `scdk_log_error` are the calls with their names as the level. -/
def logVwrite (strings : UInt64 → List UInt8) (level fmt : Option (List UInt8)) (args : List UInt64) :
    L δ Unit := do
  let buffer := logLine strings level fmt args
  L.setLog fun log => { log with trace := traceAppend log.trace (some buffer.items) }
  let status ← (writeConsoleLine p stack buffer).attempt
  if status.isOk = true then pure () else writeBackendLine p buffer

end functions

/-! ## One message -/

section message

variable {p : Platform δ} {endpoint : UInt64} {k : Kernel δ}

/-- The message is not for one of the handlers that answer `SCDK_OK` to every message. -/
def NotAccepted (k : Kernel δ) (endpoint : UInt64) : Prop :=
  ∀ objectId handler, endpointTarget k.objects k.caps k.endpoints endpoint = .ok (objectId, handler) →
    handler ≠ .accept

/-- A text message is shown, or it is refused and nothing is. -/
structure TextAnswer (p : Platform δ) (text : List UInt8) (k : Kernel δ)
    (out : Except Err Unit × Kernel δ) : Prop where
  shown : out.1.isOk = true → out.2.devices = p.consoleWrite k.devices text
  refused : out.1.isOk = false → out.2.devices = k.devices

theorem TextAnswer.of_error {text : List UInt8} {e : Err} {k' : Kernel δ}
    (h : k'.devices = k.devices) : TextAnswer p text k (.error e, k') where
  shown := fun hok => absurd hok (by simp [Except.isOk, Except.toBool])
  refused := fun _ => h

/-- Only the console knows text messages. -/
theorem runHandler_write {handler : Handler} (forward : K δ Unit) (endpoint : UInt64)
    (hconsole : handler ≠ .console) (haccept : handler ≠ .accept) (h : k.msg.type = Msg.write) :
    ∃ e, runHandler p forward handler endpoint k = (.error e, k) := by
  have hmsg : K.msg k = (.ok k.msg, k) := rfl
  cases handler with
  | console => exact absurd rfl hconsole
  | accept => exact absurd rfl haccept
  | tmpfs =>
    simp only [runHandler, tmpfsEndpointHandler]
    rw [Effect.bind_of_ok hmsg]
    simp [h, Msg.write, Msg.openFile, Msg.read, Msg.close, Msg.stat, Msg.listdir, Effect.fail]
  | vfs =>
    simp only [runHandler, vfsEndpointHandler]
    rw [Effect.bind_of_ok Effect.get_run]
    simp [h, Msg.write, Msg.openFile, Msg.read, Msg.close, Msg.stat, Msg.listdir, Effect.fail]
  | proc =>
    simp only [runHandler, procEndpointHandler]
    rw [Effect.bind_of_ok hmsg]
    simp [h, Msg.write, Msg.processSpawn, Msg.processExit, Effect.fail]
  | grantTest =>
    simp only [runHandler, grantTestEndpointHandler]
    rw [Effect.bind_of_ok hmsg]
    simp [h, Msg.write, Msg.read, Effect.fail]
  | devmgr =>
    simp only [runHandler, devmgrEndpointHandler]
    rw [Effect.bind_of_ok hmsg]
    simp [h, Msg.write, Msg.deviceRegister, Msg.deviceQueueBind, Effect.fail]
  | tty =>
    simp only [runHandler, ttyEndpointHandler]
    rw [Effect.bind_of_ok hmsg]
    simp [h, Msg.write, Msg.ttyPollEvent, Msg.ttyGetInfo, Effect.fail]
  | session =>
    simp only [runHandler, sessionEndpointHandler]
    rw [Effect.bind_of_ok hmsg]
    simp [h, Msg.write, Msg.serviceLookup, Effect.fail]

theorem consoleEndpointHandler_write (h : k.msg.type = Msg.write) (haddress : k.msg.arg0 ≠ 0)
    (hlength : k.msg.arg1 ≠ 0) :
    consoleEndpointHandler p endpoint k =
      (.ok (), { k with
        devices := p.consoleWrite k.devices (k.payload.take k.msg.arg1.toNat) }) := by
  unfold consoleEndpointHandler
  rw [Effect.bind_of_ok (show K.msg k = (.ok k.msg, k) from rfl), if_pos h, Effect.bind_of_ok Effect.get_run]
  unfold consoleHandleWrite
  rw [Effect.bind_of_ok (Effect.require_pos haddress _), if_neg hlength]
  rfl

/-- **Text messages.**  The console shows the text, and every other handler refuses it. -/
theorem endpointCall_write (haccept : NotAccepted k endpoint) (htype : k.msg.type = Msg.write)
    (haddress : k.msg.arg0 ≠ 0) (hlength : k.msg.arg1 ≠ 0) :
    TextAnswer p (k.payload.take k.msg.arg1.toNat) k (endpointCall p endpoint k) := by
  unfold endpointCall endpointCallDepth
  cases htarget : endpointTarget k.objects k.caps k.endpoints endpoint with
  | error e =>
    rw [deliver_of_error htarget]
    exact .of_error rfl
  | ok r =>
    obtain ⟨objectId, handler⟩ := r
    rw [deliver_of_target htarget]
    by_cases hconsole : handler = .console
    · subst hconsole
      simp only [runHandler]
      rw [consoleEndpointHandler_write (k := k.toTarget objectId) htype haddress hlength]
      exact ⟨fun _ => rfl, fun h => absurd h (by simp [Except.isOk, Except.toBool])⟩
    · obtain ⟨e, he⟩ := runHandler_write (p := p) (vfsForwardToTmpfs (endpointCallDepth p 0))
        endpoint hconsole (haccept objectId handler htarget)
        (show (k.toTarget objectId).msg.type = Msg.write from htype)
      rw [he]
      exact .of_error rfl

end message

/-! ## One line -/

/-- The characters before the zero. -/
theorem cString_append_zero (text rest : List UInt8) : cString (text ++ 0 :: rest) = cString text := by
  induction text with
  | nil => simp [cString]
  | cons c text ih =>
    by_cases hc : c = 0
    · simp [cString, hc]
    · simpa [cString, hc] using ih

/-- The text of the buffer as a string. -/
theorem LogBuffer.cString_cells (s : LogBuffer) : cString s.cells = cString s.items := by
  have hlt : s.len < s.cells.length := by
    rw [Filled.length_cells]
    exact s.room
  have hzero : s.cells[s.len] = 0 := by
    rw [Filled.getElem_cells]
    exact s.zero
  have hsplit : s.cells = s.items ++ 0 :: s.cells.drop (s.len + 1) := by
    rw [← s.take_cells, ← hzero, ← List.drop_eq_getElem_cons hlt, List.take_append_drop]
  rw [hsplit, cString_append_zero]

/-- What the console shows of a line: the line, or what is before a zero in it. -/
def ShownAs (text line : List UInt8) : Prop := text = line ∨ text = cString line

section line

variable {p : Platform δ} {stack : { address : UInt64 // address ≠ 0 }} {l : Logging δ}

/-- The message of a line. -/
def lineMessage (stack : { address : UInt64 // address ≠ 0 }) (s : LogBuffer) : Message :=
  { messageInit 0 0 Msg.write with arg0 := stack, arg1 := UInt64.ofNat s.len, status := 0 }

theorem messageInitWrite_line (s : LogBuffer) :
    messageInitWrite 0 0 stack (UInt64.ofNat s.len) = .ok (lineMessage stack s) := if_neg stack.property

theorem callWith_line {s : LogBuffer} {endpoint : UInt64} {k : Kernel δ} (hs : 0 < s.len)
    (haccept : NotAccepted k endpoint) :
    TextAnswer p s.items k (callWith p endpoint (lineMessage stack s) s.cells k) := by
  have hlt : s.len < 2 ^ 64 := Nat.lt_trans s.room (by decide)
  have hlen : (UInt64.ofNat s.len).toNat = s.len := UInt64.toNat_ofNat_of_lt hlt
  have hlength : UInt64.ofNat s.len ≠ 0 := by
    intro hzero
    rw [hzero] at hlen
    exact absurd hlen (by simp; omega)
  have hsending : NotAccepted (k.sending (lineMessage stack s) s.cells) endpoint := haccept
  have hanswer := endpointCall_write (p := p) hsending rfl stack.property hlength
  have htext : (k.sending (lineMessage stack s) s.cells).payload.take
      (k.sending (lineMessage stack s) s.cells).msg.arg1.toNat = s.items := by
    simp only [Kernel.sending, lineMessage]
    rw [hlen, s.take_cells]
  rw [htext] at hanswer
  exact ⟨hanswer.shown, hanswer.refused⟩

/-- The fallback. -/
theorem writeBackendLine_eq (s : LogBuffer) (l : Logging δ) :
    writeBackendLine p s l =
      (.ok (), { l with kernel := { l.kernel with
        devices := p.consoleWrite l.kernel.devices (cString s.items) } }) := by
  rw [← s.cString_cells]
  rfl

/-- What `write_console_line` does, when it is not busy with another line. -/
theorem writeConsoleLine_cases (stack : { address : UInt64 // address ≠ 0 }) {s : LogBuffer}
    (hs : 0 < s.len) (hidle : l.log.dispatching = false)
    (haccept : l.log.consoleEndpoint ≠ 0 → NotAccepted l.kernel l.log.consoleEndpoint) :
    (writeConsoleLine p stack s l).2.log = l.log ∧
      (((writeConsoleLine p stack s l).1.isOk = true ∧ ∃ text, ShownAs text s.items ∧
          (writeConsoleLine p stack s l).2.kernel.devices = p.consoleWrite l.kernel.devices text) ∨
        ((writeConsoleLine p stack s l).1.isOk = false ∧
          (writeConsoleLine p stack s l).2.kernel.devices = l.kernel.devices)) := by
  unfold writeConsoleLine
  rw [Effect.bind_of_ok Effect.get_run]
  by_cases hnone : l.log.consoleEndpoint = 0
  · rw [if_pos (.inl hnone), writeBackendLine_eq]
    exact ⟨rfl, .inl ⟨rfl, _, .inr rfl, rfl⟩⟩
  · rw [if_neg (by simp [hnone, hidle]), messageInitWrite_line]
    have hlog : { l.log with dispatching := false } = l.log := by
      rw [← hidle]
    have hanswer : TextAnswer p s.items l.kernel
        (callWith p l.log.consoleEndpoint (lineMessage stack s) s.cells l.kernel) :=
      callWith_line hs (haccept hnone)
    -- the statics are as before when the call has returned
    set out := callWith p l.log.consoleEndpoint (lineMessage stack s) s.cells l.kernel with hout
    have hrun : (do
        let msg ← Effect.ask fun _ => Except.ok (lineMessage stack s)
        L.setLog fun log => { log with dispatching := true }
        let status ← (L.onKernel (callWith p l.log.consoleEndpoint msg s.cells)).attempt
        L.setLog fun log => { log with dispatching := false }
        Effect.ask fun _ => status : L δ Unit) l =
          (out.1, ⟨{ l.log with dispatching := false }, out.2⟩) := rfl
    rw [hrun, hlog]
    refine ⟨rfl, ?_⟩
    cases hstatus : out.1.isOk with
    | true => exact .inl ⟨rfl, _, .inl rfl, hanswer.shown hstatus⟩
    | false => exact .inr ⟨rfl, hanswer.refused hstatus⟩

/-- **One line.**  It is written to the console once, and goes into the trace. -/
theorem logVwrite_eq (stack : { address : UInt64 // address ≠ 0 })
    (strings : UInt64 → List UInt8) (level fmt : Option (List UInt8)) (args : List UInt64)
    (hidle : l.log.dispatching = false)
    (haccept : l.log.consoleEndpoint ≠ 0 → NotAccepted l.kernel l.log.consoleEndpoint) :
    (logVwrite p stack strings level fmt args l).2.log =
        { l.log with
          trace := traceAppend l.log.trace (some (logLine strings level fmt args).items) } ∧
      ∃ text, ShownAs text (logLine strings level fmt args).items ∧
        (logVwrite p stack strings level fmt args l).2.kernel.devices =
          p.consoleWrite l.kernel.devices text := by
  set s := logLine strings level fmt args with hs
  set l' : Logging δ :=
    { l with log := { l.log with trace := traceAppend l.log.trace (some s.items) } } with hl'
  have hrun : logVwrite p stack strings level fmt args l =
      (do
        let status ← (writeConsoleLine p stack s).attempt
        if status.isOk = true then pure () else writeBackendLine p s : L δ Unit) l' := rfl
  have hcases := writeConsoleLine_cases (p := p) (l := l') stack
    (len_logLine_pos strings level fmt args) hidle haccept
  rw [hrun, Effect.attempt_bind]
  obtain ⟨hlog, ⟨hok, text, htext, hdevices⟩ | ⟨hfail, hdevices⟩⟩ := hcases
  · rw [if_pos hok]
    exact ⟨hlog, text, htext, hdevices⟩
  · rw [hfail, if_neg Bool.false_ne_true, writeBackendLine_eq]
    refine ⟨hlog, cString s.items, .inr rfl, ?_⟩
    show p.consoleWrite (writeConsoleLine p stack s l').2.kernel.devices _ = _
    rw [hdevices]

end line

/-! ## Runs -/

/-- A line is logged, the endpoint of the console is set, or the kernel does something
    else and is then as given. -/
inductive LogCall (δ : Type) where
  | write (level fmt : Option (List UInt8)) (args : List UInt64)
  | setConsoleEndpoint (endpoint : UInt64)
  | kernel (k : Kernel δ)

/-- One call; the answer is the line that was logged. -/
def logStep (p : Platform δ) (stack : { address : UInt64 // address ≠ 0 })
    (strings : UInt64 → List UInt8) (l : Logging δ) :
    LogCall δ → Option (List UInt8) × Logging δ
  | .write level fmt args =>
    (some (logLine strings level fmt args).items, (logVwrite p stack strings level fmt args l).2)
  | .setConsoleEndpoint endpoint => (none, (logSetConsoleEndpoint endpoint l).2)
  | .kernel k => (none, { l with kernel := k })

/-- The log from boot on, over devices that show `start`. -/
def logSystem (p : Platform δ) (stack : { address : UInt64 // address ≠ 0 })
    (strings : UInt64 → List UInt8) (start : δ) :
    System (Logging δ) (LogCall δ) (Option (List UInt8)) where
  init := fun l => l.log = LogState.boot ∧ l.kernel.devices = start
  step := logStep p stack strings

/-- The log is the only one to write to the console, and its endpoint is none of those that
    take every message. -/
def LogOnly (l : Logging δ) : LogCall δ → Prop
  | .write _ _ _ => l.log.consoleEndpoint ≠ 0 → NotAccepted l.kernel l.log.consoleEndpoint
  | .setConsoleEndpoint _ => True
  | .kernel k => k.devices = l.kernel.devices

/-- The lines that were logged. -/
def linesOf (log : List (LogCall δ × Option (List UInt8))) : List (List UInt8) :=
  log.filterMap Prod.snd

section runs

variable {p : Platform δ} {stack : { address : UInt64 // address ≠ 0 }}
  {strings : UInt64 → List UInt8} {start : δ}

/-- The trace and the console have the lines. -/
structure Logged (p : Platform δ) (start : δ) (lines : List (List UInt8)) (l : Logging δ) : Prop where
  idle : l.log.dispatching = false
  trace : l.log.trace = (lines.map some).foldl traceAppend LogTrace.boot
  console : ∃ texts, List.Forall₂ ShownAs texts lines ∧
    l.kernel.devices = texts.foldl p.consoleWrite start

theorem Logged.write {lines : List (List UInt8)} {l : Logging δ} (h : Logged p start lines l)
    (level fmt : Option (List UInt8)) (args : List UInt64)
    (haccept : l.log.consoleEndpoint ≠ 0 → NotAccepted l.kernel l.log.consoleEndpoint) :
    Logged p start (lines ++ [(logLine strings level fmt args).items])
      (logVwrite p stack strings level fmt args l).2 := by
  obtain ⟨hlog, text, htext, hdevices⟩ :=
    logVwrite_eq (p := p) stack strings level fmt args h.idle haccept
  obtain ⟨texts, hshown, hconsole⟩ := h.console
  constructor
  · rw [hlog]
    exact h.idle
  · rw [hlog, h.trace]
    simp
  · refine ⟨texts ++ [text], ?_, ?_⟩
    · exact List.rel_append hshown (.cons htext .nil)
    · rw [hdevices, hconsole]
      simp

/-- Setting the endpoint shows nothing. -/
theorem logSetConsoleEndpoint_frame (endpoint : UInt64) (l : Logging δ) :
    (logSetConsoleEndpoint endpoint l).2.kernel = l.kernel ∧
      (logSetConsoleEndpoint endpoint l).2.log.dispatching = l.log.dispatching ∧
      (logSetConsoleEndpoint endpoint l).2.log.trace = l.log.trace := by
  unfold logSetConsoleEndpoint
  rw [Effect.bind_run]
  cases hcheck : capCheck l.kernel.objects l.kernel.caps endpoint Right.send ObjType.endpoint with
  | error e => simp [L.onKernel, K.capCheck, Effect.ask, hcheck]
  | ok entry => simp [L.onKernel, K.capCheck, Effect.ask, hcheck, L.setLog, Effect.modify]

/-- **The log.**  In every run, each line that was logged is in the trace, if it is among
    the newest 8192 characters, and was shown on the console, once and in order; what was
    shown is the line, or what is before a zero in it. -/
theorem log_reaches_console {log : List (LogCall δ × Option (List UInt8))} {l : Logging δ}
    (h : (logSystem p stack strings start).RunWhen LogOnly log l) :
    l.log.trace.items = newest 8192 (linesOf log).flatten ∧
      ∃ texts, List.Forall₂ ShownAs texts (linesOf log) ∧
        l.kernel.devices = texts.foldl p.consoleWrite start := by
  have hlogged : Logged p start (linesOf log) l := by
    induction h with
    | init h0 =>
      obtain ⟨hlog, hdevices⟩ := h0
      constructor
      · rw [hlog]
        rfl
      · rw [hlog]
        rfl
      · exact ⟨[], .nil, hdevices⟩
    | @step log l call _ hguard ih =>
      have hlines : linesOf (log ++ [(call, ((logSystem p stack strings start).step l call).1)]) =
          linesOf log ++ ((logSystem p stack strings start).step l call).1.toList := by
        cases call <;> simp [linesOf, logSystem, logStep]
      rw [hlines]
      cases call with
      | write level fmt args => exact ih.write level fmt args hguard
      | setConsoleEndpoint endpoint =>
        obtain ⟨hkernel, hidle, htrace⟩ := logSetConsoleEndpoint_frame endpoint l
        refine ⟨hidle.trans ih.idle, ?_, ?_⟩
        · simpa [logSystem, logStep, htrace] using ih.trace
        · simpa [logSystem, logStep, hkernel] using ih.console
      | kernel k =>
        refine ⟨ih.idle, ?_, ?_⟩
        · simpa [logSystem, logStep] using ih.trace
        · simpa [logSystem, logStep, show k.devices = l.kernel.devices from hguard] using ih.console
  refine ⟨?_, hlogged.console⟩
  rw [hlogged.trace, items_traceAppend]
  simp [appendedText]

end runs

/-! ## A line -/

/-- A platform that records what is shown. -/
def recordingPlatform : Platform (List (List UInt8)) where
  consoleWrite := fun d text => d ++ [text]
  consoleClear := fun d => (.ok (), d)
  consoleGetInfo := fun d => (.ok ⟨80, 25, 0, 0, 0⟩, d)
  consoleScroll := fun d _ => (.ok (), d)
  keyboardPoll := fun d => (.error .noent, d)
  spawn := fun k => (.error .notsup, k)
  devmgr := fun k => (.error .notsup, k)
  grantTest := fun k => (.error .notsup, k)
  yield := fun k => k

/-- A machine with the console, which has the first token of slot 0. -/
def logMachine : Logging (List (List UInt8)) :=
  let k := Kernel.zero ⟨[], true⟩
  ⟨LogState.boot, (consoleServiceInit { k with devices := ([] : List (List UInt8)) }).2⟩

def logStack : { address : UInt64 // address ≠ 0 } := ⟨0xffffffff80010000, by decide⟩

/-- The log has the endpoint of the console. -/
def logDirected : Logging (List (List UInt8)) :=
  (logStep recordingPlatform logStack (fun _ => []) logMachine (.setConsoleEndpoint (firstToken 0))).2

/-- `"a%d"` -/
def formatA : LogCall (List (List UInt8)) := .write none (some [97, 37, 100]) [5]

theorem log_reaches_console_number :
    ∃ texts, List.Forall₂ ShownAs texts
        [(logLine (fun _ => []) none (some [97, 37, 100]) [5]).items] ∧
      (logStep recordingPlatform logStack (fun _ => []) logDirected formatA).2.kernel.devices =
        texts.foldl recordingPlatform.consoleWrite [] := by
  have hstart : (logSystem recordingPlatform logStack (fun _ => []) []).RunWhen LogOnly [] logMachine :=
    .init ⟨rfl, rfl⟩
  have hset : LogOnly logMachine (.setConsoleEndpoint (firstToken 0)) := trivial
  have hwrite : LogOnly logDirected formatA := by
    intro _ objectId handler h
    have hendpoint : logDirected.log.consoleEndpoint = firstToken 0 := by decide +kernel
    rw [hendpoint] at h
    have htarget : (endpointTarget logDirected.kernel.objects logDirected.kernel.caps
        logDirected.kernel.endpoints (firstToken 0)).map Prod.snd = .ok .console := by decide +kernel
    have hmap := congrArg (Except.map Prod.snd) h
    have hconsole : Handler.console = handler := Except.ok.inj (htarget.symm.trans hmap)
    rw [← hconsole]
    decide
  exact (log_reaches_console ((hstart.step _ hset).step formatA hwrite)).2

end Scdk
