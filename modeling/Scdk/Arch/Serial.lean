import Mathlib.Data.List.Basic
import Scdk.Basic
import Scdk.Lib.Effect

/-! # The serial port

    Model of `arch/x86_64/serial.c`: bytes go out on COM1 one by one, and a transmitter
    that does not take a byte in time is given up.

    * `Serial`: the state of the driver and of the port,
    * `serialWriteByte`, `serialWriteChar`, `serialWriteChars`: the functions of the source,
    * `crlf`: text as it goes over the line,
    * `Carried.send`: the bytes that were sent, `Prompt.ready`: the port stays in use when
      the transmitter is never busy for too long.

    The line status register is read again and again.  `line n` is its bit for an
    empty transmitter when it is read for the `n`-th time. -/

namespace Scdk

/-! ## Functions -/

/-- `SERIAL_TRANSMIT_SPINS` -/
def serialTransmitSpins : Nat := 100000

/-- `serial_ready`, how often the line status was read, and the bytes that the port was
    given to send. -/
structure Serial where
  ready : Bool
  polls : Nat
  sent : List UInt8

section functions

variable (line : Nat → Bool)

/-- `scdk_serial_is_available` -/
def serialIsAvailable (s : Serial) : Bool := s.ready

/-- The loop of `serial_write_byte` for at most so many rounds of `transmit_empty`:
    whether the transmitter was found empty. -/
def waitEmpty : Nat → Serial → Bool × Serial
  | 0, s => (false, s)
  | spins + 1, s =>
    if line s.polls = true then (true, { s with polls := s.polls + 1 })
    else waitEmpty spins { s with polls := s.polls + 1 }

/-- `serial_write_byte` -/
def serialWriteByte (value : UInt8) : Effect Err Serial Unit := fun s =>
  if s.ready = false then (.error .notsup, s)
  else if (waitEmpty line serialTransmitSpins s).1 = true then
    let s := (waitEmpty line serialTransmitSpins s).2
    (.ok (), { s with sent := s.sent ++ [value] })
  else (.error .busy, { (waitEmpty line serialTransmitSpins s).2 with ready := false })

/-- `scdk_serial_write_char` -/
def serialWriteChar (c : UInt8) : Effect Err Serial Unit :=
  if c = 10 then do
    serialWriteByte line 13
    serialWriteByte line c
  else serialWriteByte line c

/-- The calls of `scdk_serial_write_char` in the loop of `scdk_console_backend_write`. -/
def serialWriteChars : List UInt8 → Effect Err Serial Unit
  | [] => pure ()
  | c :: cs => do
    serialWriteChar line c
    serialWriteChars cs

end functions

/-! ## Bytes on the line -/

/-- The bytes that a character goes out as. -/
def crlfOf (c : UInt8) : List UInt8 := if c = 10 then [13, 10] else [c]

/-- The bytes that text goes out as. -/
def crlf (text : List UInt8) : List UInt8 := text.flatMap crlfOf

@[simp] theorem crlf_append (text text' : List UInt8) : crlf (text ++ text') = crlf text ++ crlf text' :=
  List.flatMap_append

/-- Send bytes until one of them is not taken. -/
def serialSend (line : Nat → Bool) : List UInt8 → Effect Err Serial Unit
  | [] => pure ()
  | b :: bs => do
    serialWriteByte line b
    serialSend line bs

section send

variable {line : Nat → Bool} {s : Serial}

theorem serialSend_append (bs bs' : List UInt8) :
    serialSend line (bs ++ bs') = serialSend line bs >>= fun _ => serialSend line bs' := by
  induction bs with
  | nil => rfl
  | cons b bs ih =>
    have hcons : ∀ bs, serialSend line (b :: bs) = serialWriteByte line b >>= fun _ =>
        serialSend line bs := fun _ => rfl
    rw [List.cons_append, hcons, hcons, ih, Effect.bind_assoc]

theorem serialSend_one (b : UInt8) : serialSend line [b] = serialWriteByte line b := by
  funext s
  simp only [serialSend, Effect.bind_run]
  rcases serialWriteByte line b s with ⟨r, s'⟩
  cases r <;> rfl

/-- A string is sent as the bytes it goes out as. -/
theorem serialWriteChars_eq (text : List UInt8) :
    serialWriteChars line text = serialSend line (crlf text) := by
  have hchar : ∀ c, serialWriteChar line c = serialSend line (crlfOf c) := by
    intro c
    unfold serialWriteChar crlfOf
    split
    · next hc =>
      rw [hc, ← serialSend_one, ← serialSend_one, ← serialSend_append]
      rfl
    · exact (serialSend_one c).symm
  induction text with
  | nil => rfl
  | cons c text ih =>
    have hcons : crlf (c :: text) = crlfOf c ++ crlf text := rfl
    rw [hcons, serialSend_append, ← hchar, ← ih]
    rfl

/-! ### What is sent -/

theorem waitEmpty_keeps (spins : Nat) (s : Serial) :
    (waitEmpty line spins s).2.ready = s.ready ∧ (waitEmpty line spins s).2.sent = s.sent := by
  induction spins generalizing s with
  | zero => exact ⟨rfl, rfl⟩
  | succ spins ih =>
    unfold waitEmpty
    split
    · exact ⟨rfl, rfl⟩
    · exact ih { s with polls := s.polls + 1 }

/-- One byte is sent, or the driver gives the port up. -/
theorem serialWriteByte_cases (b : UInt8) (hready : s.ready = true) :
    (serialWriteByte line b s).1 = .ok () ∧ (serialWriteByte line b s).2.ready = true ∧
        (serialWriteByte line b s).2.sent = s.sent ++ [b] ∨
      (serialWriteByte line b s).1 = .error .busy ∧ (serialWriteByte line b s).2.ready = false ∧
        (serialWriteByte line b s).2.sent = s.sent := by
  obtain ⟨hkept, hsent⟩ := @waitEmpty_keeps line serialTransmitSpins s
  unfold serialWriteByte
  rw [if_neg (by simp [hready])]
  split
  · exact .inl ⟨rfl, hkept.trans hready, by simp only [hsent]⟩
  · exact .inr ⟨rfl, rfl, hsent⟩

/-- All of `bs` was sent, or the driver has given the port up before the end of it. -/
structure Carried (bs : List UInt8) (s : Serial) : Prop where
  all : s.ready = true → s.sent = bs
  cut : s.ready = false → ∃ n < bs.length, s.sent = bs.take n

/-- What comes after the driver has given up does not count. -/
theorem Carried.append_of_cut {bs : List UInt8} (h : Carried bs s) (hready : s.ready = false)
    (bs' : List UInt8) : Carried (bs ++ bs') s where
  all := fun hr => by rw [hready] at hr; cases hr
  cut := fun _ => by
    obtain ⟨n, hn, hsent⟩ := h.cut hready
    refine ⟨n, by rw [List.length_append]; omega, ?_⟩
    rw [hsent, List.take_append_of_le_length (Nat.le_of_lt hn)]

/-- A port that was given up is not used. -/
theorem serialSend_unready (hready : s.ready = false) (bs : List UInt8) :
    (serialSend line bs s).2 = s := by
  cases bs with
  | nil => rfl
  | cons b bs =>
    have hrefused : serialWriteByte line b s = (.error .notsup, s) := if_pos hready
    unfold serialSend
    rw [Effect.bind_of_error hrefused]

/-- **Sending.**  The bytes are sent in order, up to the first that the port does not
    take in time, and nothing after it. -/
theorem Carried.send {bs₀ : List UInt8} (h : Carried bs₀ s) (bs : List UInt8) :
    Carried (bs₀ ++ bs) (serialSend line bs s).2 := by
  induction bs generalizing bs₀ s with
  | nil =>
    rw [List.append_nil]
    exact h
  | cons b bs ih =>
    cases hready : s.ready with
    | false =>
      rw [serialSend_unready hready]
      exact h.append_of_cut hready _
    | true =>
      have hsplit : bs₀ ++ b :: bs = (bs₀ ++ [b]) ++ bs := by simp
      have hall := h.all hready
      unfold serialSend
      rw [Effect.bind_run]
      rcases @serialWriteByte_cases line s b hready with ⟨hok, hready', hsent⟩ | ⟨herr, hready', hsent⟩
      · -- The byte was taken.
        rcases hwrite : serialWriteByte line b s with ⟨r, s'⟩
        rw [hwrite] at hok hready' hsent
        obtain rfl : r = .ok () := hok
        rw [hsplit]
        apply ih
        refine ⟨fun _ => by rw [← hall]; exact hsent, fun hr => ?_⟩
        rw [show s'.ready = true from hready'] at hr
        cases hr
      · rcases hwrite : serialWriteByte line b s with ⟨r, s'⟩
        rw [hwrite] at herr hready' hsent
        obtain rfl : r = .error .busy := herr
        refine ⟨fun hr => ?_, fun _ => ⟨bs₀.length, by simp, ?_⟩⟩
        · rw [show s'.ready = false from hready'] at hr
          cases hr
        · rw [List.take_left' rfl, ← hall]
          exact hsent

/-! ### A transmitter that keeps up -/

/-- In every stretch of so many reads of the line status, the transmitter is found
    empty once. -/
def Prompt (line : Nat → Bool) : Prop :=
  ∀ n, ∃ m, n ≤ m ∧ m < n + serialTransmitSpins ∧ line m = true

theorem waitEmpty_found {spins m : Nat} (hm : s.polls ≤ m) (hless : m < s.polls + spins)
    (hline : line m = true) : (waitEmpty line spins s).1 = true := by
  induction spins generalizing s with
  | zero => omega
  | succ spins ih =>
    unfold waitEmpty
    by_cases hnow : line s.polls = true
    · rw [if_pos hnow]
    · rw [if_neg hnow]
      have hne : m ≠ s.polls := by
        intro heq
        rw [heq] at hline
        exact hnow hline
      apply ih
      · show s.polls + 1 ≤ m
        omega
      · show m < s.polls + 1 + spins
        omega

/-- The driver does not give up a port that keeps up. -/
theorem Prompt.ready (h : Prompt line) (hready : s.ready = true) (bs : List UInt8) :
    (serialSend line bs s).2.ready = true := by
  induction bs generalizing s with
  | nil => exact hready
  | cons b bs ih =>
    obtain ⟨m, hm, hless, hline⟩ := h s.polls
    have hfound := waitEmpty_found hm hless hline
    have hwrite : (serialWriteByte line b s).1 = .ok () := by
      unfold serialWriteByte
      rw [if_neg (by simp [hready]), if_pos hfound]
    have hkept : (serialWriteByte line b s).2.ready = true := by
      rcases @serialWriteByte_cases line s b hready with ⟨_, hkept, _⟩ | ⟨herr, _, _⟩
      · exact hkept
      · rw [hwrite] at herr
        cases herr
    unfold serialSend
    rw [Effect.bind_run]
    rcases hrun : serialWriteByte line b s with ⟨r, s'⟩
    rw [hrun] at hwrite hkept
    obtain rfl : r = .ok () := hwrite
    exact ih hkept

end send

end Scdk
