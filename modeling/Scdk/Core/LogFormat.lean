import Mathlib.Tactic.NormNum
import Scdk.Lib.Filled
import Scdk.Lib.Numeral

/-! # Numbers in the log

    Model of the buffer of a log line of `kernel/log.c`, and of the functions that
    append characters and numbers to it.

    * `LogBuffer`: a buffer that ends with a zero,
    * `appendChar`, `appendUnsigned`, `appendSigned`: the functions of the source; the signed
      arithmetic of the last one is checked, and gives nothing where it overflows,
    * `items_appendAll`: what characters do to the text of a buffer,
    * `digitLoop_run`: the loop stops because no digits are left, and the scratch buffer
      holds them all,
    * `number_formatting_exact`: the text of a number reads back to it. -/

namespace Scdk

/-! ## Buffers -/

/-- `SCDK_LOG_BUFFER_SIZE` -/
abbrev logBufferSize : Nat := 512

/-- `struct scdk_log_buffer`: there is a cell behind the text, with a zero. -/
structure LogBuffer extends Filled logBufferSize UInt8 where
  room : len < logBufferSize
  zero : data ⟨len, room⟩ = 0

/-- `struct scdk_log_buffer buffer = { 0 }` -/
def LogBuffer.empty : LogBuffer := ⟨⟨fun _ => 0, 0, Nat.zero_le _⟩, by decide, rfl⟩

/-- `append_char` -/
def appendChar (buffer : LogBuffer) (c : UInt8) : LogBuffer :=
  if h : logBufferSize ≤ buffer.len + 1 then buffer
  else
    have hroom : buffer.len + 1 < logBufferSize := Nat.not_le.mp h
    ⟨(buffer.push buffer.room c).set ⟨buffer.len + 1, hroom⟩ 0, hroom, Function.update_self _ _ _⟩

/-! ## Numbers -/

/-- The length of the scratch buffer of `append_unsigned`. -/
abbrev scratchSize : Nat := 32

/-- `"0123456789ABCDEF"` or `"0123456789abcdef"` -/
def digitTable (upper : Bool) : List UInt8 :=
  if upper = true then [48, 49, 50, 51, 52, 53, 54, 55, 56, 57, 65, 66, 67, 68, 69, 70]
  else [48, 49, 50, 51, 52, 53, 54, 55, 56, 57, 97, 98, 99, 100, 101, 102]

/-- `digits[d]`; behind the sixteen digits there is the zero that ends the string. -/
def digitChar (upper : Bool) (d : Nat) : UInt8 := (digitTable upper).getD d 0

/-- The loop of `append_unsigned` that fills the scratch buffer: the value that is left, and
    the buffer. -/
def digitLoop (base : UInt32) (upper : Bool) (value : UInt64) (buf : Filled scratchSize UInt8) :
    UInt64 × Filled scratchSize UInt8 :=
  if h : value ≠ 0 ∧ buf.len < scratchSize then
    digitLoop base upper (value / base.toUInt64)
      (buf.push h.2 (digitChar upper (value % base.toUInt64).toNat))
  else (value, buf)
termination_by scratchSize - buf.len
decreasing_by
  rw [Filled.len_push]
  omega

/-- The loop that appends the first `i` characters of the scratch buffer, from the last to
    the first. -/
def appendReversed (data : Fin scratchSize → UInt8) : (i : Nat) → i ≤ scratchSize → LogBuffer → LogBuffer
  | 0, _, buffer => buffer
  | i + 1, h, buffer => appendReversed data i (Nat.le_of_succ_le h) (appendChar buffer (data ⟨i, h⟩))

/-- The scratch buffer before the loop; no cell is read before it is written. -/
def scratchStart : Filled scratchSize UInt8 := ⟨fun _ => 0, 0, Nat.zero_le _⟩

/-- `append_unsigned` -/
def appendUnsigned (buffer : LogBuffer) (value : UInt64) (base : UInt32) (upper : Bool) : LogBuffer :=
  if value = 0 then appendChar buffer 48
  else
    let buf := (digitLoop base upper value scratchStart).2
    appendReversed buf.data buf.len buf.len_le buffer

/-- A result of signed arithmetic; there is none when it overflows. -/
def signedResult (n : Int) : Option Int64 :=
  if -9223372036854775808 ≤ n ∧ n < 9223372036854775808 then some (Int64.ofInt n) else none

/-- `x + y` of two signed values. -/
def signedAdd (x y : Int64) : Option Int64 := signedResult (x.toInt + y.toInt)

/-- `-x` of a signed value. -/
def signedNeg (x : Int64) : Option Int64 := signedResult (-x.toInt)

/-- `append_signed`; there is no result when its signed arithmetic overflows. -/
def appendSigned (buffer : LogBuffer) (value : Int64) : Option LogBuffer :=
  if value < 0 then do
    let next ← signedAdd value 1
    let negated ← signedNeg next
    return appendUnsigned (appendChar buffer 45) (negated.toUInt64 + 1) 10 false
  else some (appendUnsigned buffer value.toUInt64 10 false)

/-! ## Characters -/

section chars

variable {buffer : LogBuffer} {c : UInt8}

theorem appendChar_full (h : logBufferSize ≤ buffer.len + 1) : appendChar buffer c = buffer := dif_pos h

/-- With room, the character is behind the text. -/
theorem appendChar_room (h : buffer.len + 1 < logBufferSize) :
    (appendChar buffer c).len = buffer.len + 1 ∧ (appendChar buffer c).items = buffer.items ++ [c] := by
  unfold appendChar
  rw [dif_neg (Nat.not_le.mpr h)]
  refine ⟨rfl, ?_⟩
  rw [← buffer.items_push buffer.room c]
  exact Filled.items_set _ (Nat.le_refl _) 0

/-- **Characters.**  As many are appended as there is room for. -/
theorem items_appendAll (cs : List UInt8) (buffer : LogBuffer) :
    (cs.foldl appendChar buffer).items = buffer.items ++ cs.take (logBufferSize - 1 - buffer.len) := by
  induction cs generalizing buffer with
  | nil => simp
  | cons c cs ih =>
    rw [List.foldl_cons, ih]
    by_cases h : buffer.len + 1 < logBufferSize
    · obtain ⟨hlen, hitems⟩ := @appendChar_room buffer c h
      have hleft : logBufferSize - 1 - buffer.len = (logBufferSize - 1 - (buffer.len + 1)) + 1 := by omega
      rw [hitems, hlen, hleft, List.take_succ_cons, List.append_assoc]
      rfl
    · have hnone : logBufferSize - 1 - buffer.len = 0 := by omega
      rw [appendChar_full (Nat.not_lt.mp h), hnone]
      simp

theorem items_appendAll_room {cs : List UInt8} (h : buffer.len + cs.length < logBufferSize) :
    (cs.foldl appendChar buffer).items = buffer.items ++ cs := by
  rw [items_appendAll, List.take_of_length_le (by omega)]

end chars

/-! ## The digits of a number -/

section digits

variable {base : UInt32} {upper : Bool} {value : UInt64} {buf : Filled scratchSize UInt8}

/-- The loop runs until no digits are left, when the buffer has room for them. -/
theorem digitLoop_run (hbase : 1 < base.toNat)
    (hfit : buf.len + (Nat.digits base.toNat value.toNat).length ≤ scratchSize) :
    (digitLoop base upper value buf).1 = 0 ∧
      (digitLoop base upper value buf).2.items =
        buf.items ++ (Nat.digits base.toNat value.toNat).map (digitChar upper) := by
  fun_induction digitLoop base upper value buf with
  | case1 value buf h ih =>
    have hne : value.toNat ≠ 0 := fun hzero => h.1 (UInt64.toNat_inj.mp hzero)
    have hdiv : (value / base.toUInt64).toNat = value.toNat / base.toNat := UInt64.toNat_div _ _
    have hmod : (value % base.toUInt64).toNat = value.toNat % base.toNat := UInt64.toNat_mod _ _
    have hdigits : Nat.digits base.toNat value.toNat =
        value.toNat % base.toNat :: Nat.digits base.toNat (value.toNat / base.toNat) :=
      Nat.digits_eq_cons_digits_div hbase hne
    rw [hdigits, List.length_cons] at hfit
    rw [hdiv] at ih
    have hrest : (buf.push h.2 (digitChar upper (value % base.toUInt64).toNat)).len +
        (Nat.digits base.toNat (value.toNat / base.toNat)).length ≤ scratchSize := by
      rw [Filled.len_push]
      omega
    obtain ⟨hleft, hitems⟩ := ih hrest
    refine ⟨hleft, ?_⟩
    rw [hitems, hdigits, Filled.items_push, hmod, List.append_assoc]
    rfl
  | case2 value buf h =>
    -- the buffer is not full, so the value is zero
    have hzero : value = 0 := by
      by_contra hne
      have hlen : 1 ≤ (Nat.digits base.toNat value.toNat).length := by
        apply List.length_pos_iff.mpr
        apply Nat.digits_ne_nil_iff_ne_zero.mpr
        exact fun hzero => hne (UInt64.toNat_inj.mp hzero)
      exact h ⟨hne, by omega⟩
    subst hzero
    simp

/-- The last loop appends the text of the scratch buffer backwards. -/
theorem appendReversed_eq (data : Fin scratchSize → UInt8) {i : Nat} (h : i ≤ scratchSize)
    (buffer : LogBuffer) :
    appendReversed data i h buffer =
      (List.ofFn fun j : Fin i => data (j.castLE h)).reverse.foldl appendChar buffer := by
  induction i generalizing buffer with
  | zero => rfl
  | succ i ih =>
    unfold appendReversed
    rw [ih, List.ofFn_succ_last, List.reverse_append]
    rfl

/-- A value has at most 20 digits. -/
theorem value_lt_pow (hbase : base = 10 ∨ base = 16) (value : UInt64) :
    1 < base.toNat ∧ value.toNat < base.toNat ^ 20 := by
  have hlt : value.toNat < 2 ^ 64 := value.toNat_lt
  rcases hbase with rfl | rfl
  · exact ⟨by decide, Nat.lt_trans hlt (by decide)⟩
  · exact ⟨by decide, Nat.lt_trans hlt (by decide)⟩

theorem length_digits_le (hbase : base = 10 ∨ base = 16) (value : UInt64) :
    (Nat.digits base.toNat value.toNat).length ≤ 20 := by
  obtain ⟨hone, hlt⟩ := value_lt_pow hbase value
  exact (Nat.digits_length_le_iff hone _).mpr hlt

theorem length_numeral_le (hbase : base = 10 ∨ base = 16) (value : UInt64) (upper : Bool) :
    (Numeral.write (digitChar upper) base.toNat value.toNat).length ≤ 20 := by
  obtain ⟨hone, hlt⟩ := value_lt_pow hbase value
  exact Numeral.length_write_le hone (by decide) hlt

/-- What `append_unsigned` appends is the numeral. -/
theorem appendUnsigned_eq (hbase : base = 10 ∨ base = 16) (value : UInt64) (upper : Bool)
    (buffer : LogBuffer) :
    appendUnsigned buffer value base upper =
      (Numeral.write (digitChar upper) base.toNat value.toNat).foldl appendChar buffer := by
  have hone := (value_lt_pow hbase value).1
  unfold appendUnsigned
  by_cases hzero : value = 0
  · subst hzero
    rw [if_pos rfl]
    cases upper with
    | false => rfl
    | true => rfl
  · have hne : value.toNat ≠ 0 := fun h => hzero (UInt64.toNat_inj.mp h)
    have hlen := length_digits_le hbase value
    have hfit : scratchStart.len + (Nat.digits base.toNat value.toNat).length ≤ scratchSize :=
      show 0 + _ ≤ 32 by omega
    obtain ⟨_, hitems⟩ := @digitLoop_run base upper value scratchStart hone hfit
    rw [if_neg hzero]
    dsimp only
    rw [appendReversed_eq, Numeral.write_of_ne_zero hne]
    show (digitLoop base upper value scratchStart).2.items.reverse.foldl appendChar buffer = _
    have hstart : scratchStart.items = [] := rfl
    rw [hitems, hstart, List.nil_append, ← List.map_reverse]

end digits

/-! ## Signs -/

section signed

variable {value : Int64}

theorem signedResult_eq {n : Int} (hlow : -9223372036854775808 ≤ n) (hhigh : n < 9223372036854775808) :
    signedResult n = some (Int64.ofInt n) ∧ (Int64.ofInt n).toInt = n :=
  ⟨if_pos ⟨hlow, hhigh⟩, Int64.toInt_ofInt_of_le hlow hhigh⟩

/-- A negative value is negated without overflow, the least value too. -/
theorem negate_run (h : value < 0) :
    ∃ next negated, signedAdd value 1 = some next ∧ signedNeg next = some negated ∧
      negated.toInt = -(value.toInt + 1) := by
  have hlow := value.le_toInt
  have hneg : value.toInt < 0 := Int64.lt_iff_toInt_lt.mp h
  have hone : (1 : Int64).toInt = 1 := rfl
  obtain ⟨hadd, hnext⟩ := @signedResult_eq (value.toInt + 1) (by omega) (by omega)
  obtain ⟨hnegate, hnegated⟩ := @signedResult_eq (-(value.toInt + 1)) (by omega) (by omega)
  refine ⟨Int64.ofInt (value.toInt + 1), Int64.ofInt (-(value.toInt + 1)), ?_, ?_, hnegated⟩
  · unfold signedAdd
    rw [hone, hadd]
  · unfold signedNeg
    rw [hnext, hnegate]

-- The least value itself has no negation.
example : signedNeg Int64.minValue = none := by decide

/-- The unsigned value that is formatted behind the sign. -/
theorem toNat_negated {negated : Int64} (h : value < 0) (hnegated : negated.toInt = -(value.toInt + 1)) :
    (negated.toUInt64 + 1).toNat = value.toInt.natAbs := by
  have hlow := value.le_toInt
  have hneg : value.toInt < 0 := Int64.lt_iff_toInt_lt.mp h
  have hle : (0 : Int64) ≤ negated := by
    rw [Int64.le_iff_toInt_le, hnegated]
    show 0 ≤ -(value.toInt + 1)
    omega
  have hcast : negated.toUInt64.toNat = (-(value.toInt + 1)).toNat := by
    rw [Int64.toNat_toUInt64_of_le hle]
    show negated.toInt.toNat = _
    rw [hnegated]
  rw [UInt64.toNat_add, hcast]
  show ((-(value.toInt + 1)).toNat + 1) % 18446744073709551616 = value.toInt.natAbs
  omega

/-- `append_signed` never overflows, and what it appends is the numeral. -/
theorem appendSigned_eq (value : Int64) (buffer : LogBuffer) :
    appendSigned buffer value =
      some ((Numeral.writeSigned 45 (digitChar false) 10 value.toInt).foldl appendChar buffer) := by
  unfold appendSigned Numeral.writeSigned
  by_cases hneg : value < 0
  · have hint : value.toInt < 0 := Int64.lt_iff_toInt_lt.mp hneg
    obtain ⟨next, negated, hadd, hnegate, hnegated⟩ := negate_run hneg
    rw [if_pos hneg, if_pos hint, hadd, Option.bind_eq_bind, Option.bind_some, hnegate, Option.bind_some,
      appendUnsigned_eq (.inl rfl), toNat_negated hneg hnegated]
    rfl
  · have hle : 0 ≤ value := Int64.not_lt.mp hneg
    have hint : 0 ≤ value.toInt := Int64.le_iff_toInt_le.mp hle
    have hnat : value.toUInt64.toNat = value.toInt.natAbs := by
      rw [Int64.toNat_toUInt64_of_le hle]
      show value.toInt.toNat = _
      omega
    rw [if_neg hneg, if_neg (Int.not_lt.mpr hint), appendUnsigned_eq (.inl rfl), hnat]
    rfl

theorem appendSigned_isSome (buffer : LogBuffer) (value : Int64) : (appendSigned buffer value).isSome := by
  rw [appendSigned_eq]
  rfl

/-- The text of a signed value has at most 19 digits. -/
theorem length_writeSigned_le (value : Int64) :
    (Numeral.writeSigned 45 (digitChar false) 10 value.toInt).length ≤ 20 := by
  have hlow := value.le_toInt
  have hhigh := value.toInt_lt
  have hlt : value.toInt.natAbs < 10 ^ 19 := by
    show value.toInt.natAbs < 10000000000000000000
    omega
  have hlen : (Numeral.write (digitChar false) 10 value.toInt.natAbs).length ≤ 19 :=
    Numeral.length_write_le (by decide) (by decide) hlt
  unfold Numeral.writeSigned
  split
  · exact Nat.succ_le_succ hlen
  · exact Nat.le_succ_of_le hlen

end signed

/-! ## Reading back -/

/-- The digit that a character stands for, in either case. -/
def charDigit (c : UInt8) : Option Nat :=
  if 48 ≤ c ∧ c ≤ 57 then some (c.toNat - 48)
  else if 65 ≤ c ∧ c ≤ 70 then some (c.toNat - 55)
  else if 97 ≤ c ∧ c ≤ 102 then some (c.toNat - 87)
  else none

/-- `text` is the number `n`, in the digits of the case, and without leading zeros. -/
structure IsNumeral (upper : Bool) (base n : Nat) (text : List UInt8) : Prop where
  digits : ∀ c ∈ text, ∃ d < base, c = digitChar upper d
  reads : Numeral.read charDigit base text = some n
  leading : text.head? = some 48 → text = [48]

section reading

variable {upper : Bool} {base : Nat}

theorem charDigit_digitChar (upper : Bool) : ∀ d < 16, charDigit (digitChar upper d) = some d := by
  cases upper with
  | false => decide
  | true => decide

/-- No two digits are the same character, and none is the sign. -/
theorem digitChar_ne (upper : Bool) :
    ∀ d < 16, (digitChar upper d = digitChar upper 0 → d = 0) ∧ digitChar upper d ≠ 45 := by
  cases upper with
  | false => decide
  | true => decide

theorem isNumeral_write (hone : 1 < base) (hbase : base ≤ 16) (upper : Bool) (n : Nat) :
    IsNumeral upper base n (Numeral.write (digitChar upper) base n) where
  digits := fun _ hc => Numeral.mem_write hone hc
  reads := Numeral.read_write hone (fun d hd => charDigit_digitChar upper d (by omega)) n
  leading := by
    intro hhead
    have hchar : digitChar upper 0 = 48 := by
      cases upper with
      | false => rfl
      | true => rfl
    by_cases hn : n = 0
    · subst hn
      rw [← hchar]
      rfl
    · have hne := Numeral.head_write hone (fun d hd => (digitChar_ne upper d (by omega)).1) hn
      rw [hchar] at hne
      exact absurd hhead hne

end reading

/-- **Number formatting.**  In base 10 or 16, the numeral of every value is appended to every
    buffer with room for it, and the loop that makes it leaves no digit out and a part of the
    scratch buffer free; every signed value is appended without an overflow, as a text that
    reads back to it. -/
theorem number_formatting_exact :
    (∀ (value : UInt64) (base : UInt32) (upper : Bool), base = 10 ∨ base = 16 →
      ∃ text, IsNumeral upper base.toNat value.toNat text ∧ text.length ≤ 20 ∧
        (∀ buffer : LogBuffer, buffer.len + text.length < logBufferSize →
          (appendUnsigned buffer value base upper).items = buffer.items ++ text) ∧
        (digitLoop base upper value scratchStart).1 = 0 ∧
        (digitLoop base upper value scratchStart).2.len < scratchSize) ∧
    ∀ value : Int64, ∃ text, Numeral.readSigned 45 charDigit 10 text = some value.toInt ∧ text.length ≤ 20 ∧
      (∀ buffer : LogBuffer, ∃ buffer', appendSigned buffer value = some buffer' ∧
        (buffer.len + text.length < logBufferSize → buffer'.items = buffer.items ++ text)) := by
  constructor
  · intro value base upper hbase
    have hrange : 1 < base.toNat ∧ base.toNat ≤ 16 := by
      rcases hbase with rfl | rfl
      · decide
      · decide
    have hlen := length_digits_le hbase value
    -- The scratch buffer has room for the digits, so the loop ends at zero.
    have hfit : scratchStart.len + (Nat.digits base.toNat value.toNat).length ≤ scratchSize :=
      show 0 + _ ≤ 32 by omega
    obtain ⟨hleft, hitems⟩ := @digitLoop_run base upper value scratchStart hrange.1 hfit
    refine ⟨Numeral.write (digitChar upper) base.toNat value.toNat,
      isNumeral_write hrange.1 hrange.2 upper value.toNat, ?_, ?_, hleft, ?_⟩
    · exact length_numeral_le hbase value upper
    · intro buffer hroom
      rw [appendUnsigned_eq hbase, items_appendAll_room hroom]
    · rw [← Filled.length_items, hitems, List.length_append, List.length_map]
      show 0 + _ < 32
      omega
  · intro value
    refine ⟨Numeral.writeSigned 45 (digitChar false) 10 value.toInt, ?_, length_writeSigned_le value, ?_⟩
    · -- No digit is the sign, so that the text is read back.
      apply Numeral.readSigned_writeSigned (by decide)
      · exact fun d hd => charDigit_digitChar false d (by omega)
      · exact fun d hd => (digitChar_ne false d (by omega)).2
    · intro buffer
      exact ⟨_, appendSigned_eq value buffer, fun hroom => items_appendAll_room hroom⟩

/-- The least signed value, and a value in capital digits. -/
theorem number_formatting_exact_least :
    (∃ buffer, appendSigned LogBuffer.empty Int64.minValue = some buffer ∧
      Numeral.readSigned 45 charDigit 10 buffer.items = some (-9223372036854775808)) ∧
    IsNumeral true 16 48879 (appendUnsigned LogBuffer.empty 48879 16 true).items ∧
    (appendUnsigned LogBuffer.empty 48879 16 true).items = [66, 69, 69, 70] := by
  obtain ⟨hunsigned, hsigned⟩ := number_formatting_exact
  obtain ⟨text, hreads, hlen, happend⟩ := hsigned Int64.minValue
  obtain ⟨buffer, hbuffer, hitems⟩ := happend LogBuffer.empty
  obtain ⟨hex, hnumeral, hhexlen, hhex, _⟩ := hunsigned 48879 16 true (.inr rfl)
  have hempty : LogBuffer.empty.items = [] := rfl
  refine ⟨⟨buffer, hbuffer, ?_⟩, ?_, by decide +kernel⟩
  · rw [hitems (show 0 + _ < 512 by omega), hempty, List.nil_append, hreads]
    rfl
  · rw [hhex _ (show 0 + _ < 512 by omega), hempty, List.nil_append]
    exact hnumeral

end Scdk
