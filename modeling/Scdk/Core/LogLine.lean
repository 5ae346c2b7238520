import Scdk.Core.LogFormat
import Scdk.Core.LogTrace

/-! # Lines of the log

    Model of the formatted output of `kernel/log.c`: a format string is run through once,
    and what it calls for is appended to a buffer that cuts off what it has no room for.

    * `appendString`, `appendFormat`, `logLine`: the functions of the source,
    * `Piece`: a character or a directive of a format string, `Piece.text`: what it stands
      for,
    * `exists_pieces`: every format string is made of pieces, `appendFormat_pieces`: it
      appends their texts,
    * `format_exact`: both, for every line.

    The variable arguments are 64-bit words, as they are passed; one that is missing is
    read as zero.  `strings` has the characters at an address, up to the zero. -/

namespace Scdk

/-! ## Functions -/

/-- The flags `long_arg` and `long_long_arg`. -/
inductive ArgLength where
  | plain
  | long
  | longLong
  deriving DecidableEq, Repr

/-- The length modifier of a directive, and the rest of the format string. -/
def lengthModifier : List UInt8 → ArgLength × List UInt8
  | 108 :: 108 :: rest => (.longLong, rest)
  | 108 :: rest => (.long, rest)
  | 122 :: rest => (.long, rest)
  | rest => (.plain, rest)

/-- `va_arg` -/
def vaArg (args : List UInt64) : UInt64 := args.headD 0

/-- `va_arg` for a signed type. -/
def vaSigned (length : ArgLength) (args : List UInt64) : Int64 :=
  if length = .plain then (vaArg args).toUInt32.toInt32.toInt64 else (vaArg args).toInt64

/-- `va_arg` for an unsigned type. -/
def vaUnsigned (length : ArgLength) (args : List UInt64) : UInt64 :=
  if length = .plain then (vaArg args).toUInt32.toUInt64 else vaArg args

/-- `"(null)"` -/
def nullText : List UInt8 := [40, 110, 117, 108, 108, 41]

/-- `append_string`; a null pointer is `none`. -/
def appendString (buffer : LogBuffer) (s : Option (List UInt8)) : LogBuffer :=
  (s.getD nullText).foldl appendChar buffer

section format

variable (strings : UInt64 → List UInt8)

/-- The characters at an address. -/
def stringAt (address : UInt64) : Option (List UInt8) :=
  if address = 0 then none else some (strings address)

/-- The `switch` of `append_format`: the buffer and the arguments that are left. -/
def appendDirective (buffer : LogBuffer) (length : ArgLength) (c : UInt8) (args : List UInt64) :
    LogBuffer × List UInt64 :=
  if c = 99 then (appendChar buffer (vaArg args).toUInt8, args.tail)
  else if c = 115 then (appendString buffer (stringAt strings (vaArg args)), args.tail)
  else if c = 100 ∨ c = 105 then
    ((appendSigned buffer (vaSigned length args)).get (appendSigned_isSome _ _), args.tail)
  else if c = 117 then (appendUnsigned buffer (vaUnsigned length args) 10 false, args.tail)
  else if c = 120 ∨ c = 88 then
    (appendUnsigned buffer (vaUnsigned length args) 16 (decide (c = 88)), args.tail)
  else if c = 112 then
    (appendUnsigned (appendString buffer (some [48, 120])) (vaArg args) 16 false, args.tail)
  else (appendChar (appendChar buffer 37) c, args)

theorem length_lengthModifier (fmt : List UInt8) : (lengthModifier fmt).2.length ≤ fmt.length := by
  fun_cases lengthModifier fmt
  all_goals simp
  all_goals omega

/-- `append_format`, with the characters of the format string before its zero. -/
def appendFormat (fmt : List UInt8) (args : List UInt64) (buffer : LogBuffer) : LogBuffer :=
  match fmt with
  | [] => buffer
  | c :: rest =>
    if c ≠ 37 then appendFormat rest args (appendChar buffer c)
    else if rest.head? = some 37 then appendFormat rest.tail args (appendChar buffer 37)
    else
      let directive := lengthModifier rest
      -- at the end of the string the character is its zero, and is not stepped over
      let out := appendDirective strings buffer directive.1 (directive.2.headD 0) args
      appendFormat directive.2.tail out.2 out.1
termination_by fmt.length
decreasing_by
  all_goals have hle := length_lengthModifier rest
  all_goals simp only [List.length_cons, List.length_tail]
  all_goals omega

/-- The buffer of `scdk_log_vwrite`; a null pointer is `none`. -/
def logLine (level fmt : Option (List UInt8)) (args : List UInt64) : LogBuffer :=
  let buffer := appendString .empty (some [91])
  let buffer := appendString buffer (some (level.getD [108, 111, 103]))
  let buffer := appendString buffer (some [93, 32])
  let buffer := appendFormat strings (fmt.getD nullText) args buffer
  appendString buffer (some [10])

end format

/-! ## The parts of a format string -/

/-- The length modifiers `l`, `ll` and `z`. -/
inductive Modifier where
  | none
  | l
  | ll
  | z
  deriving DecidableEq, Repr

namespace Modifier

/-- How it is written. -/
def source : Modifier → List UInt8
  | none => []
  | l => [108]
  | ll => [108, 108]
  | z => [122]

def length : Modifier → ArgLength
  | none => .plain
  | l => .long
  | ll => .longLong
  | z => .long

/-- The modifier ends where `c` comes, and with no modifier `c` is no second `%`. -/
def EndsAt (c : UInt8) : Modifier → Prop
  | none => c ≠ 37 ∧ c ≠ 108 ∧ c ≠ 122
  | l => c ≠ 108
  | ll => True
  | z => True

instance (c : UInt8) (m : Modifier) : Decidable (m.EndsAt c) := by
  cases m <;> unfold EndsAt <;> infer_instance

end Modifier

/-- A part of a format string. -/
inductive Piece where
  | char (c : UInt8)
  | percent
  | directive (modifier : Modifier) (c : UInt8)
  deriving DecidableEq, Repr

/-- Does a directive take an argument? -/
def takesArg (c : UInt8) : Bool := c ∈ [99, 115, 100, 105, 117, 120, 88, 112]

/-- What a directive stands for, with the word that it takes. -/
def directiveText (strings : UInt64 → List UInt8) (length : ArgLength) (c : UInt8)
    (args : List UInt64) : List UInt8 :=
  if c = 99 then [(vaArg args).toUInt8]
  else if c = 115 then (stringAt strings (vaArg args)).getD nullText
  else if c = 100 ∨ c = 105 then
    Numeral.writeSigned 45 (digitChar false) 10 (vaSigned length args).toInt
  else if c = 117 then Numeral.write (digitChar false) 10 (vaUnsigned length args).toNat
  else if c = 120 ∨ c = 88 then
    Numeral.write (digitChar (decide (c = 88))) 16 (vaUnsigned length args).toNat
  else if c = 112 then 48 :: 120 :: Numeral.write (digitChar false) 16 (vaArg args).toNat
  else [37, c]

namespace Piece

/-- How it is written. -/
def source : Piece → List UInt8
  | char c => [c]
  | percent => [37, 37]
  | directive m c => 37 :: (m.source ++ [c])

/-- It is read as it is written. -/
def Valid : Piece → Prop
  | char c => c ≠ 37
  | percent => True
  | directive m c => m.EndsAt c

instance (p : Piece) : Decidable p.Valid := by
  cases p <;> unfold Valid <;> infer_instance

/-- What it stands for. -/
def text (strings : UInt64 → List UInt8) (args : List UInt64) : Piece → List UInt8
  | char c => [c]
  | percent => [37]
  | directive m c => directiveText strings m.length c args

/-- How many arguments it takes. -/
def words : Piece → Nat
  | directive _ c => if takesArg c = true then 1 else 0
  | _ => 0

end Piece

/-- How some pieces are written. -/
def piecesSource (pieces : List Piece) : List UInt8 := (pieces.map Piece.source).flatten

/-- What some pieces stand for; each takes the arguments that those before it have left. -/
def piecesText (strings : UInt64 → List UInt8) : List Piece → List UInt64 → List UInt8
  | [], _ => []
  | p :: pieces, args => p.text strings args ++ piecesText strings pieces (args.drop p.words)

/-- A directive that the end of the string cuts off. -/
def cutSource : Option Modifier → List UInt8
  | none => []
  | some m => 37 :: m.source

/-- It is appended with the zero that ends the string. -/
def cutText : Option Modifier → List UInt8
  | none => []
  | some _ => [37, 0]

/-! ## Reading a format string -/

section reading

variable (strings : UInt64 → List UInt8)

theorem appendString_eq (buffer : LogBuffer) (s : Option (List UInt8)) :
    appendString buffer s = (s.getD nullText).foldl appendChar buffer := rfl

/-- What a directive appends, and the arguments it leaves. -/
theorem appendDirective_eq (buffer : LogBuffer) (length : ArgLength) (c : UInt8) (args : List UInt64) :
    appendDirective strings buffer length c args =
      ((directiveText strings length c args).foldl appendChar buffer,
        args.drop (if takesArg c = true then 1 else 0)) := by
  unfold appendDirective directiveText
  by_cases hchar : c = 99
  · simp [hchar, takesArg]
  by_cases hstring : c = 115
  · simp [hstring, takesArg, appendString]
  by_cases hsigned : c = 100 ∨ c = 105
  · rcases hsigned with rfl | rfl
    · simp [takesArg, appendSigned_eq]
    · simp [takesArg, appendSigned_eq]
  by_cases hunsigned : c = 117
  · simp [hunsigned, takesArg, appendUnsigned_eq (.inl rfl)]
  by_cases hhex : c = 120 ∨ c = 88
  · rcases hhex with rfl | rfl
    · simp [takesArg, appendUnsigned_eq (.inr rfl)]
    · simp [takesArg, appendUnsigned_eq (.inr rfl)]
  by_cases hpointer : c = 112
  · simp [hpointer, takesArg, appendString, appendUnsigned_eq (.inr rfl)]
  have hno : takesArg c = false := by simp_all [takesArg]
  simp only [if_neg hchar, if_neg hstring, if_neg hsigned, if_neg hunsigned, if_neg hhex,
    if_neg hpointer, hno]
  simp

/-- The modifier is read back. -/
theorem lengthModifier_source {m : Modifier} {c : UInt8} (h : m.EndsAt c) (rest : List UInt8) :
    lengthModifier (m.source ++ c :: rest) = (m.length, c :: rest) := by
  cases m with
  | none =>
    obtain ⟨_, hl, hz⟩ := h
    simp [lengthModifier, Modifier.source, Modifier.length, hl, hz]
  | l => simp [lengthModifier, Modifier.source, Modifier.length, show c ≠ 108 from h]
  | ll => simp [lengthModifier, Modifier.source, Modifier.length]
  | z => simp [lengthModifier, Modifier.source, Modifier.length]

/-- So is one at the end of the string. -/
theorem lengthModifier_cut (m : Modifier) : lengthModifier m.source = (m.length, []) := by
  cases m with
  | none => rfl
  | l => rfl
  | ll => rfl
  | z => rfl

/-- What comes behind a `%` is read in one way. -/
theorem exists_modifier {rest : List UInt8} (h : rest.head? ≠ some 37) :
    ∃ m : Modifier, rest = m.source ∨
      ∃ c rest', rest = m.source ++ c :: rest' ∧ m.EndsAt c := by
  fun_cases lengthModifier rest with
  | case1 rest =>
    cases rest with
    | nil => exact ⟨.ll, .inl rfl⟩
    | cons c rest => exact ⟨.ll, .inr ⟨c, rest, rfl, trivial⟩⟩
  | case2 rest hll =>
    cases rest with
    | nil => exact ⟨.l, .inl rfl⟩
    | cons c rest => exact ⟨.l, .inr ⟨c, rest, rfl, fun hc => hll rest (by rw [hc])⟩⟩
  | case3 rest =>
    cases rest with
    | nil => exact ⟨.z, .inl rfl⟩
    | cons c rest => exact ⟨.z, .inr ⟨c, rest, rfl, trivial⟩⟩
  | case4 rest hll hl hz =>
    cases rest with
    | nil => exact ⟨.none, .inl rfl⟩
    | cons c rest =>
      refine ⟨.none, .inr ⟨c, rest, rfl, ?_, ?_, ?_⟩⟩
      · intro hc
        exact h (by rw [hc]; rfl)
      · intro hc
        exact hl rest (by rw [hc])
      · intro hc
        exact hz rest (by rw [hc])

/-- The pieces of every format string. -/
theorem exists_pieces (fmt : List UInt8) : ∃ pieces cut, (∀ p ∈ pieces, p.Valid) ∧
    fmt = piecesSource pieces ++ cutSource cut := by
  -- Each piece leaves a shorter string.
  induction hn : fmt.length using Nat.strong_induction_on generalizing fmt with
  | _ n ih =>
    subst hn
    have step : ∀ (p : Piece) (rest : List UInt8), p.Valid → fmt = p.source ++ rest →
        rest.length < fmt.length → ∃ pieces cut, (∀ p ∈ pieces, p.Valid) ∧
          fmt = piecesSource pieces ++ cutSource cut := by
      intro p rest hp hfmt hlt
      obtain ⟨pieces, cut, hvalid, hrest⟩ := ih rest.length hlt rest rfl
      refine ⟨p :: pieces, cut, ?_, ?_⟩
      · simpa using ⟨hp, hvalid⟩
      · rw [hfmt, hrest]
        simp [piecesSource]
    cases fmt with
    | nil => exact ⟨[], none, by simp, rfl⟩
    | cons c rest =>
      by_cases hc : c = 37
      · subst hc
        by_cases hpercent : rest.head? = some 37
        · obtain ⟨rest', rfl⟩ := List.head?_eq_some_iff.mp hpercent
          exact step .percent rest' trivial rfl (by simp)
        · obtain ⟨m, rfl | ⟨c, rest', rfl, hend⟩⟩ := exists_modifier hpercent
          · exact ⟨[], some m, by simp, rfl⟩
          · exact step (.directive m c) rest' hend (by simp [Piece.source]) (by simp; omega)
      · exact step (.char c) rest hc rfl (by simp)

/-- One piece of a format string. -/
theorem appendFormat_piece {p : Piece} (hp : p.Valid) (rest : List UInt8) (args : List UInt64)
    (buffer : LogBuffer) :
    appendFormat strings (p.source ++ rest) args buffer =
      appendFormat strings rest (args.drop p.words) ((p.text strings args).foldl appendChar buffer) := by
  cases p with
  | char c =>
    rw [Piece.source, List.singleton_append, appendFormat, if_pos (show c ≠ 37 from hp)]
    rfl
  | percent =>
    simp [Piece.source, appendFormat, Piece.text, Piece.words]
  | directive m c =>
    have hpercent : (m.source ++ c :: rest).head? ≠ some 37 := by
      cases m with
      | none => simpa [Modifier.source] using hp.1
      | l => simp [Modifier.source]
      | ll => simp [Modifier.source]
      | z => simp [Modifier.source]
    rw [Piece.source, List.cons_append, List.append_assoc, List.singleton_append, appendFormat,
      if_neg (by simp), if_neg hpercent, lengthModifier_source hp]
    simp only [List.headD_cons, List.tail_cons, appendDirective_eq]
    rfl

/-- The pieces of a format string, one by one. -/
theorem appendFormat_pieces {pieces : List Piece} (h : ∀ p ∈ pieces, p.Valid) (rest : List UInt8)
    (args : List UInt64) (buffer : LogBuffer) :
    ∃ left, appendFormat strings (piecesSource pieces ++ rest) args buffer =
      appendFormat strings rest left ((piecesText strings pieces args).foldl appendChar buffer) := by
  induction pieces generalizing args buffer with
  | nil => exact ⟨args, rfl⟩
  | cons p pieces ih =>
    obtain ⟨left, hleft⟩ := ih (fun q hq => h q (List.mem_cons_of_mem p hq)) (args.drop p.words)
      ((p.text strings args).foldl appendChar buffer)
    refine ⟨left, ?_⟩
    have hsource : piecesSource (p :: pieces) = p.source ++ piecesSource pieces := rfl
    rw [hsource, List.append_assoc, appendFormat_piece strings (h p List.mem_cons_self), hleft]
    simp [piecesText]

/-- A directive that is cut off. -/
theorem appendFormat_cut (cut : Option Modifier) (args : List UInt64) (buffer : LogBuffer) :
    appendFormat strings (cutSource cut) args buffer = (cutText cut).foldl appendChar buffer := by
  cases cut with
  | none => simp [cutSource, cutText, appendFormat]
  | some m =>
    have hpercent : m.source.head? ≠ some 37 := by
      cases m <;> decide
    rw [cutSource, appendFormat, if_neg (by simp), if_neg hpercent, lengthModifier_cut]
    simp only [List.headD_nil, List.tail_nil, appendDirective_eq]
    rw [appendFormat]
    rfl

end reading

/-! ## Lines -/

/-- The text of a line, of any length. -/
def lineText (strings : UInt64 → List UInt8) (level : Option (List UInt8)) (pieces : List Piece)
    (cut : Option Modifier) (args : List UInt64) : List UInt8 :=
  91 :: level.getD [108, 111, 103] ++ 93 :: 32 :: piecesText strings pieces args ++ cutText cut ++ [10]

/-- The buffer has the first 511 characters. -/
theorem items_logLine {strings : UInt64 → List UInt8} {level fmt : Option (List UInt8)}
    {args : List UInt64} {pieces : List Piece} {cut : Option Modifier}
    (hvalid : ∀ p ∈ pieces, p.Valid)
    (hfmt : fmt.getD nullText = piecesSource pieces ++ cutSource cut) :
    (logLine strings level fmt args).items = (lineText strings level pieces cut args).take 511 := by
  unfold logLine
  rw [hfmt]
  simp only [appendString_eq]
  obtain ⟨left, hleft⟩ := appendFormat_pieces strings hvalid (cutSource cut) args
    (([93, 32] : List UInt8).foldl appendChar ((level.getD [108, 111, 103]).foldl appendChar
      (([91] : List UInt8).foldl appendChar .empty)))
  simp only [Option.getD_some]
  rw [hleft, appendFormat_cut]
  simp only [← List.foldl_append]
  rw [items_appendAll]
  have hempty : LogBuffer.empty.items = [] := rfl
  have hlen : LogBuffer.empty.len = 0 := rfl
  rw [hempty, hlen, List.nil_append]
  simp [lineText]

/-- A line is not empty. -/
theorem len_logLine_pos (strings : UInt64 → List UInt8) (level fmt : Option (List UInt8))
    (args : List UInt64) : 0 < (logLine strings level fmt args).len := by
  obtain ⟨pieces, cut, hvalid, hfmt⟩ := exists_pieces (fmt.getD nullText)
  rw [← Filled.length_items, items_logLine hvalid hfmt]
  simp [lineText]

/-- **Log lines.**  A format string is made of characters, of `%%`, of directives and of a
    directive that its end cuts off.  The buffer has the first 511 characters of what
    they stand for, between the level and the newline. -/
theorem format_exact (strings : UInt64 → List UInt8) (level fmt : Option (List UInt8))
    (args : List UInt64) :
    (∃ pieces cut, (∀ p ∈ pieces, p.Valid) ∧
      fmt.getD nullText = piecesSource pieces ++ cutSource cut) ∧
    ∀ pieces cut, (∀ p ∈ pieces, p.Valid) →
      fmt.getD nullText = piecesSource pieces ++ cutSource cut →
      (logLine strings level fmt args).items = (lineText strings level pieces cut args).take 511 := by
  refine ⟨exists_pieces _, ?_⟩
  intro pieces cut hvalid hfmt
  exact items_logLine hvalid hfmt

end Scdk
