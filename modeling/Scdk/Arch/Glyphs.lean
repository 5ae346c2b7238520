/-! # The font of the console

    Model of the glyphs of `arch/x86_64/framebuffer.c`: seven rows of five bits for each
    character.

    * `glyphFor`: the function of the source,
    * `glyphBit`: one bit of a glyph. -/

namespace Scdk

/-! ## Tables -/

/-- `glyph_blank` -/
def glyphBlank : List UInt8 := [0x00, 0x00, 0x00, 0x00, 0x00, 0x00, 0x00]

/-- `glyph_unknown` -/
def glyphUnknown : List UInt8 := [0x1f, 0x11, 0x01, 0x02, 0x04, 0x00, 0x04]

/-- `glyph_letters` -/
def glyphLetters : List (List UInt8) := [
  [0x0e, 0x11, 0x11, 0x1f, 0x11, 0x11, 0x11],
  [0x1e, 0x11, 0x11, 0x1e, 0x11, 0x11, 0x1e],
  [0x0e, 0x11, 0x10, 0x10, 0x10, 0x11, 0x0e],
  [0x1e, 0x11, 0x11, 0x11, 0x11, 0x11, 0x1e],
  [0x1f, 0x10, 0x10, 0x1e, 0x10, 0x10, 0x1f],
  [0x1f, 0x10, 0x10, 0x1e, 0x10, 0x10, 0x10],
  [0x0e, 0x11, 0x10, 0x17, 0x11, 0x11, 0x0f],
  [0x11, 0x11, 0x11, 0x1f, 0x11, 0x11, 0x11],
  [0x0e, 0x04, 0x04, 0x04, 0x04, 0x04, 0x0e],
  [0x07, 0x02, 0x02, 0x02, 0x12, 0x12, 0x0c],
  [0x11, 0x12, 0x14, 0x18, 0x14, 0x12, 0x11],
  [0x10, 0x10, 0x10, 0x10, 0x10, 0x10, 0x1f],
  [0x11, 0x1b, 0x15, 0x15, 0x11, 0x11, 0x11],
  [0x11, 0x19, 0x15, 0x13, 0x11, 0x11, 0x11],
  [0x0e, 0x11, 0x11, 0x11, 0x11, 0x11, 0x0e],
  [0x1e, 0x11, 0x11, 0x1e, 0x10, 0x10, 0x10],
  [0x0e, 0x11, 0x11, 0x11, 0x15, 0x12, 0x0d],
  [0x1e, 0x11, 0x11, 0x1e, 0x14, 0x12, 0x11],
  [0x0f, 0x10, 0x10, 0x0e, 0x01, 0x01, 0x1e],
  [0x1f, 0x04, 0x04, 0x04, 0x04, 0x04, 0x04],
  [0x11, 0x11, 0x11, 0x11, 0x11, 0x11, 0x0e],
  [0x11, 0x11, 0x11, 0x11, 0x0a, 0x0a, 0x04],
  [0x11, 0x11, 0x11, 0x15, 0x15, 0x1b, 0x11],
  [0x11, 0x11, 0x0a, 0x04, 0x0a, 0x11, 0x11],
  [0x11, 0x11, 0x0a, 0x04, 0x04, 0x04, 0x04],
  [0x1f, 0x01, 0x02, 0x04, 0x08, 0x10, 0x1f]]

/-- `glyph_lowercase` -/
def glyphLowercase : List (List UInt8) := [
  [0x00, 0x00, 0x0e, 0x01, 0x0f, 0x11, 0x0f],
  [0x10, 0x10, 0x1e, 0x11, 0x11, 0x11, 0x1e],
  [0x00, 0x00, 0x0e, 0x10, 0x10, 0x10, 0x0e],
  [0x01, 0x01, 0x0f, 0x11, 0x11, 0x11, 0x0f],
  [0x00, 0x00, 0x0e, 0x11, 0x1f, 0x10, 0x0e],
  [0x06, 0x08, 0x08, 0x1c, 0x08, 0x08, 0x08],
  [0x00, 0x00, 0x0f, 0x11, 0x11, 0x0f, 0x01],
  [0x10, 0x10, 0x1e, 0x11, 0x11, 0x11, 0x11],
  [0x04, 0x00, 0x0c, 0x04, 0x04, 0x04, 0x0e],
  [0x02, 0x00, 0x06, 0x02, 0x02, 0x12, 0x0c],
  [0x10, 0x10, 0x12, 0x14, 0x18, 0x14, 0x12],
  [0x0c, 0x04, 0x04, 0x04, 0x04, 0x04, 0x0e],
  [0x00, 0x00, 0x1a, 0x15, 0x15, 0x11, 0x11],
  [0x00, 0x00, 0x1e, 0x11, 0x11, 0x11, 0x11],
  [0x00, 0x00, 0x0e, 0x11, 0x11, 0x11, 0x0e],
  [0x00, 0x00, 0x1e, 0x11, 0x11, 0x1e, 0x10],
  [0x00, 0x00, 0x0f, 0x11, 0x11, 0x0f, 0x01],
  [0x00, 0x00, 0x16, 0x19, 0x10, 0x10, 0x10],
  [0x00, 0x00, 0x0f, 0x10, 0x0e, 0x01, 0x1e],
  [0x08, 0x08, 0x1c, 0x08, 0x08, 0x09, 0x06],
  [0x00, 0x00, 0x11, 0x11, 0x11, 0x13, 0x0d],
  [0x00, 0x00, 0x11, 0x11, 0x0a, 0x0a, 0x04],
  [0x00, 0x00, 0x11, 0x11, 0x15, 0x15, 0x0a],
  [0x00, 0x00, 0x11, 0x0a, 0x04, 0x0a, 0x11],
  [0x00, 0x00, 0x11, 0x11, 0x0f, 0x01, 0x0e],
  [0x00, 0x00, 0x1f, 0x02, 0x04, 0x08, 0x1f]]

/-- `glyph_digits` -/
def glyphDigits : List (List UInt8) := [
  [0x0e, 0x11, 0x13, 0x15, 0x19, 0x11, 0x0e],
  [0x04, 0x0c, 0x04, 0x04, 0x04, 0x04, 0x0e],
  [0x0e, 0x11, 0x01, 0x02, 0x04, 0x08, 0x1f],
  [0x1e, 0x01, 0x01, 0x0e, 0x01, 0x01, 0x1e],
  [0x02, 0x06, 0x0a, 0x12, 0x1f, 0x02, 0x02],
  [0x1f, 0x10, 0x10, 0x1e, 0x01, 0x01, 0x1e],
  [0x0e, 0x10, 0x10, 0x1e, 0x11, 0x11, 0x0e],
  [0x1f, 0x01, 0x02, 0x04, 0x08, 0x08, 0x08],
  [0x0e, 0x11, 0x11, 0x0e, 0x11, 0x11, 0x0e],
  [0x0e, 0x11, 0x11, 0x0f, 0x01, 0x01, 0x0e]]

/-- `glyph_colon` -/
def glyphColon : List UInt8 := [0x00, 0x04, 0x04, 0x00, 0x04, 0x04, 0x00]

/-- `glyph_dash` -/
def glyphDash : List UInt8 := [0x00, 0x00, 0x00, 0x1f, 0x00, 0x00, 0x00]

/-- `glyph_dot` -/
def glyphDot : List UInt8 := [0x00, 0x00, 0x00, 0x00, 0x00, 0x0c, 0x0c]

/-- `glyph_left_bracket` -/
def glyphLeftBracket : List UInt8 := [0x0e, 0x08, 0x08, 0x08, 0x08, 0x08, 0x0e]

/-- `glyph_right_bracket` -/
def glyphRightBracket : List UInt8 := [0x0e, 0x02, 0x02, 0x02, 0x02, 0x02, 0x0e]

/-- `glyph_slash` -/
def glyphSlash : List UInt8 := [0x01, 0x01, 0x02, 0x04, 0x08, 0x10, 0x10]

/-- `glyph_greater` -/
def glyphGreater : List UInt8 := [0x10, 0x08, 0x04, 0x02, 0x04, 0x08, 0x10]

/-- `glyph_underscore` -/
def glyphUnderscore : List UInt8 := [0x00, 0x00, 0x00, 0x00, 0x00, 0x00, 0x1f]

/-! ## Characters -/

/-- `glyph_for`; characters from 128 on are negative there, and have no glyph either. -/
def glyphFor (c : UInt8) : List UInt8 :=
  if 97 ≤ c ∧ c ≤ 122 then glyphLowercase.getD (c - 97).toNat glyphUnknown
  else if 65 ≤ c ∧ c ≤ 90 then glyphLetters.getD (c - 65).toNat glyphUnknown
  else if 48 ≤ c ∧ c ≤ 57 then glyphDigits.getD (c - 48).toNat glyphUnknown
  else if c = 32 then glyphBlank
  else if c = 58 then glyphColon
  else if c = 45 then glyphDash
  else if c = 46 then glyphDot
  else if c = 91 then glyphLeftBracket
  else if c = 93 then glyphRightBracket
  else if c = 47 then glyphSlash
  else if c = 62 then glyphGreater
  else if c = 95 then glyphUnderscore
  else glyphUnknown

/-- `glyph[row] & (1 << (4 - col))` -/
def glyphBit (c : UInt8) (row col : Nat) : Bool := ((glyphFor c).getD row 0).toNat.testBit (4 - col)

/-- A blank has no bits. -/
theorem glyphBit_blank {row col : Nat} (hrow : row < 7) (hcol : col < 5) : glyphBit 32 row col = false := by
  have hall : ∀ row < 7, ∀ col < 5, glyphBit 32 row col = false := by decide
  exact hall row hrow col hcol

end Scdk
