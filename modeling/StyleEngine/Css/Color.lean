import StyleEngine.Text.Ascii

/-!
# `Css/Color.lean` — colours in hexadecimal notation

A colour is three channels and an alpha, a byte each. It is read from three, four, six
or eight hexadecimal digits: in the short forms every digit counts twice, and an alpha
that is left out is full. It is written in the long form, in lower case, and a full
alpha is left out again.
-/

set_option autoImplicit false

namespace StyleEngine

/-- A colour with alpha. -/
structure Color where
  red : UInt8
  green : UInt8
  blue : UInt8
  alpha : UInt8
deriving DecidableEq

namespace Color

/-- The byte of two hexadecimal digits. -/
def byte (high low : Char) : UInt8 :=
  UInt8.ofNat (16 * Ascii.hexValue high + Ascii.hexValue low)

/-- The digits of a byte. -/
def byteDigits (b : UInt8) : List Char :=
  [Nat.digitChar (b.toNat / 16), Nat.digitChar (b.toNat % 16)]

/-- The colour of these digits, if there are three, four, six or eight. -/
def ofDigits? : List Char → Option Color
  | [r, g, b] => some ⟨byte r r, byte g g, byte b b, 255⟩
  | [r, g, b, a] => some ⟨byte r r, byte g g, byte b b, byte a a⟩
  | [r₁, r₂, g₁, g₂, b₁, b₂] => some ⟨byte r₁ r₂, byte g₁ g₂, byte b₁ b₂, 255⟩
  | [r₁, r₂, g₁, g₂, b₁, b₂, a₁, a₂] =>
    some ⟨byte r₁ r₂, byte g₁ g₂, byte b₁ b₂, byte a₁ a₂⟩
  | _ => none

/-- The characters behind a number sign at the front, which may be missing. -/
def dropMark : List Char → List Char
  | '#' :: digits => digits
  | digits => digits

/-- Reads a colour. -/
def ofHex? (s : String) : Option Color :=
  let digits := dropMark s.toList
  if digits.all Ascii.isHexDigit then ofDigits? digits else none

/-- The colour as a style sheet writes it. -/
def text (c : Color) : String :=
  let channels := '#' :: (byteDigits c.red ++ byteDigits c.green ++ byteDigits c.blue)
  String.ofList (if c.alpha = 255 then channels else channels ++ byteDigits c.alpha)

end Color

end StyleEngine
