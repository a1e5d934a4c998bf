import StyleEngine.Json.Basic
import StyleEngine.Text.Ascii

/-!
# `Json/Scalar.lean` — reading the strings, numbers and words of JSON

A reader takes characters from the front of a text and returns what they stand for and
what follows. It fails in one of three ways, and which one matters to whoever sent the
text: it may be no JSON, it may stop too early, or it may be JSON of another shape than
asked for (`ReadError`).

There are two degrees of care (`Care`). A value that is wanted is read in full. A value
that nobody asks for is only skipped: its brackets, quotes and escapes must be in
order, but an escape may name half a character and a number may be too large.
-/

set_option autoImplicit false

namespace StyleEngine.Json

/-! ## Readers -/

/-- Why a text cannot be read. -/
inductive ReadError where
  /-- It is not JSON. -/
  | malformed
  /-- It is JSON of another shape. -/
  | mismatched
  /-- It ends too early. -/
  | incomplete
deriving DecidableEq

/-- Takes a value from the front of a text. -/
abbrev Reader (α : Type) := List Char → Except ReadError (α × List Char)

/-- How closely a value is looked at. -/
inductive Care where
  | full
  | skip
deriving DecidableEq

/-- What may stand between the parts of a JSON text. -/
def isBlank (c : Char) : Bool :=
  c = ' ' || c = '\n' || c = '\t' || c = '\r'

def skipBlank (cs : List Char) : List Char :=
  cs.dropWhile isBlank

/-- Takes exactly these characters. -/
def readWord : List Char → Reader Unit
  | [], cs => .ok ((), cs)
  | _ :: _, [] => .error .incomplete
  | letter :: letters, c :: cs => if c = letter then readWord letters cs else .error .malformed

/-! ## Strings -/

/-- What a letter behind a backslash stands for. -/
def unescape? : Char → Option Char
  | '"' => some '"'
  | '\\' => some '\\'
  | '/' => some '/'
  | 'b' => some '\x08'
  | 'f' => some '\x0c'
  | 'n' => some '\n'
  | 'r' => some '\r'
  | 't' => some '\t'
  | _ => none

/-- The number of four hexadecimal digits. -/
def hexUnit? (a b c d : Char) : Option Nat :=
  if [a, b, c, d].all Ascii.isHexDigit then
    some (((Ascii.hexValue a * 16 + Ascii.hexValue b) * 16 + Ascii.hexValue c) * 16
      + Ascii.hexValue d)
  else none

/-- The first half of a character that needs two escapes. -/
def isLeading (unit : Nat) : Bool := 0xD800 ≤ unit && unit ≤ 0xDBFF

/-- The second half. -/
def isTrailing (unit : Nat) : Bool := 0xDC00 ≤ unit && unit ≤ 0xDFFF

/-- The character of two halves. -/
def joinHalves (leading trailing : Nat) : Char :=
  Char.ofNat ((leading - 0xD800) * 0x400 + (trailing - 0xDC00) + 0x10000)

/-- What an escape by a number stands for by itself. -/
inductive Escaped where
  | whole (c : Char)
  | leading
  | trailing

/-- Halves of characters are told apart only in a value that is read in full. -/
def Escaped.ofUnit (care : Care) (unit : Nat) : Escaped :=
  if care = .full ∧ isTrailing unit then .trailing
  else if care = .full ∧ isLeading unit then .leading
  else .whole (Char.ofNat unit)

/-- How many bytes the characters take. -/
def byteCount (cs : List Char) : Nat :=
  (String.ofList cs).utf8ByteSize

/-- Why an escape with fewer than four characters left cannot be read. The four digits
    are looked for as four bytes, and only a text without these many ends too early. -/
def shortEscape (rest : List Char) : ReadError :=
  if byteCount rest < 4 then .incomplete else .malformed

/-- Why no second half follows a first one. -/
def unpaired : List Char → ReadError
  | [] => .incomplete
  | ['\\'] => .incomplete
  | '\\' :: 'u' :: rest => shortEscape rest
  | _ => .malformed

/-- Puts a character in front of those that a reader took. -/
def addChar (c : Char) (taken : Except ReadError (List Char × List Char)) :
    Except ReadError (List Char × List Char) :=
  taken.map fun (cs, rest) => (c :: cs, rest)

/-- Takes the characters of a string up to its closing quote. -/
def readChars (care : Care) : Reader (List Char)
  | [] => .error .incomplete
  | ['\\'] => .error .incomplete
  | '"' :: rest => .ok ([], rest)
  | '\\' :: 'u' :: a :: b :: c :: d :: rest =>
    match hexUnit? a b c d with
    | none => .error .malformed
    | some unit =>
      match Escaped.ofUnit care unit with
      | .whole c => addChar c (readChars care rest)
      | .trailing => .error .malformed
      | .leading =>
        match rest with
        | '\\' :: 'u' :: e :: f :: g :: h :: rest =>
          match hexUnit? e f g h with
          | none => .error .malformed
          | some second =>
            if isTrailing second then addChar (joinHalves unit second) (readChars care rest)
            else .error .malformed
        | rest => .error (unpaired rest)
  | '\\' :: 'u' :: rest => .error (shortEscape rest)
  | '\\' :: letter :: rest =>
    match unescape? letter with
    | some c => addChar c (readChars care rest)
    | none => .error .malformed
  | c :: rest => if c.toNat < 0x20 then .error .malformed else addChar c (readChars care rest)

/-- Takes a string whose opening quote has been taken. -/
def readString (care : Care) : Reader String := fun cs => do
  let (contents, rest) ← readChars care cs
  return (String.ofList contents, rest)

/-! ## Numbers -/

/-- The parts of a number behind its sign. -/
structure Numeral where
  whole : List Char
  fraction : List Char
  power : Int

/-- Why digits that must follow do not. In a value that is only skipped, a number that
    breaks off at the end of the text is no number at all. -/
def missingDigits (care : Care) : List Char → ReadError
  | [] => if care = .skip then .malformed else .incomplete
  | _ => .malformed

/-- Takes at least one digit. -/
def readDigits (care : Care) : Reader (List Char) := fun cs =>
  let (digits, rest) := splitDigits cs
  if digits = [] then .error (missingDigits care rest) else .ok (digits, rest)

/-- Takes the digits before the point. A zero stands alone. -/
def readWhole (care : Care) : Reader (List Char) := fun cs => do
  match ← readDigits care cs with
  | ('0' :: _ :: _, _) => .error .malformed
  | found => .ok found

/-- Takes a point and digits, if there is a point. -/
def readFraction (care : Care) : Reader (List Char)
  | '.' :: rest => readDigits care rest
  | cs => .ok ([], cs)

/-- Takes an exponent, if there is one. -/
def readPower (care : Care) : Reader Int
  | [] => .ok (0, [])
  | c :: cs =>
    if c = 'e' ∨ c = 'E' then do
      let (negative, cs) := splitSign cs
      let (digits, rest) ← readDigits care cs
      let power : Int := Nat.ofDigitChars 10 digits 0
      return (if negative then -power else power, rest)
    else .ok (0, c :: cs)

/-- Takes a number behind its sign. -/
def readNumeral (care : Care) : Reader Numeral := fun cs => do
  let (whole, rest) ← readWhole care cs
  let (fraction, rest) ← readFraction care rest
  let (power, rest) ← readPower care rest
  return (⟨whole, fraction, power⟩, rest)

/-- Appends digits to a number for as long as it stays below `2 ^ 64`, and returns the
    digits that did not fit. -/
def gather (significand : Nat) : List Char → Nat × List Char
  | [] => (significand, [])
  | c :: cs =>
    let more := Nat.ofDigitChars 10 [c] significand
    if more < 2 ^ 64 then gather more cs else (significand, c :: cs)

namespace Numeral

/-- The number as 64 bits of significant digits and a power of ten. -/
def parts (n : Numeral) : Decimal :=
  let (significand, surplus) := gather 0 n.whole
  let (significand, dropped) := gather significand n.fraction
  ⟨significand, n.power + surplus.length - (n.fraction.length - dropped.length : Nat)⟩

/-- Whether the number can be held. Its significant digits and its power of ten are
    each rounded to a magnitude, and their product must be finite. -/
def inRange (n : Numeral) : Bool :=
  match n.parts with
  | ⟨0, _⟩ => true
  | ⟨significand, .ofNat power⟩ =>
    power ≤ 308 &&
      Magnitude.times (Magnitude.nearest significand 1) (Magnitude.nearest (Nat.pow 10 power) 1)
        < Magnitude.infinity
  | ⟨_, .negSucc _⟩ => true

/-- The number, by its significant digits. -/
def value (negative : Bool) (n : Numeral) : Number :=
  .ofDecimal negative n.parts

end Numeral

/-- Takes a number whose sign has been taken. -/
def readNumber (care : Care) (negative : Bool) : Reader Number := fun cs => do
  let (numeral, rest) ← readNumeral care cs
  if care = .full ∧ !numeral.inRange then .error .malformed
  else return (numeral.value negative, rest)

end StyleEngine.Json
