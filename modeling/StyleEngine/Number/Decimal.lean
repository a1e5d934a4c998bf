import StyleEngine.Number.Rounding

/-!
# `Number/Decimal.lean` — decimals, and reading numbers

A decimal is a whole number of some power of ten. `Decimal.rank` rounds it to a
magnitude; `Number.ofText?` reads the text of a number: a sign, digits with at most
one point among or around them, an exponent, or one of the words for an infinity or a
NaN. Nothing may stand before or after.

A decimal far outside the range of magnitudes is recognised by its exponent and the
size of its digits. So an exponent of many digits costs no more than a short one.
-/

set_option autoImplicit false

namespace StyleEngine

/-- The value `digits * 10 ^ exponent`. -/
structure Decimal where
  digits : Nat
  exponent : Int
deriving DecidableEq

namespace Decimal

/-- The rank of the magnitude nearest to a decimal. Ten to the 401st is past every
    magnitude. Eight to the `n` is less than ten to the `n`, so the second test finds
    decimals below `2 ^ -1100`, which are nearer to zero than to any other magnitude. -/
def rank (d : Decimal) : Nat :=
  if d.digits = 0 then 0
  else match d.exponent with
    | .ofNat e =>
      if 400 < e then Magnitude.infinity else Magnitude.nearest (d.digits * Nat.pow 10 e) 1
    | .negSucc e =>
      if d.digits.log2 + 1101 ≤ 3 * (e + 1) then 0
      else Magnitude.nearest d.digits (Nat.pow 10 (e + 1))

/-- The decimal written with these digits before and after the point. -/
def ofDigits (whole fraction : List Char) : Decimal :=
  ⟨Nat.ofDigitChars 10 (whole ++ fraction) 0, -fraction.length⟩

/-- Moves the point to the right. -/
def scale (d : Decimal) (power : Int) : Decimal :=
  ⟨d.digits, d.exponent + power⟩

end Decimal

/-! ## Reading -/

/-- A sign, which may be left out, and what follows it. -/
def splitSign : List Char → Bool × List Char
  | '-' :: rest => (true, rest)
  | '+' :: rest => (false, rest)
  | rest => (false, rest)

/-- Digits, and what follows them. -/
def splitDigits (cs : List Char) : List Char × List Char :=
  (cs.takeWhile Char.isDigit, cs.dropWhile Char.isDigit)

namespace Decimal

/-- The power of ten that an exponent mark and its digits give; no mark gives zero. -/
def exponentOf? : List Char → Option Int
  | [] => some 0
  | mark :: rest =>
    let (negative, digits) := splitSign rest
    if (mark = 'e' ∨ mark = 'E') ∧ digits ≠ [] ∧ digits.all Char.isDigit then
      let power : Int := Nat.ofDigitChars 10 digits 0
      some (if negative then -power else power)
    else none

/-- Reads digits, a point with digits on at least one side of it, and an exponent. -/
def ofChars? (cs : List Char) : Option Decimal :=
  let (whole, rest) := splitDigits cs
  let (fraction, rest) := match rest with
    | '.' :: rest => splitDigits rest
    | rest => ([], rest)
  if whole = [] ∧ fraction = [] then none
  else (exponentOf? rest).map (scale (ofDigits whole fraction))

end Decimal

namespace Number

/-- The number nearest to a decimal. -/
def ofDecimal (negative : Bool) (d : Decimal) : Number :=
  ofRank negative d.rank

/-- Reads a number from its characters. -/
def ofChars? (cs : List Char) : Option Number :=
  let (negative, body) := splitSign cs
  let word := body.map Char.toLower
  if word = ['i', 'n', 'f'] ∨ word = ['i', 'n', 'f', 'i', 'n', 'i', 't', 'y'] then
    some (infinity negative)
  else if word = ['n', 'a', 'n'] then some .nan
  else (Decimal.ofChars? body).map (ofDecimal negative)

/-- Reads a number from its text. -/
def ofText? (s : String) : Option Number :=
  ofChars? s.toList

end Number

end StyleEngine
