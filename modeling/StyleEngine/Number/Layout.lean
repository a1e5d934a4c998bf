import StyleEngine.Number.Shortest

/-!
# `Number/Layout.lean` — the two written forms of a number

A number is written in two places: in the text of a style sheet, and in JSON. Both
take the fewest digits that read back and differ in the rest, which `Layout` records:
how equally near candidates are settled, from where to where the digits are placed
around a point, whether a point is always there, and what stands for the numbers that
have no digits.
-/

set_option autoImplicit false

namespace StyleEngine

/-- How a number is written. -/
structure Layout where
  /-- Which of two equally near digit strings is taken. -/
  tie : Tie
  /-- Whether a number whose first digit stands for this power of ten is written
      without an exponent. -/
  positional : Int → Bool
  /-- Whether a whole number keeps a point and a zero. -/
  keepsPoint : Bool
  nan : String
  infinity : Bool → String

namespace Layout

/-- The form in style sheets and messages: never an exponent, and no point in a whole
    number. -/
def plain : Layout where
  tie := .up
  positional _ := true
  keepsPoint := false
  nan := "NaN"
  infinity negative := if negative then "-inf" else "inf"

/-- The form in JSON: an exponent below `10 ^ -5` and from `10 ^ 16` on, and otherwise
    always a point. JSON has no word for the numbers without digits. -/
def json : Layout where
  tie := .toEven
  positional place := -5 ≤ place && place < 16
  keepsPoint := true
  nan := "null"
  infinity _ := "null"

/-- Digits with a point after the first `place` of them; zeros fill the gap when the
    point falls outside. -/
def placePoint (keepsPoint : Bool) (digits : List Char) (place : Int) : List Char :=
  match place with
  | .negSucc n => '0' :: '.' :: (List.replicate (n + 1) '0' ++ digits)
  | .ofNat 0 => '0' :: '.' :: digits
  | .ofNat n =>
    if n < digits.length then digits.take n ++ '.' :: digits.drop n
    else
      let whole := digits ++ List.replicate (n - digits.length) '0'
      if keepsPoint then whole ++ ['.', '0'] else whole

/-- One digit before the point and a signed exponent. -/
def withExponent (digits : List Char) (power : Int) : List Char :=
  let mantissa := match digits with
    | first :: second :: rest => first :: '.' :: second :: rest
    | short => short
  let sign := if power < 0 then '-' else '+'
  mantissa ++ 'e' :: sign :: Nat.toDigits 10 power.natAbs

/-- The characters of a decimal. -/
def decimal (layout : Layout) (d : Decimal) : List Char :=
  let digits := Nat.toDigits 10 d.digits
  let place : Int := d.exponent + digits.length
  if d.digits = 0 then placePoint layout.keepsPoint ['0'] 1
  else if layout.positional (place - 1) then placePoint layout.keepsPoint digits place
  else withExponent digits (place - 1)

/-- The characters of a number. -/
def number (layout : Layout) : Number → List Char
  | .nan => layout.nan.toList
  | .signed negative rank _ =>
    if rank = Magnitude.infinity then (layout.infinity negative).toList
    else
      let digits := layout.decimal (Decimal.shortest layout.tie rank)
      if negative then '-' :: digits else digits

end Layout

/-- A number as a style sheet writes it. -/
def Number.text (x : Number) : String :=
  String.ofList (Layout.plain.number x)

/-- A number as JSON writes it. -/
def Number.json (x : Number) : String :=
  String.ofList (Layout.json.number x)

end StyleEngine
