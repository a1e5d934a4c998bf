/-!
# `Text/Ascii.lean` — the part of text that has case and spacing

Style sheets and markup fold case and split at spaces in the ASCII range only. A
letter with an accent keeps its case, and a no-break space separates nothing. So
the functions here look at ASCII alone, and leave every other character as it is.
-/

set_option autoImplicit false

namespace StyleEngine.Ascii

/-- Space, tab, line feed, carriage return and form feed. The same five separate the
    tokens of a style sheet and the names in a class attribute. -/
def isSpace (c : Char) : Bool :=
  c = ' ' || c = '\t' || c = '\n' || c = '\r' || c = '\x0c'

/-- A digit to base sixteen, in either case. -/
def isHexDigit (c : Char) : Bool :=
  c.isDigit || ('a' ≤ c && c ≤ 'f') || ('A' ≤ c && c ≤ 'F')

/-- The value of a digit to base sixteen. -/
def hexValue (c : Char) : Nat :=
  if c.isDigit then c.toNat - '0'.toNat else c.toLower.toNat - 'a'.toNat + 10

/-- The text with `A` to `Z` turned into `a` to `z`. -/
def lower (s : String) : String :=
  s.map Char.toLower

/-- Equal up to the case of ASCII letters. -/
def sameIgnoringCase (s t : String) : Bool :=
  lower s = lower t

theorem toList_lower (s : String) : (lower s).toList = s.toList.map Char.toLower :=
  String.toList_map

/-- The maximal runs of characters that are not spaces. -/
def words (s : String) : List String :=
  ((s.toList.splitOnP isSpace).filter (!·.isEmpty)).map String.ofList

end StyleEngine.Ascii
