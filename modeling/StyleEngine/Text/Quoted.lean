import StyleEngine.Text.Glyph

/-!
# `Text/Quoted.lean` — text in quotes, for people to read

The quotes show where a text begins and ends, and escapes show what would not be seen:
line breaks and tabs by a letter, and whatever has no glyph of its own by its number.
-/

set_option autoImplicit false

namespace StyleEngine.Quoted

/-- A character by its number. -/
def byNumber (c : Char) : List Char :=
  '\\' :: 'u' :: '{' :: (Nat.toDigits 16 c.toNat ++ ['}'])

/-- A character inside quotes. -/
def escape (c : Char) : List Char :=
  match c with
  | '\x00' => ['\\', '0']
  | '\t' => ['\\', 't']
  | '\r' => ['\\', 'r']
  | '\n' => ['\\', 'n']
  | '"' => ['\\', '"']
  | '\\' => ['\\', '\\']
  | c => if hasGlyph c then [c] else byNumber c

/-- A text in quotes. -/
def quote (cs : List Char) : List Char :=
  '"' :: (cs.flatMap escape ++ ['"'])

end StyleEngine.Quoted
