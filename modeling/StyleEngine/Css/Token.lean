import StyleEngine.Number.Layout

/-!
# `Css/Token.lean` — tokens of a style sheet, and where they stand

What the lexer produces and the reader of sheets consumes. A token keeps what the
reader needs of its spelling: the name behind an `@` or `#` without the mark, the
contents of a string without its quotes, the value of a numeral. Positions count
characters, and a line ends at a line feed only.
-/

set_option autoImplicit false

namespace StyleEngine

/-! ## Positions -/

/-- A place in a text: how many characters precede it, and its line and column, which
    count from one. -/
structure Position where
  offset : Nat
  line : Nat
  column : Nat
deriving DecidableEq

namespace Position

def start : Position := ⟨0, 1, 1⟩

/-- The place one character further. -/
def step (p : Position) (c : Char) : Position :=
  if c = '\n' then ⟨p.offset + 1, p.line + 1, 1⟩
  else ⟨p.offset + 1, p.line, p.column + 1⟩

/-- The place behind a run of characters. -/
def advance (p : Position) (cs : List Char) : Position :=
  cs.foldl step p

@[simp] theorem advance_nil (p : Position) : p.advance [] = p := rfl

@[simp] theorem advance_cons (p : Position) (c : Char) (cs : List Char) :
    p.advance (c :: cs) = (p.step c).advance cs := rfl

theorem advance_append (p : Position) (cs ds : List Char) :
    p.advance (cs ++ ds) = (p.advance cs).advance ds :=
  List.foldl_append

@[simp] theorem offset_step (p : Position) (c : Char) : (p.step c).offset = p.offset + 1 := by
  unfold step
  split <;> rfl

theorem offset_advance (p : Position) (cs : List Char) :
    (p.advance cs).offset = p.offset + cs.length := by
  induction cs generalizing p with
  | nil => rfl
  | cons c cs ih =>
    rw [advance_cons, ih, offset_step, List.length_cons]
    omega

/-- The place as a message names it. -/
def text (p : Position) : String :=
  s!"line {p.line}, column {p.column}"

end Position

/-! ## Tokens -/

/-- A token. `hash` tells whether its name could also stand alone as an identifier:
    only then can it select an element by its id. -/
inductive Token where
  | ident (name : String)
  | atKeyword (name : String)
  | hash (name : String) (isIdent : Bool)
  | string (contents : String)
  | badString
  | delim (mark : Char)
  | number (value : Number)
  | percentage (value : Number)
  | dimension (value : Number) (unit : String)
  | whitespace
  | colon
  | semicolon
  | comma
  | openBracket
  | closeBracket
  | openParen
  | closeParen
  | openBrace
  | closeBrace
  | eof
deriving DecidableEq

/-- The token as messages show it. -/
def Token.text : Token → String
  | .ident name => s!"<ident:{name}>"
  | .atKeyword name => s!"<at-keyword:@{name}>"
  | .hash name true => s!"<hash:#{name} (id)>"
  | .hash name false => s!"<hash:#{name} (unrestricted)>"
  | .string contents => "<string:\"" ++ contents ++ "\">"
  | .badString => "<bad-string>"
  | .delim mark => "<delim:" ++ mark.toString ++ ">"
  | .number value => "<number:" ++ value.text ++ ">"
  | .percentage value => "<percentage:" ++ value.text ++ "%>"
  | .dimension value unit => "<dimension:" ++ value.text ++ unit ++ ">"
  | .whitespace => "<whitespace>"
  | .colon => "<colon>"
  | .semicolon => "<semicolon>"
  | .comma => "<comma>"
  | .openBracket => "<[>"
  | .closeBracket => "<]>"
  | .openParen => "<(>"
  | .closeParen => "<)>"
  | .openBrace => "<\x7b>"
  | .closeBrace => "<\x7d>"
  | .eof => "<EOF>"

/-- A token and the place of its first character. -/
structure PlacedToken where
  token : Token
  position : Position
deriving DecidableEq

end StyleEngine
