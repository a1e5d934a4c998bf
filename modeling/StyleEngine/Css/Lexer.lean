import StyleEngine.Css.Token
import StyleEngine.Text.Ascii

/-!
# `Css/Lexer.lean` — from characters to tokens

The text is cut from the left. Before each token come comments, which leave no trace;
then `lex` takes the longest token that the next characters spell. Cutting never looks
back, so a token depends only on the characters from its first one on, and the tokens
from any point where one begins are those of the text that starts there
(`tokensFrom`).

Nothing is dropped on the way: a lexeme is its token together with the characters that
spell it and those that follow, and the two make up the text that was there
(`lex_append`). A lexeme has at least one character, so cutting comes to an end.

Escapes are not part of the language, a numeral has no exponent (`1e3` is the number
`1` with the unit `e3`), and a name followed by a parenthesis is just a name.
-/

set_option autoImplicit false

namespace StyleEngine

/-! ## Character classes -/

/-- A letter, an underscore, or any character outside ASCII. -/
def isIdentStart (c : Char) : Bool :=
  c.isAlpha || c = '_' || 0x80 ≤ c.toNat

/-- What may follow in an identifier: also digits and hyphens. -/
def isIdentChar (c : Char) : Bool :=
  isIdentStart c || c.isDigit || c = '-'

/-- Whether the characters begin with an identifier. -/
def startsIdent : List Char → Bool
  | '-' :: c :: _ => isIdentStart c || c = '-'
  | c :: _ => isIdentStart c
  | [] => false

/-- Whether the characters begin with a digit. -/
def startsDigits : List Char → Bool
  | c :: _ => c.isDigit
  | [] => false

/-- Whether the characters begin with a point and a digit. -/
def startsFraction : List Char → Bool
  | '.' :: rest => startsDigits rest
  | _ => false

/-- Whether the characters begin with a numeral without a sign. -/
def startsUnsigned (cs : List Char) : Bool :=
  startsDigits cs || startsFraction cs

/-- Whether the characters begin with a numeral. -/
def startsNumber : List Char → Bool
  | '+' :: rest => startsUnsigned rest
  | '-' :: rest => startsUnsigned rest
  | cs => startsUnsigned cs

/-! ## Pieces of a token

Each piece is given as the characters that belong to it and the characters that
follow. -/

/-- The longest run of identifier characters. -/
def splitIdent (cs : List Char) : List Char × List Char :=
  (cs.takeWhile isIdentChar, cs.dropWhile isIdentChar)

/-- The longest run of spaces. -/
def splitSpaces (cs : List Char) : List Char × List Char :=
  (cs.takeWhile Ascii.isSpace, cs.dropWhile Ascii.isSpace)

/-- A sign, if there is one. -/
def splitNumeralSign : List Char → List Char × List Char
  | '+' :: rest => (['+'], rest)
  | '-' :: rest => (['-'], rest)
  | rest => ([], rest)

/-- A point with its digits, if a digit follows the point. -/
def splitFraction : List Char → List Char × List Char
  | '.' :: rest =>
    if startsDigits rest then ('.' :: (splitDigits rest).1, (splitDigits rest).2)
    else ([], '.' :: rest)
  | rest => ([], rest)

/-- A numeral: a sign, digits, and a fraction. -/
def splitNumeral (cs : List Char) : List Char × List Char :=
  let (sign, rest) := splitNumeralSign cs
  let (whole, rest) := splitDigits rest
  let (fraction, rest) := splitFraction rest
  (sign ++ whole ++ fraction, rest)

/-- The contents of a string: what precedes its closing quote or a line feed. -/
def splitContents (quote : Char) (cs : List Char) : List Char × List Char :=
  let inside (c : Char) : Bool := c ≠ quote && c ≠ '\n'
  (cs.takeWhile inside, cs.dropWhile inside)

/-! ## Lexemes -/

/-- A token, the characters that spell it, and the characters that follow. -/
structure Lexeme where
  token : Token
  text : List Char
  rest : List Char

/-- The value of a numeral. -/
def numeralValue (numeral : List Char) : Number :=
  (Number.ofChars? numeral).getD .zero

/-- A token that begins with a numeral. A unit or a percent sign that follows at once
    belongs to it. -/
def lexNumeric (cs : List Char) : Lexeme :=
  let (numeral, rest) := splitNumeral cs
  let value := numeralValue numeral
  if startsIdent rest then
    let (unit, rest) := splitIdent rest
    ⟨.dimension value (String.ofList unit), numeral ++ unit, rest⟩
  else match rest with
    | '%' :: rest => ⟨.percentage value, numeral ++ ['%'], rest⟩
    | rest => ⟨.number value, numeral, rest⟩

/-- A token that begins with an identifier. -/
def lexIdent (cs : List Char) : Lexeme :=
  let (name, rest) := splitIdent cs
  ⟨.ident (String.ofList name), name, rest⟩

/-- What an opening quote begins. The end of the text closes a string; a line feed
    breaks it, and stays where it is. -/
def lexString (quote : Char) (cs : List Char) : Lexeme :=
  let (contents, rest) := splitContents quote cs
  match rest with
  | [] => ⟨.string (String.ofList contents), quote :: contents, []⟩
  | c :: rest =>
    if c = '\n' then ⟨.badString, quote :: contents, c :: rest⟩
    else ⟨.string (String.ofList contents), quote :: (contents ++ [c]), rest⟩

/-- What a number sign begins. -/
def lexHash (cs : List Char) : Lexeme :=
  let (name, rest) := splitIdent cs
  if name = [] then ⟨.delim '#', ['#'], cs⟩
  else ⟨.hash (String.ofList name) (startsIdent cs), '#' :: name, rest⟩

/-- What an at sign begins. -/
def lexAt (cs : List Char) : Lexeme :=
  if startsIdent cs then
    let (name, rest) := splitIdent cs
    ⟨.atKeyword (String.ofList name), '@' :: name, rest⟩
  else ⟨.delim '@', ['@'], cs⟩

/-- The token of one fixed character; a character that stands for nothing else stands
    for itself. -/
def lexMark (c : Char) (cs : List Char) : Lexeme :=
  let token : Token := match c with
    | '(' => .openParen
    | ')' => .closeParen
    | '[' => .openBracket
    | ']' => .closeBracket
    | '{' => .openBrace
    | '}' => .closeBrace
    | ',' => .comma
    | ':' => .colon
    | ';' => .semicolon
    | c => .delim c
  ⟨token, [c], cs⟩

/-- What a space begins. -/
def lexSpaces (c : Char) (cs : List Char) : Lexeme :=
  let (spaces, rest) := splitSpaces cs
  ⟨.whitespace, c :: spaces, rest⟩

/-- The longest token that `c` and the characters behind it spell. -/
def lex (c : Char) (cs : List Char) : Lexeme :=
  if Ascii.isSpace c then lexSpaces c cs
  else if c = '"' || c = '\'' then lexString c cs
  else if c = '#' then lexHash cs
  else if c = '@' then lexAt cs
  else if startsNumber (c :: cs) then lexNumeric (c :: cs)
  else if startsIdent (c :: cs) then lexIdent (c :: cs)
  else lexMark c cs

/-! ## Lexemes make up the text -/

theorem splitIdent_append (cs : List Char) : (splitIdent cs).1 ++ (splitIdent cs).2 = cs :=
  List.takeWhile_append_dropWhile

theorem splitSpaces_append (cs : List Char) : (splitSpaces cs).1 ++ (splitSpaces cs).2 = cs :=
  List.takeWhile_append_dropWhile

theorem splitDigits_append (cs : List Char) : (splitDigits cs).1 ++ (splitDigits cs).2 = cs :=
  List.takeWhile_append_dropWhile

theorem splitContents_append (quote : Char) (cs : List Char) :
    (splitContents quote cs).1 ++ (splitContents quote cs).2 = cs :=
  List.takeWhile_append_dropWhile

theorem splitNumeralSign_append (cs : List Char) :
    (splitNumeralSign cs).1 ++ (splitNumeralSign cs).2 = cs := by
  unfold splitNumeralSign
  split <;> rfl

theorem splitFraction_append (cs : List Char) :
    (splitFraction cs).1 ++ (splitFraction cs).2 = cs := by
  unfold splitFraction
  split
  · split
    · rw [List.cons_append, splitDigits_append]
    · rfl
  · rfl

theorem splitNumeral_append (cs : List Char) :
    (splitNumeral cs).1 ++ (splitNumeral cs).2 = cs := by
  simp only [splitNumeral, List.append_assoc, splitFraction_append, splitDigits_append,
    splitNumeralSign_append]

theorem lexNumeric_append (cs : List Char) :
    (lexNumeric cs).text ++ (lexNumeric cs).rest = cs := by
  have h := splitNumeral_append cs
  unfold lexNumeric
  dsimp only
  split
  · rw [List.append_assoc, splitIdent_append, h]
  · split
    · rename_i rest hr
      rw [hr] at h
      rw [List.append_assoc]
      exact h
    · exact h

theorem lexString_append (quote : Char) (cs : List Char) :
    (lexString quote cs).text ++ (lexString quote cs).rest = quote :: cs := by
  have h := splitContents_append quote cs
  unfold lexString
  dsimp only
  split
  · rename_i hr
    rw [hr] at h
    rw [List.cons_append, h]
  · rename_i c rest hr
    rw [hr] at h
    split
    · rw [List.cons_append, h]
    · simpa using h

theorem lexHash_append (cs : List Char) :
    (lexHash cs).text ++ (lexHash cs).rest = '#' :: cs := by
  unfold lexHash
  dsimp only
  split
  · rfl
  · rw [List.cons_append, splitIdent_append]

theorem lexAt_append (cs : List Char) : (lexAt cs).text ++ (lexAt cs).rest = '@' :: cs := by
  unfold lexAt
  dsimp only
  split
  · rw [List.cons_append, splitIdent_append]
  · rfl

/-- A lexeme and what follows it are the text it was taken from. -/
theorem lex_append (c : Char) (cs : List Char) : (lex c cs).text ++ (lex c cs).rest = c :: cs := by
  unfold lex
  split
  · simp only [lexSpaces, List.cons_append, splitSpaces_append]
  · split
    · exact lexString_append c cs
    · split
      · rename_i h
        rw [h]
        exact lexHash_append cs
      · split
        · rename_i h
          rw [h]
          exact lexAt_append cs
        · split
          · exact lexNumeric_append (c :: cs)
          · split
            · exact splitIdent_append (c :: cs)
            · rfl

/-! ## A lexeme has at least one character -/

theorem isIdentChar_of_isIdentStart {c : Char} (h : isIdentStart c = true) :
    isIdentChar c = true := by
  simp [isIdentChar, h]

theorem splitIdent_ne_nil {cs : List Char} (h : startsIdent cs = true) :
    (splitIdent cs).1 ≠ [] := by
  unfold startsIdent at h
  unfold splitIdent
  split at h
  · simp [isIdentChar]
  · simp [isIdentChar_of_isIdentStart h]
  · cases h

theorem splitDigits_ne_nil {cs : List Char} (h : startsDigits cs = true) :
    (splitDigits cs).1 ≠ [] := by
  unfold startsDigits at h
  unfold splitDigits
  split at h
  · simp [h]
  · cases h

theorem splitFraction_ne_nil {cs : List Char} (h : startsFraction cs = true) :
    (splitFraction cs).1 ≠ [] := by
  unfold startsFraction at h
  unfold splitFraction
  split at h
  · simp [h]
  · cases h

theorem splitUnsigned_ne_nil {cs : List Char} (h : startsUnsigned cs = true) :
    (splitDigits cs).1 ++ (splitFraction (splitDigits cs).2).1 ≠ [] := by
  intro hn
  obtain ⟨hw, hf⟩ := List.append_eq_nil_iff.mp hn
  have hd := splitDigits_append cs
  rw [hw, List.nil_append] at hd
  rw [hd] at hf
  rcases (Bool.or_eq_true ..).mp h with h | h
  · exact splitDigits_ne_nil h hw
  · exact splitFraction_ne_nil h hf

theorem startsUnsigned_splitNumeralSign {cs : List Char} (h : startsNumber cs = true) :
    startsUnsigned (splitNumeralSign cs).2 = true := by
  unfold startsNumber at h
  unfold splitNumeralSign
  split at h <;> exact h

theorem splitNumeral_ne_nil {cs : List Char} (h : startsNumber cs = true) :
    (splitNumeral cs).1 ≠ [] := by
  have := splitUnsigned_ne_nil (startsUnsigned_splitNumeralSign h)
  simp only [splitNumeral]
  simp_all

theorem lexNumeric_ne_nil {cs : List Char} (h : startsNumber cs = true) :
    (lexNumeric cs).text ≠ [] := by
  have hn := splitNumeral_ne_nil h
  unfold lexNumeric
  dsimp only
  split
  · simp [hn]
  · split
    · simp [hn]
    · exact hn

theorem lex_text_ne_nil (c : Char) (cs : List Char) : (lex c cs).text ≠ [] := by
  unfold lex
  split
  · simp [lexSpaces]
  · split
    · unfold lexString
      dsimp only
      split
      · simp
      · split <;> simp
    · split
      · unfold lexHash
        dsimp only
        split <;> simp
      · split
        · unfold lexAt
          dsimp only
          split <;> simp
        · split
          · rename_i h
            exact lexNumeric_ne_nil h
          · split
            · rename_i h
              exact splitIdent_ne_nil h
            · simp [lexMark]

theorem length_lex_rest (c : Char) (cs : List Char) :
    (lex c cs).rest.length < (c :: cs).length := by
  have h := congrArg List.length (lex_append c cs)
  have h' := List.length_pos_iff.mpr (lex_text_ne_nil c cs)
  rw [List.length_append] at h
  omega

/-! ## Comments -/

/-- Splits behind the first end of a comment; without one, all characters belong to
    the comment. -/
def splitComment : List Char → List Char × List Char
  | '*' :: '/' :: rest => (['*', '/'], rest)
  | c :: rest => (c :: (splitComment rest).1, (splitComment rest).2)
  | [] => ([], [])

theorem splitComment_append (cs : List Char) :
    (splitComment cs).1 ++ (splitComment cs).2 = cs := by
  fun_induction splitComment cs with
  | case1 rest => rfl
  | case2 c rest _ ih => rw [List.cons_append, ih]
  | case3 => rfl

theorem length_splitComment_le (cs : List Char) : (splitComment cs).2.length ≤ cs.length := by
  have h := congrArg List.length (splitComment_append cs)
  rw [List.length_append] at h
  omega

/-- The comments that the text begins with, and what follows them. -/
def splitComments : List Char → List Char × List Char
  | '/' :: '*' :: cs =>
    let next := splitComments (splitComment cs).2
    ('/' :: '*' :: ((splitComment cs).1 ++ next.1), next.2)
  | cs => ([], cs)
termination_by cs => cs.length
decreasing_by
  have := length_splitComment_le cs
  simp only [List.length_cons]
  omega

theorem splitComments_append (cs : List Char) :
    (splitComments cs).1 ++ (splitComments cs).2 = cs := by
  fun_induction splitComments cs with
  | case1 cs next ih =>
    simp only [List.cons_append, List.append_assoc]
    rw [ih, splitComment_append]
  | case2 cs _ => rfl

theorem length_splitComments_le (cs : List Char) : (splitComments cs).2.length ≤ cs.length := by
  have h := congrArg List.length (splitComments_append cs)
  rw [List.length_append] at h
  omega

/-! ## The tokens of a text -/

/-- The tokens of a text whose first character stands at `p`. The last one is the end
    of the text. -/
def tokensFrom (p : Position) (cs : List Char) : List PlacedToken :=
  let here := p.advance (splitComments cs).1
  match _h : (splitComments cs).2 with
  | [] => [⟨.eof, here⟩]
  | c :: rest =>
    let lexeme := lex c rest
    ⟨lexeme.token, here⟩ :: tokensFrom (here.advance lexeme.text) lexeme.rest
termination_by cs.length
decreasing_by
  have h₁ := length_splitComments_le cs
  have h₂ := length_lex_rest c rest
  rw [_h] at h₁
  omega

/-- The tokens of a text. -/
def tokenize (source : String) : List PlacedToken :=
  tokensFrom .start source.toList

/-- The tokens of a text that is read to its end several times over. Each reading goes
    on where the one before stopped, so all but the first find the end alone. -/
def tokenizeTimes (readings : Nat) (source : String) : List PlacedToken :=
  match readings with
  | 0 => []
  | more + 1 =>
    let theEnd := tokensFrom (Position.start.advance source.toList) []
    tokenize source ++ (List.replicate more theEnd).flatten

end StyleEngine
