import StyleEngine.Css.Lexer
import StyleEngine.Proofs.Number.Numeral

/-!
# `Proofs/Css/Spelling.lean` — what the characters of a token are

A lexeme keeps the characters of its token, and `lex_append` says that none are lost. That
says nothing yet about which characters they are. `Spells` does: for each kind of token it
gives the characters in terms of what the token holds, and for the two kinds of strings
without a closing quote what must stand behind them.

**`spells_lex`** is the statement for every text. `lex` looks at one character and at most
two more before it decides, and each branch has its lemma.
-/

set_option autoImplicit false

namespace StyleEngine

/-! ## 1. Characters -/

/-- An identifier, as it is written. -/
structure IsIdent (name : List Char) : Prop where
  starts : startsIdent name = true
  chars : ∀ c ∈ name, isIdentChar c = true

def IsQuote (c : Char) : Prop := c = '"' ∨ c = '\''

theorem isQuote_iff {c : Char} : (c = '"' || c = '\'') = true ↔ IsQuote c := by
  rw [Bool.or_eq_true, decide_eq_true_iff, decide_eq_true_iff, IsQuote]

/-- What may stand between two quotes. -/
def IsQuotable (quote : Char) (contents : List Char) : Prop :=
  ∀ c ∈ contents, c ≠ quote ∧ c ≠ '\n'

/-- The character of a token that has only one. -/
def Token.mark? : Token → Option Char
  | .openParen => some '('
  | .closeParen => some ')'
  | .openBracket => some '['
  | .closeBracket => some ']'
  | .openBrace => some '{'
  | .closeBrace => some '}'
  | .comma => some ','
  | .colon => some ':'
  | .semicolon => some ';'
  | _ => none

/-- A character that belongs to no other kind of token wherever it stands. Some of the
    others can be left over too: a hyphen, say, in front of neither a name nor a digit. -/
structure IsLone (c : Char) : Prop where
  not_space : Ascii.isSpace c = false
  not_quote : ¬IsQuote c
  not_digit : c.isDigit = false
  not_start : isIdentStart c = false
  not_mark : ∀ t : Token, t.mark? ≠ some c

/-! ## 2. Spellings -/

/-- `Spells t text rest` holds if `text` is a spelling of `t` in front of `rest`. -/
inductive Spells : Token → List Char → List Char → Prop where
  | ident {name rest : List Char} (h : IsIdent name) :
      Spells (.ident (String.ofList name)) name rest
  | atKeyword {name rest : List Char} (h : IsIdent name) :
      Spells (.atKeyword (String.ofList name)) ('@' :: name) rest
  | hash {name rest : List Char} (hne : name ≠ []) (h : ∀ c ∈ name, isIdentChar c = true) :
      Spells (.hash (String.ofList name) (startsIdent name)) ('#' :: name) rest
  | string {quote : Char} {contents rest : List Char} (hq : IsQuote quote)
      (h : IsQuotable quote contents) :
      Spells (.string (String.ofList contents)) (quote :: (contents ++ [quote])) rest
  -- The end of the text closes a string; nothing else does in place of the quote.
  | openString {quote : Char} {contents : List Char} (hq : IsQuote quote)
      (h : IsQuotable quote contents) :
      Spells (.string (String.ofList contents)) (quote :: contents) []
  | badString {quote : Char} {contents rest : List Char} (hq : IsQuote quote)
      (h : IsQuotable quote contents) :
      Spells .badString (quote :: contents) ('\n' :: rest)
  | delim {c : Char} {rest : List Char} (h : IsLone c) : Spells (.delim c) [c] rest
  | mark {t : Token} {c : Char} {rest : List Char} (h : t.mark? = some c) : Spells t [c] rest
  | number {rest : List Char} (n : Numeral) : Spells (.number n.value) n.chars rest
  | percentage {rest : List Char} (n : Numeral) :
      Spells (.percentage n.value) (n.chars ++ ['%']) rest
  | dimension {unit rest : List Char} (n : Numeral) (h : IsIdent unit) :
      Spells (.dimension n.value (String.ofList unit)) (n.chars ++ unit) rest
  | whitespace {spaces rest : List Char} (hne : spaces ≠ [])
      (h : ∀ c ∈ spaces, Ascii.isSpace c = true) : Spells .whitespace spaces rest

theorem IsIdent.ne_nil {name : List Char} (h : IsIdent name) : name ≠ [] := by
  intro hnil
  have hstarts := h.starts
  rw [hnil] at hstarts
  cases hstarts

theorem Spells.text_ne_nil {t : Token} {text rest : List Char} (h : Spells t text rest) :
    text ≠ [] := by
  cases h with
  | ident h => exact h.ne_nil
  | number n => exact n.chars_ne_nil
  | percentage n => simp
  | dimension n h => exact List.append_ne_nil_of_right_ne_nil _ h.ne_nil
  | whitespace hne h => exact hne
  | _ => exact List.cons_ne_nil _ _

/-- No characters spell the end of the text. -/
theorem Spells.ne_eof {t : Token} {text rest : List Char} (h : Spells t text rest) :
    t ≠ .eof := by
  cases h with
  | mark h =>
    rintro rfl
    cases h
  | _ => exact Token.noConfusion

/-! ## 3. Names -/

theorem splitIdent_chars (cs : List Char) : ∀ c ∈ (splitIdent cs).1, isIdentChar c = true :=
  List.all_eq_true.mp List.all_takeWhile

/-- Whether an identifier begins is decided by the characters that belong to it. -/
theorem startsIdent_splitIdent (cs : List Char) : startsIdent (splitIdent cs).1 = startsIdent cs := by
  cases cs with
  | nil => rfl
  | cons c cs =>
    rw [splitIdent]
    by_cases hc : isIdentChar c = true
    · rw [List.takeWhile_cons_of_pos hc]
      by_cases hhyphen : c = '-'
      · -- Behind a hyphen the second character decides, and it may be missing or foreign.
        subst hhyphen
        cases cs with
        | nil => rfl
        | cons d cs =>
          by_cases hd : isIdentChar d = true
          · rw [List.takeWhile_cons_of_pos hd]
            rfl
          · rw [List.takeWhile_cons_of_neg hd]
            simp only [isIdentChar, Bool.not_eq_true, Bool.or_eq_false_iff] at hd
            simp only [startsIdent, hd.1.1, hd.2, Bool.or_self]
            rfl
      · simp [startsIdent, hhyphen]
    · rw [List.takeWhile_cons_of_neg hc]
      simp only [isIdentChar, Bool.not_eq_true, Bool.or_eq_false_iff] at hc
      have hhyphen : c ≠ '-' := of_decide_eq_false hc.2
      simp [startsIdent, hhyphen, hc.1.1]

theorem isIdent_splitIdent {cs : List Char} (h : startsIdent cs = true) :
    IsIdent (splitIdent cs).1 where
  starts := by rw [startsIdent_splitIdent, h]
  chars := splitIdent_chars cs

theorem spells_lexIdent {cs : List Char} (h : startsIdent cs = true) :
    Spells (lexIdent cs).token (lexIdent cs).text (lexIdent cs).rest :=
  .ident (isIdent_splitIdent h)

/-- The two characters that begin nothing unless a name follows. -/
theorem isLone_of_eq {c : Char} (h : c = '#' ∨ c = '@') : IsLone c := by
  obtain rfl | rfl := h
  all_goals
    refine ⟨rfl, by unfold IsQuote; decide, rfl, rfl, ?_⟩
    intro t ht
    cases t <;> cases ht

theorem spells_lexAt (cs : List Char) :
    Spells (lexAt cs).token (lexAt cs).text (lexAt cs).rest := by
  unfold lexAt
  split
  · rename_i h
    exact .atKeyword (isIdent_splitIdent h)
  · exact .delim (isLone_of_eq (.inr rfl))

theorem spells_lexHash (cs : List Char) :
    Spells (lexHash cs).token (lexHash cs).text (lexHash cs).rest := by
  unfold lexHash
  dsimp only
  split
  · exact .delim (isLone_of_eq (.inl rfl))
  · rename_i hne
    rw [← startsIdent_splitIdent]
    exact .hash hne (splitIdent_chars cs)

/-! ## 4. Strings -/

theorem isQuotable_splitContents (quote : Char) (cs : List Char) :
    IsQuotable quote (splitContents quote cs).1 := by
  intro c hc
  have hinside := List.all_eq_true.mp List.all_takeWhile c hc
  simpa using hinside

/-- Contents end at the closing quote or at a line feed. -/
theorem head_splitContents {quote c : Char} {cs rest : List Char}
    (h : (splitContents quote cs).2 = c :: rest) : c = quote ∨ c = '\n' := by
  have hhead := List.head?_dropWhile_not (fun c => c ≠ quote && c ≠ '\n') cs
  have hdrop : cs.dropWhile (fun c => c ≠ quote && c ≠ '\n') = c :: rest := h
  rw [hdrop] at hhead
  by_cases hc : c = quote
  · exact .inl hc
  · refine .inr ?_
    simpa [hc] using hhead

theorem spells_lexString {quote : Char} (hq : IsQuote quote) (cs : List Char) :
    Spells (lexString quote cs).token (lexString quote cs).text (lexString quote cs).rest := by
  have hcontents := isQuotable_splitContents quote cs
  unfold lexString
  dsimp only
  split
  · exact .openString hq hcontents
  · rename_i c rest hrest
    split
    · rename_i hc
      rw [hc]
      exact .badString hq hcontents
    · rename_i hc
      obtain rfl := (head_splitContents hrest).resolve_right hc
      exact .string hq hcontents

/-! ## 5. Numerals -/

theorem splitDigits_chars (cs : List Char) : ∀ c ∈ (splitDigits cs).1, c.isDigit = true :=
  List.all_eq_true.mp List.all_takeWhile

/-- A fraction is a point with digits behind it, or nothing. -/
theorem exists_pointed_splitFraction (cs : List Char) :
    ∃ digits, (splitFraction cs).1 = Numeral.pointed digits ∧
      ∀ c ∈ digits, c.isDigit = true := by
  unfold splitFraction
  split
  · rename_i rest
    split
    · rename_i hstarts
      refine ⟨(splitDigits rest).1, ?_, splitDigits_chars rest⟩
      cases hdigits : (splitDigits rest).1 with
      | nil => exact absurd hdigits (splitDigits_ne_nil hstarts)
      | cons c digits => rfl
    · exact ⟨[], rfl, fun c hc => nomatch hc⟩
  · exact ⟨[], rfl, fun c hc => nomatch hc⟩

theorem splitNumeralSign_mem (cs : List Char) :
    (splitNumeralSign cs).1 ∈ [[], ['+'], ['-']] := by
  unfold splitNumeralSign
  split <;> simp

/-- Where a numeral starts, one is taken. -/
theorem exists_numeral {cs : List Char} (h : startsNumber cs = true) :
    ∃ n : Numeral, (splitNumeral cs).1 = n.chars := by
  obtain ⟨digits, hfraction, hdigits⟩ :=
    exists_pointed_splitFraction (splitDigits (splitNumeralSign cs).2).2
  have hne := splitUnsigned_ne_nil (startsUnsigned_splitNumeralSign h)
  have hparts : (splitDigits (splitNumeralSign cs).2).1 ≠ [] ∨ digits ≠ [] := by
    by_cases hdigits' : digits = []
    · rw [hfraction, hdigits', Numeral.pointed, List.append_nil] at hne
      exact .inl hne
    · exact .inr hdigits'
  refine ⟨⟨(splitNumeralSign cs).1, (splitDigits (splitNumeralSign cs).2).1, digits,
    splitNumeralSign_mem cs, splitDigits_chars _, hdigits, hparts⟩, ?_⟩
  rw [Numeral.chars, Numeral.unsigned, splitNumeral]
  dsimp only
  rw [hfraction, List.append_assoc]

theorem numeralValue_chars (n : Numeral) : numeralValue n.chars = n.value := by
  rw [numeralValue, n.ofChars?_chars]
  rfl

theorem spells_lexNumeric {cs : List Char} (h : startsNumber cs = true) :
    Spells (lexNumeric cs).token (lexNumeric cs).text (lexNumeric cs).rest := by
  obtain ⟨n, hn⟩ := exists_numeral h
  unfold lexNumeric
  dsimp only
  rw [hn, numeralValue_chars]
  split
  · rename_i hunit
    exact .dimension n (isIdent_splitIdent hunit)
  · split
    · exact .percentage n
    · exact .number n

/-! ## 6. Spaces and marks -/

theorem spells_lexSpaces {c : Char} (h : Ascii.isSpace c = true) (cs : List Char) :
    Spells (lexSpaces c cs).token (lexSpaces c cs).text (lexSpaces c cs).rest := by
  refine .whitespace (List.cons_ne_nil _ _) ?_
  intro d hd
  cases hd with
  | head => exact h
  | tail _ hd => exact List.all_eq_true.mp List.all_takeWhile d hd

/-- A character that is left over stands for a mark or for itself. -/
theorem spells_lexMark {c : Char} (hspace : Ascii.isSpace c = false) (hquote : ¬IsQuote c)
    (hdigit : c.isDigit = false) (hstart : isIdentStart c = false) (cs : List Char) :
    Spells (lexMark c cs).token (lexMark c cs).text (lexMark c cs).rest := by
  unfold lexMark
  dsimp only
  split
  case h_10 =>
    -- Here `c` differs from the nine characters of the other branches.
    refine .delim ⟨hspace, hquote, hdigit, hstart, ?_⟩
    intro t ht
    cases t <;> cases ht <;> contradiction
  all_goals exact .mark rfl

/-! ## 7. Every lexeme -/

theorem isDigit_of_not_startsNumber {c : Char} {cs : List Char}
    (h : ¬startsNumber (c :: cs) = true) : c.isDigit = false := by
  by_cases hc : c.isDigit = true
  · refine absurd ?_ h
    have hplus : c ≠ '+' := by rintro rfl; cases hc
    have hminus : c ≠ '-' := by rintro rfl; cases hc
    simp [startsNumber, startsUnsigned, startsDigits, hplus, hminus, hc]
  · exact Bool.not_eq_true _ ▸ hc

theorem isIdentStart_of_not_startsIdent {c : Char} {cs : List Char}
    (h : ¬startsIdent (c :: cs) = true) : isIdentStart c = false := by
  by_cases hhyphen : c = '-'
  · rw [hhyphen]
    rfl
  · simpa [startsIdent, hhyphen] using h

/-- **The characters of a lexeme spell its token.** -/
theorem spells_lex (c : Char) (cs : List Char) :
    Spells (lex c cs).token (lex c cs).text (lex c cs).rest := by
  unfold lex
  split
  · rename_i hspace
    exact spells_lexSpaces hspace cs
  rename_i hspace
  split
  · rename_i hquote
    exact spells_lexString (isQuote_iff.mp hquote) cs
  rename_i hquote
  split
  · exact spells_lexHash cs
  split
  · exact spells_lexAt cs
  split
  · rename_i hnumber
    exact spells_lexNumeric hnumber
  rename_i hnumber
  split
  · rename_i hident
    exact spells_lexIdent hident
  · rename_i hident
    exact spells_lexMark (eq_false_of_ne_true hspace) (mt isQuote_iff.mpr hquote)
      (isDigit_of_not_startsNumber hnumber) (isIdentStart_of_not_startsIdent hident) cs

end StyleEngine
