import StyleEngine.Proofs.Css.Spelling
import StyleEngine.Proofs.Text.Case

/-!
# `Proofs/Css/LongestMatch.lean` — where a token stops

`spells_lex` says which characters a token has. That leaves open why it does not have more:
`1` and `12` both spell a number in front of `3`. The answer is a condition on what stands
behind the token, `Stops`. It is different for each kind of token, and it never looks further
than three characters.

With it the lexer is determined from outside:

* **`stops_lex`**: a lexeme stops where it ends;
* **`lex_eq_of_spells`**: a spelling that stops is the lexeme.

So to know what a text is cut into, one need not run the lexer. It is enough to give the
spellings and to look at what stands behind each.
-/

set_option autoImplicit false

namespace StyleEngine

/-! ## 1. What comes next -/

/-- Whether the first character is of a kind. At the end of the text there is none. -/
def nextIs (kind : Char → Bool) : List Char → Bool
  | c :: _ => kind c
  | [] => false

theorem startsDigits_eq_nextIs (cs : List Char) : startsDigits cs = nextIs Char.isDigit cs := by
  cases cs <;> rfl

section Runs

variable {kind : Char → Bool}

theorem nextIs_dropWhile (cs : List Char) : nextIs kind (cs.dropWhile kind) = false := by
  induction cs with
  | nil => rfl
  | cons c cs ih =>
    rw [List.dropWhile_cons]
    split
    · exact ih
    · rename_i hc
      exact eq_false_of_ne_true hc

theorem takeWhile_append_of_next {cs rest : List Char} (hcs : ∀ c ∈ cs, kind c = true)
    (hrest : nextIs kind rest = false) : (cs ++ rest).takeWhile kind = cs := by
  rw [List.takeWhile_append_of_pos hcs]
  cases rest with
  | nil => exact List.append_nil cs
  | cons c rest =>
    have hc : ¬kind c = true := ne_true_of_eq_false hrest
    rw [List.takeWhile_cons_of_neg hc, List.append_nil]

theorem dropWhile_append_of_next {cs rest : List Char} (hcs : ∀ c ∈ cs, kind c = true)
    (hrest : nextIs kind rest = false) : (cs ++ rest).dropWhile kind = rest := by
  rw [List.dropWhile_append_of_pos hcs]
  cases rest with
  | nil => rfl
  | cons c rest =>
    have hc : ¬kind c = true := ne_true_of_eq_false hrest
    rw [List.dropWhile_cons_of_neg hc]

end Runs

/-! ## 2. Stops -/

structure NumeralStops (text rest : List Char) : Prop where
  digits : startsDigits rest = false
  /-- A second point does not go on with a numeral that has one. -/
  fraction : '.' ∉ text → startsFraction rest = false
  unit : startsIdent rest = false
  percent : nextIs (· = '%') rest = false

structure DelimStops (c : Char) (rest : List Char) : Prop where
  number : startsNumber (c :: rest) = false
  ident : startsIdent (c :: rest) = false
  hash : c = '#' → nextIs isIdentChar rest = false
  atSign : c = '@' → startsIdent rest = false

/-- What stands behind the characters of a token does not go on with it. -/
def Stops (t : Token) (text rest : List Char) : Prop :=
  match t with
  | .ident _ | .atKeyword _ | .hash _ _ | .dimension _ _ => nextIs isIdentChar rest = false
  | .whitespace => nextIs Ascii.isSpace rest = false
  | .number _ => NumeralStops text rest
  | .delim c => DelimStops c rest
  | _ => True

/-! ## 3. The first character -/

theorem isIdentStart_iff {c : Char} :
    isIdentStart c = true ↔
      65 ≤ c.toNat ∧ c.toNat ≤ 90 ∨ 97 ≤ c.toNat ∧ c.toNat ≤ 122 ∨ c.toNat = 95 ∨
        128 ≤ c.toNat := by
  show (c.isUpper || c.isLower || decide (c = '_') || decide (0x80 ≤ c.toNat)) = true ↔ _
  simp only [Bool.or_eq_true, isUpper_iff, isLower_iff, decide_eq_true_eq, ← Char.toNat_inj]
  show (((65 ≤ c.toNat ∧ c.toNat ≤ 90) ∨ (97 ≤ c.toNat ∧ c.toNat ≤ 122)) ∨ c.toNat = 95) ∨
    128 ≤ c.toNat ↔ _
  omega

theorem isDigit_of_isIdentStart {c : Char} (h : isIdentStart c = true) : c.isDigit = false := by
  refine eq_false_of_ne_true fun hdigit => ?_
  rw [isIdentStart_iff] at h
  rw [isDigit_iff] at hdigit
  omega

/-- The characters that settle by themselves what they begin. -/
def leaders : List Char := [' ', '\t', '\n', '\r', '\x0c', '"', '\'', '#', '@']

theorem lex_of_not_mem_leaders {c : Char} (h : c ∉ leaders) (cs : List Char) :
    lex c cs =
      if startsNumber (c :: cs) then lexNumeric (c :: cs)
      else if startsIdent (c :: cs) then lexIdent (c :: cs)
      else lexMark c cs := by
  simp only [leaders, List.mem_cons, List.not_mem_nil, or_false, not_or] at h
  simp [lex, Ascii.isSpace, h]

theorem not_mem_leaders_of_startsNumber {c : Char} {cs : List Char}
    (h : startsNumber (c :: cs) = true) : c ∉ leaders := by
  intro hmem
  simp only [leaders, List.mem_cons, List.not_mem_nil, or_false] at hmem
  obtain rfl | rfl | rfl | rfl | rfl | rfl | rfl | rfl | rfl := hmem <;> cases h

theorem not_mem_leaders_of_startsIdent {c : Char} {cs : List Char}
    (h : startsIdent (c :: cs) = true) : c ∉ leaders := by
  intro hmem
  simp only [leaders, List.mem_cons, List.not_mem_nil, or_false] at hmem
  obtain rfl | rfl | rfl | rfl | rfl | rfl | rfl | rfl | rfl := hmem <;> cases h

/-- An identifier does not begin with a character of a numeral, but for the hyphen. -/
theorem startsUnsigned_of_isIdentStart {c : Char} {cs : List Char} (h : isIdentStart c = true) :
    startsUnsigned (c :: cs) = false := by
  have hpoint : c ≠ '.' := by rintro rfl; cases h
  simp [startsUnsigned, startsDigits, startsFraction, isDigit_of_isIdentStart h, hpoint]

theorem startsUnsigned_of_startsIdent {cs : List Char} (h : startsIdent cs = true) :
    startsUnsigned cs = false := by
  unfold startsIdent at h
  split at h
  · rfl
  · exact startsUnsigned_of_isIdentStart h
  · cases h

/-- No text begins with a number and with an identifier. -/
theorem startsNumber_of_startsIdent {cs : List Char} (h : startsIdent cs = true) :
    startsNumber cs = false := by
  unfold startsIdent at h
  split at h
  · rename_i c cs
    rw [startsNumber]
    rcases (Bool.or_eq_true ..).mp h with hstart | hhyphen
    · exact startsUnsigned_of_isIdentStart hstart
    · rw [of_decide_eq_true hhyphen]
      rfl
  · rename_i c cs _
    have hplus : c ≠ '+' := by rintro rfl; cases h
    have hminus : c ≠ '-' := by rintro rfl; cases h
    simp [startsNumber, hplus, hminus, startsUnsigned_of_isIdentStart h]
  · cases h

theorem lex_of_startsNumber {c : Char} {cs : List Char} (h : startsNumber (c :: cs) = true) :
    lex c cs = lexNumeric (c :: cs) := by
  rw [lex_of_not_mem_leaders (not_mem_leaders_of_startsNumber h), if_pos h]

theorem lex_of_startsIdent {c : Char} {cs : List Char} (h : startsIdent (c :: cs) = true) :
    lex c cs = lexIdent (c :: cs) := by
  have hnumber := startsNumber_of_startsIdent h
  rw [lex_of_not_mem_leaders (not_mem_leaders_of_startsIdent h), hnumber,
    if_neg Bool.false_ne_true, if_pos h]

/-! ## 4. A spelling that stops is the lexeme -/

section Spellings

variable {rest : List Char}

theorem splitIdent_append_of_next {name : List Char} (hname : ∀ c ∈ name, isIdentChar c = true)
    (hrest : nextIs isIdentChar rest = false) : splitIdent (name ++ rest) = (name, rest) := by
  rw [splitIdent, takeWhile_append_of_next hname hrest, dropWhile_append_of_next hname hrest]

/-- What follows an identifier does not change that one begins. -/
theorem startsIdent_append {name : List Char} (h : startsIdent name = true) (rest : List Char) :
    startsIdent (name ++ rest) = true := by
  unfold startsIdent at h
  split at h
  · exact h
  · rename_i c cs hne
    by_cases hhyphen : c = '-'
    · rw [hhyphen] at h
      cases h
    · simpa [startsIdent, hhyphen] using h
  · cases h

theorem IsIdent.lexIdent_append {name : List Char} (h : IsIdent name)
    (hrest : nextIs isIdentChar rest = false) :
    lexIdent (name ++ rest) = ⟨.ident (String.ofList name), name, rest⟩ := by
  rw [lexIdent, splitIdent_append_of_next h.chars hrest]

theorem IsIdent.lexAt_append {name : List Char} (h : IsIdent name)
    (hrest : nextIs isIdentChar rest = false) :
    lexAt (name ++ rest) = ⟨.atKeyword (String.ofList name), '@' :: name, rest⟩ := by
  rw [lexAt, if_pos (startsIdent_append h.starts rest), splitIdent_append_of_next h.chars hrest]

theorem lexHash_append_of_next {name : List Char} (hne : name ≠ [])
    (hname : ∀ c ∈ name, isIdentChar c = true) (hrest : nextIs isIdentChar rest = false) :
    lexHash (name ++ rest) =
      ⟨.hash (String.ofList name) (startsIdent name), '#' :: name, rest⟩ := by
  have hsplit := splitIdent_append_of_next hname hrest
  have hstarts := startsIdent_splitIdent (name ++ rest)
  rw [hsplit] at hstarts
  rw [lexHash, hsplit]
  dsimp only
  rw [if_neg hne, ← hstarts]

theorem splitContents_append_of_quotable {quote : Char} {contents : List Char}
    (h : IsQuotable quote contents) (hrest : nextIs (fun c => c ≠ quote && c ≠ '\n') rest = false) :
    splitContents quote (contents ++ rest) = (contents, rest) := by
  have hinside : ∀ c ∈ contents, (c ≠ quote && c ≠ '\n') = true := by
    intro c hc
    simp [h c hc]
  rw [splitContents, takeWhile_append_of_next hinside hrest,
    dropWhile_append_of_next hinside hrest]

/-! ### Numerals -/

namespace Numeral

variable (n : Numeral)

theorem startsUnsigned_append (rest : List Char) : startsUnsigned (n.unsigned ++ rest) = true := by
  rw [unsigned, startsUnsigned]
  cases hwhole : n.whole with
  | cons c whole =>
    have hc := n.whole_digits c (hwhole ▸ List.mem_cons_self)
    simp [startsDigits, hc]
  | nil =>
    cases hfraction : n.fraction with
    | nil => exact absurd n.digits_ne_nil (by simp [hwhole, hfraction])
    | cons c digits =>
      have hc := n.fraction_digits c (hfraction ▸ List.mem_cons_self)
      simp [pointed, startsFraction, startsDigits, hc]

/-- The sign is split off, and nothing else is taken for one. -/
theorem splitNumeralSign_append_unsigned (rest : List Char) :
    splitNumeralSign (n.chars ++ rest) = (n.sign, n.unsigned ++ rest) := by
  obtain ⟨c, cs, hc, hfirst⟩ := n.unsigned_eq_cons
  have hminus : c ≠ '-' := ne_of_isDigit_or_point hfirst rfl (by decide)
  have hplus : c ≠ '+' := ne_of_isDigit_or_point hfirst rfl (by decide)
  have hmem := n.sign_mem
  simp only [List.mem_cons, List.not_mem_nil, or_false] at hmem
  rw [chars]
  obtain hsign | hsign | hsign := hmem
  · rw [hsign, hc]
    simp [splitNumeralSign, hplus, hminus]
  · rw [hsign]
    rfl
  · rw [hsign]
    rfl

theorem startsNumber_append (rest : List Char) : startsNumber (n.chars ++ rest) = true := by
  have hunsigned := n.startsUnsigned_append rest
  obtain ⟨c, cs, hc, hfirst⟩ := n.unsigned_eq_cons
  have hminus : c ≠ '-' := ne_of_isDigit_or_point hfirst rfl (by decide)
  have hplus : c ≠ '+' := ne_of_isDigit_or_point hfirst rfl (by decide)
  have hmem := n.sign_mem
  simp only [List.mem_cons, List.not_mem_nil, or_false] at hmem
  rw [chars]
  obtain hsign | hsign | hsign := hmem
  · rw [hsign]
    rw [hc] at hunsigned ⊢
    simpa [startsNumber, hplus, hminus] using hunsigned
  · rw [hsign]
    exact hunsigned
  · rw [hsign]
    exact hunsigned

theorem splitFraction_pointed {digits : List Char} (hdigits : ∀ c ∈ digits, c.isDigit = true)
    (hrest : startsDigits rest = false) (hpoint : digits = [] → startsFraction rest = false) :
    splitFraction (pointed digits ++ rest) = (pointed digits, rest) := by
  cases digits with
  | nil =>
    have hnone := hpoint rfl
    show splitFraction rest = ([], rest)
    unfold splitFraction
    split
    · exact if_neg (ne_true_of_eq_false hnone)
    · rfl
  | cons c digits =>
    rw [startsDigits_eq_nextIs] at hrest
    have hsplit : splitDigits (c :: digits ++ rest) = (c :: digits, rest) := by
      rw [splitDigits, takeWhile_append_of_next hdigits hrest,
        dropWhile_append_of_next hdigits hrest]
    have hc : startsDigits (c :: digits ++ rest) = true := hdigits c List.mem_cons_self
    show splitFraction ('.' :: (c :: digits ++ rest)) = _
    rw [splitFraction, if_pos hc, hsplit]
    rfl

/-- A numeral is taken whole, and nothing behind it. -/
theorem splitNumeral_append_of_stops (hrest : startsDigits rest = false)
    (hpoint : n.fraction = [] → startsFraction rest = false) :
    splitNumeral (n.chars ++ rest) = (n.chars, rest) := by
  have hnext : nextIs Char.isDigit (pointed n.fraction ++ rest) = false := by
    cases n.fraction with
    | nil => rw [← startsDigits_eq_nextIs]; exact hrest
    | cons c digits => rfl
  have hwhole : splitDigits (n.unsigned ++ rest) = (n.whole, pointed n.fraction ++ rest) := by
    rw [unsigned, List.append_assoc, splitDigits, takeWhile_append_of_next n.whole_digits hnext,
      dropWhile_append_of_next n.whole_digits hnext]
  rw [splitNumeral, splitNumeralSign_append_unsigned]
  dsimp only
  rw [hwhole]
  dsimp only
  rw [splitFraction_pointed n.fraction_digits hrest hpoint, chars, unsigned, List.append_assoc]

theorem fraction_ne_nil_of_mem (h : '.' ∈ n.chars) : n.fraction ≠ [] := by
  intro hnil
  have hmem := n.sign_mem
  simp only [List.mem_cons, List.not_mem_nil, or_false] at hmem
  rw [chars, unsigned, hnil, pointed, List.append_nil, List.mem_append] at h
  obtain h | h := h
  · obtain hsign | hsign | hsign := hmem <;> rw [hsign] at h <;> simp at h
  · exact absurd (n.whole_digits _ h) (by decide)

theorem splitNumeral_of_stops (h : NumeralStops n.chars rest) :
    splitNumeral (n.chars ++ rest) = (n.chars, rest) := by
  refine n.splitNumeral_append_of_stops h.digits fun hfraction => h.fraction fun hmem => ?_
  exact n.fraction_ne_nil_of_mem hmem hfraction

theorem lexNumeric_number (h : NumeralStops n.chars rest) :
    lexNumeric (n.chars ++ rest) = ⟨.number n.value, n.chars, rest⟩ := by
  rw [lexNumeric, n.splitNumeral_of_stops h]
  dsimp only
  rw [if_neg (ne_true_of_eq_false h.unit), numeralValue_chars]
  split
  · cases h.percent
  · rfl

theorem lexNumeric_percentage :
    lexNumeric (n.chars ++ '%' :: rest) = ⟨.percentage n.value, n.chars ++ ['%'], rest⟩ := by
  have hsplit : splitNumeral (n.chars ++ '%' :: rest) = (n.chars, '%' :: rest) :=
    n.splitNumeral_append_of_stops rfl fun _ => rfl
  rw [lexNumeric, hsplit]
  rw [← numeralValue_chars]
  rfl

/-- A unit begins with no digit and no point, so it stays apart from the numeral. -/
theorem lexNumeric_dimension {unit : List Char} (hunit : IsIdent unit)
    (hrest : nextIs isIdentChar rest = false) :
    lexNumeric (n.chars ++ (unit ++ rest)) =
      ⟨.dimension n.value (String.ofList unit), n.chars ++ unit, rest⟩ := by
  have hstarts := startsIdent_append hunit.starts rest
  obtain ⟨hdigits, hfraction⟩ :=
    (Bool.or_eq_false_iff ..).mp (startsUnsigned_of_startsIdent hstarts)
  rw [lexNumeric, n.splitNumeral_append_of_stops hdigits fun _ => hfraction]
  dsimp only
  rw [if_pos hstarts, splitIdent_append_of_next hunit.chars hrest, numeralValue_chars]

end Numeral

/-! ### Marks -/

theorem lex_of_mark {t : Token} {c : Char} (h : t.mark? = some c) (cs : List Char) :
    lex c cs = ⟨t, [c], cs⟩ := by
  cases t <;> cases h <;> rfl

theorem IsLone.not_mem_leaders {c : Char} (h : IsLone c) (hhash : c ≠ '#') (hat : c ≠ '@') :
    c ∉ leaders := by
  have hspace := h.not_space
  have hquote := h.not_quote
  simp only [Ascii.isSpace, Bool.or_eq_false_iff, decide_eq_false_iff_not] at hspace
  simp only [IsQuote, not_or] at hquote
  simp [leaders, hspace, hquote, hhash, hat]

theorem IsLone.lexMark_eq {c : Char} (h : IsLone c) (cs : List Char) :
    lexMark c cs = ⟨.delim c, [c], cs⟩ := by
  have hmark := h.not_mark
  unfold lexMark
  dsimp only
  split
  case h_10 => rfl
  case h_1 => exact absurd rfl (hmark .openParen)
  case h_2 => exact absurd rfl (hmark .closeParen)
  case h_3 => exact absurd rfl (hmark .openBracket)
  case h_4 => exact absurd rfl (hmark .closeBracket)
  case h_5 => exact absurd rfl (hmark .openBrace)
  case h_6 => exact absurd rfl (hmark .closeBrace)
  case h_7 => exact absurd rfl (hmark .comma)
  case h_8 => exact absurd rfl (hmark .colon)
  case h_9 => exact absurd rfl (hmark .semicolon)

theorem IsLone.lex_eq {c : Char} (h : IsLone c) (hstops : DelimStops c rest) :
    lex c rest = ⟨.delim c, [c], rest⟩ := by
  by_cases hhash : c = '#'
  · subst hhash
    have hsplit : splitIdent ([] ++ rest) = ([], rest) :=
      splitIdent_append_of_next (fun c hc => nomatch hc) (hstops.hash rfl)
    rw [List.nil_append] at hsplit
    show lexHash rest = _
    rw [lexHash, hsplit]
    rfl
  by_cases hat : c = '@'
  · subst hat
    show lexAt rest = _
    rw [lexAt, if_neg (ne_true_of_eq_false (hstops.atSign rfl))]
  rw [lex_of_not_mem_leaders (h.not_mem_leaders hhash hat), hstops.number, hstops.ident]
  exact h.lexMark_eq rest

theorem lex_of_isQuote {quote : Char} (h : IsQuote quote) (cs : List Char) :
    lex quote cs = lexString quote cs := by
  obtain rfl | rfl := h <;> rfl

theorem lex_of_isSpace {c : Char} (h : Ascii.isSpace c = true) (cs : List Char) :
    lex c cs = lexSpaces c cs := by
  rw [lex, if_pos h]

end Spellings

/-- **A spelling that stops is the lexeme.** -/
theorem lex_eq_of_spells {t : Token} {c : Char} {cs rest : List Char}
    (h : Spells t (c :: cs) rest) (hstops : Stops t (c :: cs) rest) :
    lex c (cs ++ rest) = ⟨t, c :: cs, rest⟩ := by
  generalize htext : c :: cs = text at h hstops
  have hcons : c :: (cs ++ rest) = text ++ rest := by rw [← htext, List.cons_append]
  cases h with
  | ident h =>
    have hstarts := startsIdent_append h.starts rest
    rw [← hcons] at hstarts
    rw [lex_of_startsIdent hstarts, hcons]
    exact h.lexIdent_append hstops
  | atKeyword h =>
    obtain ⟨rfl, rfl⟩ := List.cons.inj htext
    exact h.lexAt_append hstops
  | hash hne h =>
    obtain ⟨rfl, rfl⟩ := List.cons.inj htext
    exact lexHash_append_of_next hne h hstops
  | @string quote contents _ hq h =>
    obtain ⟨rfl, rfl⟩ := List.cons.inj htext
    have hsplit : splitContents c (contents ++ c :: rest) = (contents, c :: rest) := by
      refine splitContents_append_of_quotable h ?_
      simp [nextIs]
    have hline : c ≠ '\n' := by
      rintro rfl
      obtain hq | hq := hq <;> cases hq
    rw [List.append_assoc, List.singleton_append, lex_of_isQuote hq, lexString, hsplit]
    dsimp only
    rw [if_neg hline]
  | @openString quote contents hq h =>
    obtain ⟨rfl, rfl⟩ := List.cons.inj htext
    rw [lex_of_isQuote hq, lexString, splitContents_append_of_quotable h rfl]
  | @badString quote contents rest hq h =>
    obtain ⟨rfl, rfl⟩ := List.cons.inj htext
    have hsplit : splitContents c (cs ++ '\n' :: rest) = (cs, '\n' :: rest) := by
      refine splitContents_append_of_quotable h ?_
      simp [nextIs]
    rw [lex_of_isQuote hq, lexString, hsplit]
    rfl
  | delim h =>
    obtain ⟨rfl, rfl⟩ := List.cons.inj htext
    exact h.lex_eq hstops
  | mark h =>
    obtain ⟨rfl, rfl⟩ := List.cons.inj htext
    exact lex_of_mark h rest
  | number n =>
    have hstarts := n.startsNumber_append rest
    rw [← hcons] at hstarts
    rw [lex_of_startsNumber hstarts, hcons, n.lexNumeric_number hstops]
  | percentage n =>
    have hstarts := n.startsNumber_append (['%'] ++ rest)
    rw [← List.append_assoc, ← hcons] at hstarts
    rw [lex_of_startsNumber hstarts, hcons, List.append_assoc]
    exact n.lexNumeric_percentage
  | dimension n h =>
    rename_i unit
    have hstarts := n.startsNumber_append (unit ++ rest)
    rw [← List.append_assoc, ← hcons] at hstarts
    rw [lex_of_startsNumber hstarts, hcons, List.append_assoc]
    exact n.lexNumeric_dimension h hstops
  | whitespace hne h =>
    subst htext
    have hcs : ∀ d ∈ cs, Ascii.isSpace d = true := fun d hd => h d (List.mem_cons_of_mem c hd)
    rw [lex_of_isSpace (h c List.mem_cons_self), lexSpaces, splitSpaces,
      takeWhile_append_of_next hcs hstops, dropWhile_append_of_next hcs hstops]

/-! ## 5. A lexeme stops -/

theorem nextIs_splitIdent (cs : List Char) : nextIs isIdentChar (splitIdent cs).2 = false :=
  nextIs_dropWhile cs

theorem startsDigits_splitDigits (cs : List Char) : startsDigits (splitDigits cs).2 = false := by
  rw [startsDigits_eq_nextIs]
  exact nextIs_dropWhile cs

/-- Behind a numeral stands no digit, and no fraction unless the numeral has one. -/
theorem splitFraction_stops (cs : List Char) (h : startsDigits cs = false) :
    startsDigits (splitFraction cs).2 = false ∧
      ('.' ∉ (splitFraction cs).1 → startsFraction (splitFraction cs).2 = false) := by
  unfold splitFraction
  split
  · rename_i rest
    split
    · refine ⟨startsDigits_splitDigits rest, fun hpoint => ?_⟩
      exact absurd List.mem_cons_self hpoint
    · rename_i hdigits
      exact ⟨h, fun _ => eq_false_of_ne_true hdigits⟩
  · rename_i hne
    refine ⟨h, fun _ => ?_⟩
    rw [startsFraction]
    exact hne

theorem stops_lexNumeric (cs : List Char) :
    Stops (lexNumeric cs).token (lexNumeric cs).text (lexNumeric cs).rest := by
  obtain ⟨hdigits, hfraction⟩ := splitFraction_stops _
    (startsDigits_splitDigits (splitNumeralSign cs).2)
  unfold lexNumeric
  dsimp only
  split
  · exact nextIs_splitIdent _
  · rename_i hunit
    split
    · trivial
    · rename_i hpercent
      refine ⟨hdigits, fun hpoint => hfraction fun hmem => hpoint ?_, eq_false_of_ne_true hunit, ?_⟩
      · exact List.mem_append_right _ hmem
      · refine eq_false_of_ne_true fun hnext => ?_
        unfold nextIs at hnext
        split at hnext
        · rename_i heq
          rw [of_decide_eq_true hnext] at heq
          exact hpercent _ heq
        · cases hnext

theorem stops_lexHash (cs : List Char) :
    Stops (lexHash cs).token (lexHash cs).text (lexHash cs).rest := by
  have hnext := nextIs_splitIdent cs
  unfold lexHash
  dsimp only
  split
  · rename_i hnil
    have hcs := splitIdent_append cs
    rw [hnil, List.nil_append] at hcs
    rw [hcs] at hnext
    refine ⟨rfl, rfl, fun _ => hnext, fun h => ?_⟩
    cases h
  · exact hnext

theorem stops_lexAt (cs : List Char) :
    Stops (lexAt cs).token (lexAt cs).text (lexAt cs).rest := by
  unfold lexAt
  split
  · exact nextIs_splitIdent cs
  · rename_i h
    refine ⟨rfl, rfl, fun h => ?_, fun _ => eq_false_of_ne_true h⟩
    cases h

theorem stops_lexString (quote : Char) (cs : List Char) :
    Stops (lexString quote cs).token (lexString quote cs).text (lexString quote cs).rest := by
  unfold lexString
  dsimp only
  split
  · trivial
  · split <;> trivial

/-- **A lexeme stops where it ends.** -/
theorem stops_lex (c : Char) (cs : List Char) :
    Stops (lex c cs).token (lex c cs).text (lex c cs).rest := by
  unfold lex
  split
  · exact nextIs_dropWhile cs
  split
  · exact stops_lexString c cs
  split
  · exact stops_lexHash cs
  rename_i hhash
  split
  · exact stops_lexAt cs
  rename_i hat
  split
  · exact stops_lexNumeric (c :: cs)
  rename_i hnumber
  split
  · exact nextIs_splitIdent (c :: cs)
  rename_i hident
  have hdelim : DelimStops c cs :=
    ⟨eq_false_of_ne_true hnumber, eq_false_of_ne_true hident, fun h => absurd h hhash,
      fun h => absurd h hat⟩
  unfold lexMark
  dsimp only
  split <;> trivial

end StyleEngine
