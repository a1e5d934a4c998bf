import StyleEngine.Proofs.Css.MaximalMunch
import StyleEngine.Proofs.Css.WellFormed

/-!
# `Proofs/Css/NumericTokens.lean` — every numeral is read for what it is

Two functions have to agree on what a numeral is. `startsNumber` decides with three characters
whether one begins; `splitNumeral` then takes characters without ever failing, and may come back
with a bare sign or with nothing. What it took is parsed, and if the parse fails the value is zero.
A sheet whose numbers turn to zero would be the price of any disagreement.

There is none. The characters taken have the **shape** of a numeral, in which every part may be
missing, and they are the longest front of the text that has it
(`longestPrefix_splitNumeral`). With a digit among them they are a `Numeral`, and the first
three characters tell exactly when there is one (`startsNumber_iff`). So the parse succeeds
where it is made, and **`tokenize_numerals`** says this of the tokens of a text, with
what becomes of a letter or a point behind the numeral.
-/

set_option autoImplicit false

namespace StyleEngine

/-! ## 1. The shape of a numeral -/

/-- A sign, digits, and a point with at least one digit behind it. Each of them may be
    missing, and so may all. -/
inductive NumeralShape : List Char → Prop where
  | mk {sign whole fraction : List Char} (hsign : sign ∈ [[], ['+'], ['-']])
      (hwhole : ∀ c ∈ whole, c.isDigit = true) (hfraction : ∀ c ∈ fraction, c.isDigit = true) :
      NumeralShape (sign ++ (whole ++ Numeral.pointed fraction))

/-- The front of a text that has a shape, and no longer front has it. -/
structure LongestPrefix (shape : List Char → Prop) (text front : List Char) : Prop where
  front_prefix : front <+: text
  shaped : shape front
  length_le : ∀ other, other <+: text → shape other → other.length ≤ front.length

/-- What has the shape of a numeral is one, unless it is a mere sign. -/
theorem NumeralShape.cases {text : List Char} (h : NumeralShape text) :
    text ∈ [[], ['+'], ['-']] ∨ ∃ n : Numeral, text = n.chars := by
  obtain @⟨sign, whole, fraction, hsign, hwhole, hfraction⟩ := h
  by_cases hdigits : whole = [] ∧ fraction = []
  · left
    rw [hdigits.1, hdigits.2, Numeral.pointed, List.append_nil, List.append_nil]
    exact hsign
  · right
    have hne : whole ≠ [] ∨ fraction ≠ [] := Classical.not_and_iff_not_or_not.mp hdigits
    exact ⟨⟨sign, whole, fraction, hsign, hwhole, hfraction, hne⟩, rfl⟩

theorem Numeral.exists_digit (n : Numeral) : ∃ d ∈ n.chars, d.isDigit = true := by
  rw [chars, unsigned]
  cases hwhole : n.whole with
  | cons d whole =>
    refine ⟨d, ?_, n.whole_digits d (hwhole ▸ List.mem_cons_self)⟩
    simp
  | nil =>
    cases hfraction : n.fraction with
    | nil => exact absurd n.digits_ne_nil (by simp [hwhole, hfraction])
    | cons d digits =>
      refine ⟨d, ?_, n.fraction_digits d (hfraction ▸ List.mem_cons_self)⟩
      simp [pointed]

theorem NumeralShape.exists_digit_iff {text : List Char} (h : NumeralShape text) :
    (∃ d ∈ text, d.isDigit = true) ↔ ∃ n : Numeral, text = n.chars := by
  constructor
  · rintro ⟨d, hd, hdigit⟩
    refine h.cases.resolve_left fun hsign => ?_
    simp only [List.mem_cons, List.not_mem_nil, or_false] at hsign
    obtain rfl | rfl | rfl := hsign
    · cases hd
    all_goals
      obtain rfl := List.mem_singleton.mp hd
      cases hdigit
  · rintro ⟨n, rfl⟩
    exact n.exists_digit

/-! ## 2. What is taken for a numeral -/

theorem numeralShape_splitNumeral (cs : List Char) : NumeralShape (splitNumeral cs).1 := by
  obtain ⟨digits, hfraction, hdigits⟩ :=
    exists_pointed_splitFraction (splitDigits (splitNumeralSign cs).2).2
  rw [splitNumeral]
  dsimp only
  rw [hfraction, List.append_assoc]
  exact .mk (splitNumeralSign_mem cs) (splitDigits_chars _) hdigits

/-- **The longest front with the shape of a numeral is taken**, whatever the text. -/
theorem longestPrefix_splitNumeral (cs : List Char) :
    LongestPrefix NumeralShape cs (splitNumeral cs).1 where
  front_prefix := ⟨_, splitNumeral_append cs⟩
  shaped := numeralShape_splitNumeral cs
  length_le := by
    rintro other ⟨rest, rfl⟩ hshape
    obtain hsign | ⟨n, rfl⟩ := hshape.cases
    · -- A sign is taken before any digit is looked for.
      simp only [List.mem_cons, List.not_mem_nil, or_false] at hsign
      obtain rfl | rfl | rfl := hsign
      · exact Nat.zero_le _
      all_goals exact Nat.succ_le_succ (Nat.zero_le _)
    · exact n.length_le_splitNumeral rest

/-- **The first characters tell whether a digit is taken.** -/
theorem startsNumber_iff {cs : List Char} :
    startsNumber cs = true ↔ ∃ d ∈ (splitNumeral cs).1, d.isDigit = true := by
  rw [(numeralShape_splitNumeral cs).exists_digit_iff]
  constructor
  · exact exists_numeral
  · rintro ⟨n, hn⟩
    rw [← splitNumeral_append cs, hn]
    exact n.startsNumber_append _

/-! ## 3. Numeric tokens -/

/-- The number of a numeric token. -/
def Token.number? : Token → Option Number
  | .number x | .percentage x | .dimension x _ => some x
  | _ => none

/-- A numeric token is spelled with its numeral in front. -/
theorem Spells.exists_numeral {t : Token} {text rest : List Char} {x : Number}
    (h : Spells t text rest) (hx : t.number? = some x) :
    ∃ (n : Numeral) (unit : List Char), text = n.chars ++ unit := by
  cases h with
  | number n => exact ⟨n, [], (List.append_nil _).symm⟩
  | percentage n => exact ⟨n, ['%'], rfl⟩
  | @dimension unit _ n _ => exact ⟨n, unit, rfl⟩
  | mark hmark =>
    -- A mark stands for no numeric token.
    cases t with
    | number _ | percentage _ | dimension _ _ => cases hmark
    | _ => cases hx
  | _ => cases hx

theorem number?_lexNumeric (cs : List Char) :
    (lexNumeric cs).token.number? = some (numeralValue (splitNumeral cs).1) := by
  unfold lexNumeric
  dsimp only
  split
  · rfl
  · split <;> rfl

/-- Numerals are looked for where they can begin, and nowhere else. -/
theorem number?_lex_isSome_iff (c : Char) (cs : List Char) :
    (lex c cs).token.number?.isSome = true ↔ startsNumber (c :: cs) = true := by
  constructor
  · intro h
    obtain ⟨x, hx⟩ := Option.isSome_iff_exists.mp h
    obtain ⟨n, unit, htext⟩ := (spells_lex c cs).exists_numeral hx
    rw [← lex_append c cs, htext, List.append_assoc]
    exact n.startsNumber_append _
  · intro h
    rw [lex_of_startsNumber h, number?_lexNumeric]
    rfl

/-- A token with a number comes from the branch that reads numerals, and has the number of
    the numeral. -/
theorem lex_of_number? {c : Char} {cs : List Char} {x : Number}
    (hx : (lex c cs).token.number? = some x) :
    startsNumber (c :: cs) = true ∧ lex c cs = lexNumeric (c :: cs) ∧
      numeralValue (splitNumeral (c :: cs)).1 = x := by
  have hstarts := (number?_lex_isSome_iff c cs).mp (Option.isSome_of_eq_some hx)
  have hlex := lex_of_startsNumber hstarts
  rw [hlex, number?_lexNumeric] at hx
  exact ⟨hstarts, hlex, Option.some.inj hx⟩

/-- A letter behind the numeral begins a unit. -/
theorem lexNumeric_of_letter {cs more : List Char} {e : Char}
    (hrest : (splitNumeral cs).2 = e :: more) (he : isIdentStart e = true) :
    (lexNumeric cs).token = .dimension (numeralValue (splitNumeral cs).1)
      (String.ofList (e :: more.takeWhile isIdentChar)) := by
  have hunit : startsIdent (e :: more) = true := by
    have hhyphen : e ≠ '-' := by rintro rfl; cases he
    simpa [startsIdent, hhyphen] using he
  have htaken : (splitIdent (e :: more)).1 = e :: more.takeWhile isIdentChar := by
    rw [splitIdent, List.takeWhile_cons_of_pos (isIdentChar_of_isIdentStart he)]
  rw [lexNumeric]
  dsimp only
  rw [hrest, if_pos hunit, htaken]

/-- A point behind the numeral is not part of the token. -/
theorem lexNumeric_of_point {cs more : List Char} (hrest : (splitNumeral cs).2 = '.' :: more) :
    lexNumeric cs =
      ⟨.number (numeralValue (splitNumeral cs).1), (splitNumeral cs).1, '.' :: more⟩ := by
  rw [lexNumeric]
  dsimp only
  rw [hrest]
  rfl

/-- A point without a digit behind it is a token. -/
theorem tokensFrom_point (p : Position) {cs : List Char} (h : startsDigits cs = false) :
    tokensFrom p ('.' :: cs) = ⟨.delim '.', p⟩ :: tokensFrom (p.step '.') cs := by
  have hlex : lex '.' cs = ⟨.delim '.', ['.'], cs⟩ := by
    have hleader : '.' ∉ leaders := by decide
    have hnumber : startsNumber ('.' :: cs) = false := h
    rw [lex_of_not_mem_leaders hleader, if_neg (ne_true_of_eq_false hnumber)]
    rfl
  have hslash : '.' ≠ '/' := by decide
  have hsplit := splitComments_of_not_startsComment (@startsComment_of_ne '.' cs hslash)
  rw [tokensFrom_of_cons p (congrArg Prod.snd hsplit), hsplit, hlex]
  rfl

/-! ## 4. The tokens of a text -/

/-- What there is to say of numerals where `text` begins with the token `t`, and `behind` are
    the tokens that come behind it. -/
structure ReadsNumeral (text : List Char) (t : PlacedToken) (behind : List PlacedToken) :
    Prop where
  /-- What is collected is the longest front that has the shape of a numeral. -/
  longest : LongestPrefix NumeralShape text (splitNumeral text).1
  /-- The token is numeric just where a number starts. -/
  numeric_iff : t.token.number?.isSome = true ↔ startsNumber text = true
  /-- A number starts just where a digit is collected. -/
  starts_iff : startsNumber text = true ↔ ∃ d ∈ (splitNumeral text).1, d.isDigit = true
  /-- The value is the parse of what is collected, which is a number. -/
  value : ∀ x, t.token.number? = some x →
    Number.ofChars? (splitNumeral text).1 = some x ∧ x ≠ .nan
  /-- A letter behind the numeral begins the unit, and an `e` is a letter. -/
  letter : ∀ x e more, t.token.number? = some x → (splitNumeral text).2 = e :: more →
    isIdentStart e = true →
    t.token = .dimension x (String.ofList (e :: more.takeWhile isIdentChar))
  /-- A point behind the numeral with no digit behind it is the next token. -/
  point : ∀ x more, t.token.number? = some x → (splitNumeral text).2 = '.' :: more →
    startsDigits more = false →
    t.token = .number x ∧
      behind.head? = some ⟨.delim '.', t.position.advance (splitNumeral text).1⟩

/-- A number is never one of the words that `Number.ofChars?` reads too. -/
theorem ofChars?_splitNumeral {cs : List Char} (h : startsNumber cs = true) :
    Number.ofChars? (splitNumeral cs).1 = some (numeralValue (splitNumeral cs).1) ∧
      numeralValue (splitNumeral cs).1 ≠ .nan := by
  obtain ⟨n, hn⟩ := exists_numeral h
  rw [hn, numeralValue_chars]
  exact ⟨n.ofChars?_chars, n.value_ne_nan⟩

theorem readsNumeral_lex (p : Position) (c : Char) (cs : List Char) :
    ReadsNumeral (c :: cs) ⟨(lex c cs).token, p⟩
      (tokensFrom (p.advance (lex c cs).text) (lex c cs).rest) where
  longest := longestPrefix_splitNumeral (c :: cs)
  numeric_iff := number?_lex_isSome_iff c cs
  starts_iff := startsNumber_iff
  value := by
    intro x hx
    obtain ⟨hstarts, -, rfl⟩ := lex_of_number? hx
    exact ofChars?_splitNumeral hstarts
  letter := by
    intro x e more hx hrest he
    obtain ⟨-, hlex, rfl⟩ := lex_of_number? hx
    rw [hlex]
    exact lexNumeric_of_letter hrest he
  point := by
    intro x more hx hrest hmore
    obtain ⟨-, hlex, rfl⟩ := lex_of_number? hx
    rw [hlex, lexNumeric_of_point hrest, tokensFrom_point _ hmore]
    exact ⟨rfl, rfl⟩

/-- At the end of the text nothing is collected. -/
theorem readsNumeral_eof (p : Position) (behind : List PlacedToken) :
    ReadsNumeral [] ⟨.eof, p⟩ behind where
  longest := longestPrefix_splitNumeral []
  numeric_iff := ⟨nofun, nofun⟩
  starts_iff := startsNumber_iff
  value := nofun
  letter := nofun
  point := nofun

/-- **Numerals are read exactly.** -/
theorem tokenize_numerals {source : String} {before behind : List PlacedToken} {t : PlacedToken}
    (h : tokenize source = before ++ t :: behind) :
    ReadsNumeral (source.toList.drop t.position.offset) t behind := by
  obtain ⟨front, back, hsource, hcomment, hposition, hback⟩ := exists_tokensFrom_eq h
  have hoffset : t.position.offset = front.length := by
    rw [hposition, Position.offset_advance]
    exact Nat.zero_add _
  rw [hoffset, hsource, List.drop_left]
  cases back with
  | nil =>
    rw [tokensFrom_nil] at hback
    obtain ⟨ht, -⟩ := List.cons.inj hback
    rw [← ht]
    exact readsNumeral_eof t.position behind
  | cons c cs =>
    have hsplit := splitComments_of_not_startsComment hcomment
    rw [tokensFrom_of_cons _ (congrArg Prod.snd hsplit), hsplit] at hback
    obtain ⟨ht, rfl⟩ := List.cons.inj hback
    rw [← ht]
    exact readsNumeral_lex t.position c cs

/-- The first point has a digit behind it and the second has not; `e3` is a unit. -/
theorem tokenize_numerals_points :
    tokenize "+.5e3 12.x" =
      [⟨.dimension (.ofRank false 4602678819172646912) "e3", ⟨0, 1, 1⟩⟩,
          ⟨.whitespace, ⟨5, 1, 6⟩⟩] ++
        ⟨.number (.ofRank false 4622945017495814144), ⟨6, 1, 7⟩⟩ ::
          [⟨.delim '.', ⟨8, 1, 9⟩⟩, ⟨.ident "x", ⟨9, 1, 10⟩⟩, ⟨.eof, ⟨10, 1, 11⟩⟩] ∧
    ReadsNumeral ("+.5e3 12.x".toList.drop 6)
      ⟨.number (.ofRank false 4622945017495814144), ⟨6, 1, 7⟩⟩
      [⟨.delim '.', ⟨8, 1, 9⟩⟩, ⟨.ident "x", ⟨9, 1, 10⟩⟩, ⟨.eof, ⟨10, 1, 11⟩⟩] := by
  have htokens : tokenize "+.5e3 12.x" =
      [⟨.dimension (.ofRank false 4602678819172646912) "e3", ⟨0, 1, 1⟩⟩,
          ⟨.whitespace, ⟨5, 1, 6⟩⟩] ++
        ⟨.number (.ofRank false 4622945017495814144), ⟨6, 1, 7⟩⟩ ::
          [⟨.delim '.', ⟨8, 1, 9⟩⟩, ⟨.ident "x", ⟨9, 1, 10⟩⟩, ⟨.eof, ⟨10, 1, 11⟩⟩] := by
    decide +kernel
  exact ⟨htokens, tokenize_numerals htokens⟩

end StyleEngine
