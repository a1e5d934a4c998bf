import StyleEngine.Proofs.Css.Cutting

/-!
# `Proofs/Css/MaximalMunch.lean` — no token could have been longer

`Stops` says of each kind of token what may not stand behind it, and these conditions look
arbitrary: three characters for a sign, two for a point, one for a name. What they are for is
said in one sentence, **`length_le_of_spells`**: whatever token the next characters spell, their
lexeme has at least as many of them.

The proof goes through the ways to spell a token. Where the spelling is ended by a character of
its own, a quote or a percent sign, it is the lexeme. Where it is a run of characters of one
kind, the lexer takes the whole run and the spelling is the front of it
(`length_le_takeWhile_append`). A numeral is two such runs, and which of them may go on depends
on whether there is a point between them.

**`tokenize_longest`** says it of the tokens of a text, together with what stands behind each.
For a slash that is one thing more than `Stops` has: two characters that begin a comment are
taken before any token is looked for.
-/

set_option autoImplicit false

namespace StyleEngine

/-! ## 1. Runs -/

/-- Characters of one kind at the front are all taken, and perhaps more behind them. -/
theorem length_le_takeWhile_append {kind : Char → Bool} {cs : List Char}
    (h : ∀ c ∈ cs, kind c = true) (rest : List Char) :
    cs.length ≤ ((cs ++ rest).takeWhile kind).length := by
  rw [List.takeWhile_append_of_pos h, List.length_append]
  exact Nat.le_add_right _ _

theorem length_le_splitIdent {name : List Char} (h : ∀ c ∈ name, isIdentChar c = true)
    (rest : List Char) : name.length ≤ (splitIdent (name ++ rest)).1.length :=
  length_le_takeWhile_append h rest

theorem length_le_splitDigits {digits : List Char} (h : ∀ c ∈ digits, c.isDigit = true)
    (rest : List Char) : digits.length ≤ (splitDigits (digits ++ rest)).1.length :=
  length_le_takeWhile_append h rest

/-- A numeral may go on behind the characters that spell it, but it has them all. -/
theorem Numeral.length_le_splitNumeral (n : Numeral) (rest : List Char) :
    n.chars.length ≤ (splitNumeral (n.chars ++ rest)).1.length := by
  rw [splitNumeral, splitNumeralSign_append_unsigned, chars]
  dsimp only
  rw [List.append_assoc, List.length_append, List.length_append, List.length_append]
  refine Nat.add_le_add_left ?_ n.sign.length
  rw [unsigned]
  cases hfraction : n.fraction with
  | nil =>
    -- Without a fraction the digits in front of the point are the run that may go on.
    have hle := length_le_splitDigits n.whole_digits rest
    rw [pointed, List.append_nil]
    exact Nat.le_trans hle (Nat.le_add_right _ _)
  | cons c digits =>
    -- With one, the point ends the first run, and the second is taken from there.
    have hdigits : ∀ d ∈ c :: digits, d.isDigit = true := hfraction ▸ n.fraction_digits
    have hwhole : splitDigits (n.whole ++ '.' :: (c :: digits ++ rest)) =
        (n.whole, '.' :: (c :: digits ++ rest)) := by
      rw [splitDigits, takeWhile_append_of_next n.whole_digits rfl,
        dropWhile_append_of_next n.whole_digits rfl]
    have hstarts : startsDigits (c :: digits ++ rest) = true := hdigits c List.mem_cons_self
    have hle := length_le_splitDigits hdigits rest
    rw [pointed, List.append_assoc, List.cons_append, hwhole]
    dsimp only
    rw [splitFraction, if_pos hstarts, List.length_append]
    exact Nat.add_le_add_left (Nat.succ_le_succ hle) _

theorem length_splitNumeral_le_lexNumeric (cs : List Char) :
    (splitNumeral cs).1.length ≤ (lexNumeric cs).text.length := by
  unfold lexNumeric
  dsimp only
  split
  · rw [List.length_append]
    exact Nat.le_add_right _ _
  · split
    · rw [List.length_append]
      exact Nat.le_add_right _ _
    · exact Nat.le_refl _

theorem IsIdent.length_le_lexAt {name : List Char} (h : IsIdent name) (rest : List Char) :
    ('@' :: name).length ≤ (lexAt (name ++ rest)).text.length := by
  rw [lexAt, if_pos (startsIdent_append h.starts rest)]
  exact Nat.succ_le_succ (length_le_splitIdent h.chars rest)

theorem length_le_lexHash {name : List Char} (hne : name ≠ [])
    (h : ∀ c ∈ name, isIdentChar c = true) (rest : List Char) :
    ('#' :: name).length ≤ (lexHash (name ++ rest)).text.length := by
  have hle := length_le_splitIdent h rest
  have hpos := List.length_pos_iff.mpr hne
  have hname : (splitIdent (name ++ rest)).1 ≠ [] :=
    List.length_pos_iff.mp (Nat.lt_of_lt_of_le hpos hle)
  rw [lexHash]
  dsimp only
  rw [if_neg hname]
  exact Nat.succ_le_succ hle

/-- A unit ends the numeral in front of it, so it is the unit that may go on. -/
theorem Numeral.length_le_lexNumeric (n : Numeral) {unit : List Char} (h : IsIdent unit)
    (rest : List Char) :
    (n.chars ++ unit).length ≤ (lexNumeric (n.chars ++ (unit ++ rest))).text.length := by
  have hunit := startsIdent_append h.starts rest
  obtain ⟨hdigits, hfraction⟩ :=
    (Bool.or_eq_false_iff ..).mp (startsUnsigned_of_startsIdent hunit)
  rw [lexNumeric, n.splitNumeral_append_of_stops hdigits fun _ => hfraction]
  dsimp only
  rw [if_pos hunit, List.length_append, List.length_append]
  exact Nat.add_le_add_left (length_le_splitIdent h.chars rest) _

/-! ## 2. The longest spelling -/

/-- A spelling that stops is the lexeme itself. -/
theorem length_le_of_stops {t : Token} {c : Char} {cs text rest : List Char}
    (h : Spells t text rest) (hstops : Stops t text rest) (hcs : c :: cs = text ++ rest) :
    text.length ≤ (lex c cs).text.length := by
  obtain ⟨d, ds, rfl⟩ := List.exists_cons_of_ne_nil h.text_ne_nil
  obtain ⟨rfl, hrest⟩ := List.cons.inj hcs
  have hrest : cs = ds ++ rest := hrest
  have hlex : lex c cs = ⟨t, c :: ds, rest⟩ := hrest ▸ lex_eq_of_spells h hstops
  exact Nat.le_of_eq (congrArg (·.text.length) hlex).symm

/-- **No spelling of a token is longer than the lexeme.** -/
theorem length_le_of_spells {t : Token} {c : Char} {cs text rest : List Char}
    (h : Spells t text rest) (hcs : c :: cs = text ++ rest) :
    text.length ≤ (lex c cs).text.length := by
  cases h with
  | ident h =>
    have hstarts := startsIdent_append h.starts rest
    rw [← hcs] at hstarts
    rw [lex_of_startsIdent hstarts, hcs]
    exact length_le_splitIdent h.chars rest
  | atKeyword h =>
    obtain ⟨rfl, hrest⟩ := List.cons.inj hcs
    rw [hrest]
    exact h.length_le_lexAt rest
  | hash hne h =>
    obtain ⟨rfl, hrest⟩ := List.cons.inj hcs
    rw [hrest]
    exact length_le_lexHash hne h rest
  | string hq h => exact length_le_of_stops (.string hq h) trivial hcs
  | openString hq h => exact length_le_of_stops (.openString hq h) trivial hcs
  | badString hq h => exact length_le_of_stops (.badString hq h) trivial hcs
  | delim h => exact List.length_pos_iff.mpr (lex_text_ne_nil c cs)
  | mark h => exact List.length_pos_iff.mpr (lex_text_ne_nil c cs)
  | number n =>
    have hstarts := n.startsNumber_append rest
    rw [← hcs] at hstarts
    rw [lex_of_startsNumber hstarts, hcs]
    exact Nat.le_trans (n.length_le_splitNumeral rest) (length_splitNumeral_le_lexNumeric _)
  | percentage n => exact length_le_of_stops (.percentage n) trivial hcs
  | @dimension unit _ n h =>
    have hstarts := n.startsNumber_append (unit ++ rest)
    rw [List.append_assoc] at hcs
    rw [← hcs] at hstarts
    rw [lex_of_startsNumber hstarts, hcs]
    exact n.length_le_lexNumeric h rest
  | @whitespace spaces _ hne h =>
    obtain ⟨d, spaces, rfl⟩ := List.exists_cons_of_ne_nil hne
    obtain ⟨rfl, hrest⟩ := List.cons.inj hcs
    have hspaces : ∀ d ∈ spaces, Ascii.isSpace d = true :=
      fun d hd => h d (List.mem_cons_of_mem c hd)
    rw [lex_of_isSpace (h c List.mem_cons_self), hrest]
    exact Nat.succ_le_succ (length_le_takeWhile_append hspaces rest)

/-! ## 3. The tokens of a text -/

/-- A token is the lexeme of what stands at its place, and the tokens behind it are those of
    what the lexeme leaves. -/
theorem lexeme_of_tokensFrom {p : Position} {cs : List Char} {behind : List PlacedToken}
    {t : PlacedToken} (hcomment : startsComment cs = false) (h : tokensFrom p cs = t :: behind)
    (ht : t.token ≠ .eof) :
    ∃ c rest, cs = c :: rest ∧ t.token = (lex c rest).token ∧
      behind = tokensFrom (p.advance (lex c rest).text) (lex c rest).rest := by
  have hsplit := splitComments_of_not_startsComment hcomment
  cases cs with
  | nil =>
    rw [tokensFrom_nil] at h
    obtain ⟨rfl, -⟩ := List.cons.inj h
    exact absurd rfl ht
  | cons c rest =>
    have hcons : (splitComments (c :: rest)).2 = c :: rest := by rw [hsplit]
    rw [tokensFrom_of_cons p hcons, hsplit] at h
    obtain ⟨rfl, rfl⟩ := List.cons.inj h
    exact ⟨c, rest, rfl, rfl, rfl⟩

/-- Where no comment begins, a slash has no star behind it. -/
theorem nextIs_star_of_startsComment {rest : List Char} (h : startsComment ('/' :: rest) = false) :
    nextIs (· = '*') rest = false := by
  cases rest with
  | nil => rfl
  | cons c rest =>
    refine decide_eq_false fun hc => ?_
    rw [hc] at h
    cases h

/-- **Tokens are the longest there could be.** The text at the place of a token falls into
    what spells the token and a rest, from which the tokens behind it are taken. The token stops
    there, a slash is not followed by a star, and no token is spelled by more characters. -/
theorem tokenize_longest {source : String} {before behind : List PlacedToken} {t : PlacedToken}
    (h : tokenize source = before ++ t :: behind) (ht : t.token ≠ .eof) :
    ∃ text rest, source.toList.drop t.position.offset = text ++ rest ∧
      Spells t.token text rest ∧
      behind = tokensFrom (t.position.advance text) rest ∧
      Stops t.token text rest ∧
      (t.token = .delim '/' → nextIs (· = '*') rest = false) ∧
      ∀ u text' rest', text ++ rest = text' ++ rest' → Spells u text' rest' →
        text'.length ≤ text.length := by
  obtain ⟨front, back, hsource, hcomment, hposition, hback⟩ := exists_tokensFrom_eq h
  obtain ⟨c, cs, rfl, htoken, hbehind⟩ := lexeme_of_tokensFrom hcomment hback ht
  have hoffset : t.position.offset = front.length := by
    rw [hposition, Position.offset_advance]
    exact Nat.zero_add _
  refine ⟨(lex c cs).text, (lex c cs).rest, ?_, ?_, hbehind, ?_, ?_, ?_⟩
  · rw [hoffset, hsource, List.drop_left, lex_append]
  · rw [htoken]
    exact spells_lex c cs
  · rw [htoken]
    exact stops_lex c cs
  · intro hslash
    -- A lone slash is spelled by itself, so what is left is what stands behind it.
    have hspells := spells_lex c cs
    have happend := lex_append c cs
    rw [← htoken, hslash] at hspells
    generalize (lex c cs).text = text at hspells happend
    generalize (lex c cs).rest = rest at hspells happend
    rw [← happend] at hcomment
    cases hspells with
    | delim h => exact nextIs_star_of_startsComment hcomment
    | mark h => cases h
  · intro u text' rest' happend hspells
    rw [lex_append] at happend
    exact length_le_of_spells hspells happend

/-- Behind `1.5` stands a point with a digit, which begins another number. -/
theorem tokenize_longest_fractions :
    tokenize "1.5.5/+.x" =
      [] ++ ⟨.number (.ofRank false 4609434218613702656), ⟨0, 1, 1⟩⟩ ::
        [⟨.number (.ofRank false 4602678819172646912), ⟨3, 1, 4⟩⟩, ⟨.delim '/', ⟨5, 1, 6⟩⟩,
          ⟨.delim '+', ⟨6, 1, 7⟩⟩, ⟨.delim '.', ⟨7, 1, 8⟩⟩, ⟨.ident "x", ⟨8, 1, 9⟩⟩,
          ⟨.eof, ⟨9, 1, 10⟩⟩] ∧
    ∃ text rest, "1.5.5/+.x".toList.drop 0 = text ++ rest ∧
      Spells (.number (.ofRank false 4609434218613702656)) text rest ∧
      [⟨.number (.ofRank false 4602678819172646912), ⟨3, 1, 4⟩⟩, ⟨.delim '/', ⟨5, 1, 6⟩⟩,
        ⟨.delim '+', ⟨6, 1, 7⟩⟩, ⟨.delim '.', ⟨7, 1, 8⟩⟩, ⟨.ident "x", ⟨8, 1, 9⟩⟩,
        ⟨.eof, ⟨9, 1, 10⟩⟩] = tokensFrom (Position.advance ⟨0, 1, 1⟩ text) rest ∧
      Stops (.number (.ofRank false 4609434218613702656)) text rest ∧
      (Token.number (.ofRank false 4609434218613702656) = .delim '/' →
        nextIs (· = '*') rest = false) ∧
      ∀ u text' rest', text ++ rest = text' ++ rest' → Spells u text' rest' →
        text'.length ≤ text.length := by
  have htokens : tokenize "1.5.5/+.x" =
      [] ++ ⟨.number (.ofRank false 4609434218613702656), ⟨0, 1, 1⟩⟩ ::
        [⟨.number (.ofRank false 4602678819172646912), ⟨3, 1, 4⟩⟩, ⟨.delim '/', ⟨5, 1, 6⟩⟩,
          ⟨.delim '+', ⟨6, 1, 7⟩⟩, ⟨.delim '.', ⟨7, 1, 8⟩⟩, ⟨.ident "x", ⟨8, 1, 9⟩⟩,
          ⟨.eof, ⟨9, 1, 10⟩⟩] := by decide +kernel
  exact ⟨htokens, tokenize_longest htokens Token.noConfusion⟩

end StyleEngine
