import StyleEngine.Proofs.Css.Cutting

/-!
# `Proofs/Css/Lookahead.lean` — what may be changed behind a token

A token is known from its own characters, but where it ends is seen from those behind it, at
most three (`Stops`). So a text that is changed further on may be cut elsewhere. Two kinds of
change never have this effect:

* characters are taken away from the end (`Stops.of_append`);
* a character is put there that goes on with no name and no numeral (`Stops.append_break`).

Texts are joined by a line feed, and comments begin with a slash. Both are such characters,
and to put a comment in the middle of a text is to take away what stands there, for as long as
the lexer looks at the slash.

The spelling of a token depends on what stands behind it in two cases only, the two kinds of
strings without a closing quote (`Spells.of_rest`).
-/

set_option autoImplicit false

namespace StyleEngine

/-! ## 1. Fewer characters -/

section Fewer

variable {xs ys : List Char}

theorem nextIs_of_append {kind : Char → Bool} (h : nextIs kind (xs ++ ys) = false) :
    nextIs kind xs = false := by
  cases xs with
  | nil => rfl
  | cons c xs => exact h

theorem startsDigits_of_append (h : startsDigits (xs ++ ys) = false) :
    startsDigits xs = false := by
  rw [startsDigits_eq_nextIs] at h ⊢
  exact nextIs_of_append h

theorem startsFraction_of_append (h : startsFraction (xs ++ ys) = false) :
    startsFraction xs = false := by
  cases xs with
  | nil => rfl
  | cons c xs =>
    by_cases hc : c = '.'
    · subst hc
      exact startsDigits_of_append h
    · simp [startsFraction, hc]

theorem startsUnsigned_of_append (h : startsUnsigned (xs ++ ys) = false) :
    startsUnsigned xs = false := by
  rw [startsUnsigned, Bool.or_eq_false_iff] at h ⊢
  exact ⟨startsDigits_of_append h.1, startsFraction_of_append h.2⟩

theorem startsNumber_of_append (h : startsNumber (xs ++ ys) = false) :
    startsNumber xs = false := by
  cases xs with
  | nil => rfl
  | cons c xs =>
    by_cases hplus : c = '+'
    · subst hplus
      exact startsUnsigned_of_append h
    · by_cases hminus : c = '-'
      · subst hminus
        exact startsUnsigned_of_append h
      · have hunsigned : startsUnsigned (c :: xs ++ ys) = false := by
          simpa [startsNumber, hplus, hminus] using h
        simpa [startsNumber, hplus, hminus] using startsUnsigned_of_append hunsigned

theorem startsIdent_of_append (h : startsIdent (xs ++ ys) = false) : startsIdent xs = false := by
  refine eq_false_of_ne_true fun hstarts => ?_
  rw [startsIdent_append hstarts ys] at h
  cases h

theorem startsComment_of_append (h : startsComment (xs ++ ys) = false) :
    startsComment xs = false := by
  refine eq_false_of_ne_true fun hstarts => ?_
  unfold startsComment at hstarts
  split at hstarts
  · cases h
  · cases hstarts

/-- A token that stops in front of a text stops in front of the beginning of that text. -/
theorem Stops.of_append {t : Token} {text : List Char} (h : Stops t text (xs ++ ys)) :
    Stops t text xs := by
  cases t with
  | ident | atKeyword | hash | dimension | whitespace => exact nextIs_of_append h
  | number =>
    refine ⟨startsDigits_of_append h.digits, ?_, startsIdent_of_append h.unit,
      nextIs_of_append h.percent⟩
    exact fun hpoint => startsFraction_of_append (h.fraction hpoint)
  | delim c =>
    refine ⟨@startsNumber_of_append (c :: xs) ys h.number,
      @startsIdent_of_append (c :: xs) ys h.ident, ?_, ?_⟩
    · exact fun hhash => nextIs_of_append (h.hash hhash)
    · exact fun hat => startsIdent_of_append (h.atSign hat)
  | _ => trivial

end Fewer

/-! ## 2. A character that goes on with nothing -/

/-- A character that goes on with no name and no numeral. -/
structure Breaks (d : Char) : Prop where
  name : isIdentChar d = false
  plus : d ≠ '+'
  point : d ≠ '.'
  percent : d ≠ '%'

theorem breaks_newline : Breaks '\n' := ⟨rfl, by decide, by decide, by decide⟩

theorem breaks_slash : Breaks '/' := ⟨rfl, by decide, by decide, by decide⟩

namespace Breaks

variable {d : Char} (hd : Breaks d)

include hd

theorem not_start : isIdentStart d = false := by
  have hname := hd.name
  simp only [isIdentChar, Bool.or_eq_false_iff] at hname
  exact hname.1.1

theorem not_digit : d.isDigit = false := by
  have hname := hd.name
  simp only [isIdentChar, Bool.or_eq_false_iff] at hname
  exact hname.1.2

theorem not_hyphen : d ≠ '-' := by
  have hname := hd.name
  simp only [isIdentChar, Bool.or_eq_false_iff] at hname
  exact of_decide_eq_false hname.2

end Breaks

section Break

theorem nextIs_append_cons {kind : Char → Bool} {d : Char} (hkind : kind d = false)
    (rest more : List Char) : nextIs kind (rest ++ d :: more) = nextIs kind rest := by
  cases rest with
  | nil => exact hkind
  | cons c rest => rfl

variable {d : Char} (hd : Breaks d) (rest more : List Char)

include hd

theorem startsDigits_append_break :
    startsDigits (rest ++ d :: more) = startsDigits rest := by
  rw [startsDigits_eq_nextIs, startsDigits_eq_nextIs]
  exact nextIs_append_cons hd.not_digit rest more

theorem startsFraction_append_break :
    startsFraction (rest ++ d :: more) = startsFraction rest := by
  cases rest with
  | nil => simp [startsFraction, hd.point]
  | cons c rest =>
    by_cases hc : c = '.'
    · subst hc
      exact startsDigits_append_break hd rest more
    · simp [startsFraction, hc]

theorem startsUnsigned_append_break :
    startsUnsigned (rest ++ d :: more) = startsUnsigned rest := by
  rw [startsUnsigned, startsUnsigned, startsDigits_append_break hd,
    startsFraction_append_break hd]

theorem startsIdent_append_break :
    startsIdent (rest ++ d :: more) = startsIdent rest := by
  cases rest with
  | nil => simp [startsIdent, hd.not_start, hd.not_hyphen]
  | cons c rest =>
    by_cases hc : c = '-'
    · subst hc
      cases rest with
      | nil =>
        show (isIdentStart d || decide (d = '-')) = false
        rw [hd.not_start, decide_eq_false hd.not_hyphen, Bool.or_false]
      | cons c rest => rfl
    · simp [startsIdent, hc]

theorem startsNumber_append_break :
    startsNumber (rest ++ d :: more) = startsNumber rest := by
  cases rest with
  | nil =>
    have hunsigned := startsUnsigned_append_break hd [] more
    simpa [startsNumber, hd.plus, hd.not_hyphen] using hunsigned
  | cons c rest =>
    by_cases hplus : c = '+'
    · subst hplus
      exact startsUnsigned_append_break hd rest more
    · by_cases hminus : c = '-'
      · subst hminus
        exact startsUnsigned_append_break hd rest more
      · have hunsigned := startsUnsigned_append_break hd (c :: rest) more
        simpa [startsNumber, hplus, hminus] using hunsigned

/-- A token that stops in front of a text stops there also if the character stands behind the
    text. Only a space may not follow a space. -/
theorem Stops.append_break {t : Token} {text : List Char} (h : Stops t text rest)
    (hspace : t = .whitespace → rest = [] → Ascii.isSpace d = false) :
    Stops t text (rest ++ d :: more) := by
  cases t with
  | ident | atKeyword | hash | dimension =>
    show nextIs isIdentChar _ = false
    rw [nextIs_append_cons hd.name]
    exact h
  | number =>
    refine ⟨?_, ?_, ?_, ?_⟩
    · rw [startsDigits_append_break hd]
      exact h.digits
    · rw [startsFraction_append_break hd]
      exact h.fraction
    · rw [startsIdent_append_break hd]
      exact h.unit
    · rw [nextIs_append_cons (decide_eq_false hd.percent)]
      exact h.percent
  | delim c =>
    refine ⟨?_, ?_, ?_, ?_⟩
    · rw [← List.cons_append, startsNumber_append_break hd]
      exact h.number
    · rw [← List.cons_append, startsIdent_append_break hd]
      exact h.ident
    · rw [nextIs_append_cons hd.name]
      exact h.hash
    · rw [startsIdent_append_break hd]
      exact h.atSign
  | whitespace =>
    cases rest with
    | nil => exact hspace rfl rfl
    | cons c rest => exact h
  | _ => trivial

end Break

/-- A comment has two characters at its beginning. The second is no slash, so a slash behind a
    text makes no comment of its end. -/
theorem startsComment_append_cons {cs : List Char} {d : Char} (hstar : d ≠ '*')
    (hslash : cs = [] → d ≠ '/') (more : List Char) :
    startsComment (cs ++ d :: more) = startsComment cs := by
  cases cs with
  | nil => exact startsComment_of_ne (hslash rfl)
  | cons c cs =>
    by_cases hc : c = '/'
    · subst hc
      cases cs with
      | nil => simp [startsComment, hstar]
      | cons e cs => by_cases he : e = '*' <;> simp [startsComment, he]
    · rw [startsComment_of_ne hc, List.cons_append, startsComment_of_ne hc]

/-! ## 3. Strings without a closing quote -/

/-- A spelling is one in front of every text, but for strings that the end of the text closes
    or a line feed breaks. -/
theorem Spells.of_rest {t : Token} {text rest rest' : List Char} (h : Spells t text rest)
    (hopen : rest = [] → ∀ contents, t ≠ .string contents)
    (hbroken : t = .badString → ∀ more, rest = '\n' :: more → ∃ more', rest' = '\n' :: more') :
    Spells t text rest' := by
  cases h with
  | ident h => exact .ident h
  | atKeyword h => exact .atKeyword h
  | hash hne h => exact .hash hne h
  | string hq h => exact .string hq h
  | openString hq h => exact absurd rfl (hopen rfl _)
  | badString hq h =>
    obtain ⟨more', rfl⟩ := hbroken rfl _ rfl
    exact .badString hq h
  | delim h => exact .delim h
  | mark h => exact .mark h
  | number n => exact .number n
  | percentage n => exact .percentage n
  | dimension n h => exact .dimension n h
  | whitespace hne h => exact .whitespace hne h

end StyleEngine
