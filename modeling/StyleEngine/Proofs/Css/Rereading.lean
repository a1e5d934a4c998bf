import StyleEngine.Proofs.Css.Reading

/-!
# `Proofs/Css/Rereading.lean` — reading again where reading stopped

A reading that fails leaves tokens behind, and the next one begins there, between rules, wherever
the fault was. It may well find itself in the middle of a block. So nothing is known of what the
readings come to one by one. What is known is how each of them ends, and there are four ways
(`Ends`). From these it follows that a reading leaves the end of what it was given
(`Ends.rest_suffix`), and that it leaves all of it for one of three reasons only. There are no
tokens, or the first is the end of the text, or it is one that no rule begins with and that the
reader does not take (`Obstructs`). In each case the next reading finds the same and does the
same.

A place that moves or stays for ever (`cursor`) has come to rest when it has had as many chances
to move as there are tokens (`cursor_succ_eq_or_le`). **`readTimes_settles`** puts it together.
-/

set_option autoImplicit false

namespace StyleEngine

/-! ## 1. How a reading ends -/

/-- How a reading ends that was given these tokens: behind the last of them, with or without
    something missing, or at one that ends the sheet or is wrong. -/
inductive Ends (ts : List PlacedToken) : Reading → Prop where
  | complete (rules : List Rule) : Ends ts ⟨.ok rules, []⟩
  | lacking {p : Progress} {cause : Cause} (h : p.atEnd = some cause) (last : Position) :
      Ends ts ⟨.error ⟨cause, last⟩, []⟩
  | finished {t : PlacedToken} {more : List PlacedToken} (rules : List Rule)
      (hsuffix : t :: more <:+ ts) (h : t.token = .eof) : Ends ts ⟨.ok rules, t :: more⟩
  | failed {p : Progress} {t : PlacedToken} {more : List PlacedToken} {cause : Cause}
      {taken : Bool} (hsuffix : t :: more <:+ ts) (h : p.step t.token = .fail cause taken) :
      Ends ts ⟨.error ⟨cause, t.position⟩, if taken then more else t :: more⟩

namespace Ends

variable {ts : List PlacedToken} {reading : Reading}

/-- A token in front changes nothing of how a reading ends. -/
theorem cons (h : Ends ts reading) (t : PlacedToken) : Ends (t :: ts) reading := by
  cases h with
  | complete rules => exact .complete rules
  | lacking h last => exact .lacking h last
  | finished rules hsuffix h => exact .finished rules (hsuffix.trans (List.suffix_cons t ts)) h
  | failed hsuffix h => exact .failed (hsuffix.trans (List.suffix_cons t ts)) h

/-- Nor does a rule. -/
theorem addRule (h : Ends ts reading) (rule : Rule) : Ends ts (reading.addRule rule) := by
  cases h with
  | complete rules => exact .complete (rule :: rules)
  | lacking h last => exact .lacking h last
  | finished rules hsuffix h => exact .finished (rule :: rules) hsuffix h
  | failed hsuffix h => exact .failed hsuffix h

/-- A reading leaves an end of what it was given. -/
theorem rest_suffix (h : Ends ts reading) : reading.rest <:+ ts := by
  cases h with
  | complete rules => exact List.nil_suffix
  | lacking h last => exact List.nil_suffix
  | finished rules hsuffix h => exact hsuffix
  | @failed p t more cause taken hsuffix h =>
    cases taken with
    | false => exact hsuffix
    | true => exact (List.suffix_cons t more).trans hsuffix

/-- A sheet is read to the end of the tokens, or to the end of the text. -/
theorem rest_of_ok {rules : List Rule} (h : Ends ts reading) (hok : reading.result = .ok rules) :
    reading.rest = [] ∨ ∃ t more, reading.rest = t :: more ∧ t.token = .eof := by
  cases h with
  | complete rules => exact .inl rfl
  | finished rules hsuffix h => exact .inr ⟨_, _, rfl, h⟩
  | lacking h last => cases hok
  | failed hsuffix h => cases hok

end Ends

/-- **Every reading ends in one of these ways.** -/
theorem Progress.ends (p : Progress) (last : Position) (ts : List PlacedToken) :
    Ends ts (p.read last ts) := by
  induction ts generalizing p last with
  | nil =>
    rw [read]
    cases hend : p.atEnd with
    | none => exact .complete []
    | some cause => exact .lacking hend last
  | cons t ts ih =>
    rw [read]
    cases hstep : p.step t.token with
    | next q => exact (ih q t.position).cons t
    | close rule => exact ((ih top t.position).addRule rule).cons t
    | finish => exact .finished [] (List.suffix_refl _) (eq_eof_of_step hstep)
    | fail cause taken => exact .failed (List.suffix_refl _) hstep

theorem readRules_ends (ts : List PlacedToken) : Ends ts (readRules ts) :=
  Progress.top.ends .start ts

/-! ## 2. Tokens that no reading gets past -/

/-- A token with which no rule begins, and what is wrong with it there. -/
inductive Obstructs : PlacedToken → Fault → Prop where
  | atRule (name : String) (p : Position) :
      Obstructs ⟨.atKeyword name, p⟩ ⟨.unsupportedAtRule name, p⟩
  | brace (p : Position) : Obstructs ⟨.closeBrace, p⟩ ⟨.unmatchedBrace, p⟩

/-- The causes for which a token stays where it is, whoever reads it next. -/
def Cause.Lasts : Cause → Prop
  | .unsupportedAtRule _ | .unmatchedBrace => True
  | _ => False

namespace Progress

theorem not_lasts_of_component {t : Token} {cause : Cause} (h : t.component = .error cause) :
    ¬cause.Lasts := by
  unfold Token.component at h
  split at h
  case h_6 => split at h <;> cases h; exact id
  all_goals cases h
  all_goals exact id

theorem not_lasts_stepSelectorStart {ss : List Selector} {t : Token} {cause : Cause}
    {taken : Bool} (h : stepSelectorStart ss t = .fail cause taken) :
    ¬cause.Lasts ∧ taken = true := by
  unfold stepSelectorStart at h
  split at h
  case h_12 => split at h <;> cases h <;> exact ⟨id, rfl⟩
  all_goals cases h
  all_goals exact ⟨id, rfl⟩

theorem not_lasts_stepSelectorGap {ss : List Selector} {t : Token} {cause : Cause}
    {taken : Bool} (h : stepSelectorGap ss t = .fail cause taken) : ¬cause.Lasts := by
  unfold stepSelectorGap at h
  split at h
  case h_5 => split at h <;> cases h <;> exact id
  all_goals cases h
  all_goals exact id

/-- A cause that lasts is that of a token which is not taken. -/
theorem obstructs_of_step {p : Progress} {t : PlacedToken} {cause : Cause} {taken : Bool}
    (h : p.step t.token = .fail cause taken) (hlasts : cause.Lasts) :
    taken = false ∧ Obstructs t ⟨cause, t.position⟩ := by
  obtain ⟨token, position⟩ := t
  cases p with
  | top =>
    simp only [step, stepTop] at h
    split at h
    case h_3 => cases h; exact ⟨rfl, .atRule _ _⟩
    case h_4 => cases h; exact ⟨rfl, .brace _⟩
    case h_5 => exact absurd hlasts (not_lasts_stepSelectorStart h).1
    all_goals cases h
  | selectorStart ss => exact absurd hlasts (not_lasts_stepSelectorStart h).1
  | className ss =>
    simp only [step, stepClassName] at h
    split at h <;> cases h
    exact hlasts.elim
  | selectorEnd ss =>
    simp only [step, stepSelectorEnd] at h
    split at h
    case h_3 =>
      split at h
      case isTrue => cases h; exact hlasts.elim
      case isFalse => exact absurd hlasts (not_lasts_stepSelectorGap h)
    all_goals cases h; exact hlasts.elim
  | selectorGap ss => exact absurd hlasts (not_lasts_stepSelectorGap h)
  | block ss ds =>
    simp only [step, stepBlock] at h
    split at h
    case h_4 => split at h <;> cases h; exact hlasts.elim
    case h_5 => cases h; exact ⟨rfl, .atRule _ _⟩
    all_goals cases h
    all_goals exact hlasts.elim
  | nameEnd ss ds name =>
    simp only [step, stepNameEnd] at h
    split at h <;> cases h
    exact hlasts.elim
  | value ss ds name components =>
    simp only [step, stepValue] at h
    split at h
    case h_1 => cases h
    case h_4 => cases h; exact hlasts.elim
    case h_5 =>
      split at h
      case h_1 => cases h
      case h_2 hcomponent => cases h; exact absurd hlasts (not_lasts_of_component hcomponent)
    all_goals split at h <;> cases h; exact hlasts.elim

/-- Where a rule should begin, what is not taken is an obstruction. -/
theorem lasts_of_stepTop {t : Token} {cause : Cause} (h : top.step t = .fail cause false) :
    cause.Lasts := by
  simp only [step, stepTop] at h
  split at h
  case h_3 => cases h; trivial
  case h_4 => cases h; trivial
  case h_5 => cases (not_lasts_stepSelectorStart h).2
  all_goals cases h

/-- No point of the table lacks a token for a cause that lasts. -/
theorem not_lasts_of_atEnd {p : Progress} {cause : Cause} (h : p.atEnd = some cause) :
    ¬cause.Lasts := by
  cases p <;> cases h <;> exact id

end Progress

/-- The token of a cause that lasts is the first that is left. -/
theorem Ends.rest_of_lasts {ts : List PlacedToken} {reading : Reading} {fault : Fault}
    (h : Ends ts reading) (herror : reading.result = .error fault) (hlasts : fault.cause.Lasts) :
    ∃ t more, reading.rest = t :: more ∧ Obstructs t fault := by
  cases h with
  | complete rules => cases herror
  | finished rules hsuffix h => cases herror
  | lacking h last =>
    cases herror
    exact absurd hlasts (Progress.not_lasts_of_atEnd h)
  | failed hsuffix h =>
    cases herror
    obtain ⟨rfl, hobstructs⟩ := Progress.obstructs_of_step h hlasts
    exact ⟨_, _, rfl, hobstructs⟩

/-! ## 3. One reading -/

/-- A reading that fails takes a token, or its cause lasts. -/
theorem length_rest_lt_or_lasts {ts : List PlacedToken} {fault : Fault}
    (h : (readRules ts).result = .error fault) :
    (readRules ts).rest.length < ts.length ∨ fault.cause.Lasts := by
  cases ts with
  | nil => cases h
  | cons t ts =>
    have hrest : ∀ p : Progress, (p.read t.position ts).rest.length < (t :: ts).length :=
      fun p => Nat.lt_succ_of_le (p.ends t.position ts).rest_suffix.length_le
    rw [readRules, Progress.read] at h ⊢
    cases hstep : Progress.top.step t.token with
    | next q => exact .inl (hrest q)
    | close rule => exact .inl (hrest .top)
    | finish =>
      rw [hstep] at h
      cases h
    | fail cause taken =>
      rw [hstep] at h
      cases h
      cases taken with
      | true => exact .inl (Nat.lt_succ_self _)
      | false => exact .inr (Progress.lasts_of_stepTop hstep)

theorem readRules_obstructed {t : PlacedToken} {fault : Fault} (h : Obstructs t fault)
    (ts : List PlacedToken) : readRules (t :: ts) = ⟨.error fault, t :: ts⟩ := by
  cases h <;> rfl

/-- What a sheet leaves is read as no rules, and stays. -/
theorem readRules_rest_of_ok {ts : List PlacedToken} {rules : List Rule}
    (h : (readRules ts).result = .ok rules) :
    readRules (readRules ts).rest = ⟨.ok [], (readRules ts).rest⟩ := by
  obtain hnil | ⟨⟨token, position⟩, more, hcons, rfl⟩ := (readRules_ends ts).rest_of_ok h
  · rw [hnil]
    rfl
  · rw [hcons]
    rfl

/-! ## 4. One reading after the other -/

section Readings

variable (tokens : List PlacedToken)

/-- How many tokens stand before the place where a reading begins, by the number of readings
    before it. -/
def cursor : Nat → Nat
  | 0 => 0
  | k + 1 => tokens.length - (readRules (tokens.drop (cursor k))).rest.length

/-- What a reading comes to, by the number of readings before it. -/
def reading (k : Nat) : Reading := readRules (tokens.drop (cursor tokens k))

theorem reading_ends (k : Nat) :
    Ends (tokens.drop (cursor tokens k)) (reading tokens k) :=
  readRules_ends _

/-- The next reading is given what this one leaves. -/
theorem drop_cursor_succ (k : Nat) :
    tokens.drop (cursor tokens (k + 1)) = (reading tokens k).rest := by
  have hsuffix : (reading tokens k).rest <:+ tokens :=
    (reading_ends tokens k).rest_suffix.trans (List.drop_suffix _ _)
  exact (List.suffix_iff_eq_drop.mp hsuffix).symm

theorem cursor_le_length (k : Nat) : cursor tokens k ≤ tokens.length := by
  cases k with
  | zero => exact Nat.zero_le _
  | succ k => exact Nat.sub_le _ _

/-- What is left tells how far the cursor has come. -/
theorem length_rest_reading (k : Nat) :
    (reading tokens k).rest.length = tokens.length - cursor tokens (k + 1) := by
  rw [← drop_cursor_succ, List.length_drop]

theorem cursor_le_succ (k : Nat) : cursor tokens k ≤ cursor tokens (k + 1) := by
  have hleft := (reading_ends tokens k).rest_suffix.length_le
  have hle := cursor_le_length tokens k
  rw [length_rest_reading, List.length_drop] at hleft
  omega

/-- Fewer tokens left means that the cursor has moved. -/
theorem cursor_lt_succ {k : Nat}
    (h : (reading tokens k).rest.length < (tokens.drop (cursor tokens k)).length) :
    cursor tokens k < cursor tokens (k + 1) := by
  rw [length_rest_reading, List.length_drop] at h
  omega

theorem readTimes_eq_map (calls : Nat) :
    readTimes calls tokens = (List.range calls).map (reading tokens) := by
  have hfrom : ∀ k, readTimes calls (tokens.drop (cursor tokens k)) =
      (List.range calls).map fun j => reading tokens (k + j) := by
    induction calls with
    | zero => exact fun k => rfl
    | succ calls ih =>
      intro k
      rw [List.range_succ_eq_map, List.map_cons, List.map_map, readTimes]
      have hnext := ih (k + 1)
      rw [drop_cursor_succ] at hnext
      refine congrArg (reading tokens k :: ·) (hnext.trans ?_)
      exact List.map_congr_left fun j _ => by rw [Function.comp_apply, Nat.succ_add_eq_add_succ]
  simpa [cursor] using hfrom 0

variable {tokens}

/-- The first token that a reading leaves is the one at the cursor. -/
theorem getElem?_cursor_succ {k : Nat} {t : PlacedToken} {more : List PlacedToken}
    (h : (reading tokens k).rest = t :: more) : tokens[cursor tokens (k + 1)]? = some t := by
  rw [← List.head?_drop, drop_cursor_succ, h, List.head?_cons]

/-- A cursor that stays once stays for ever. -/
theorem cursor_eq_of_le {k j : Nat} (h : cursor tokens (k + 1) = cursor tokens k) (hj : k ≤ j) :
    cursor tokens j = cursor tokens k := by
  induction hj with
  | refl => rfl
  | step _ ih => rw [cursor, ih, ← cursor, h]

/-- If what a reading leaves is left again, all later readings come to the same. -/
theorem reading_eq_of_settled {k j : Nat} {result : Except Fault (List Rule)}
    (h : readRules (reading tokens k).rest = ⟨result, (reading tokens k).rest⟩) (hj : k < j) :
    (reading tokens j).result = result ∧ cursor tokens (j + 1) = cursor tokens (k + 1) := by
  have hnext : reading tokens (k + 1) = ⟨result, (reading tokens k).rest⟩ := by
    rw [reading, drop_cursor_succ]
    exact h
  have hstay : cursor tokens (k + 2) = cursor tokens (k + 1) := by
    show tokens.length - (reading tokens (k + 1)).rest.length =
      tokens.length - (reading tokens k).rest.length
    rw [hnext]
  have hcursor := cursor_eq_of_le hstay hj
  refine ⟨?_, ?_⟩
  · rw [reading, hcursor, ← reading, hnext]
  · exact cursor_eq_of_le hstay (Nat.le_succ_of_le hj)

/-- Until the cursor stays, every reading moves it by a token at least. -/
theorem cursor_succ_eq_or_le (tokens : List PlacedToken) (k : Nat) :
    cursor tokens (k + 1) = cursor tokens k ∨ k + 1 ≤ cursor tokens (k + 1) := by
  induction k with
  | zero =>
    have hle := cursor_le_succ tokens 0
    have hzero : cursor tokens 0 = 0 := rfl
    omega
  | succ k ih =>
    obtain hstay | hmoved := ih
    · exact .inl ((cursor_eq_of_le hstay (by omega)).trans hstay.symm)
    · have hle := cursor_le_succ tokens (k + 1)
      omega

/-- **Reading again and again comes to rest.** The cursor never goes back and never past the end.
    A sheet is read to the end of the text or of the tokens, and then all later readings find no
    rules there. A reading that fails moves the cursor, or its cause lasts: then the token at the
    cursor obstructs it, and all later readings fail in the same way. So from the reading with as
    many before it as there are tokens, all are the same. -/
theorem readTimes_settles (tokens : List PlacedToken) :
    (∀ calls, readTimes calls tokens = (List.range calls).map (reading tokens)) ∧
    (∀ k, (reading tokens k).rest = tokens.drop (cursor tokens (k + 1)) ∧
      cursor tokens k ≤ cursor tokens (k + 1) ∧ cursor tokens (k + 1) ≤ tokens.length) ∧
    (∀ k rules, (reading tokens k).result = .ok rules →
      (cursor tokens (k + 1) = tokens.length ∨
        ∃ t, tokens[cursor tokens (k + 1)]? = some t ∧ t.token = .eof) ∧
      ∀ j, k < j → (reading tokens j).result = .ok [] ∧
        cursor tokens (j + 1) = cursor tokens (k + 1)) ∧
    (∀ k fault, (reading tokens k).result = .error fault →
      (cursor tokens k < cursor tokens (k + 1) ∨ fault.cause.Lasts) ∧
      (fault.cause.Lasts →
        (∃ t, tokens[cursor tokens (k + 1)]? = some t ∧ Obstructs t fault) ∧
        ∀ j, k < j → (reading tokens j).result = .error fault ∧
          cursor tokens (j + 1) = cursor tokens (k + 1))) ∧
    ∀ j k, tokens.length ≤ j → tokens.length ≤ k → reading tokens j = reading tokens k := by
  refine ⟨readTimes_eq_map tokens, ?_, ?_, ?_, ?_⟩
  · intro k
    exact ⟨(drop_cursor_succ tokens k).symm, cursor_le_succ tokens k,
      cursor_le_length tokens (k + 1)⟩
  · intro k rules hok
    refine ⟨?_, fun j hj => reading_eq_of_settled (readRules_rest_of_ok hok) hj⟩
    obtain hnil | ⟨t, more, hcons, heof⟩ := (reading_ends tokens k).rest_of_ok hok
    · have hlength := length_rest_reading tokens k
      have hle := cursor_le_length tokens (k + 1)
      rw [hnil, List.length_nil] at hlength
      exact .inl (by omega)
    · exact .inr ⟨t, getElem?_cursor_succ hcons, heof⟩
  · intro k fault herror
    refine ⟨?_, fun hlasts => ?_⟩
    · obtain hmoved | hlasts := length_rest_lt_or_lasts herror
      · exact .inl (cursor_lt_succ tokens hmoved)
      · exact .inr hlasts
    · obtain ⟨t, more, hcons, hobstructs⟩ := (reading_ends tokens k).rest_of_lasts herror hlasts
      have hagain := readRules_obstructed hobstructs more
      rw [← hcons] at hagain
      exact ⟨⟨t, getElem?_cursor_succ hcons, hobstructs⟩,
        fun j hj => reading_eq_of_settled hagain hj⟩
  · intro j k hj hk
    have hstay : cursor tokens (tokens.length + 1) = cursor tokens tokens.length := by
      obtain hstay | hle := cursor_succ_eq_or_le tokens tokens.length
      · exact hstay
      · exact absurd (Nat.le_trans hle (cursor_le_length tokens _)) (Nat.not_succ_le_self _)
    rw [reading, reading, cursor_eq_of_le hstay hj, cursor_eq_of_le hstay hk]

/-- `a,{}`: the reading that misses a selector takes the opening brace, and the closing one is
    left for all others. -/
example :
    (readTimes 3 [⟨.ident "a", ⟨0, 1, 1⟩⟩, ⟨.comma, ⟨1, 1, 2⟩⟩, ⟨.openBrace, ⟨2, 1, 3⟩⟩,
      ⟨.closeBrace, ⟨3, 1, 4⟩⟩]).map (·.result) =
      [.error ⟨.emptySelector, ⟨2, 1, 3⟩⟩, .error ⟨.unmatchedBrace, ⟨3, 1, 4⟩⟩,
        .error ⟨.unmatchedBrace, ⟨3, 1, 4⟩⟩] := by
  rfl

end Readings

end StyleEngine
