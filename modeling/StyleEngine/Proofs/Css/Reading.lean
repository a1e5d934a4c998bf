import StyleEngine.Css.Reader

/-!
# `Proofs/Css/Reading.lean` — reading, without the places

`Progress.read` carries the place of the last token along and names a cause where it
fails. Whether it succeeds, and with which rules, depends on the tokens alone. That part
of it is `Progress.rules?`, and `read_eq_ok_iff` is the licence to look at nothing else.

The second half is about what can still become of a sheet that was begun. No point of the
table is a dead end: every one has a few tokens behind which the sheet is complete
(`rules?_completion`). So what has been read without a fault can always be finished.
-/

set_option autoImplicit false

namespace StyleEngine

namespace Step

/-- Whether the token is wrong, for whatever cause. -/
def isFail : Step → Bool
  | .fail _ _ => true
  | _ => false

theorem isFail_iff {s : Step} : s.isFail = true ↔ ∃ cause taken, s = .fail cause taken := by
  cases s <;> simp [isFail]

/-- Two steps that are the same but for the cause of a fault. -/
def Agrees (s s' : Step) : Prop := s = s' ∨ s.isFail = true ∧ s'.isFail = true

end Step

namespace Progress

/-- The rules that tokens spell from a point on. -/
def rules? : Progress → List Token → Option (List Rule)
  | p, [] => if p.atEnd = none then some [] else none
  | p, t :: ts =>
    match p.step t with
    | .next q => q.rules? ts
    | .close rule => (top.rules? ts).map (rule :: ·)
    | .finish => some []
    | .fail _ _ => none

/-- What a token and the tokens behind it come to is known by the step and what follows. -/
theorem rules?_cons_of_agrees {p p' : Progress} {t t' : Token} {ts ts' : List Token}
    (h : (p.step t).Agrees (p'.step t'))
    (hnext : ∀ q, p.step t = .next q → q.rules? ts = q.rules? ts')
    (hclose : ∀ rule, p.step t = .close rule → top.rules? ts = top.rules? ts') :
    p.rules? (t :: ts) = p'.rules? (t' :: ts') := by
  rw [rules?, rules?]
  obtain hsame | ⟨hfail, hfail'⟩ := h
  · rw [← hsame]
    cases hstep : p.step t with
    | next q => exact hnext q hstep
    | close rule => exact congrArg (Option.map (rule :: ·)) (hclose rule hstep)
    | finish => rfl
    | fail cause taken => rfl
  · obtain ⟨_, _, hfail⟩ := Step.isFail_iff.mp hfail
    obtain ⟨_, _, hfail'⟩ := Step.isFail_iff.mp hfail'
    rw [hfail, hfail']

theorem toOption_read (p : Progress) (last : Position) (ts : List PlacedToken) :
    (p.read last ts).result.toOption = p.rules? (ts.map (·.token)) := by
  induction ts generalizing p last with
  | nil =>
    rw [read, List.map_nil, rules?]
    cases p.atEnd with
    | none => rfl
    | some cause => rfl
  | cons t ts ih =>
    rw [read, List.map_cons, rules?]
    cases p.step t.token with
    | next q => exact ih q t.position
    | close rule =>
      dsimp only
      rw [← ih top t.position, Reading.addRule]
      cases (top.read t.position ts).result with
      | error fault => rfl
      | ok rules => rfl
    | finish => rfl
    | fail cause taken => rfl

/-- **Reading succeeds by the tokens alone.** -/
theorem read_eq_ok_iff {p : Progress} {last : Position} {ts : List PlacedToken}
    {rules : List Rule} :
    (p.read last ts).result = .ok rules ↔ p.rules? (ts.map (·.token)) = some rules := by
  rw [← toOption_read p last ts]
  cases (p.read last ts).result with
  | error fault => simp [Except.toOption]
  | ok rules' => simp [Except.toOption]

/-- What is wrong is known by the tokens, too. Only the place of the fault is not. -/
theorem mapError_read_congr {ts us : List PlacedToken}
    (h : ts.map (·.token) = us.map (·.token)) (p : Progress) (last last' : Position) :
    (p.read last ts).result.mapError (·.cause) = (p.read last' us).result.mapError (·.cause) := by
  induction ts generalizing us p last last' with
  | nil =>
    obtain rfl : us = [] := List.map_eq_nil_iff.mp h.symm
    rw [read, read]
    cases p.atEnd <;> rfl
  | cons t ts ih =>
    cases us with
    | nil => cases h
    | cons u us =>
      obtain ⟨htoken, htail⟩ := List.cons.inj h
      have htoken : t.token = u.token := htoken
      rw [read, read, htoken]
      cases p.step u.token with
      | next q => exact ih htail q t.position u.position
      | close rule =>
        -- The rule in front changes neither what is wrong nor that something is.
        have hrule : ∀ r : Except Fault (List Rule),
            (r.map (rule :: ·)).mapError (·.cause) = (r.mapError (·.cause)).map (rule :: ·) := by
          intro r
          cases r <;> rfl
        show Except.mapError _ (Except.map (rule :: ·) (top.read t.position ts).result) =
          Except.mapError _ (Except.map (rule :: ·) (top.read u.position us).result)
        rw [hrule, hrule, ih htail top t.position u.position]
      | finish => rfl
      | fail cause taken => rfl

end Progress

theorem Sheet.ofTokens_eq_ok {ts : List PlacedToken} {sheet : Sheet} :
    Sheet.ofTokens ts = .ok sheet ↔
      Progress.top.rules? (ts.map (·.token)) = some sheet.rules := by
  have hread := @Progress.read_eq_ok_iff .top .start ts sheet.rules
  rw [← hread, ofTokens, Reading.sheet, readRules]
  cases (Progress.top.read .start ts).result with
  | error fault => simp [Except.map]
  | ok rules =>
    obtain ⟨rules'⟩ := sheet
    simp [Except.map]

/-! ## The end of the text -/

theorem stepSelectorStart_ne_finish (ss : List Selector) (t : Token) :
    stepSelectorStart ss t ≠ .finish := by
  unfold stepSelectorStart
  split
  case h_12 => split <;> simp
  all_goals simp

theorem stepSelectorGap_ne_finish (ss : List Selector) (t : Token) :
    stepSelectorGap ss t ≠ .finish := by
  unfold stepSelectorGap
  split
  case h_5 => split <;> simp
  all_goals simp

/-- Only the end of the text finishes a sheet. -/
theorem Progress.eq_eof_of_step {p : Progress} {t : Token} (h : p.step t = .finish) :
    t = .eof := by
  cases p with
  | top =>
    simp only [step, stepTop] at h
    split at h
    case h_2 => rfl
    case h_5 => exact absurd h (stepSelectorStart_ne_finish [] t)
    all_goals cases h
  | selectorStart ss => exact absurd h (stepSelectorStart_ne_finish ss t)
  | className ss =>
    simp only [step, stepClassName] at h
    split at h <;> cases h
  | selectorEnd ss =>
    simp only [step, stepSelectorEnd] at h
    split at h
    · cases h
    · cases h
    · split at h
      · cases h
      · exact absurd h (stepSelectorGap_ne_finish ss t)
  | selectorGap ss => exact absurd h (stepSelectorGap_ne_finish ss t)
  | block ss ds =>
    simp only [step, stepBlock] at h
    split at h
    case h_4 => split at h <;> cases h
    all_goals cases h
  | nameEnd ss ds name =>
    simp only [step, stepNameEnd] at h
    split at h <;> cases h
  | value ss ds name components =>
    simp only [step, stepValue] at h
    split at h
    case h_1 => cases h
    case h_4 => cases h
    all_goals split at h <;> cases h

/-- The end of the text ends the sheet between rules, and nowhere else. -/
theorem Progress.rules?_eof (p : Progress) (ts : List Token) :
    p.rules? (.eof :: ts) = p.rules? [] := by
  cases p <;> rfl

/-! ## Nothing that was begun is beyond repair -/

/-- There is a value as soon as there is a component. -/
theorem Value.exists_ofComponents?_append (components : List Value) (v : Value) :
    ∃ value, Value.ofComponents? (components ++ [v]) = some value := by
  cases components with
  | nil => exact ⟨v, rfl⟩
  | cons w components =>
    cases components with
    | nil => exact ⟨.list [w, v], rfl⟩
    | cons w' components => exact ⟨_, rfl⟩

namespace Progress

/-- Tokens that complete what has been begun. -/
def completion : Progress → List Token
  | .top => []
  | .selectorStart _ | .className _ => [.ident "a", .openBrace, .closeBrace]
  | .selectorEnd _ | .selectorGap _ => [.openBrace, .closeBrace]
  | .block _ _ => [.closeBrace]
  | .nameEnd _ _ _ => [.colon, .ident "a", .closeBrace]
  | .value _ _ _ _ => [.ident "a", .closeBrace]

/-- **Every point can be completed.** -/
theorem rules?_completion (p : Progress) : ∃ rules, p.rules? p.completion = some rules := by
  cases p with
  | top => exact ⟨_, rfl⟩
  | selectorStart ss => exact ⟨_, rfl⟩
  | className ss => exact ⟨_, rfl⟩
  | selectorEnd ss => exact ⟨_, rfl⟩
  | selectorGap ss => exact ⟨_, rfl⟩
  | block ss ds => exact ⟨_, rfl⟩
  | nameEnd ss ds name => exact ⟨_, rfl⟩
  | value ss ds name components =>
    obtain ⟨value, hvalue⟩ := Value.exists_ofComponents?_append components (.keyword "a")
    refine ⟨[⟨ss, ds ++ [⟨name, value⟩]⟩], ?_⟩
    -- The ident is one more component, and the brace ends the value.
    show (Progress.value ss ds name (components ++ [.keyword "a"])).rules? [.closeBrace] = _
    simp [rules?, step, stepValue, hvalue, atEnd]

end Progress

end StyleEngine
