import Mathlib.Data.List.Basic
import Mathlib.Data.List.Induction
import StyleEngine.Proofs.Css.EarliestFault
import StyleEngine.Proofs.Css.Grammar

/-!
# `Proofs/Css/EndOfText.lean` — tokens that stop, and tokens that say so

The tokens of a text end with one that marks the end. A list of tokens may also just stop. Both
should come to the same, and almost everywhere they do. What is wrong at a point is asked in two
places, though, once for tokens that stop (`Progress.atEnd`) and once for the mark, which is a token
like others (`Progress.step`). The two answers agree at every point but one: behind the point of a
class selector the mark is an unexpected token.

**`ofTokens_append_eof`** says when the two agree and how they differ where they do not. It rests
on the point that a reader has come to when it has taken all tokens (`Progress.after?`). Either it
has not come through, and then nothing behind the fault matters
(`Progress.exists_verdict_of_after?_eq_none`), or what follows is read from there
(`Progress.exists_verdict_append`). It comes through exactly if the tokens begin a sheet, because
every point can be completed (`beginsSheet_of_after?`).

The theorem speaks of tokens alone. That a reader lacks the name of a class
(`Progress.after?_className_iff`) or the colon of a declaration (`Progress.exists_name_of_after?`)
can be told from the last tokens that it took.
-/

set_option autoImplicit false

namespace StyleEngine

namespace Progress

/-! ## 1. What tokens come to, wherever they stand -/

/-- The rules that tokens spell from a point on, or what is wrong with them. -/
def verdict (p : Progress) (ts : List PlacedToken) : Except Cause (List Rule) :=
  (p.read .start ts).result.mapError (·.cause)

theorem mapError_read (p : Progress) (last : Position) (ts : List PlacedToken) :
    (p.read last ts).result.mapError (·.cause) = p.verdict ts :=
  mapError_read_congr rfl p last .start

/-- One token is one step of the table. -/
theorem verdict_cons (p : Progress) (t : PlacedToken) (ts : List PlacedToken) :
    p.verdict (t :: ts) = match p.step t.token with
      | .next q => q.verdict ts
      | .close rule => (top.verdict ts).map (rule :: ·)
      | .finish => .ok []
      | .fail cause _ => .error cause := by
  rw [verdict, read]
  cases p.step t.token with
  | next q => exact q.mapError_read t.position ts
  | close rule =>
    dsimp only
    rw [← top.mapError_read t.position ts, Reading.addRule]
    cases (top.read t.position ts).result <;> rfl
  | finish => rfl
  | fail cause taken => rfl

/-- The mark of the end is taken for the end, unless the name of a class should follow. -/
theorem verdict_eof {q : Progress} (hq : ∀ ss, q ≠ .className ss) (p : Position) :
    q.verdict [⟨.eof, p⟩] = q.verdict [] := by
  cases q with
  | className ss => exact absurd rfl (hq ss)
  | _ => rfl

/-! ## 2. The point behind tokens -/

/-- The point behind a token that is taken. -/
def next? (p : Progress) (t : Token) : Option Progress :=
  match p.step t with
  | .next q => some q
  | .close _ => some .top
  | .finish => none
  | .fail _ _ => none

/-- The point behind tokens that are all taken. -/
def after? (p : Progress) (ts : List Token) : Option Progress :=
  ts.foldlM next? p

theorem after?_cons (p : Progress) (t : Token) (ts : List Token) :
    p.after? (t :: ts) = (p.next? t).bind (·.after? ts) :=
  rfl

theorem after?_append_singleton (p : Progress) (ts : List Token) (t : Token) :
    p.after? (ts ++ [t]) = (p.after? ts).bind (·.next? t) := by
  rw [after?, List.foldlM_append]
  simp [after?]

/-- Where not all tokens are taken something is wrong, whatever follows. -/
theorem exists_verdict_of_after?_eq_none {p : Progress} {ts : List PlacedToken}
    (hts : ∀ t ∈ ts, t.token ≠ .eof) (h : p.after? (ts.map (·.token)) = none) :
    ∃ cause, ∀ us, p.verdict (ts ++ us) = .error cause := by
  induction ts generalizing p with
  | nil => cases h
  | cons t ts ih =>
    obtain ⟨hfirst, hrest⟩ := List.forall_mem_cons.mp hts
    rw [List.map_cons, after?_cons, next?] at h
    simp only [List.cons_append, verdict_cons]
    cases hstep : p.step t.token with
    | next q =>
      rw [hstep] at h
      exact ih hrest h
    | close rule =>
      rw [hstep] at h
      obtain ⟨cause, hcause⟩ := ih hrest h
      refine ⟨cause, fun us => ?_⟩
      dsimp only
      rw [hcause us]
      rfl
    | finish => exact absurd (eq_eof_of_step hstep) hfirst
    | fail cause taken => exact ⟨cause, fun us => rfl⟩

/-- Where all are taken, what follows is read from the point behind them. -/
theorem exists_verdict_append {p q : Progress} {ts : List PlacedToken}
    (h : p.after? (ts.map (·.token)) = some q) :
    ∃ f : List Rule → List Rule, ∀ us, p.verdict (ts ++ us) = (q.verdict us).map f := by
  induction ts generalizing p with
  | nil =>
    obtain rfl : p = q := Option.some.inj h
    refine ⟨id, fun us => ?_⟩
    rw [List.nil_append]
    cases p.verdict us <;> rfl
  | cons t ts ih =>
    rw [List.map_cons, after?_cons, next?] at h
    simp only [List.cons_append, verdict_cons]
    cases hstep : p.step t.token with
    | next p' =>
      rw [hstep] at h
      exact ih h
    | close rule =>
      rw [hstep] at h
      obtain ⟨f, hf⟩ := ih h
      refine ⟨fun rules => rule :: f rules, fun us => ?_⟩
      dsimp only
      rw [hf us]
      cases q.verdict us <;> rfl
    | finish =>
      rw [hstep] at h
      cases h
    | fail cause taken =>
      rw [hstep] at h
      cases h

/-! ## 3. The last token before a point -/

/-- What the last token before a point was and where it was taken, as far as the point tells. -/
def Behind (p : Progress) (t : Token) : Progress → Prop
  | .className _ => t = .delim '.'
  | .nameEnd ss ds name =>
    (p = .nameEnd ss ds name ∧ t = .whitespace) ∨
      ∃ text, t = .ident text ∧ PropertyName.ofText? text = some name
  | _ => True

theorem behind_stepSelectorStart {p q : Progress} {ss : List Selector} {t : Token}
    (h : stepSelectorStart ss t = .next q) : Behind p t q := by
  unfold stepSelectorStart at h
  split at h
  case h_12 => split at h <;> cases h
  all_goals cases h <;> trivial

theorem behind_stepSelectorGap {p q : Progress} {ss : List Selector} {t : Token}
    (h : stepSelectorGap ss t = .next q) : Behind p t q := by
  unfold stepSelectorGap at h
  split at h
  case h_5 => split at h <;> cases h
  all_goals cases h <;> trivial

theorem behind_of_step {p q : Progress} {t : Token} (h : p.step t = .next q) : Behind p t q := by
  cases p with
  | top =>
    simp only [step, stepTop] at h
    split at h
    case h_5 => exact behind_stepSelectorStart h
    all_goals cases h <;> trivial
  | selectorStart => exact behind_stepSelectorStart h
  | className =>
    simp only [step, stepClassName] at h
    split at h <;> cases h
    trivial
  | selectorEnd =>
    simp only [step, stepSelectorEnd] at h
    split at h
    case h_3 =>
      split at h
      · cases h
      · exact behind_stepSelectorGap h
    all_goals cases h
  | selectorGap => exact behind_stepSelectorGap h
  | block =>
    simp only [step, stepBlock] at h
    split at h
    case h_4 =>
      split at h
      case h_1 name hname =>
        cases h
        exact .inr ⟨_, rfl, hname⟩
      case h_2 => cases h
    all_goals cases h <;> trivial
  | nameEnd =>
    simp only [step, stepNameEnd] at h
    split at h <;> cases h
    · exact .inl ⟨rfl, rfl⟩
    · trivial
  | value =>
    simp only [step, stepValue] at h
    split at h
    case h_1 => cases h; trivial
    case h_4 => cases h
    all_goals split at h <;> cases h <;> trivial

theorem behind_of_next? {p q : Progress} {t : Token} (h : p.next? t = some q) :
    Behind p t q := by
  unfold next? at h
  split at h
  case h_1 p' hstep =>
    obtain rfl := Option.some.inj h
    exact behind_of_step hstep
  case h_2 =>
    obtain rfl := Option.some.inj h
    trivial
  case h_3 => cases h
  case h_4 => cases h

/-- A point is taken only where a selector begins. -/
theorem next?_point {p q : Progress} (h : p.next? (.delim '.') = some q) :
    ∃ ss, q = .className ss := by
  cases p with
  | top => exact ⟨[], (Option.some.inj h).symm⟩
  | selectorStart ss => exact ⟨ss, (Option.some.inj h).symm⟩
  | _ => cases h

/-- Tokens lead behind the point of a class selector if a point is the last of them. -/
theorem after?_className_iff {q : Progress} {ts : List Token} (h : top.after? ts = some q) :
    (∃ ss, q = .className ss) ↔ ts.getLast? = some (.delim '.') := by
  obtain rfl | ⟨ts, t, rfl⟩ := List.eq_nil_or_concat' ts
  · obtain rfl : top = q := Option.some.inj h
    simp
  · rw [after?_append_singleton] at h
    obtain ⟨p, -, hnext⟩ := Option.bind_eq_some_iff.mp h
    rw [List.getLast?_concat, Option.some.injEq]
    constructor
    · rintro ⟨ss, rfl⟩
      exact behind_of_next? hnext
    · rintro rfl
      exact next?_point hnext

/-- Tokens that lead behind the name of a property end in that name and spaces. -/
theorem exists_name_of_after? {ts : List Token} {ss : List Selector} {ds : List Declaration}
    {name : PropertyName} (h : top.after? ts = some (.nameEnd ss ds name)) :
    ∃ before text spaces, ts = before ++ .ident text :: spaces ∧
      PropertyName.ofText? text = some name ∧ Spaces spaces := by
  induction ts using List.reverseRecOn with
  | nil => cases h
  | append_singleton ts t ih =>
    rw [after?_append_singleton] at h
    obtain ⟨p, hp, hnext⟩ := Option.bind_eq_some_iff.mp h
    obtain ⟨rfl, rfl⟩ | ⟨text, rfl, hname⟩ := behind_of_next? hnext
    · obtain ⟨before, text, spaces, rfl, hname, hspaces⟩ := ih hp
      refine ⟨before, text, spaces ++ [.whitespace], by simp, hname, ?_⟩
      exact List.forall_mem_append.mpr ⟨hspaces, List.forall_mem_singleton.mpr rfl⟩
    · exact ⟨ts, text, [], rfl, hname, fun _ h => absurd h List.not_mem_nil⟩

end Progress

/-! ## 4. Sheets -/

/-- The sheet that tokens spell, or what is wrong with them. -/
def Sheet.verdict (ts : List PlacedToken) : Except Cause Sheet :=
  (Sheet.ofTokens ts).mapError (·.cause)

/-- Some tokens behind them make a sheet of these. -/
def BeginsSheet (ts : List PlacedToken) : Prop :=
  ∃ more sheet, Sheet.ofTokens (ts ++ more) = .ok sheet

/-- The tokens stop behind the point of a class selector. -/
def StopsAtPoint (ts : List PlacedToken) : Prop :=
  BeginsSheet ts ∧ (ts.map (·.token)).getLast? = some (.delim '.')

/-- The tokens stop behind the name of a property. -/
def StopsAtName (ts : List PlacedToken) (name : PropertyName) : Prop :=
  ∃ before text spaces, ts.map (·.token) = before ++ .ident text :: spaces ∧
    PropertyName.ofText? text = some name ∧ Spaces spaces

theorem Sheet.verdict_eq (ts : List PlacedToken) :
    Sheet.verdict ts = (Progress.top.verdict ts).map Sheet.mk := by
  rw [verdict, ofTokens, Reading.sheet, readRules, Progress.verdict]
  cases (Progress.top.read .start ts).result <;> rfl

theorem Sheet.ofTokens_eq_ok_iff_verdict {ts : List PlacedToken} {sheet : Sheet} :
    Sheet.ofTokens ts = .ok sheet ↔ Sheet.verdict ts = .ok sheet := by
  rw [verdict]
  cases Sheet.ofTokens ts with
  | error fault => simp [Except.mapError]
  | ok sheet' => simp [Except.mapError]

/-- Tokens begin a sheet if the reader comes through. -/
theorem exists_after?_of_beginsSheet {ts : List PlacedToken} (hts : ∀ t ∈ ts, t.token ≠ .eof)
    (h : BeginsSheet ts) : ∃ q, Progress.top.after? (ts.map (·.token)) = some q := by
  refine Option.ne_none_iff_exists'.mp fun hnone => ?_
  obtain ⟨more, sheet, hok⟩ := h
  obtain ⟨cause, hcause⟩ := Progress.exists_verdict_of_after?_eq_none hts hnone
  rw [Sheet.ofTokens_eq_ok_iff_verdict, Sheet.verdict_eq, hcause] at hok
  cases hok

theorem beginsSheet_of_after? {ts : List PlacedToken} {q : Progress}
    (h : Progress.top.after? (ts.map (·.token)) = some q) : BeginsSheet ts := by
  obtain ⟨f, hf⟩ := Progress.exists_verdict_append h
  obtain ⟨more, rules, hmore⟩ := q.exists_read_eq_ok .start
  refine ⟨more, ⟨f rules⟩, ?_⟩
  rw [Sheet.ofTokens_eq_ok_iff_verdict, Sheet.verdict_eq, hf, Progress.verdict, hmore]
  rfl

theorem stopsAtPoint_iff {ts : List PlacedToken} {q : Progress}
    (h : Progress.top.after? (ts.map (·.token)) = some q) :
    StopsAtPoint ts ↔ ∃ ss, q = .className ss := by
  rw [StopsAtPoint, and_iff_right (beginsSheet_of_after? h), Progress.after?_className_iff h]

/-- **Tokens that stop and tokens with a mark at their end come to the same**, unless they stop
    behind the point of a class selector. There the mark is an unexpected token. Tokens that only
    lack what would complete them are at fault because they end, with and without the mark;
    behind the name of a property it is the colon that is missing. -/
theorem ofTokens_append_eof {ts : List PlacedToken} (hts : ∀ t ∈ ts, t.token ≠ .eof)
    (p : Position) :
    (¬StopsAtPoint ts → Sheet.verdict (ts ++ [⟨.eof, p⟩]) = Sheet.verdict ts) ∧
    (StopsAtPoint ts →
      Sheet.verdict ts = .error (.unexpectedEnd .classSelector) ∧
      Sheet.verdict (ts ++ [⟨.eof, p⟩]) = .error (.unexpectedToken "<EOF>" .classSelector)) ∧
    (BeginsSheet ts →
      (∃ sheet, Sheet.verdict ts = .ok sheet) ∨
      (∃ inside, Sheet.verdict ts = .error (.unexpectedEnd inside)) ∨
      ∃ name, StopsAtName ts name ∧ Sheet.verdict ts = .error (.missingColon name.text)) := by
  cases hafter : Progress.top.after? (ts.map (·.token)) with
  | none =>
    have hbegins : ¬BeginsSheet ts := by
      intro h
      obtain ⟨q, hq⟩ := exists_after?_of_beginsSheet hts h
      rw [hafter] at hq
      cases hq
    obtain ⟨cause, hcause⟩ := Progress.exists_verdict_of_after?_eq_none hts hafter
    have hfault : ∀ us, Sheet.verdict (ts ++ us) = .error cause := by
      intro us
      rw [Sheet.verdict_eq, hcause]
      rfl
    have halone := hfault []
    rw [List.append_nil] at halone
    refine ⟨fun _ => ?_, fun h => absurd h.1 hbegins, fun h => absurd h hbegins⟩
    rw [hfault, halone]
  | some q =>
    obtain ⟨f, hf⟩ := Progress.exists_verdict_append hafter
    have hread : ∀ us, Sheet.verdict (ts ++ us) = ((q.verdict us).map f).map Sheet.mk := by
      intro us
      rw [Sheet.verdict_eq, hf]
    have halone := hread []
    rw [List.append_nil] at halone
    rw [stopsAtPoint_iff hafter, hread, halone]
    refine ⟨?_, ?_, fun _ => ?_⟩
    · intro hpoint
      rw [q.verdict_eof fun ss hq => hpoint ⟨ss, hq⟩]
    · rintro ⟨ss, rfl⟩
      exact ⟨rfl, rfl⟩
    · cases q with
      | top => exact .inl ⟨_, rfl⟩
      | nameEnd ss ds name => exact .inr (.inr ⟨name, Progress.exists_name_of_after? hafter, rfl⟩)
      | _ => exact .inr (.inl ⟨_, rfl⟩)

/-- `a, .` and `a, b {;` stop in the middle of a rule. -/
def unfinishedClass : List PlacedToken :=
  [⟨.ident "a", ⟨0, 1, 1⟩⟩, ⟨.comma, ⟨1, 1, 2⟩⟩, ⟨.whitespace, ⟨2, 1, 3⟩⟩,
    ⟨.delim '.', ⟨3, 1, 4⟩⟩]

def unfinishedBlock : List PlacedToken :=
  [⟨.ident "a", ⟨0, 1, 1⟩⟩, ⟨.comma, ⟨1, 1, 2⟩⟩, ⟨.whitespace, ⟨2, 1, 3⟩⟩,
    ⟨.ident "b", ⟨3, 1, 4⟩⟩, ⟨.whitespace, ⟨4, 1, 5⟩⟩, ⟨.openBrace, ⟨5, 1, 6⟩⟩,
    ⟨.semicolon, ⟨6, 1, 7⟩⟩]

theorem unfinished_append_eof :
    (∀ t ∈ unfinishedClass, t.token ≠ .eof) ∧ StopsAtPoint unfinishedClass ∧
    Sheet.verdict unfinishedClass = .error (.unexpectedEnd .classSelector) ∧
    Sheet.verdict (unfinishedClass ++ [⟨.eof, ⟨4, 1, 5⟩⟩]) =
      .error (.unexpectedToken "<EOF>" .classSelector) ∧
    (∀ t ∈ unfinishedBlock, t.token ≠ .eof) ∧ ¬StopsAtPoint unfinishedBlock ∧
    Sheet.verdict unfinishedBlock = .error (.unexpectedEnd .declarationBlock) ∧
    Sheet.verdict (unfinishedBlock ++ [⟨.eof, ⟨7, 1, 8⟩⟩]) =
      .error (.unexpectedEnd .declarationBlock) := by
  have hclass : ∀ t ∈ unfinishedClass, t.token ≠ .eof := by decide
  have hpoint : StopsAtPoint unfinishedClass := (stopsAtPoint_iff rfl).mpr ⟨[.tag "a"], rfl⟩
  have hblock : ∀ t ∈ unfinishedBlock, t.token ≠ .eof := by decide
  have hother : ¬StopsAtPoint unfinishedBlock := fun h => absurd h.2 (by decide)
  have halone : Sheet.verdict unfinishedBlock = .error (.unexpectedEnd .declarationBlock) := rfl
  obtain ⟨hstops, hmarked⟩ := (ofTokens_append_eof hclass ⟨4, 1, 5⟩).2.1 hpoint
  have hsame := (ofTokens_append_eof hblock ⟨7, 1, 8⟩).1 hother
  exact ⟨hclass, hpoint, hstops, hmarked, hblock, hother, halone, hsame.trans halone⟩

/-- A point and nothing behind it: the mark of the end changes what is wrong. -/
theorem not_forall_verdict_append_eof :
    ¬∀ (ts : List PlacedToken) (p : Position), (∀ t ∈ ts, t.token ≠ .eof) →
      Sheet.verdict (ts ++ [⟨.eof, p⟩]) = Sheet.verdict ts := by
  intro h
  have hpoint : ∀ t ∈ [PlacedToken.mk (.delim '.') .start], t.token ≠ .eof := by decide
  cases h _ ⟨1, 1, 2⟩ hpoint

end StyleEngine
