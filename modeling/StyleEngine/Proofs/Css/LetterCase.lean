import StyleEngine.Proofs.Css.Acceptance
import StyleEngine.Proofs.Css.ColorForms

/-!
# `Proofs/Css/LetterCase.lean` — where letter case is folded, and where it is kept

The same word may stand in front of a block, in front of a colon or behind one, and only in front
of a colon its case is folded. `#Add` is an id with a capital in one place and a colour in
another. So which words a sheet folds cannot be told from a token alone; it takes the **part** of
the sheet that the token stands in. Braces, colons and semicolons lead from one part to the next
(`Part.next`), and on every list that is read these are the parts in which the reader is
(`Progress.step_advances`).

**`ofTokens_letterCase`** compares two readings. Where case is folded, the two go through the same
points: a token and its other spelling do the same at each point, or are both wrong there
(`Folds.step_agrees`). Where case is kept nothing is lost: what a sheet has **verbatim**, the names in
its selectors, its keywords and its strings, are the words of the tokens in their order
(`Sheet.verbatim_of_ofTokens`). So two lists with other words are two sheets.

The second half asks for more than two sheets that are not the same. They also compare as different,
and comparing is coarser: it takes the two zeros for one number. It looks at the words, though
(`Sheet.verbatim_of_equals`).
-/

set_option autoImplicit false

namespace StyleEngine

/-! ## 1. Parts of a sheet -/

/-- Where in a sheet a token may stand. -/
inductive Part where
  | selector
  | name
  | value
  | behindEnd

/-- The part behind a token. -/
@[simp] def Part.next : Part → Token → Part
  | _, .eof => .behindEnd
  | .selector, .openBrace => .name
  | .name, .colon => .value
  | .name, .closeBrace => .selector
  | .value, .closeBrace => .selector
  | .value, .semicolon => .name
  | part, _ => part

/-- Two spellings of one token, in a part where case is folded. -/
inductive Folds : Part → Token → Token → Prop where
  | name {s t : String} (h : Ascii.sameIgnoringCase s t = true) :
      Folds .name (.ident s) (.ident t)
  | unit {part : Part} {x : Number} {s t : String} (h : Ascii.sameIgnoringCase s t = true) :
      Folds part (.dimension x s) (.dimension x t)
  | color {s t : String} {isIdent : Bool} (h : Ascii.sameIgnoringCase s t = true) :
      Folds .value (.hash s isIdent) (.hash t isIdent)

/-- Two tokens with the same letters, in a part where case is kept. -/
inductive Keeps : Part → Token → Token → Prop where
  | name {s t : String} (h : Ascii.sameIgnoringCase s t = true) :
      Keeps .selector (.ident s) (.ident t)
  | id {s t : String} {isIdent : Bool} (h : Ascii.sameIgnoringCase s t = true) :
      Keeps .selector (.hash s isIdent) (.hash t isIdent)
  | keyword {s t : String} (h : Ascii.sameIgnoringCase s t = true) :
      Keeps .value (.ident s) (.ident t)
  | string {s t : String} (h : Ascii.sameIgnoringCase s t = true) :
      Keeps .value (.string s) (.string t)

/-- The same tokens one by one, except for some that differ as they may in their part. -/
inductive AgreeExcept (may : Part → Token → Token → Prop) :
    Part → List Token → List Token → Prop where
  | nil {part : Part} : AgreeExcept may part [] []
  | same {part : Part} {t : Token} {ts us : List Token}
      (h : AgreeExcept may (part.next t) ts us) : AgreeExcept may part (t :: ts) (t :: us)
  | differ {part : Part} {t u : Token} {ts us : List Token} (htu : may part t u)
      (h : AgreeExcept may (part.next t) ts us) : AgreeExcept may part (t :: ts) (u :: us)

/-- The part that a point of the reader is in. -/
@[simp] def Progress.part : Progress → Part
  | .top | .selectorStart _ | .className _ | .selectorEnd _ | .selectorGap _ => .selector
  | .block _ _ | .nameEnd _ _ _ => .name
  | .value _ _ _ _ => .value

/-! ## 2. What is there verbatim -/

mutual

/-- The words of a value that keep their case. -/
def Value.verbatim : Value → List String
  | .keyword word => [word]
  | .string contents => [contents]
  | .list values => verbatimAll values
  | .dimension _ _ | .number _ | .color _ => []

def Value.verbatimAll : List Value → List String
  | [] => []
  | value :: values => value.verbatim ++ verbatimAll values

end

def Selector.verbatim : Selector → List String
  | .universal => []
  | .tag name | .cls name | .id name => [name]

def Rule.verbatim (rule : Rule) : List String :=
  rule.selectors.flatMap Selector.verbatim ++ rule.declarations.flatMap (·.value.verbatim)

def Sheet.verbatim (sheet : Sheet) : List String := sheet.rules.flatMap Rule.verbatim

/-- What the present rule has verbatim so far. -/
@[simp] def Progress.verbatim : Progress → List String
  | .top => []
  | .selectorStart ss | .className ss | .selectorEnd ss | .selectorGap ss =>
    ss.flatMap Selector.verbatim
  | .block ss ds | .nameEnd ss ds _ => (Rule.mk ss ds).verbatim
  | .value ss ds _ vs => (Rule.mk ss ds).verbatim ++ vs.flatMap Value.verbatim

/-- The word of a token that keeps its case in this part, if it is one. -/
@[simp] def Token.verbatim : Part → Token → List String
  | .selector, .ident name => [name]
  | .selector, .hash name _ => [name]
  | .value, .ident word => [word]
  | .value, .string contents => [contents]
  | _, _ => []

/-- The words of tokens that keep their case, from a part on. -/
def verbatimFrom (part : Part) : List Token → List String
  | [] => []
  | t :: ts => t.verbatim part ++ verbatimFrom (part.next t) ts

theorem Value.verbatimAll_eq_flatMap (values : List Value) :
    verbatimAll values = values.flatMap verbatim := by
  induction values with
  | nil => rfl
  | cons value values ih => rw [verbatimAll, ih, List.flatMap_cons]

theorem verbatimFrom_behindEnd (ts : List Token) : verbatimFrom .behindEnd ts = [] := by
  induction ts with
  | nil => rfl
  | cons t ts ih =>
    have hnext : Part.behindEnd.next t = .behindEnd := by cases t <;> rfl
    rw [verbatimFrom, hnext, ih]
    rfl

theorem verbatimFrom_eof (part : Part) (ts : List Token) :
    verbatimFrom part (.eof :: ts) = [] := by
  have hnext : part.next .eof = .behindEnd := by cases part <;> rfl
  rw [verbatimFrom, hnext, verbatimFrom_behindEnd]
  cases part <;> rfl

/-! ## 3. One token -/

theorem DerivesComponent.verbatim {t : Token} {v : Value} (h : DerivesComponent t v) :
    v.verbatim = t.verbatim .value ∧ Part.value.next t = .value := by
  cases h <;> exact ⟨rfl, rfl⟩

theorem DerivesValue.verbatim {vs : List Value} {v : Value} (h : DerivesValue vs v) :
    v.verbatim = vs.flatMap Value.verbatim := by
  cases h with
  | one => simp
  | list v₁ v₂ vs => exact Value.verbatimAll_eq_flatMap _

/-- A step that is not wrong leads to the next part, and adds the word of its token. -/
def Step.Advances (p : Progress) (t : Token) : Step → Prop
  | .next q => q.part = p.part.next t ∧ q.verbatim = p.verbatim ++ t.verbatim p.part
  | .close rule =>
    Progress.top.part = p.part.next t ∧ rule.verbatim = p.verbatim ++ t.verbatim p.part
  | .finish | .fail _ _ => True

namespace Progress

variable (ss : List Selector) (ds : List Declaration) (name : PropertyName) (t : Token)

theorem advances_stepSelectorStart : (stepSelectorStart ss t).Advances (.selectorStart ss) t := by
  unfold stepSelectorStart
  split
  case h_12 => split <;> trivial
  all_goals simp [Step.Advances, Selector.verbatim]

theorem advances_stepClassName : (stepClassName ss t).Advances (.className ss) t := by
  unfold stepClassName
  split <;> simp [Step.Advances, Selector.verbatim]

theorem advances_stepSelectorGap : (stepSelectorGap ss t).Advances (.selectorGap ss) t := by
  unfold stepSelectorGap
  split
  case h_5 => split <;> trivial
  all_goals simp [Step.Advances, Rule.verbatim]

theorem advances_stepSelectorEnd : (stepSelectorEnd ss t).Advances (.selectorEnd ss) t := by
  unfold stepSelectorEnd
  split
  case h_3 =>
    split
    · trivial
    · exact advances_stepSelectorGap ss t
  all_goals trivial

theorem advances_stepBlock : (stepBlock ss ds t).Advances (.block ss ds) t := by
  unfold stepBlock
  split
  case h_4 => split <;> simp [Step.Advances]
  all_goals simp [Step.Advances]

theorem advances_stepNameEnd : (stepNameEnd ss ds name t).Advances (.nameEnd ss ds name) t := by
  unfold stepNameEnd
  split <;> simp [Step.Advances]

theorem advances_stepValue (vs : List Value) :
    (stepValue ss ds name vs t).Advances (.value ss ds name vs) t := by
  -- A declaration has the words of its components, whether they are a list or not.
  have hends : ∀ v, Value.ofComponents? vs = some v →
      (Rule.mk ss (ds ++ [⟨name, v⟩])).verbatim =
        (Rule.mk ss ds).verbatim ++ vs.flatMap Value.verbatim := by
    intro v hv
    simp [Rule.verbatim, (derivesValue_iff.mpr hv).verbatim]
  unfold stepValue
  split
  case h_2 => split <;> simp [Step.Advances, *]
  case h_3 => split <;> simp [Step.Advances, *]
  case h_5 =>
    split
    case h_1 v hv =>
      obtain ⟨hverbatim, hpart⟩ := (derivesComponent_iff.mpr hv).verbatim
      refine ⟨hpart.symm, ?_⟩
      rw [Progress.verbatim, List.flatMap_append, List.flatMap_singleton, hverbatim,
        ← List.append_assoc]
      rfl
    case h_2 => trivial
  all_goals simp [Step.Advances]

theorem advances_stepTop : (stepTop t).Advances .top t := by
  unfold stepTop
  split
  case h_5 => exact advances_stepSelectorStart [] t
  all_goals simp [Step.Advances]

/-- **The reader is in the part in which the token stands, and takes its word.** -/
theorem step_advances (p : Progress) : (p.step t).Advances p t :=
  match p with
  | .top => advances_stepTop t
  | .selectorStart ss => advances_stepSelectorStart ss t
  | .className ss => advances_stepClassName ss t
  | .selectorEnd ss => advances_stepSelectorEnd ss t
  | .selectorGap ss => advances_stepSelectorGap ss t
  | .block ss ds => advances_stepBlock ss ds t
  | .nameEnd ss ds name => advances_stepNameEnd ss ds name t
  | .value ss ds name vs => advances_stepValue ss ds name t vs

end Progress

/-! ## 4. Where case is folded -/

/-- The other spelling of a name, a unit or a colour does the same at every point, unless both
    are wrong there. -/
theorem Folds.step_agrees {p : Progress} {t u : Token} (h : Folds p.part t u) :
    (p.step t).Agrees (p.step u) := by
  generalize hpart : p.part = part at h
  cases h with
  | @name s t h =>
    have hlower : Ascii.lower s = Ascii.lower t := of_decide_eq_true h
    cases p with
    | block ss ds =>
      have hname : PropertyName.ofText? s = PropertyName.ofText? t := by
        simp only [PropertyName.ofText?, hlower]
      simp only [Progress.step, stepBlock, hname]
      cases PropertyName.ofText? t with
      | none => exact .inr ⟨rfl, rfl⟩
      | some name => exact .inl rfl
    | nameEnd ss ds name => exact .inr ⟨rfl, rfl⟩
    | _ => cases hpart
  | @unit _ x s t h =>
    have hlower : Ascii.lower s = Ascii.lower t := of_decide_eq_true h
    cases p with
    | value ss ds name vs =>
      left
      simp only [Progress.step, stepValue, Token.component, Value.ofDimension, hlower]
    | _ => exact .inr ⟨rfl, rfl⟩
  | @color s t isIdent h =>
    have hlower : Ascii.lower s = Ascii.lower t := of_decide_eq_true h
    have hcolor : Color.ofHex? s = Color.ofHex? t := by
      rw [← Color.ofHex?_lower s, hlower, Color.ofHex?_lower]
    cases p with
    | value ss ds name vs =>
      simp only [Progress.step, stepValue, Token.component, hcolor]
      cases Color.ofHex? t with
      | none => exact .inr ⟨rfl, rfl⟩
      | some color => exact .inl rfl
    | _ => cases hpart

namespace Progress

/-- Where two steps agree, the readings do, if they do from the next part on. -/
theorem rules?_cons_congr {p : Progress} {t u : Token} {ts us : List Token}
    (hagrees : (p.step t).Agrees (p.step u))
    (h : ∀ q : Progress, q.part = p.part.next t → q.rules? ts = q.rules? us) :
    p.rules? (t :: ts) = p.rules? (u :: us) := by
  have hadvances := p.step_advances t
  refine rules?_cons_of_agrees hagrees ?_ ?_
  · intro q hstep
    rw [hstep] at hadvances
    exact h q hadvances.1
  · intro rule hstep
    rw [hstep] at hadvances
    exact h top hadvances.1

/-- **Readings of two spellings come to the same.** -/
theorem rules?_eq_of_folds {p : Progress} {ts us : List Token}
    (h : AgreeExcept Folds p.part ts us) : p.rules? ts = p.rules? us := by
  generalize hpart : p.part = part at h
  induction h generalizing p with
  | nil => rfl
  | same _ ih => exact rules?_cons_congr (.inl rfl) fun q hq => ih (hpart ▸ hq)
  | differ htu _ ih =>
    exact rules?_cons_congr (hpart ▸ htu).step_agrees fun q hq => ih (hpart ▸ hq)

/-! ## 5. Where case is kept -/

/-- Where tokens may end nothing has been begun. -/
theorem verbatim_of_rules?_nil {p : Progress} {rules : List Rule} (h : p.rules? [] = some rules) :
    rules.flatMap Rule.verbatim = p.verbatim := by
  cases p with
  | top =>
    cases h
    rfl
  | _ => cases h

/-- **What the rules have verbatim are the words of the tokens**, behind those that the present
    rule has already. -/
theorem verbatim_of_rules? {p : Progress} {ts : List Token} {rules : List Rule}
    (h : p.rules? ts = some rules) :
    rules.flatMap Rule.verbatim = p.verbatim ++ verbatimFrom p.part ts := by
  induction ts generalizing p rules with
  | nil => rw [verbatim_of_rules?_nil h, verbatimFrom, List.append_nil]
  | cons t ts ih =>
    have hadvances := p.step_advances t
    have hrules := h
    rw [rules?] at hrules
    cases hstep : p.step t with
    | next q =>
      rw [hstep] at hadvances hrules
      obtain ⟨hpart, hverbatim⟩ := hadvances
      rw [ih hrules, hpart, hverbatim, List.append_assoc]
      rfl
    | close rule =>
      rw [hstep] at hadvances hrules
      obtain ⟨hpart, hverbatim⟩ := hadvances
      obtain ⟨rest, hrest, rfl⟩ := Option.map_eq_some_iff.mp hrules
      rw [List.flatMap_cons, ih hrest, hpart, hverbatim, List.append_assoc]
      rfl
    | finish =>
      obtain rfl := eq_eof_of_step hstep
      rw [rules?_eof] at h
      rw [verbatim_of_rules?_nil h, verbatimFrom_eof, List.append_nil]
    | fail cause taken =>
      rw [hstep] at hrules
      cases hrules

end Progress

/-- **A sheet has the words that keep their case, and no others, in the order of the tokens.** -/
theorem Sheet.verbatim_of_ofTokens {ts : List PlacedToken} {sheet : Sheet}
    (h : ofTokens ts = .ok sheet) :
    sheet.verbatim = verbatimFrom .selector (ts.map (·.token)) :=
  Progress.verbatim_of_rules? (ofTokens_eq_ok.mp h)

/-- Tokens with the same words that keep their case are the same tokens, if they differ in
    nothing else. -/
theorem AgreeExcept.eq_of_verbatimFrom {part : Part} {ts us : List Token}
    (h : AgreeExcept Keeps part ts us) (heq : verbatimFrom part ts = verbatimFrom part us) :
    ts = us := by
  induction h with
  | nil => rfl
  | same _ ih =>
    rw [verbatimFrom, verbatimFrom] at heq
    rw [ih (List.append_cancel_left heq)]
  | differ htu _ ih =>
    -- Each of the two has one word, which is all there is to the token.
    cases htu
    all_goals
      obtain ⟨rfl, hrest⟩ := List.cons.inj heq
      rw [ih hrest]

/-! ### Sheets that compare as equal -/

mutual

theorem Value.verbatim_of_equals : ∀ {v w : Value}, v.equals w = true → v.verbatim = w.verbatim
  | v, w, h => by
    -- Words are compared as they are, and lists member by member. The others have no words.
    unfold Value.equals at h
    split at h
    case h_1 => rw [of_decide_eq_true h]
    case h_2 => rfl
    case h_3 => rfl
    case h_4 => rfl
    case h_5 => rw [of_decide_eq_true h]
    case h_6 => exact Value.verbatim_of_allEqual h
    case h_7 => cases h

theorem Value.verbatim_of_allEqual : ∀ {vs ws : List Value}, Value.allEqual vs ws = true →
    Value.verbatimAll vs = Value.verbatimAll ws
  | [], [], _ => rfl
  | v :: vs, w :: ws, h => by
    rw [Value.allEqual, Bool.and_eq_true] at h
    rw [Value.verbatimAll, Value.verbatimAll, Value.verbatim_of_equals h.1,
      Value.verbatim_of_allEqual h.2]

end

theorem flatMap_eq_of_pairwiseAll {α β : Type} {related : α → α → Bool} {f : α → List β}
    (hf : ∀ x y, related x y = true → f x = f y) {xs ys : List α}
    (h : pairwiseAll related xs ys = true) : xs.flatMap f = ys.flatMap f := by
  induction xs generalizing ys with
  | nil =>
    cases ys with
    | nil => rfl
    | cons y ys => cases h
  | cons x xs ih =>
    cases ys with
    | nil => cases h
    | cons y ys =>
      rw [pairwiseAll, Bool.and_eq_true] at h
      rw [List.flatMap_cons, List.flatMap_cons, hf x y h.1, ih h.2]

theorem Sheet.verbatim_of_equals {s s' : Sheet} (h : s.equals s' = true) :
    s.verbatim = s'.verbatim := by
  refine flatMap_eq_of_pairwiseAll (fun rule rule' hrule => ?_) h
  rw [Rule.equals, Bool.and_eq_true] at hrule
  obtain ⟨hselectors, hdeclarations⟩ := hrule
  have hvalues : ∀ d d' : Declaration, d.equals d' = true →
      d.value.verbatim = d'.value.verbatim := by
    intro d d' hd
    rw [Declaration.equals, Bool.and_eq_true] at hd
    exact Value.verbatim_of_equals hd.2
  rw [Rule.verbatim, Rule.verbatim, of_decide_eq_true hselectors,
    flatMap_eq_of_pairwiseAll hvalues hdeclarations]

/-! ## 6. Two readings -/

/-- **Letter case is folded where it does not matter, and nowhere else.** -/
theorem ofTokens_letterCase {ts us : List PlacedToken} :
    (AgreeExcept Folds .selector (ts.map (·.token)) (us.map (·.token)) →
      ∀ sheet, Sheet.ofTokens ts = .ok sheet ↔ Sheet.ofTokens us = .ok sheet) ∧
    (AgreeExcept Keeps .selector (ts.map (·.token)) (us.map (·.token)) →
      ts.map (·.token) ≠ us.map (·.token) →
      ∀ sheet sheet', Sheet.ofTokens ts = .ok sheet → Sheet.ofTokens us = .ok sheet' →
        sheet ≠ sheet' ∧ sheet.equals sheet' = false) := by
  constructor
  · intro hfolds sheet
    rw [Sheet.ofTokens_eq_ok, Sheet.ofTokens_eq_ok]
    have hrules := @Progress.rules?_eq_of_folds .top _ _ hfolds
    rw [hrules]
  · intro hkeeps hne sheet sheet' hts hus
    have hverbatim : sheet.verbatim ≠ sheet'.verbatim := by
      rw [Sheet.verbatim_of_ofTokens hts, Sheet.verbatim_of_ofTokens hus]
      exact mt hkeeps.eq_of_verbatimFrom hne
    exact ⟨fun h => hverbatim (congrArg _ h),
      eq_false_of_ne_true fun h => hverbatim (Sheet.verbatim_of_equals h)⟩

/-- A rule with each of the words that have a case. -/
def wordyRule (id name digits unit word : String) : List PlacedToken :=
  [.hash id true, .openBrace, .ident name, .colon, .hash digits true,
    .dimension .zero unit, .ident word, .closeBrace].map (⟨·, .start⟩)

theorem ofTokens_wordyRule {id name digits unit word : String} {property : PropertyName}
    {color : Color} (hname : PropertyName.ofText? name = some property)
    (hcolor : Color.ofHex? digits = some color) :
    Sheet.ofTokens (wordyRule id name digits unit word) =
      .ok ⟨[⟨[.id id], [⟨property,
        .list [.color color, .dimension .zero (Ascii.lower unit), .keyword word]⟩]⟩]⟩ := by
  rw [Sheet.ofTokens_eq_ok]
  simp [wordyRule, Progress.rules?, Progress.step, Progress.atEnd, stepTop, stepSelectorStart,
    stepSelectorEnd, stepSelectorGap, stepBlock, stepNameEnd, stepValue, Token.startsSelector,
    Token.component, Value.ofDimension, Value.ofComponents?, hname, hcolor]

theorem ofTokens_letterCase_wordy :
    ∃ sheet sheet',
      Sheet.ofTokens (wordyRule "Add" "Color" "Add" "PX" "Red") = .ok sheet ∧
      Sheet.ofTokens (wordyRule "Add" "color" "add" "px" "Red") = .ok sheet ∧
      Sheet.ofTokens (wordyRule "add" "Color" "Add" "PX" "red") = .ok sheet' ∧
      sheet ≠ sheet' ∧ sheet.equals sheet' = false := by
  have hname : Ascii.lower "Color" = "color" := by decide +kernel
  have hadd : Ascii.lower "Add" = "add" := by decide +kernel
  have hunit : Ascii.lower "PX" = "px" := by decide +kernel
  have hword : Ascii.lower "Red" = "red" := by decide +kernel
  have hproperty : PropertyName.ofText? "Color" = some ⟨"color", rfl⟩ := by decide +kernel
  have hcolor : Color.ofHex? "Add" = some ⟨170, 221, 221, 255⟩ := by decide +kernel
  have hsheet := @ofTokens_wordyRule "Add" "Color" "Add" "PX" "Red" _ _ hproperty hcolor
  have hsheet' := @ofTokens_wordyRule "add" "Color" "Add" "PX" "red" _ _ hproperty hcolor
  have hfolds : AgreeExcept Folds .selector
      ((wordyRule "Add" "Color" "Add" "PX" "Red").map (·.token))
      ((wordyRule "Add" "color" "add" "px" "Red").map (·.token)) :=
    .same (.same (.differ (.name (Ascii.sameIgnoringCase_of_lower hname)) (.same
      (.differ (.color (Ascii.sameIgnoringCase_of_lower hadd))
        (.differ (.unit (Ascii.sameIgnoringCase_of_lower hunit)) (.same (.same .nil)))))))
  have hkeeps : AgreeExcept Keeps .selector
      ((wordyRule "Add" "Color" "Add" "PX" "Red").map (·.token))
      ((wordyRule "add" "Color" "Add" "PX" "red").map (·.token)) :=
    .differ (.id (Ascii.sameIgnoringCase_of_lower hadd)) (.same (.same (.same (.same (.same
      (.differ (.keyword (Ascii.sameIgnoringCase_of_lower hword)) (.same .nil)))))))
  have hne : (wordyRule "Add" "Color" "Add" "PX" "Red").map (·.token) ≠
      (wordyRule "add" "Color" "Add" "PX" "red").map (·.token) := by decide
  exact ⟨_, _, hsheet, (ofTokens_letterCase.1 hfolds _).mp hsheet, hsheet',
    ofTokens_letterCase.2 hkeeps hne _ _ hsheet hsheet'⟩

end StyleEngine
