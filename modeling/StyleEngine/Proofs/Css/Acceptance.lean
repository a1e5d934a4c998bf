import StyleEngine.Proofs.Css.Grammar
import StyleEngine.Proofs.Css.Reading

/-!
# `Proofs/Css/Acceptance.lean` — the reader accepts the grammar, and nothing else

The reader has no stack and no alternatives, and the grammar is made of nested repetitions.
What joins them is a question asked at each point of the table: what may follow, so that
the tokens to come complete a sheet (`Progress.Remains`)? Two facts settle everything:

* `remains_nil`: nothing may remain exactly between rules;
* `remains_cons`: to put a token in front of what remains is one step of the table.

The second is proved point by point, first as a fact of the grammar (`remainsBlock_cons`
and its like) and then against the row of the table (`remainsBlock_step` and its like).
An induction over the tokens gives both directions at once
(`rules?_eq_some_iff_remains`), and `ofTokens_eq_ok_iff_derives` is that at the start.
-/

set_option autoImplicit false

namespace StyleEngine

/-! ## 1. What may remain at each point -/

/-- Spaces, and behind them what is asked for. -/
def AfterSpaces (P : List Token → Prop) (ts : List Token) : Prop :=
  ∃ w us, ts = w ++ us ∧ Spaces w ∧ P us

def RemainsTop (rules : List Rule) : List Token → Prop :=
  AfterSpaces fun ts => DerivesRules ts rules

def RemainsBlock (ss : List Selector) (ds : List Declaration) (rules : List Rule)
    (ts : List Token) : Prop :=
  ∃ us es rest more, ts = us ++ .closeBrace :: rest ∧ DerivesItems us es ∧
    RemainsTop more rest ∧ rules = ⟨ss, ds ++ es⟩ :: more

/-- What ends a value comes next. -/
def EndsValue (ts : List Token) : Prop :=
  ∃ t us, ts = t :: us ∧ (t = .semicolon ∨ t = .closeBrace)

def RemainsValue (ss : List Selector) (ds : List Declaration) (name : PropertyName)
    (components : List Value) (rules : List Rule) (ts : List Token) : Prop :=
  ∃ us vs v rest, ts = us ++ rest ∧ DerivesComponents us vs ∧
    DerivesValue (components ++ vs) v ∧ EndsValue rest ∧
    RemainsBlock ss (ds ++ [⟨name, v⟩]) rules rest

def RemainsNameEnd (ss : List Selector) (ds : List Declaration) (name : PropertyName)
    (rules : List Rule) : List Token → Prop :=
  AfterSpaces fun ts => ∃ us, ts = .colon :: us ∧ RemainsValue ss ds name [] rules us

def RemainsOpen (ss : List Selector) (rules : List Rule) : List Token → Prop :=
  AfterSpaces fun ts => ∃ us, ts = .openBrace :: us ∧ RemainsBlock ss [] rules us

def RemainsStart (ss : List Selector) (rules : List Rule) : List Token → Prop :=
  AfterSpaces fun ts => ∃ us ss' rest, ts = us ++ rest ∧ DerivesSelectors us ss' ∧
    RemainsOpen (ss ++ ss') rules rest

def RemainsGap (ss : List Selector) (rules : List Rule) : List Token → Prop :=
  AfterSpaces fun ts => (∃ us, ts = .openBrace :: us ∧ RemainsBlock ss [] rules us) ∨
    ∃ us, ts = .comma :: us ∧ RemainsStart ss rules us

def RemainsName (ss : List Selector) (rules : List Rule) (ts : List Token) : Prop :=
  ∃ name us, ts = .ident name :: us ∧ RemainsGap (ss ++ [.cls name]) rules us

/-- **What the tokens behind a point have to be** so that the sheet comes to these rules,
    the one in progress first. -/
def Progress.Remains : Progress → List Rule → List Token → Prop
  | .top => RemainsTop
  | .selectorStart ss => RemainsStart ss
  | .className ss => RemainsName ss
  | .selectorEnd ss | .selectorGap ss => RemainsGap ss
  | .block ss ds => RemainsBlock ss ds
  | .nameEnd ss ds name => RemainsNameEnd ss ds name
  | .value ss ds name components => RemainsValue ss ds name components

/-- What has to remain behind a step. No step of the grammar ends the text. -/
def Step.Leads : Step → List Rule → List Token → Prop
  | .next p, rules, ts => p.Remains rules ts
  | .close rule, rules, ts => ∃ more, rules = rule :: more ∧ RemainsTop more ts
  | .finish, _, _ => False
  | .fail _ _, _, _ => False

/-! ## 2. Spaces -/

theorem spaces_nil : Spaces [] := fun _ h => absurd h List.not_mem_nil

theorem spaces_cons {ts : List Token} (h : Spaces ts) : Spaces (.whitespace :: ts) :=
  List.forall_mem_cons.mpr ⟨rfl, h⟩

theorem AfterSpaces.here {P : List Token → Prop} {ts : List Token} (h : P ts) :
    AfterSpaces P ts :=
  ⟨[], ts, rfl, spaces_nil, h⟩

theorem afterSpaces_nil {P : List Token → Prop} : AfterSpaces P [] ↔ P [] := by
  constructor
  · rintro ⟨w, us, h, _, hP⟩
    obtain ⟨rfl, rfl⟩ := List.append_eq_nil_iff.mp h.symm
    exact hP
  · exact AfterSpaces.here

theorem afterSpaces_cons {P : List Token → Prop} {t : Token} {ts : List Token} :
    AfterSpaces P (t :: ts) ↔ t = .whitespace ∧ AfterSpaces P ts ∨ P (t :: ts) := by
  constructor
  · rintro ⟨w, us, h, hw, hP⟩
    cases w with
    | nil => exact Or.inr (by rw [h]; exact hP)
    | cons x w =>
      obtain ⟨rfl, rfl⟩ := List.cons.inj h
      obtain ⟨hx, hw⟩ := List.forall_mem_cons.mp hw
      exact Or.inl ⟨hx, w, us, rfl, hw, hP⟩
  · rintro (⟨rfl, w, us, rfl, hw, hP⟩ | hP)
    · exact ⟨.whitespace :: w, us, rfl, spaces_cons hw, hP⟩
    · exact AfterSpaces.here hP

theorem AfterSpaces.imp {P Q : List Token → Prop} {ts : List Token} (h : AfterSpaces P ts)
    (hPQ : ∀ us, P us → Q us) : AfterSpaces Q ts := by
  obtain ⟨w, us, rfl, hw, hP⟩ := h
  exact ⟨w, us, rfl, hw, hPQ us hP⟩

theorem exists_cons_eq {P : List Token → Prop} {t a : Token} {ts : List Token} :
    (∃ us, t :: ts = a :: us ∧ P us) ↔ t = a ∧ P ts := by
  constructor
  · rintro ⟨us, h, hP⟩
    obtain ⟨rfl, rfl⟩ := List.cons.inj h
    exact ⟨rfl, hP⟩
  · rintro ⟨rfl, hP⟩
    exact ⟨ts, rfl, hP⟩

/-! ## 3. Declarations, from the inside out -/

theorem lower_percent : Ascii.lower "%" = "%" := by
  rw [← String.toList_inj, Ascii.toList_lower]
  rfl

theorem derivesComponent_iff {t : Token} {v : Value} :
    DerivesComponent t v ↔ t.component = .ok v := by
  constructor
  · intro h
    cases h with
    | keyword word => rfl
    | number x => rfl
    | percentage x => simp [Token.component, Value.ofDimension, lower_percent]
    | dimension x unit => rfl
    | string contents => rfl
    | color hcolor => simp [Token.component, hcolor]
  · intro h
    unfold Token.component at h
    split at h
    · cases h; exact .keyword _
    · cases h; exact .dimension _ _
    · cases h
      rw [Value.ofDimension, lower_percent]
      exact .percentage _
    · cases h; exact .number _
    · cases h; exact .string _
    · split at h
      · cases h
        rename_i hcolor
        exact .color hcolor
      · cases h
    all_goals cases h

theorem derivesValue_iff {vs : List Value} {v : Value} :
    DerivesValue vs v ↔ Value.ofComponents? vs = some v := by
  constructor
  · intro h
    cases h with
    | one v => rfl
    | list v₁ v₂ vs => rfl
  · intro h
    match vs with
    | [] => cases h
    | [w] =>
      obtain rfl := Option.some.inj h
      exact .one w
    | w₁ :: w₂ :: vs =>
      obtain rfl := Option.some.inj h
      exact .list w₁ w₂ vs

theorem remainsValue_cons {ss : List Selector} {ds : List Declaration} {name : PropertyName}
    {components : List Value} {rules : List Rule} {t : Token} {ts : List Token} :
    RemainsValue ss ds name components rules (t :: ts) ↔
      t = .whitespace ∧ RemainsValue ss ds name components rules ts ∨
      (∃ v, DerivesComponent t v ∧ RemainsValue ss ds name (components ++ [v]) rules ts) ∨
      ∃ v, DerivesValue components v ∧ (t = .semicolon ∨ t = .closeBrace) ∧
        RemainsBlock ss (ds ++ [⟨name, v⟩]) rules (t :: ts) := by
  constructor
  · rintro ⟨us, vs, v, rest, hts, hcomp, hval, hends, hblock⟩
    cases hcomp with
    | nil =>
      obtain rfl : t :: ts = rest := hts
      obtain ⟨t', us, hcons, ht'⟩ := hends
      obtain ⟨rfl, rfl⟩ := List.cons.inj hcons
      rw [List.append_nil] at hval
      exact Or.inr (Or.inr ⟨v, hval, ht', hblock⟩)
    | space hcomp =>
      obtain ⟨rfl, rfl⟩ := List.cons.inj hts
      exact Or.inl ⟨rfl, _, vs, v, rest, rfl, hcomp, hval, hends, hblock⟩
    | @component _ _ w vs hw hcomp =>
      obtain ⟨rfl, rfl⟩ := List.cons.inj hts
      rw [List.append_cons] at hval
      exact Or.inr (Or.inl ⟨w, hw, _, vs, v, rest, rfl, hcomp, hval, hends, hblock⟩)
  · rintro (⟨rfl, us, vs, v, rest, rfl, hcomp, hval, hends, hblock⟩ |
      ⟨w, hw, us, vs, v, rest, rfl, hcomp, hval, hends, hblock⟩ | ⟨v, hval, ht, hblock⟩)
    · exact ⟨_, vs, v, rest, rfl, hcomp.space, hval, hends, hblock⟩
    · rw [← List.append_cons] at hval
      exact ⟨_, w :: vs, v, rest, rfl, .component hw hcomp, hval, hends, hblock⟩
    · rw [← List.append_nil components] at hval
      exact ⟨[], [], v, t :: ts, rfl, .nil, hval, ⟨t, ts, rfl, ht⟩, hblock⟩

/-- Items begin with a space, a semicolon or a name. -/
theorem DerivesItems.head {us ts : List Token} {t : Token} {ds : List Declaration}
    (h : DerivesItems us ds) (hus : us = t :: ts) : t ≠ .closeBrace := by
  cases h with
  | nil => cases hus
  | space _ =>
    obtain ⟨rfl, _⟩ := List.cons.inj hus
    simp
  | semicolon _ =>
    obtain ⟨rfl, _⟩ := List.cons.inj hus
    simp
  | declaration hd _ _ =>
    cases hd with
    | mk _ _ _ _ =>
      obtain ⟨rfl, _⟩ := List.cons.inj hus
      simp

/-- A name, and behind it what has to remain there, is an item of the block and what has
    to remain behind it. -/
theorem RemainsNameEnd.block {ss : List Selector} {ds : List Declaration} {name : PropertyName}
    {rules : List Rule} {ts : List Token} {text : String}
    (hname : PropertyName.ofText? text = some name) (h : RemainsNameEnd ss ds name rules ts) :
    RemainsBlock ss ds rules (.ident text :: ts) := by
  obtain ⟨w, _, rfl, hw, us, rfl, cs, vs, v, _, rfl, hcomp, hval, hends, ius, es, rest, more,
    rfl, hitems, htop, rfl⟩ := h
  have hdecl := DerivesDeclaration.mk hname hw hcomp hval
  -- The brace of the block cannot stand among its items, so a semicolon ends the value or
  -- the items are over.
  have hius : ius = [] ∨ ius.head? = some .semicolon := by
    obtain ⟨t, us, hcons, ht⟩ := hends
    cases ius with
    | nil => exact Or.inl rfl
    | cons t' ius =>
      obtain ⟨rfl, _⟩ := List.cons.inj hcons
      rcases ht with rfl | rfl
      · exact Or.inr rfl
      · exact absurd rfl (hitems.head rfl)
  refine ⟨_, _, rest, more, ?_, .declaration hdecl hius hitems, htop, ?_⟩
  · simp
  · simp

theorem remainsBlock_cons {ss : List Selector} {ds : List Declaration} {rules : List Rule}
    {t : Token} {ts : List Token} :
    RemainsBlock ss ds rules (t :: ts) ↔
      (t = .whitespace ∨ t = .semicolon) ∧ RemainsBlock ss ds rules ts ∨
      (t = .closeBrace ∧ ∃ more, rules = ⟨ss, ds⟩ :: more ∧ RemainsTop more ts) ∨
      ∃ text name, t = .ident text ∧ PropertyName.ofText? text = some name ∧
        RemainsNameEnd ss ds name rules ts := by
  constructor
  · rintro ⟨us, es, rest, more, hts, hitems, htop, rfl⟩
    cases hitems with
    | nil =>
      obtain ⟨rfl, rfl⟩ := List.cons.inj hts
      exact Or.inr (Or.inl ⟨rfl, more, by rw [List.append_nil], htop⟩)
    | space hitems =>
      obtain ⟨rfl, rfl⟩ := List.cons.inj hts
      exact Or.inl ⟨Or.inl rfl, _, es, rest, more, rfl, hitems, htop, rfl⟩
    | semicolon hitems =>
      obtain ⟨rfl, rfl⟩ := List.cons.inj hts
      exact Or.inl ⟨Or.inr rfl, _, es, rest, more, rfl, hitems, htop, rfl⟩
    | @declaration _ us _ es hd hus hitems =>
      cases hd with
      | @mk text name w cs vs v hname hw hcomp hval =>
        obtain ⟨rfl, rfl⟩ := List.cons.inj hts
        have hends : EndsValue (us ++ .closeBrace :: rest) := by
          cases us with
          | nil => exact ⟨_, _, rfl, Or.inr rfl⟩
          | cons t us =>
            rcases hus with hnil | hsemi
            · cases hnil
            · exact ⟨t, _, rfl, Or.inl (Option.some.inj hsemi)⟩
        refine Or.inr (Or.inr ⟨text, name, rfl, hname, w, _, ?_, hw, _, rfl,
          cs, vs, v, us ++ .closeBrace :: rest, rfl, hcomp, hval, hends,
          us, es, rest, more, rfl, hitems, htop, ?_⟩)
        · simp
        · simp
  · rintro (⟨rfl | rfl, us, es, rest, more, rfl, hitems, htop, rfl⟩ | ⟨rfl, more, rfl, htop⟩ |
      ⟨text, name, rfl, hname, hrem⟩)
    · exact ⟨_, es, rest, more, rfl, hitems.space, htop, rfl⟩
    · exact ⟨_, es, rest, more, rfl, hitems.semicolon, htop, rfl⟩
    · exact ⟨[], [], ts, more, rfl, .nil, htop, by rw [List.append_nil]⟩
    · exact hrem.block hname

/-! ## 4. Selectors -/

/-- A list of selectors is one selector at a time. -/
theorem remainsStart_iff {ss : List Selector} {rules : List Rule} {ts : List Token} :
    RemainsStart ss rules ts ↔
      AfterSpaces (fun ts => ∃ us s rest, ts = us ++ rest ∧ DerivesSelector us s ∧
        RemainsGap (ss ++ [s]) rules rest) ts := by
  constructor
  · intro h
    refine h.imp ?_
    rintro _ ⟨us, ss', rest, rfl, hss, hopen⟩
    cases hss with
    | one hs => exact ⟨us, _, rest, rfl, hs, hopen.imp fun _ => Or.inl⟩
    | @more _ w₁ w₂ us s ss' hs hw₁ hw₂ hss =>
      rw [List.append_cons] at hopen
      refine ⟨_, s, _, List.append_assoc .., hs, w₁, _, List.append_assoc .., hw₁,
        Or.inr ⟨_, rfl, w₂, _, List.append_assoc .., hw₂, us, ss', rest, rfl, hss, hopen⟩⟩
  · intro h
    refine h.imp ?_
    rintro _ ⟨us, s, _, rfl, hs, w, _, rfl, hw, ⟨rest, rfl, hblock⟩ | ⟨_, rfl, w', _, rfl, hw',
      us', ss', rest, rfl, hss, hopen⟩⟩
    · exact ⟨us, [s], _, rfl, .one hs, w, _, rfl, hw, rest, rfl, hblock⟩
    · rw [← List.append_cons] at hopen
      exact ⟨_, s :: ss', rest, by simp, .more hs hw hw' hss, hopen⟩

theorem remainsStart_cons {ss : List Selector} {rules : List Rule} {t : Token}
    {ts : List Token} :
    RemainsStart ss rules (t :: ts) ↔
      t = .whitespace ∧ RemainsStart ss rules ts ∨
      (∃ name, t = .ident name ∧ RemainsGap (ss ++ [.tag name]) rules ts) ∨
      (t = .delim '*' ∧ RemainsGap (ss ++ [.universal]) rules ts) ∨
      (∃ name, t = .hash name true ∧ RemainsGap (ss ++ [.id name]) rules ts) ∨
      t = .delim '.' ∧ RemainsName ss rules ts := by
  rw [remainsStart_iff, remainsStart_iff, afterSpaces_cons]
  refine or_congr Iff.rfl ?_
  constructor
  · rintro ⟨us, s, rest, hts, hs, hgap⟩
    cases hs with
    | tag name =>
      obtain ⟨rfl, rfl⟩ := List.cons.inj hts
      exact Or.inl ⟨name, rfl, hgap⟩
    | universal =>
      obtain ⟨rfl, rfl⟩ := List.cons.inj hts
      exact Or.inr (Or.inl ⟨rfl, hgap⟩)
    | cls name =>
      obtain ⟨rfl, rfl⟩ := List.cons.inj hts
      exact Or.inr (Or.inr (Or.inr ⟨rfl, name, rest, rfl, hgap⟩))
    | id name =>
      obtain ⟨rfl, rfl⟩ := List.cons.inj hts
      exact Or.inr (Or.inr (Or.inl ⟨name, rfl, hgap⟩))
  · rintro (⟨name, rfl, hgap⟩ | ⟨rfl, hgap⟩ | ⟨name, rfl, hgap⟩ | ⟨rfl, name, us, rfl, hgap⟩)
    · exact ⟨_, _, ts, rfl, .tag name, hgap⟩
    · exact ⟨_, _, ts, rfl, .universal, hgap⟩
    · exact ⟨_, _, ts, rfl, .id name, hgap⟩
    · exact ⟨_, _, us, rfl, .cls name, hgap⟩

theorem remainsGap_cons {ss : List Selector} {rules : List Rule} {t : Token} {ts : List Token} :
    RemainsGap ss rules (t :: ts) ↔
      t = .whitespace ∧ RemainsGap ss rules ts ∨
      (t = .openBrace ∧ RemainsBlock ss [] rules ts) ∨
      t = .comma ∧ RemainsStart ss rules ts := by
  unfold RemainsGap
  rw [afterSpaces_cons, exists_cons_eq, exists_cons_eq]

theorem remainsName_cons {ss : List Selector} {rules : List Rule} {t : Token}
    {ts : List Token} :
    RemainsName ss rules (t :: ts) ↔
      ∃ name, t = .ident name ∧ RemainsGap (ss ++ [.cls name]) rules ts :=
  exists_congr fun _ => exists_cons_eq

theorem remainsNameEnd_cons {ss : List Selector} {ds : List Declaration} {name : PropertyName}
    {rules : List Rule} {t : Token} {ts : List Token} :
    RemainsNameEnd ss ds name rules (t :: ts) ↔
      t = .whitespace ∧ RemainsNameEnd ss ds name rules ts ∨
      t = .colon ∧ RemainsValue ss ds name [] rules ts := by
  unfold RemainsNameEnd
  rw [afterSpaces_cons, exists_cons_eq]

/-! ## 5. Rules -/

/-- A list of selectors does not begin with a space. -/
theorem DerivesSelectors.head {us : List Token} {ss : List Selector}
    (h : DerivesSelectors us ss) : ∃ t ts, us = t :: ts ∧ t ≠ .whitespace := by
  have hone : ∀ {us : List Token} {s : Selector}, DerivesSelector us s →
      ∃ t ts, us = t :: ts ∧ t ≠ .whitespace := by
    intro us s hs
    cases hs with
    | tag name => exact ⟨_, _, rfl, by simp⟩
    | universal => exact ⟨_, _, rfl, by simp⟩
    | cls name => exact ⟨_, _, rfl, by simp⟩
    | id name => exact ⟨_, _, rfl, by simp⟩
  cases h with
  | one hs => exact hone hs
  | more hs _ _ _ =>
    obtain ⟨t, ts, rfl, ht⟩ := hone hs
    exact ⟨t, _, rfl, ht⟩

/-- A rule and what has to remain behind it are what has to remain where a selector has to
    follow at once. -/
theorem derivesRules_cons {rules : List Rule} {t : Token} {ts : List Token} :
    DerivesRules (t :: ts) rules ↔
      t ≠ .whitespace ∧ RemainsStart [] rules (t :: ts) := by
  constructor
  · intro h
    generalize hus : t :: ts = us at h
    cases h with
    | nil => cases hus
    | @rule _ w us rule rules hrule hw hrules =>
      cases hrule with
      | @mk list w' items ss ds hss hw' hitems =>
        have hblock : RemainsBlock ss [] (⟨ss, ds⟩ :: rules)
            (items ++ .closeBrace :: (w ++ us)) :=
          ⟨items, ds, w ++ us, rules, rfl, hitems, ⟨w, us, rfl, hw, hrules⟩, rfl⟩
        have hstart : RemainsStart [] (⟨ss, ds⟩ :: rules) (t :: ts) :=
          AfterSpaces.here ⟨list, ss, w' ++ .openBrace :: (items ++ .closeBrace :: (w ++ us)),
            by rw [hus]; simp, hss, w', _, rfl, hw', _, rfl, hblock⟩
        obtain ⟨t', ts', rfl, ht'⟩ := hss.head
        have ht : t = t' := (List.cons.inj hus).1
        rw [← hus]
        exact ⟨ht ▸ ht', hstart⟩
  · rintro ⟨ht, hstart⟩
    rcases afterSpaces_cons.mp hstart with ⟨rfl, _⟩ | hstart
    · exact absurd rfl ht
    · obtain ⟨us, ss, _, hts, hss, w, _, rfl, hw, _, rfl, items, ds, _, more, rfl, hitems,
        ⟨w', us', rfl, hw', hrules⟩, rfl⟩ := hstart
      rw [hts]
      have hrule := DerivesRules.rule (.mk hss hw hitems) hw' hrules
      simpa using hrule

theorem remainsTop_cons {rules : List Rule} {t : Token} {ts : List Token} :
    RemainsTop rules (t :: ts) ↔
      t = .whitespace ∧ RemainsTop rules ts ∨
      t ≠ .whitespace ∧ RemainsStart [] rules (t :: ts) := by
  unfold RemainsTop
  rw [afterSpaces_cons, derivesRules_cons]

/-! ## 6. The rows of the table -/

section Steps

variable {ss : List Selector} {ds : List Declaration} {name : PropertyName}
  {components : List Value} {rules : List Rule} {t : Token} {ts : List Token}

theorem remainsBlock_step :
    RemainsBlock ss ds rules (t :: ts) ↔ (stepBlock ss ds t).Leads rules ts := by
  rw [remainsBlock_cons]
  cases t with
  | ident text =>
    cases hname : PropertyName.ofText? text with
    | none => simp [stepBlock, hname, Step.Leads]
    | some name => simp [stepBlock, hname, Step.Leads, Progress.Remains]
  | _ => simp [stepBlock, Step.Leads, Progress.Remains]

theorem remainsNameEnd_step :
    RemainsNameEnd ss ds name rules (t :: ts) ↔ (stepNameEnd ss ds name t).Leads rules ts := by
  rw [remainsNameEnd_cons]
  cases t <;> simp [stepNameEnd, Step.Leads, Progress.Remains]

theorem remainsGap_step :
    RemainsGap ss rules (t :: ts) ↔ (stepSelectorGap ss t).Leads rules ts := by
  rw [remainsGap_cons]
  unfold stepSelectorGap
  split
  · simp [Step.Leads, Progress.Remains]
  · simp [Step.Leads, Progress.Remains]
  · simp [Step.Leads, Progress.Remains]
  · simp [Step.Leads]
  · split <;> simp_all [Step.Leads]

theorem remainsName_step :
    RemainsName ss rules (t :: ts) ↔ (stepClassName ss t).Leads rules ts := by
  rw [remainsName_cons]
  cases t <;> simp [stepClassName, Step.Leads, Progress.Remains]

theorem remainsStart_step :
    RemainsStart ss rules (t :: ts) ↔ (stepSelectorStart ss t).Leads rules ts := by
  rw [remainsStart_cons]
  unfold stepSelectorStart
  split
  case h_12 => split <;> simp_all [Step.Leads]
  all_goals simp_all [Step.Leads, Progress.Remains]

/-- Directly behind a selector the table refuses more tokens by name, but takes the same
    ones as behind spaces. -/
theorem leads_stepSelectorEnd :
    (stepSelectorEnd ss t).Leads rules ts ↔ (stepSelectorGap ss t).Leads rules ts := by
  unfold stepSelectorEnd
  split
  · simp [stepSelectorGap, Step.Leads, Token.isCombinator, Token.startsSelector]
  · simp [stepSelectorGap, Step.Leads, Token.isCombinator, Token.startsSelector]
  · split
    · rename_i hstarts
      cases t <;> simp_all [stepSelectorGap, Step.Leads, Token.startsSelector]
    · exact Iff.rfl

/-- A value goes on with a component, or ends as the block says. -/
theorem remainsValue_step :
    RemainsValue ss ds name components rules (t :: ts) ↔
      (stepValue ss ds name components t).Leads rules ts := by
  rw [remainsValue_cons]
  simp only [derivesValue_iff, derivesComponent_iff]
  unfold stepValue
  split
  · simp [Step.Leads, Progress.Remains, Token.component]
  · cases hv : Value.ofComponents? components with
    | none => simp [Step.Leads, Token.component]
    | some v => simp [Step.Leads, Progress.Remains, Token.component, remainsBlock_cons]
  · cases hv : Value.ofComponents? components with
    | none => simp [Step.Leads, Token.component]
    | some v => simp [Step.Leads, Token.component, remainsBlock_cons]
  · simp [Step.Leads, Token.component]
  · cases hc : t.component with
    | ok v => simp_all [Step.Leads, Progress.Remains]
    | error cause => simp_all [Step.Leads]

theorem remainsTop_step (ht : t ≠ .eof) :
    RemainsTop rules (t :: ts) ↔ (stepTop t).Leads rules ts := by
  rw [remainsTop_cons, remainsStart_step]
  unfold stepTop
  split
  · simp [Step.Leads, Progress.Remains]
  · exact absurd rfl ht
  · simp [Step.Leads, stepSelectorStart, Token.isCombinator]
  · simp [Step.Leads, stepSelectorStart, Token.isCombinator]
  · simp_all

end Steps

/-! ## 7. The reader and the grammar -/

/-- **A token in front of what remains is one step of the table.** -/
theorem remains_cons (p : Progress) {rules : List Rule} {t : Token} {ts : List Token}
    (ht : t ≠ .eof) : p.Remains rules (t :: ts) ↔ (p.step t).Leads rules ts := by
  cases p with
  | top => exact remainsTop_step ht
  | selectorStart ss => exact remainsStart_step
  | className ss => exact remainsName_step
  | selectorEnd ss => exact remainsGap_step.trans leads_stepSelectorEnd.symm
  | selectorGap ss => exact remainsGap_step
  | block ss ds => exact remainsBlock_step
  | nameEnd ss ds name => exact remainsNameEnd_step
  | value ss ds name components => exact remainsValue_step

/-- **Nothing may remain exactly between rules.** -/
theorem remains_nil (p : Progress) {rules : List Rule} :
    p.Remains rules [] ↔ p.atEnd = none ∧ rules = [] := by
  cases p with
  | top =>
    show AfterSpaces _ [] ↔ _
    rw [afterSpaces_nil]
    constructor
    · intro h
      generalize hus : ([] : List Token) = us at h
      cases h with
      | nil => exact ⟨rfl, rfl⟩
      | rule hrule _ _ =>
        cases hrule with
        | mk _ _ _ => simp at hus
    · rintro ⟨_, rfl⟩
      exact .nil
  | selectorStart ss =>
    simp [Progress.Remains, RemainsStart, RemainsOpen, AfterSpaces, Progress.atEnd]
  | className ss => simp [Progress.Remains, RemainsName, Progress.atEnd]
  | selectorEnd ss | selectorGap ss =>
    simp [Progress.Remains, RemainsGap, AfterSpaces, Progress.atEnd]
  | block ss ds => simp [Progress.Remains, RemainsBlock, Progress.atEnd]
  | nameEnd ss ds name => simp [Progress.Remains, RemainsNameEnd, AfterSpaces, Progress.atEnd]
  | value ss ds name components =>
    simp [Progress.Remains, RemainsValue, EndsValue, Progress.atEnd]

/-- **The reader succeeds with exactly what the tokens before the end may remain for.** -/
theorem rules?_eq_some_iff_remains (p : Progress) (rules : List Rule) (ts : List Token) :
    p.rules? ts = some rules ↔ p.Remains rules (beforeEnd ts) := by
  induction ts generalizing p rules with
  | nil =>
    rw [beforeEnd, List.takeWhile_nil, remains_nil, Progress.rules?]
    cases p.atEnd <;> simp [eq_comm]
  | cons t ts ih =>
    by_cases ht : t = .eof
    · subst ht
      rw [Progress.rules?_eof, beforeEnd, List.takeWhile_cons_of_neg (by simp), remains_nil,
        Progress.rules?]
      cases p.atEnd <;> simp [eq_comm]
    · rw [beforeEnd, List.takeWhile_cons_of_pos (by simpa using ht), remains_cons p ht,
        Progress.rules?]
      cases hstep : p.step t with
      | next q => exact ih q rules
      | close rule =>
        simp only [Option.map_eq_some_iff, ih]
        exact exists_congr fun more => by rw [and_comm, eq_comm]; rfl
      | finish => exact absurd (Progress.eq_eof_of_step hstep) ht
      | fail cause taken => simp [Step.Leads]

/-- **The reader accepts exactly the grammar**, and gives exactly the sheet that the tokens
    before the end of the text derive. -/
theorem ofTokens_eq_ok_iff_derives (tokens : List PlacedToken) (sheet : Sheet) :
    Sheet.ofTokens tokens = .ok sheet ↔
      DerivesSheet (beforeEnd (tokens.map (·.token))) sheet := by
  rw [Sheet.ofTokens_eq_ok]
  exact rules?_eq_some_iff_remains .top sheet.rules _

end StyleEngine
