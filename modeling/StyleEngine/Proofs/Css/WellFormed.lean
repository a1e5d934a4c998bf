import StyleEngine.Proofs.Css.Acceptance
import StyleEngine.Proofs.Css.LongestMatch
import StyleEngine.Proofs.Css.Lossless
import StyleEngine.Proofs.Text.Case

/-!
# `Proofs/Css/WellFormed.lean` — what a sheet that was read can hold

The types of a sheet allow more than a text can spell: a tag without a name, a list in a list,
a number that is none. `Sheet.WellFormed` says what is left when the sheet was read from a
text. It comes in two halves:

* a token of a text holds only what its spelling allows (`wellFormed_of_mem_tokenize`);
* the grammar takes tokens to parts of a sheet, and one production after the other keeps this
  (`Sheet.WellFormed.of_derives`).

A list of tokens that no text spells may well be read as a sheet that is not well formed, so
the first half is needed.

Of what the types allow, a number that is none is what would be felt most: a value with one in
it is not even equal to itself. There is none, so a sheet that was read is
(`Sheet.WellFormed.equals_self`). Only the names of properties are kept by their type.
**`ofText_wellFormed`** has all of this in one place.
-/

set_option autoImplicit false

namespace StyleEngine

/-! ## 1. Tokens -/

/-- What the spelling of a token says about what it holds. -/
def Token.WellFormed : Token → Prop
  | .ident name | .atKeyword name => IsIdent name.toList
  | .hash name isIdent => isIdent = true → IsIdent name.toList
  | .string contents => '\n' ∉ contents.toList
  | .number x | .percentage x => x ≠ .nan
  | .dimension x unit => x ≠ .nan ∧ IsIdent unit.toList
  | _ => True

theorem Numeral.value_ne_nan (n : Numeral) : n.value ≠ .nan := Number.noConfusion

theorem IsQuotable.newline_not_mem {quote : Char} {contents : List Char}
    (h : IsQuotable quote contents) : '\n' ∉ contents := fun hmem => (h _ hmem).2 rfl

theorem Spells.wellFormed {t : Token} {text rest : List Char} (h : Spells t text rest) :
    t.WellFormed := by
  cases h with
  | ident h | atKeyword h =>
    rw [Token.WellFormed, String.toList_ofList]
    exact h
  | hash hne h =>
    rw [Token.WellFormed, String.toList_ofList]
    exact fun hstarts => ⟨hstarts, h⟩
  | string hq h | openString hq h =>
    rw [Token.WellFormed, String.toList_ofList]
    exact h.newline_not_mem
  | mark h => cases t <;> trivial
  | number n | percentage n => exact n.value_ne_nan
  | dimension n h =>
    rw [Token.WellFormed, String.toList_ofList]
    exact ⟨n.value_ne_nan, h⟩
  | _ => trivial

theorem wellFormed_of_mem_tokenize (source : String) :
    ∀ t ∈ tokenize source, t.token.WellFormed := by
  intro t ht
  obtain ⟨pieces, last, -, -, htokens, hfits⟩ := tokensFrom_pieces .start source.toList
  rw [tokenize, htokens, List.mem_append, List.mem_singleton] at ht
  obtain ht | rfl := ht
  · obtain ⟨piece, hpiece, rfl⟩ := List.mem_map.mp ht
    obtain ⟨before, behind, hpieces⟩ := List.append_of_mem hpiece
    exact (hfits before piece behind hpieces).spells.wellFormed
  · trivial

/-! ## 2. Parts of a sheet -/

/-- A unit is in lower case. -/
def IsUnit (unit : String) : Prop :=
  unit = "%" ∨ IsIdent unit.toList ∧ ∀ c ∈ unit.toList, c.isUpper = false

/-- A value that one token spells. -/
def Value.IsComponent : Value → Prop
  | .keyword word => IsIdent word.toList
  | .dimension x unit => x ≠ .nan ∧ IsUnit unit
  | .number x => x ≠ .nan
  | .color _ => True
  | .string contents => '\n' ∉ contents.toList
  | .list _ => False

/-- A component, or a list of at least two. -/
def Value.WellFormed : Value → Prop
  | .list values => 2 ≤ values.length ∧ ∀ v ∈ values, v.IsComponent
  | v => v.IsComponent

def Selector.WellFormed : Selector → Prop
  | .universal => True
  | .tag name | .cls name | .id name => IsIdent name.toList

structure Declaration.WellFormed (d : Declaration) : Prop where
  name : IsIdent d.name.text.toList
  value : d.value.WellFormed

structure Rule.WellFormed (rule : Rule) : Prop where
  selectors_ne_nil : rule.selectors ≠ []
  selectors : ∀ s ∈ rule.selectors, s.WellFormed
  declarations : ∀ d ∈ rule.declarations, d.WellFormed

/-- What a sheet that was read from a text can hold. -/
def Sheet.WellFormed (sheet : Sheet) : Prop := ∀ rule ∈ sheet.rules, rule.WellFormed

/-! ## 3. Folded names -/

theorem isIdentStart_toLower {c : Char} (h : isIdentStart c = true) :
    isIdentStart c.toLower = true := by
  by_cases hupper : c.isUpper = true
  · have hc := isUpper_iff.mp hupper
    rw [isIdentStart_iff, toNat_toLower hupper]
    omega
  · rw [toLower_eq_self_of_not_upper (eq_false_of_ne_true hupper)]
    exact h

theorem isIdentChar_toLower {c : Char} (h : isIdentChar c = true) :
    isIdentChar c.toLower = true := by
  by_cases hupper : c.isUpper = true
  · have hstart : isIdentStart c = true := by
      have hc := isUpper_iff.mp hupper
      rw [isIdentStart_iff]
      omega
    exact isIdentChar_of_isIdentStart (isIdentStart_toLower hstart)
  · rw [toLower_eq_self_of_not_upper (eq_false_of_ne_true hupper)]
    exact h

theorem IsIdent.map_toLower {name : List Char} (h : IsIdent name) :
    IsIdent (name.map Char.toLower) where
  starts := by
    have hstarts := h.starts
    unfold startsIdent at hstarts
    split at hstarts
    · rename_i c cs
      have hlower : c.toLower = '-' ∨ isIdentStart c.toLower = true := by
        obtain hstart | hhyphen := (Bool.or_eq_true ..).mp hstarts
        · exact .inr (isIdentStart_toLower hstart)
        · rw [of_decide_eq_true hhyphen]
          exact .inl rfl
      show (isIdentStart c.toLower || decide (c.toLower = '-')) = true
      obtain hlower | hlower := hlower <;> simp [hlower]
    · rename_i c cs _
      have hlower := isIdentStart_toLower hstarts
      have hhyphen : c.toLower ≠ '-' := by
        intro heq
        rw [heq] at hlower
        cases hlower
      simpa [startsIdent, hhyphen] using hlower
    · cases hstarts
  chars := by
    intro c hc
    obtain ⟨d, hd, rfl⟩ := List.mem_map.mp hc
    exact isIdentChar_toLower (h.chars d hd)

theorem IsIdent.lower {s : String} (h : IsIdent s.toList) : IsIdent (Ascii.lower s).toList := by
  rw [Ascii.toList_lower]
  exact h.map_toLower

/-! ## 4. The grammar -/

section Derivations

variable {ts : List Token} (hts : ∀ t ∈ ts, t.WellFormed)

include hts

theorem DerivesSelector.wellFormed {s : Selector} (h : DerivesSelector ts s) : s.WellFormed := by
  cases h with
  | universal => trivial
  | tag name => exact hts _ List.mem_cons_self
  | cls name => exact hts _ (List.mem_cons_of_mem _ List.mem_cons_self)
  | id name => exact hts _ List.mem_cons_self rfl

theorem DerivesSelectors.wellFormed {ss : List Selector} (h : DerivesSelectors ts ss) :
    ss ≠ [] ∧ ∀ s ∈ ss, s.WellFormed := by
  induction h with
  | one hs =>
    refine ⟨List.cons_ne_nil _ _, fun s hmem => ?_⟩
    rw [List.mem_singleton.mp hmem]
    exact hs.wellFormed hts
  | more hs _ _ _ ih =>
    simp only [List.forall_mem_append, List.forall_mem_cons] at hts
    refine ⟨List.cons_ne_nil _ _, List.forall_mem_cons.mpr ⟨hs.wellFormed hts.1, ?_⟩⟩
    exact (ih hts.2.2.2.2).2

omit hts in
theorem DerivesComponent.wellFormed {t : Token} {v : Value} (ht : t.WellFormed)
    (h : DerivesComponent t v) : v.IsComponent := by
  cases h with
  | keyword word => exact ht
  | number x => exact ht
  | percentage x => exact ⟨ht, .inl rfl⟩
  | dimension x unit => exact ⟨ht.1, .inr ⟨ht.2.lower, fun c hc => Ascii.isUpper_of_mem_lower hc⟩⟩
  | string contents => exact ht
  | color _ => trivial

theorem DerivesComponents.wellFormed {vs : List Value} (h : DerivesComponents ts vs) :
    ∀ v ∈ vs, v.IsComponent := by
  induction h with
  | nil => exact fun v hv => nomatch hv
  | space _ ih => exact ih (List.forall_mem_cons.mp hts).2
  | component hv _ ih =>
    obtain ⟨ht, hts⟩ := List.forall_mem_cons.mp hts
    exact List.forall_mem_cons.mpr ⟨hv.wellFormed ht, ih hts⟩

omit hts in
theorem Value.IsComponent.wellFormed {v : Value} (h : v.IsComponent) : v.WellFormed := by
  cases v with
  | list values => exact h.elim
  | _ => exact h

omit hts in
theorem DerivesValue.wellFormed {vs : List Value} {v : Value} (hvs : ∀ v ∈ vs, v.IsComponent)
    (h : DerivesValue vs v) : v.WellFormed := by
  cases h with
  | one v => exact (hvs v List.mem_cons_self).wellFormed
  | list v₁ v₂ vs => exact ⟨by simp, hvs⟩

theorem DerivesDeclaration.wellFormed {d : Declaration} (h : DerivesDeclaration ts d) :
    d.WellFormed := by
  cases h with
  | @mk text name w us vs v hname hw hvs hv =>
    simp only [List.forall_mem_append, List.forall_mem_cons] at hts
    refine ⟨?_, hv.wellFormed (hvs.wellFormed hts.2.2.2)⟩
    have hlower : name.text = Ascii.lower text := by
      unfold PropertyName.ofText? at hname
      split at hname
      · cases hname
        rfl
      · cases hname
    rw [hlower]
    exact IsIdent.lower hts.1

theorem DerivesItems.wellFormed {ds : List Declaration} (h : DerivesItems ts ds) :
    ∀ d ∈ ds, d.WellFormed := by
  induction h with
  | nil => exact fun d hd => nomatch hd
  | space _ ih => exact ih (List.forall_mem_cons.mp hts).2
  | semicolon _ ih => exact ih (List.forall_mem_cons.mp hts).2
  | declaration hd _ _ ih =>
    obtain ⟨hts, hus⟩ := List.forall_mem_append.mp hts
    exact List.forall_mem_cons.mpr ⟨hd.wellFormed hts, ih hus⟩

theorem DerivesRule.wellFormed {rule : Rule} (h : DerivesRule ts rule) : rule.WellFormed := by
  cases h with
  | mk hss hw hds =>
    simp only [List.forall_mem_append, List.forall_mem_cons] at hts
    obtain ⟨hne, hselectors⟩ := hss.wellFormed hts.1
    exact ⟨hne, hselectors, hds.wellFormed hts.2.2.2.1⟩

theorem DerivesRules.wellFormed {rules : List Rule} (h : DerivesRules ts rules) :
    ∀ rule ∈ rules, rule.WellFormed := by
  induction h with
  | nil => exact fun rule hrule => nomatch hrule
  | rule hrule _ _ ih =>
    simp only [List.forall_mem_append] at hts
    exact List.forall_mem_cons.mpr ⟨hrule.wellFormed hts.1, ih hts.2.2⟩

/-- **What is derived from well-formed tokens is well formed.** -/
theorem Sheet.WellFormed.of_derives {sheet : Sheet} (h : DerivesSheet ts sheet) :
    sheet.WellFormed := by
  obtain ⟨w, us, rfl, -, hrules⟩ := h
  exact hrules.wellFormed (List.forall_mem_append.mp hts).2

end Derivations

/-! ## 5. Equality -/

theorem Value.allEqual_self {vs : List Value} (h : ∀ v ∈ vs, v.equals v = true) :
    allEqual vs vs = true := by
  induction vs with
  | nil => rfl
  | cons v vs ih =>
    obtain ⟨hv, hvs⟩ := List.forall_mem_cons.mp h
    rw [allEqual, hv, ih hvs]
    rfl

theorem Value.IsComponent.equals_self {v : Value} (h : v.IsComponent) : v.equals v = true := by
  cases v with
  | keyword word => exact decide_eq_true rfl
  | dimension x unit => simp [equals, Number.equals_self h.1]
  | number x => exact Number.equals_self h
  | color c => exact decide_eq_true rfl
  | string contents => exact decide_eq_true rfl
  | list values => exact h.elim

theorem Value.WellFormed.equals_self {v : Value} (h : v.WellFormed) : v.equals v = true := by
  cases v with
  | list values => exact allEqual_self fun v hv => (h.2 v hv).equals_self
  | _ => exact IsComponent.equals_self h

theorem pairwiseAll_self {α : Type} {related : α → α → Bool} {xs : List α}
    (h : ∀ x ∈ xs, related x x = true) : pairwiseAll related xs xs = true := by
  induction xs with
  | nil => rfl
  | cons x xs ih =>
    obtain ⟨hx, hxs⟩ := List.forall_mem_cons.mp h
    rw [pairwiseAll, hx, ih hxs]
    rfl

/-- Only the values of a sheet could be unequal to themselves. -/
theorem Sheet.equals_self {sheet : Sheet}
    (h : ∀ rule ∈ sheet.rules, ∀ d ∈ rule.declarations, d.value.equals d.value = true) :
    sheet.equals sheet = true := by
  refine pairwiseAll_self fun rule hrule => ?_
  have hdeclarations :
      pairwiseAll Declaration.equals rule.declarations rule.declarations = true := by
    refine pairwiseAll_self fun d hd => ?_
    simp [Declaration.equals, h rule hrule d hd]
  simp [Rule.equals, hdeclarations]

theorem Sheet.WellFormed.equals_self {sheet : Sheet} (h : sheet.WellFormed) :
    sheet.equals sheet = true :=
  Sheet.equals_self fun rule hrule d hd => ((h rule hrule).declarations d hd).value.equals_self

/-! ## 6. Texts -/

/-- **A sheet that was read from a text is well formed.** -/
theorem Sheet.WellFormed.of_ofText {source : String} {sheet : Sheet}
    (h : Sheet.ofText source = .ok sheet) : sheet.WellFormed := by
  rw [Sheet.ofText, Sheet.ofTokens_eq_ok, rules?_eq_some_iff_remains] at h
  have hderives : DerivesSheet (beforeEnd ((tokenize source).map (·.token))) sheet := h
  refine .of_derives ?_ hderives
  intro t ht
  obtain ⟨placed, hplaced, rfl⟩ := List.mem_map.mp ((List.takeWhile_sublist _).mem ht)
  exact wellFormed_of_mem_tokenize source placed hplaced

theorem isPropertyName_iff {name : List Char} :
    isPropertyName name = true ↔
      name ≠ [] ∧ startsDigits name = false ∧ ∀ c ∈ name, isPropertyChar c = true := by
  cases name with
  | nil => simp [isPropertyName]
  | cons c cs =>
    rw [isPropertyName, Bool.and_eq_true, List.all_eq_true, Bool.not_eq_true']
    exact ⟨fun h => ⟨List.cons_ne_nil c cs, h⟩, fun h => h.2⟩

/-- **Every sheet that was read is well formed and equal to itself.** Each rule has a selector,
    names are identifiers, properties are in lower case, and a value is a component or a list
    of components, without a line feed in a string and without a number that is none. -/
theorem ofText_wellFormed {source : String} {sheet : Sheet} (h : Sheet.ofText source = .ok sheet) :
    (∀ rule ∈ sheet.rules,
      rule.selectors ≠ [] ∧ (∀ s ∈ rule.selectors, s.WellFormed) ∧
      ∀ d ∈ rule.declarations,
        d.name.text.toList ≠ [] ∧ startsDigits d.name.text.toList = false ∧
        (∀ c ∈ d.name.text.toList, isPropertyChar c = true) ∧ d.value.WellFormed) ∧
    sheet.equals sheet = true := by
  have hwellFormed := Sheet.WellFormed.of_ofText h
  refine ⟨?_, hwellFormed.equals_self⟩
  intro rule hrule
  have hrule := hwellFormed rule hrule
  refine ⟨hrule.selectors_ne_nil, hrule.selectors, ?_⟩
  intro d hd
  obtain ⟨hne, hdigit, hchars⟩ := isPropertyName_iff.mp d.name.valid
  exact ⟨hne, hdigit, hchars, (hrule.declarations d hd).value⟩

/-- Every part of it is written in another way than it was read. -/
def foldedSheet : Sheet :=
  ⟨[⟨[.tag "A", .cls "b"],
    [⟨⟨"width", rfl⟩, .list [.dimension (.ofRank true 4609434218613702656) "e3",
      .color ⟨255, 170, 0, 255⟩, .string "x"]⟩]⟩]⟩

theorem ofText_folded :
    Sheet.ofText "A,.b\x7bWidth:-1.50E3 #FA0/**/\"x\"\x7d" = .ok foldedSheet := by
  have htokens : (tokenize "A,.b\x7bWidth:-1.50E3 #FA0/**/\"x\"\x7d").map (·.token) =
      [.ident "A", .comma, .delim '.', .ident "b", .openBrace, .ident "Width", .colon,
        .dimension (.ofRank true 4609434218613702656) "E3", .whitespace, .hash "FA0" true,
        .string "x", .closeBrace, .eof] := by decide +kernel
  have hname : PropertyName.ofText? "Width" = some ⟨"width", rfl⟩ := by decide +kernel
  have hunit : Ascii.lower "E3" = "e3" := by decide +kernel
  have hcolor : Color.ofHex? "FA0" = some ⟨255, 170, 0, 255⟩ := by decide +kernel
  rw [Sheet.ofText, Sheet.ofTokens_eq_ok, htokens]
  simp [Progress.rules?, Progress.step, stepTop, stepSelectorStart, stepSelectorEnd,
    stepSelectorGap, stepClassName, stepBlock, stepNameEnd, stepValue, Token.startsSelector,
    Token.component, Value.ofDimension, Value.ofComponents?, hname, hunit, hcolor, foldedSheet]

theorem ofText_wellFormed_folded :
    Sheet.ofText "A,.b\x7bWidth:-1.50E3 #FA0/**/\"x\"\x7d" = .ok foldedSheet ∧
    (∀ rule ∈ foldedSheet.rules,
      rule.selectors ≠ [] ∧ (∀ s ∈ rule.selectors, s.WellFormed) ∧
      ∀ d ∈ rule.declarations,
        d.name.text.toList ≠ [] ∧ startsDigits d.name.text.toList = false ∧
        (∀ c ∈ d.name.text.toList, isPropertyChar c = true) ∧ d.value.WellFormed) ∧
    foldedSheet.equals foldedSheet = true :=
  ⟨ofText_folded, ofText_wellFormed ofText_folded⟩

end StyleEngine
