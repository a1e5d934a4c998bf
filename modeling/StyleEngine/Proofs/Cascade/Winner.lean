import StyleEngine.Cascade.Styled
import StyleEngine.Proofs.Cascade.Order

/-!
# `Proofs/Cascade/Winner.lean` — which declaration a node ends up with

A styled node never compares declarations. It folds the rules of the ordered sheet into a
map, and what is put in later replaces what was there. The cascade says something else: of
all declarations that bear on a property of a node, the greatest counts, by the weight of
the selector, then the place of the rule, then the place in the rule.

This file joins the two.

1. A fold that replaces answers with the **last** entry that has an answer
   (`get?_specificValues`).
2. In an ordered sheet the last is the **greatest** (`exists_wins_of_get?`), because its
   entries go up (`Sheet.pairwise_rank_ordered`).
3. The tree of styled nodes has at every path the values of the node that stands there
   (`Styled.at?_ofNode`), which gives the statement for documents (`value_build_iff_wins`).

Ranks are compared by `≤` and a winner need not be unique as a contender: a rule that says
`p, p { … }` contends twice with one rank. It is the declaration that is unique
(`Sheet.Wins.declaration_eq`).
-/

set_option autoImplicit false

namespace StyleEngine

/-! ## The last member with an answer -/

theorem findSome?_reverse_eq_some_iff {α β : Type} {f : α → Option β} {l : List α} {b : β} :
    l.reverse.findSome? f = some b ↔
      ∃ before a behind, l = before ++ a :: behind ∧ f a = some b ∧ ∀ x ∈ behind, f x = none := by
  rw [List.findSome?_eq_some_iff]
  constructor
  · rintro ⟨l₁, a, l₂, hl, ha, hnone⟩
    refine ⟨l₂.reverse, a, l₁.reverse, ?_, ha, fun x hx => hnone x (List.mem_reverse.mp hx)⟩
    rw [← List.reverse_reverse l, hl]
    simp
  · rintro ⟨before, a, behind, hl, ha, hnone⟩
    refine ⟨behind.reverse, a, before.reverse, ?_, ha, fun x hx => hnone x (List.mem_reverse.mp hx)⟩
    rw [hl]
    simp

/-- A fold whose steps replace: the last step with an answer decides, and without one the
    dictionary at the start. -/
theorem get?_foldl_replace {α β : Type} {step : Dict α → β → Dict α} {answer : β → Option α}
    {name : String} (hstep : ∀ d x, (step d x).get? name = (answer x).or (d.get? name))
    (l : List β) (d : Dict α) :
    (l.foldl step d).get? name = (l.reverse.findSome? answer).or (d.get? name) := by
  induction l generalizing d with
  | nil => simp
  | cons x l ih =>
    rw [List.foldl_cons, ih, hstep, List.reverse_cons, List.findSome?_append, Option.or_assoc]
    cases hx : answer x with
    | none => simp [hx]
    | some a => simp [hx]

/-! ## What the fold over the rules answers -/

/-- The value that a declaration gives to a property. -/
def Declaration.valueFor? (property : String) (d : Declaration) : Option Value :=
  if property = d.name.text then some d.value else none

/-- The value that a rule gives to a property of a node: the last one it declares. -/
def Rule.valueFor? (kind : NodeKind) (property : String) (rule : Rule) : Option Value :=
  if rule.matches kind then rule.declarations.reverse.findSome? (·.valueFor? property) else none

theorem get?_declare (values : PropertyMap) (declarations : List Declaration) (property : String) :
    (values.declare declarations).get? property =
      (declarations.reverse.findSome? (·.valueFor? property)).or (values.get? property) := by
  refine get?_foldl_replace (fun values d => ?_) declarations values
  rw [Dict.get?_insert, Declaration.valueFor?]
  split <;> rfl

theorem get?_apply (kind : NodeKind) (values : PropertyMap) (rule : Rule) (property : String) :
    (values.apply kind rule).get? property =
      (rule.valueFor? kind property).or (values.get? property) := by
  unfold PropertyMap.apply Rule.valueFor?
  split
  · exact get?_declare values rule.declarations property
  · rfl

/-- **The values of a node, property by property**: the last rule that gives one. -/
theorem get?_specificValues (rules : List Rule) (kind : NodeKind) (property : String) :
    (specificValues rules kind).get? property =
      rules.reverse.findSome? (·.valueFor? kind property) := by
  rw [specificValues, get?_foldl_replace (fun values rule => get?_apply kind values rule property)]
  simp

/-- A rule that answers is about the node, and its answer is the last of its lines with
    the name. -/
theorem Rule.exists_of_valueFor? {kind : NodeKind} {property : String} {rule : Rule} {v : Value}
    (h : rule.valueFor? kind property = some v) :
    rule.matches kind = true ∧ ∃ above d below, rule.declarations = above ++ d :: below ∧
      d.name.text = property ∧ d.value = v ∧ ∀ x ∈ below, x.valueFor? property = none := by
  rw [Rule.valueFor?] at h
  split at h
  · rename_i hmatch
    obtain ⟨above, d, below, hlines, hd, hbelow⟩ := findSome?_reverse_eq_some_iff.mp h
    rw [Declaration.valueFor?] at hd
    split at hd
    · rename_i hname
      exact ⟨hmatch, above, d, below, hlines, hname.symm, Option.some.inj hd, hbelow⟩
    · cases hd
  · cases h

/-- A line with the name is none of those below the last one. -/
theorem Declaration.line_le {property : String} {above below : List Declaration}
    {d d' : Declaration} {line : Nat} (hbelow : ∀ x ∈ below, x.valueFor? property = none)
    (h : (above ++ d :: below)[line]? = some d') (hname : d'.name.text = property) :
    line ≤ above.length := by
  refine Nat.le_of_not_lt ?_
  intro hlt
  rw [List.getElem?_append_right hlt.le, List.getElem?_cons] at h
  rw [if_neg (Nat.sub_ne_zero_of_lt hlt)] at h
  have hnone := hbelow d' (List.mem_of_getElem? h)
  simp [Declaration.valueFor?, hname] at hnone

@[simp] theorem Entry.matches_rule (e : Entry) (kind : NodeKind) :
    e.rule.matches kind = e.selector.matches kind := by
  simp [Entry.rule, Rule.matches]

/-! ## Contenders -/

/-- A declaration, with the selector through which it reaches a node. `place` is that of
    the rule in the sheet, `line` that of the declaration in its rule. -/
structure Contender where
  place : Nat
  selector : Selector
  line : Nat
  declaration : Declaration

namespace Contender

/-- Weight of the selector, then place of the rule, then place in the rule. -/
def rank (c : Contender) : Nat ×ₗ Nat ×ₗ Nat :=
  toLex (c.selector.specificity.level, toLex (c.place, c.line))

theorem rank_le_of_entry {c c' : Contender} {e e' : Entry}
    (he : e.place = c.place ∧ e.selector = c.selector)
    (he' : e'.place = c'.place ∧ e'.selector = c'.selector) (h : e'.rank ≤ e.rank)
    (hline : c'.place = c.place → c'.line ≤ c.line) : c'.rank ≤ c.rank := by
  rw [Entry.rank, Entry.rank, Prod.Lex.toLex_le_toLex, he.1, he.2, he'.1, he'.2] at h
  rw [rank, rank, Prod.Lex.toLex_le_toLex, Prod.Lex.toLex_le_toLex]
  rcases h with hlt | ⟨heq, hle⟩
  · exact Or.inl hlt
  · refine Or.inr ⟨heq, ?_⟩
    rcases Nat.lt_or_eq_of_le hle with hlt | hplace
    · exact Or.inl hlt
    · exact Or.inr ⟨hplace, hline hplace⟩

end Contender

namespace Sheet

/-- A declaration bears on a property of a node: it is in a rule of which a selector is
    about the node, and its name is that of the property. -/
def Contends (sheet : Sheet) (kind : NodeKind) (property : String) (c : Contender) : Prop :=
  ∃ rule, sheet.rules[c.place]? = some rule ∧
    c.selector ∈ rule.selectors ∧ c.selector.matches kind = true ∧
    rule.declarations[c.line]? = some c.declaration ∧ c.declaration.name.text = property

/-- A contender that no other one outranks. -/
def Wins (sheet : Sheet) (kind : NodeKind) (property : String) (c : Contender) : Prop :=
  sheet.Contends kind property c ∧ ∀ c', sheet.Contends kind property c' → c'.rank ≤ c.rank

variable {sheet : Sheet} {kind : NodeKind} {property : String}

theorem Wins.declaration_eq {c c' : Contender} (h : sheet.Wins kind property c)
    (h' : sheet.Wins kind property c') : c.declaration = c'.declaration := by
  have hrank : c.rank = c'.rank := le_antisymm (h'.2 c h.1) (h.2 c' h'.1)
  simp only [Contender.rank, EmbeddingLike.apply_eq_iff_eq, Prod.mk.injEq] at hrank
  obtain ⟨_, hplace, hline⟩ := hrank
  obtain ⟨rule, hrule, _, _, hdecl, _⟩ := h.1
  obtain ⟨rule', hrule', _, _, hdecl', _⟩ := h'.1
  rw [hplace, hrule'] at hrule
  obtain rfl := Option.some.inj hrule
  rw [hline, hdecl'] at hdecl
  exact (Option.some.inj hdecl).symm

/-- A rule competes with the heaviest of those of its selectors that are about the node. -/
theorem Wins.heaviest {c : Contender} (h : sheet.Wins kind property c) {rule : Rule}
    (hrule : sheet.rules[c.place]? = some rule) {selector : Selector}
    (hmem : selector ∈ rule.selectors) (hmatch : selector.matches kind = true) :
    selector.specificity.level ≤ c.selector.specificity.level := by
  obtain ⟨rule', hrule', _, _, hdecl, hname⟩ := h.1
  rw [hrule] at hrule'
  obtain rfl := Option.some.inj hrule'
  have hle := h.2 { c with selector := selector } ⟨rule, hrule, hmem, hmatch, hdecl, hname⟩
  rw [Contender.rank, Contender.rank, Prod.Lex.toLex_le_toLex] at hle
  rcases hle with hlt | ⟨heq, _⟩
  · exact Nat.le_of_lt hlt
  · exact heq.le

/-! ## The last is the greatest -/

theorem Contends.exists_entry {c : Contender} (h : sheet.Contends kind property c) :
    ∃ e ∈ sheet.ordered, (e.place = c.place ∧ e.selector = c.selector) ∧
      e.declarations[c.line]? = some c.declaration ∧ e.rule.valueFor? kind property ≠ none := by
  obtain ⟨rule, hrule, hsel, hmatch, hdecl, hname⟩ := h
  refine ⟨⟨c.place, c.selector, rule.declarations⟩,
    mem_ordered.mpr (mem_entries.mpr ⟨rule, hrule, hsel, rfl⟩), ⟨rfl, rfl⟩, hdecl, ?_⟩
  intro hnone
  rw [Rule.valueFor?, Entry.matches_rule, if_pos hmatch, List.findSome?_eq_none_iff] at hnone
  have := hnone c.declaration (List.mem_reverse.mpr (List.mem_of_getElem? hdecl))
  simp [Declaration.valueFor?, hname] at this

/-- What answers does not stand behind the last that answers. -/
theorem rank_le_of_answer {before behind : List Entry} {e e' : Entry}
    (hsplit : sheet.ordered = before ++ e :: behind)
    (hbehind : ∀ x ∈ behind, x.rule.valueFor? kind property = none)
    (he' : e' ∈ sheet.ordered) (hanswer : e'.rule.valueFor? kind property ≠ none) :
    e'.rank ≤ e.rank := by
  have hup := sheet.pairwise_rank_ordered
  rw [hsplit] at hup he'
  rcases List.mem_append.mp he' with hbefore | hafter
  · exact (List.pairwise_append.mp hup).2.2 e' hbefore e List.mem_cons_self
  · rcases List.mem_cons.mp hafter with rfl | hafter
    · exact le_refl _
    · exact absurd (hbehind e' hafter) hanswer

/-- **The last rule with an answer holds the winner.** -/
theorem exists_wins_of_get? {v : Value}
    (h : (specificValues sheet.bySpecificity.rules kind).get? property = some v) :
    ∃ c, sheet.Wins kind property c ∧ c.declaration.value = v := by
  rw [get?_specificValues, rules_bySpecificity, ← List.map_reverse, List.findSome?_map,
    findSome?_reverse_eq_some_iff] at h
  obtain ⟨before, e, behind, hsplit, hvalue, hbehind⟩ := h
  have he : e ∈ sheet.ordered := by simp [hsplit]
  obtain ⟨rule, hrule, hsel, hdecls⟩ := mem_entries.mp (mem_ordered.mp he)
  obtain ⟨hmatch, above, d, below, hlines, hname, hd, hbelow⟩ := Rule.exists_of_valueFor? hvalue
  rw [Entry.matches_rule] at hmatch
  have hlines' : rule.declarations = above ++ d :: below := by
    rw [← hdecls]
    exact hlines
  refine ⟨⟨e.place, e.selector, above.length, d⟩, ⟨⟨rule, hrule, hsel, hmatch, ?_, hname⟩, ?_⟩, hd⟩
  · rw [hlines']
    simp
  · intro c' hc'
    obtain ⟨e', he', heq', -, hanswer⟩ := hc'.exists_entry
    refine Contender.rank_le_of_entry ⟨rfl, rfl⟩ heq'
      (rank_le_of_answer hsplit hbehind he' hanswer) ?_
    -- In the same rule the lines decide.
    intro hplace
    obtain ⟨rule', hrule', _, _, hdecl, hname'⟩ := hc'
    rw [hplace, hrule] at hrule'
    obtain rfl := Option.some.inj hrule'
    rw [hlines'] at hdecl
    exact Declaration.line_le hbelow hdecl hname'

theorem Contends.get?_ne_none {c : Contender} (h : sheet.Contends kind property c) :
    (specificValues sheet.bySpecificity.rules kind).get? property ≠ none := by
  obtain ⟨e, he, _, _, hanswer⟩ := h.exists_entry
  rw [get?_specificValues, rules_bySpecificity, ← List.map_reverse, List.findSome?_map]
  intro hnone
  exact hanswer (List.findSome?_eq_none_iff.mp hnone e (List.mem_reverse.mpr he))

theorem get?_eq_some_iff_wins {v : Value} :
    (specificValues sheet.bySpecificity.rules kind).get? property = some v ↔
      ∃ c, sheet.Wins kind property c ∧ c.declaration.value = v := by
  refine ⟨exists_wins_of_get?, ?_⟩
  rintro ⟨c, hwins, rfl⟩
  obtain ⟨w, hw⟩ := Option.ne_none_iff_exists'.mp hwins.1.get?_ne_none
  obtain ⟨c', hwins', rfl⟩ := exists_wins_of_get? hw
  rw [hw, hwins.declaration_eq hwins']

theorem get?_eq_none_iff_contends :
    (specificValues sheet.bySpecificity.rules kind).get? property = none ↔
      ¬ ∃ c, sheet.Contends kind property c := by
  constructor
  · rintro hnone ⟨c, hc⟩
    exact hc.get?_ne_none hnone
  · intro hno
    cases hget : (specificValues sheet.bySpecificity.rules kind).get? property with
    | none => rfl
    | some v =>
      obtain ⟨c, hwins, _⟩ := exists_wins_of_get? hget
      exact absurd ⟨c, hwins.1⟩ hno

end Sheet

/-! ## Documents -/

namespace Styled

theorem ofNodes_eq_map (rules : List Rule) (nodes : List Node) :
    ofNodes rules nodes = nodes.map (ofNode rules) := by
  induction nodes with
  | nil => rfl
  | cons node nodes ih => rw [ofNodes, ih, List.map_cons]

theorem at?_ofNode (rules : List Rule) (root : Node) (path : List Nat) :
    (ofNode rules root).at? path = (root.at? path).map (ofNode rules) := by
  induction path generalizing root with
  | nil => rfl
  | cons i path ih =>
    obtain ⟨kind, children⟩ := root
    rw [ofNode, at?, Node.at?, ofNodes_eq_map, List.getElem?_map]
    cases children[i]? with
    | none => rfl
    | some child => exact ih child

theorem value_ofNode (rules : List Rule) (node : Node) (property : String) :
    (ofNode rules node).value property = (specificValues rules node.kind).get? property := by
  obtain ⟨kind, children⟩ := node
  rfl

end Styled

/-- **The cascade.** At every path of a document stands a styled node, and its value for a
    name is that of the declaration that wins there; it has none exactly when nothing
    contends. A rule with several selectors contends with the heaviest that is about the
    node. -/
theorem value_build_iff_wins (root : Node) (sheet : Sheet) (path : List Nat) (node : Node)
    (h : root.at? path = some node) (property : String) :
    ∃ styled, (Styled.build root sheet).at? path = some styled ∧
      (∀ v, styled.value property = some v ↔
        ∃ c, sheet.Wins node.kind property c ∧ c.declaration.value = v) ∧
      (styled.value property = none ↔ ¬ ∃ c, sheet.Contends node.kind property c) ∧
      ∀ c rule selector, sheet.Wins node.kind property c → sheet.rules[c.place]? = some rule →
        selector ∈ rule.selectors → selector.matches node.kind = true →
        selector.specificity.level ≤ c.selector.specificity.level := by
  refine ⟨Styled.ofNode sheet.bySpecificity.rules node, ?_, ?_, ?_, ?_⟩
  · rw [Styled.build, Styled.at?_ofNode, h]
    rfl
  · intro v
    rw [Styled.value_ofNode]
    exact Sheet.get?_eq_some_iff_wins
  · rw [Styled.value_ofNode]
    exact Sheet.get?_eq_none_iff_contends
  · intro c rule selector hwins hrule hmem hmatch
    exact hwins.heaviest hrule hmem hmatch

/-- Of two rules with a selector and a line each, the first wins if its selector is heavier. -/
theorem Sheet.wins_of_heavier {kind : NodeKind} {property : String} {s₁ s₂ : Selector}
    {d₁ d₂ : Declaration} (hmatch : s₁.matches kind = true) (hname : d₁.name.text = property)
    (hheavier : s₂.specificity.level < s₁.specificity.level) :
    Sheet.Wins ⟨[⟨[s₁], [d₁]⟩, ⟨[s₂], [d₂]⟩]⟩ kind property ⟨0, s₁, 0, d₁⟩ := by
  refine ⟨⟨_, rfl, List.mem_singleton.mpr rfl, hmatch, rfl, hname⟩, ?_⟩
  rintro ⟨place, selector, line, declaration⟩ ⟨rule, hrule, hsel, _, hdecl, _⟩
  match place with
  | 0 =>
    obtain rfl := Option.some.inj hrule
    obtain rfl := List.mem_singleton.mp hsel
    match line with
    | 0 => exact le_refl _
    | line + 1 => cases hdecl
  | 1 =>
    obtain rfl := Option.some.inj hrule
    obtain rfl := List.mem_singleton.mp hsel
    exact Prod.Lex.toLex_le_toLex.mpr (Or.inl hheavier)
  | place + 2 => cases hrule

/-- A class before a tag: `.note { color: blue } p { color: red }`. -/
def noteSheet : Sheet :=
  ⟨[⟨[.cls "note"], [⟨⟨"color", by decide⟩, .keyword "blue"⟩]⟩,
    ⟨[.tag "p"], [⟨⟨"color", by decide⟩, .keyword "red"⟩]⟩]⟩

def noteParagraph : Node := .ofElement "p" [("class", "note")] []

theorem noteSheet_wins :
    noteSheet.Wins noteParagraph.kind "color"
      ⟨0, .cls "note", 0, ⟨⟨"color", by decide⟩, .keyword "blue"⟩⟩ :=
  Sheet.wins_of_heavier (by decide) rfl (by decide)

theorem value_build_note :
    (Node.ofElement "div" [] [noteParagraph]).at? [0] = some noteParagraph ∧
      ∃ styled, (Styled.build (.ofElement "div" [] [noteParagraph]) noteSheet).at? [0] = some styled ∧
        styled.value "color" = some (.keyword "blue") := by
  obtain ⟨styled, hat, hvalue, _⟩ := value_build_iff_wins (.ofElement "div" [] [noteParagraph])
    noteSheet [0] noteParagraph rfl "color"
  exact ⟨rfl, styled, hat, (hvalue _).mpr ⟨_, noteSheet_wins, rfl⟩⟩

end StyleEngine
