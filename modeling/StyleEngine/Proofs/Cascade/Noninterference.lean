import Mathlib.Data.List.Forall2
import StyleEngine.Proofs.Cascade.Winner

/-!
# `Proofs/Cascade/Noninterference.lean` — what the cascade does not look at

A document carries more than its style depends on: texts, attributes other than `id` and
`class`, and in `class` the order, the repetition and the spacing of the words. Two documents
that differ in nothing else are `Alike`, and **`build_eq_of_alike`** says that they are styled
alike, at every path and under every sheet.

The relation is read off the selectors: for each kind of selector there is one thing it asks
of an element, and `Element.Alike` lists these (`Selector.matchesElement_eq`). From there on
nothing needs to be known about selectors. Rules that match alike give equal values
(`specificValues_eq_of_alike`), and the default display looks at the tag name only.
-/

set_option autoImplicit false

namespace StyleEngine

/-! ## 1. Documents that look the same to a sheet -/

structure Element.Alike (e₁ e₂ : Element) : Prop where
  tagName : e₁.tagName = e₂.tagName
  id : e₁.id? = e₂.id?
  /-- The words of the class attribute as a set. Without the attribute it is empty. -/
  classes : ∀ word, word ∈ e₁.classes ↔ word ∈ e₂.classes

inductive NodeKind.Alike : NodeKind → NodeKind → Prop where
  | text (contents₁ contents₂ : String) : Alike (.text contents₁) (.text contents₂)
  | element {e₁ e₂ : Element} (h : e₁.Alike e₂) : Alike (.element e₁) (.element e₂)

/-- Documents of one shape whose nodes are alike, each with the one in its place. -/
inductive Node.Alike : Node → Node → Prop where
  | mk {kind₁ kind₂ : NodeKind} {children₁ children₂ : List Node} (hkind : kind₁.Alike kind₂)
      (hchildren : List.Forall₂ Node.Alike children₁ children₂) :
      Node.Alike ⟨kind₁, children₁⟩ ⟨kind₂, children₂⟩

theorem Node.Alike.kind {n₁ n₂ : Node} (h : n₁.Alike n₂) : n₁.kind.Alike n₂.kind := by
  cases h with
  | mk hkind _ => exact hkind

/-! ## 2. Selectors and rules -/

theorem Element.Alike.hasClass_eq {e₁ e₂ : Element} (h : e₁.Alike e₂) (name : String) :
    e₁.hasClass name = e₂.hasClass name := by
  rw [Element.hasClass, Element.hasClass, Bool.eq_iff_iff, List.contains_iff_mem,
    List.contains_iff_mem]
  exact h.classes name

theorem Selector.matchesElement_eq {e₁ e₂ : Element} (h : e₁.Alike e₂) (s : Selector) :
    s.matchesElement e₁ = s.matchesElement e₂ := by
  cases s with
  | universal => rfl
  | tag name => rw [matchesElement, matchesElement, h.tagName]
  | cls name => exact h.hasClass_eq name
  | id name => rw [matchesElement, matchesElement, h.id]

section Kinds

variable {kind₁ kind₂ : NodeKind}

theorem Selector.matches_eq (h : kind₁.Alike kind₂) (s : Selector) :
    s.matches kind₁ = s.matches kind₂ := by
  cases h with
  | text => rfl
  | element h => exact s.matchesElement_eq h

theorem Rule.matches_eq (h : kind₁.Alike kind₂) (rule : Rule) :
    rule.matches kind₁ = rule.matches kind₂ := by
  have hselectors : (fun s : Selector => s.matches kind₁) = fun s => s.matches kind₂ := by
    funext s
    exact s.matches_eq h
  rw [Rule.matches, Rule.matches, hselectors]

/-- What one rule does to the values. -/
theorem apply_eq_of_alike (h : kind₁.Alike kind₂) (values : PropertyMap) (rule : Rule) :
    values.apply kind₁ rule = values.apply kind₂ rule := by
  rw [PropertyMap.apply, PropertyMap.apply, rule.matches_eq h]

/-- **Kinds that are alike get the same values**, from rules in any order. -/
theorem specificValues_eq_of_alike (h : kind₁.Alike kind₂) (rules : List Rule) :
    specificValues rules kind₁ = specificValues rules kind₂ := by
  rw [specificValues, specificValues]
  generalize Dict.empty = values
  induction rules generalizing values with
  | nil => rfl
  | cons rule rules ih =>
    rw [List.foldl_cons, List.foldl_cons, apply_eq_of_alike h]
    exact ih _

theorem tagName?_eq_of_alike (h : kind₁.Alike kind₂) : kind₁.tagName? = kind₂.tagName? := by
  cases h with
  | text => rfl
  | element h => exact congrArg some h.tagName

end Kinds

/-! ## 3. Documents -/

/-- A path leads nowhere in both documents, or to nodes that are alike. -/
theorem Node.Alike.at? {n₁ n₂ : Node} (h : n₁.Alike n₂) (path : List Nat) :
    (n₁.at? path = none ∧ n₂.at? path = none) ∨
    ∃ m₁ m₂, n₁.at? path = some m₁ ∧ n₂.at? path = some m₂ ∧ m₁.Alike m₂ := by
  induction path generalizing n₁ n₂ with
  | nil => exact .inr ⟨n₁, n₂, rfl, rfl, h⟩
  | cons i path ih =>
    obtain ⟨hkind, hchildren⟩ := h
    rename_i kind₁ kind₂ children₁ children₂
    have hlength := hchildren.length_eq
    rw [Node.at?, Node.at?]
    dsimp only
    by_cases hi : i < children₁.length
    · rw [List.getElem?_eq_getElem hi, List.getElem?_eq_getElem (hlength ▸ hi)]
      exact ih (hchildren.get hi (hlength ▸ hi))
    · rw [List.getElem?_eq_none (Nat.le_of_not_lt hi),
        List.getElem?_eq_none (hlength ▸ Nat.le_of_not_lt hi)]
      exact .inl ⟨rfl, rfl⟩

namespace Styled

variable {s₁ s₂ : Styled}

theorem value_eq (hvalues : s₁.values = s₂.values) (name : String) :
    s₁.value name = s₂.value name := by
  rw [value, value, hvalues]

theorem lookup_eq (hvalues : s₁.values = s₂.values) (name fallback : String) (default : Value) :
    s₁.lookup name fallback default = s₂.lookup name fallback default := by
  rw [lookup, lookup, value_eq hvalues name, value_eq hvalues fallback]

/-- The warnings that asking for the display gives are the same, too. -/
theorem display_eq (hvalues : s₁.values = s₂.values)
    (htag : s₁.kind.tagName? = s₂.kind.tagName?) : s₁.display = s₂.display := by
  rw [display, display, value_eq hvalues, htag]

theorem values_ofNode_eq {n₁ n₂ : Node} (h : n₁.Alike n₂) (rules : List Rule) :
    (ofNode rules n₁).values = (ofNode rules n₂).values := by
  cases h with
  | mk hkind _ => exact specificValues_eq_of_alike hkind rules

theorem tagName?_ofNode_eq {n₁ n₂ : Node} (h : n₁.Alike n₂) (rules : List Rule) :
    (ofNode rules n₁).kind.tagName? = (ofNode rules n₂).kind.tagName? := by
  cases h with
  | mk hkind _ => exact tagName?_eq_of_alike hkind

end Styled

/-- **Styling reads nothing else.** Documents that are alike have, at every path, nodes with
    the same values, the same answers and the same display, or none. -/
theorem build_eq_of_alike {root₁ root₂ : Node} (h : root₁.Alike root₂) (sheet : Sheet)
    (path : List Nat) :
    ((Styled.build root₁ sheet).at? path = none ∧ (Styled.build root₂ sheet).at? path = none) ∨
    ∃ styled₁ styled₂, (Styled.build root₁ sheet).at? path = some styled₁ ∧
      (Styled.build root₂ sheet).at? path = some styled₂ ∧
      styled₁.values = styled₂.values ∧
      (∀ name, styled₁.value name = styled₂.value name) ∧
      (∀ name fallback default,
        styled₁.lookup name fallback default = styled₂.lookup name fallback default) ∧
      styled₁.display = styled₂.display := by
  rw [Styled.build, Styled.build, Styled.at?_ofNode, Styled.at?_ofNode]
  obtain ⟨hnone₁, hnone₂⟩ | ⟨node₁, node₂, hsome₁, hsome₂, halike⟩ := h.at? path
  · rw [hnone₁, hnone₂]
    exact .inl ⟨rfl, rfl⟩
  · have hvalues := Styled.values_ofNode_eq halike sheet.bySpecificity.rules
    have htag := Styled.tagName?_ofNode_eq halike sheet.bySpecificity.rules
    rw [hsome₁, hsome₂]
    exact .inr ⟨_, _, rfl, rfl, hvalues, Styled.value_eq hvalues, Styled.lookup_eq hvalues,
      Styled.display_eq hvalues htag⟩

/-- A note, and one that says the same to a sheet at greater length. -/
def shortNote : Node :=
  .ofElement "p" [("id", "a"), ("class", "note big")] [.ofText "one"]

def longNote : Node :=
  .ofElement "p" [("title", "t"), ("class", " big\tnote  big "), ("id", "a")] [.ofText "another"]

theorem shortNote_alike_longNote : shortNote.Alike longNote := by
  have hshort : Element.classes ⟨"p", .ofList [("id", "a"), ("class", "note big")]⟩ =
      ["note", "big"] := by decide
  have hlong : Element.classes ⟨"p", .ofList [("title", "t"), ("class", " big\tnote  big "),
      ("id", "a")]⟩ = ["big", "note", "big"] := by decide
  refine .mk (.element ⟨rfl, by decide, ?_⟩) (.cons (.mk (.text _ _) .nil) .nil)
  intro word
  rw [hshort, hlong]
  simp [or_comm]

theorem build_shortNote_longNote :
    shortNote.Alike longNote ∧
    ∃ styled₁ styled₂, (Styled.build shortNote noteSheet).at? [] = some styled₁ ∧
      (Styled.build longNote noteSheet).at? [] = some styled₂ ∧
      styled₁.value "color" = styled₂.value "color" ∧ styled₁.display = styled₂.display := by
  refine ⟨shortNote_alike_longNote, ?_⟩
  obtain ⟨hnone, -⟩ | ⟨styled₁, styled₂, hsome₁, hsome₂, -, hvalue, -, hdisplay⟩ :=
    build_eq_of_alike shortNote_alike_longNote noteSheet []
  · cases hnone
  · exact ⟨styled₁, styled₂, hsome₁, hsome₂, hvalue "color", hdisplay⟩

end StyleEngine
