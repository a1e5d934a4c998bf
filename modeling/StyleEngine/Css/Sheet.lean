import StyleEngine.Css.PropertyName
import StyleEngine.Css.Selector
import StyleEngine.Css.Value

/-!
# `Css/Sheet.lean` — style sheets

A sheet is a list of rules, a rule a list of selectors and a list of declarations. All
three lists keep the order of the text, because the cascade falls back on it.
-/

set_option autoImplicit false

namespace StyleEngine

/-- A value for a property. -/
structure Declaration where
  name : PropertyName
  value : Value

/-- Declarations for the elements that one of the selectors matches. -/
structure Rule where
  selectors : List Selector
  declarations : List Declaration

/-- A style sheet. -/
structure Sheet where
  rules : List Rule

namespace Sheet

def empty : Sheet := ⟨[]⟩

/-- How many declarations the rules hold together. -/
def declarationCount (sheet : Sheet) : Nat :=
  (sheet.rules.flatMap (·.declarations)).length

end Sheet

/-! ## Equality

Numbers compare as numbers, so this is coarser than `=` on the zeros and fails on a
NaN. -/

def Declaration.equals (d₁ d₂ : Declaration) : Bool :=
  d₁.name = d₂.name && d₁.value.equals d₂.value

/-- Whether two lists have the same length and related members. -/
def pairwiseAll {α : Type} (related : α → α → Bool) : List α → List α → Bool
  | [], [] => true
  | x :: xs, y :: ys => related x y && pairwiseAll related xs ys
  | _, _ => false

def Rule.equals (r₁ r₂ : Rule) : Bool :=
  r₁.selectors = r₂.selectors && pairwiseAll Declaration.equals r₁.declarations r₂.declarations

def Sheet.equals (s₁ s₂ : Sheet) : Bool :=
  pairwiseAll Rule.equals s₁.rules s₂.rules

end StyleEngine
