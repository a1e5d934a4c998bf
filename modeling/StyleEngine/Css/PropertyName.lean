import StyleEngine.Text.Ascii

/-!
# `Css/PropertyName.lean` — names of properties

A property name is a non-empty run of lower case letters, digits, hyphens and
underscores that does not begin with a digit. What is written in a sheet may use
capitals; they are folded before anything else looks at the name. So two spellings of
one property are one name, and the type has no other.
-/

set_option autoImplicit false

namespace StyleEngine

/-- What may stand in a folded property name. -/
def isPropertyChar (c : Char) : Bool :=
  c.isLower || c.isDigit || c = '-' || c = '_'

/-- Whether the characters are a folded property name. -/
def isPropertyName : List Char → Bool
  | [] => false
  | c :: cs => !c.isDigit && (c :: cs).all isPropertyChar

/-- The name of a property, in lower case. -/
structure PropertyName where
  text : String
  valid : isPropertyName text.toList = true
deriving DecidableEq

namespace PropertyName

/-- Folds case, and accepts what then is a name. -/
def ofText? (s : String) : Option PropertyName :=
  if h : isPropertyName (Ascii.lower s).toList then some ⟨Ascii.lower s, h⟩ else none

theorem ext {n₁ n₂ : PropertyName} (h : n₁.text = n₂.text) : n₁ = n₂ := by
  cases n₁
  cases n₂
  cases h
  rfl

end PropertyName

end StyleEngine
