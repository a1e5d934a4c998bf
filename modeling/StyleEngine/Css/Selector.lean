/-!
# `Css/Selector.lean` — simple selectors and their rank

A selector names one condition on an element. With one condition there is only one
thing that makes a selector weigh more than another, its kind, and so the specificity
of a selector *is* its kind: universal, then tag, then class, then id.
-/

set_option autoImplicit false

namespace StyleEngine

/-- One condition on an element. -/
inductive Selector where
  | universal
  | tag (name : String)
  | cls (name : String)
  | id (name : String)
deriving DecidableEq

/-- The weight of a selector in the cascade, lightest first. -/
inductive Specificity where
  | universal
  | tag
  | cls
  | id
deriving DecidableEq

namespace Specificity

/-- Specificities in the order of their weight. -/
def all : List Specificity := [.universal, .tag, .cls, .id]

/-- The place of a specificity in the order. -/
def level : Specificity → Nat
  | .universal => 0
  | .tag => 1
  | .cls => 2
  | .id => 3

/-- No heavier than. -/
def atMost (s₁ s₂ : Specificity) : Bool := s₁.level ≤ s₂.level

end Specificity

namespace Selector

def specificity : Selector → Specificity
  | .universal => .universal
  | .tag _ => .tag
  | .cls _ => .cls
  | .id _ => .id

/-- The selector as a style sheet writes it. -/
def text : Selector → String
  | .universal => "*"
  | .tag name => name
  | .cls name => "." ++ name
  | .id name => "#" ++ name

end Selector

end StyleEngine
