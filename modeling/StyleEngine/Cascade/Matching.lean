import StyleEngine.Css.Sheet
import StyleEngine.Dom.Node

/-!
# `Cascade/Matching.lean` — which nodes a selector is about

A selector is about elements only; no selector matches a text. Names are compared as
they are written, in case too.
-/

set_option autoImplicit false

namespace StyleEngine

/-- Whether the selector is about an element. -/
def Selector.matchesElement : Selector → Element → Bool
  | .universal, _ => true
  | .tag name, e => e.tagName = name
  | .cls name, e => e.hasClass name
  | .id name, e => e.id? = some name

/-- Whether the selector is about a node. -/
def Selector.matches (selector : Selector) (kind : NodeKind) : Bool :=
  match kind.element? with
  | some e => selector.matchesElement e
  | none => false

/-- Whether one of the selectors of a rule is about a node. -/
def Rule.matches (rule : Rule) (kind : NodeKind) : Bool :=
  rule.selectors.any (·.matches kind)

end StyleEngine
