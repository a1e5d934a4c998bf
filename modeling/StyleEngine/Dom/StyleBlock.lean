import StyleEngine.Dom.Node

/-!
# `Dom/StyleBlock.lean` — style sheets inside a document

A document carries style sheets as the text of its `style` elements. The blocks are
joined in document order, each text on lines of its own. What stands inside a `style`
element is text or nothing: elements below one are not searched.
-/

set_option autoImplicit false

namespace StyleEngine

/-- Whether a node is an element whose contents are a style sheet. -/
def NodeKind.isStyle : NodeKind → Bool
  | .element e => Ascii.sameIgnoringCase e.tagName "style"
  | .text _ => false

namespace Node

/-- The texts directly among the nodes, each ended by a line feed. -/
def ownText (nodes : List Node) : String :=
  String.join ((nodes.filterMap (·.kind.text?)).map (· ++ "\n"))

mutual

/-- The style sheets of a document, joined. -/
def styleText : Node → String
  | ⟨kind, children⟩ => if kind.isStyle then ownText children else styleTextOf children

/-- The style sheets below the nodes, joined. -/
def styleTextOf : List Node → String
  | [] => ""
  | node :: nodes => node.styleText ++ styleTextOf nodes

end

end Node

end StyleEngine
