import StyleEngine.Dom.Node
import StyleEngine.Json.Basic

/-!
# `Dom/Export.lean` — document trees as JSON

A text is written as its contents, an element as its tag name and attributes, and a
node as what it is and its children.
-/

set_option autoImplicit false

namespace StyleEngine

def Element.toJson (e : Element) : Json :=
  .object [("tagName", .string e.tagName),
    ("attributes", .object (e.attributes.entries.map fun (name, value) => (name, .string value)))]

def NodeKind.toJson : NodeKind → Json
  | .text contents => .string contents
  | .element e => e.toJson

mutual

def Node.toJson : Node → Json
  | ⟨kind, children⟩ =>
    .object [("nodeType", kind.toJson), ("children", .array (Node.toJsons children))]

/-- Trees as JSON, one after another. -/
def Node.toJsons : List Node → List Json
  | [] => []
  | node :: nodes => node.toJson :: Node.toJsons nodes

end

end StyleEngine
