import StyleEngine.Data.Dict
import StyleEngine.Text.Ascii

/-!
# `Dom/Node.lean` — document trees

A node is an element or a text, with children in document order. Of an element the
cascade looks at the tag name, the `id` attribute and the words of the `class`
attribute; the other attributes are carried along.

Nothing in the type keeps a text from having children or a tag name from being empty.
Trees that come from outside are checked for both (`Dom/Check.lean`).
-/

set_option autoImplicit false

namespace StyleEngine

/-- What an element is apart from its children. -/
structure Element where
  tagName : String
  attributes : Dict String
deriving DecidableEq

/-- What a node is apart from its children. -/
inductive NodeKind where
  | text (contents : String)
  | element (element : Element)
deriving DecidableEq

/-- A document tree. -/
structure Node where
  kind : NodeKind
  children : List Node

namespace Element

/-- The value of the `id` attribute. -/
def id? (e : Element) : Option String :=
  e.attributes.get? "id"

/-- The words of the `class` attribute. -/
def classes (e : Element) : List String :=
  match e.attributes.get? "class" with
  | some words => Ascii.words words
  | none => []

def hasClass (e : Element) (name : String) : Bool :=
  e.classes.contains name

end Element

namespace NodeKind

def element? : NodeKind → Option Element
  | .element e => some e
  | .text _ => none

def text? : NodeKind → Option String
  | .text contents => some contents
  | .element _ => none

def tagName? (kind : NodeKind) : Option String :=
  kind.element?.map (·.tagName)

end NodeKind

namespace Node

def ofText (contents : String) : Node :=
  ⟨.text contents, []⟩

/-- An element with attributes, of which the last counts where a name is repeated. -/
def ofElement (tagName : String) (attributes : List (String × String)) (children : List Node) :
    Node :=
  ⟨.element ⟨tagName, Dict.ofList attributes⟩, children⟩

mutual

/-- How many nodes the tree has. -/
def count : Node → Nat
  | ⟨_, children⟩ => 1 + countAll children

/-- How many nodes the trees have together. -/
def countAll : List Node → Nat
  | [] => 0
  | node :: nodes => node.count + countAll nodes

end

mutual

/-- Equality of trees, decided node by node. -/
def equals : Node → Node → Bool
  | ⟨k₁, ns₁⟩, ⟨k₂, ns₂⟩ => k₁ = k₂ && allEqual ns₁ ns₂

/-- Equality of lists of trees. -/
def allEqual : List Node → List Node → Bool
  | [], [] => true
  | n₁ :: ns₁, n₂ :: ns₂ => n₁.equals n₂ && allEqual ns₁ ns₂
  | _, _ => false

end

/-- The node that a path of child indexes leads to. -/
def at? (node : Node) : List Nat → Option Node
  | [] => some node
  | i :: path =>
    match node.children[i]? with
    | some child => child.at? path
    | none => none

end Node

end StyleEngine
