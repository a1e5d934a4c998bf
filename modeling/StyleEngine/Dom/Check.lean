import StyleEngine.Dom.Node

/-!
# `Dom/Check.lean` — the two defects of a tree

A tree from outside may have an element without a name, or a text with children. The
check walks the tree in document order and reports the first defect it meets, with the
path of child indexes that leads there.
-/

set_option autoImplicit false

namespace StyleEngine

/-- What can be wrong with a node. -/
inductive Flaw where
  | emptyTagName
  | textWithChildren
deriving DecidableEq

/-- The flaw of a node, whatever its children are like. -/
def Node.flaw? : Node → Option Flaw
  | ⟨.element e, _⟩ => if e.tagName = "" then some .emptyTagName else none
  | ⟨.text _, children⟩ => if children = [] then none else some .textWithChildren

/-- A flaw, and the child indexes that lead to the node that has it. -/
structure Defect where
  flaw : Flaw
  path : List Nat
deriving DecidableEq

/-- A path as messages show it. -/
def pathText (path : List Nat) : String :=
  "root" ++ String.join (path.map fun i => s!"/{i}")

def Defect.message (defect : Defect) : String :=
  match defect.flaw with
  | .emptyTagName => s!"element at {pathText defect.path} has an empty tag name"
  | .textWithChildren => s!"text node at {pathText defect.path} cannot have children"

/-- Puts a child index in front of the path. -/
def Defect.below (i : Nat) (defect : Defect) : Defect :=
  ⟨defect.flaw, i :: defect.path⟩

namespace Node

mutual

/-- The first defect in document order. -/
def defect? : Node → Option Defect
  | ⟨kind, children⟩ =>
    match Node.flaw? ⟨kind, children⟩ with
    | some flaw => some ⟨flaw, []⟩
    | none => defectIn? 0 children

/-- The first defect below children of which the first has index `i`. -/
def defectIn? (i : Nat) : List Node → Option Defect
  | [] => none
  | node :: nodes =>
    match node.defect? with
    | some defect => some (defect.below i)
    | none => defectIn? (i + 1) nodes

end

end Node

end StyleEngine
