import StyleEngine.Cascade.Styled
import StyleEngine.Text.Paint
import StyleEngine.Text.Quoted

/-!
# `Cli/Outline.lean` — the styled tree, line by line

An element is shown with its id and classes and its display, and under it the values
that apply to it, in the order of their names. A text is shown in quotes, and not at
all if it is blank. Children come one step further in.

The outline is drawn from a listing of the tree, in which attributes and values are
plain lists. Which order a map was listed in must not show, so attributes are looked up
by name and values are sorted.
-/

set_option autoImplicit false

namespace StyleEngine.Cli

/-- A styled node whose maps have been listed, in some order. -/
inductive Listed where
  | text (contents : String) (children : List Listed)
  | element (tagName : String) (attributes : List (String × String))
      (values : List (String × Value)) (children : List Listed)

namespace Listed

mutual

/-- Lists the maps of a tree. -/
def ofStyled : Styled → Listed
  | ⟨.text contents, _, children⟩ => .text contents (ofAll children)
  | ⟨.element e, values, children⟩ =>
    .element e.tagName e.attributes.entries values.entries (ofAll children)

def ofAll : List Styled → List Listed
  | [] => []
  | node :: nodes => ofStyled node :: ofAll nodes

end

/-! ## Lines -/

/-- The white space in front of a line. -/
def indent (depth : Nat) : String :=
  String.ofList (List.replicate (2 * depth) ' ')

/-- An attribute as a tag shows it, if there is one. -/
def attributeText (attributes : List (String × String)) (name : String) : String :=
  match attributes.lookup name with
  | some value => " " ++ name ++ "=\"" ++ value ++ "\""
  | none => ""

/-- The line of an element. -/
def heading (depth : Nat) (tagName : String) (attributes : List (String × String))
    (display : Display) : String :=
  let shown := attributeText attributes "id" ++ attributeText attributes "class"
  let tag := "<" ++ tagName ++ shown ++ ">"
  indent depth ++ Paint.cyan.apply tag ++ " " ++ Paint.dim.apply s!"[{display.keyword}]"

/-- The line of a value. -/
def valueLine (depth : Nat) (entry : String × Value) : String :=
  indent depth ++ "  " ++ Paint.green.apply entry.1 ++ ": " ++ entry.2.text

/-- Values in the order of their names. -/
def inOrder (values : List (String × Value)) : List (String × Value) :=
  values.mergeSort fun a b => a.1 ≤ b.1

/-- The line of a text, if it is not blank. -/
def textLines (depth : Nat) (contents : String) : List String :=
  match trimBlank contents.toList with
  | [] => []
  | shown => [indent depth ++ String.ofList (Quoted.quote shown)]

mutual

/-- The lines of a node at some depth, with those of the nodes below it. -/
def lines (depth : Nat) : Listed → Warned (List String)
  | .text contents children => do
    let below ← linesOf (depth + 1) children
    return textLines depth contents ++ below
  | .element tagName attributes values children => do
    let display ← Styled.resolveDisplay (some tagName) (values.lookup "display")
    let below ← linesOf (depth + 1) children
    return heading depth tagName attributes display
      :: ((inOrder values).map (valueLine depth) ++ below)

def linesOf (depth : Nat) : List Listed → Warned (List String)
  | [] => return []
  | node :: nodes => do
    let first ← lines depth node
    let rest ← linesOf depth nodes
    return first ++ rest

end

end Listed

/-- The outline of a styled tree. -/
def outline (root : Styled) : Warned (List String) :=
  (Listed.ofStyled root).lines 0

end StyleEngine.Cli
