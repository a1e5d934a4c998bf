import StyleEngine.Cascade.Display
import StyleEngine.Cascade.Matching
import StyleEngine.Cascade.Order
import StyleEngine.Cascade.Warning

/-!
# `Cascade/Styled.lean` — the tree of styled nodes

Every node of a document gets the values that the rules about it declare, and nothing
else: there is no inheritance. The sheet is put in order once, and each node folds it
on its own, so a styled node depends on its node and the sheet alone.
-/

set_option autoImplicit false

namespace StyleEngine

/-- Values by property. -/
abbrev PropertyMap := Dict Value

/-- A node with the values that apply to it. -/
structure Styled where
  kind : NodeKind
  values : PropertyMap
  children : List Styled

/-! ## Values of one node -/

/-- Puts declarations in, later ones over earlier ones. -/
def PropertyMap.declare (values : PropertyMap) (declarations : List Declaration) : PropertyMap :=
  declarations.foldl (fun values d => values.insert d.name.text d.value) values

/-- Puts in what a rule declares, if it is about the node. -/
def PropertyMap.apply (kind : NodeKind) (values : PropertyMap) (rule : Rule) : PropertyMap :=
  if rule.matches kind then values.declare rule.declarations else values

/-- The values that rules in the order in which they count give to a node. -/
def specificValues (rules : List Rule) (kind : NodeKind) : PropertyMap :=
  rules.foldl (PropertyMap.apply kind) .empty

namespace Styled

/-! ## Trees -/

mutual

/-- The styled tree under rules in the order in which they count. -/
def ofNode (rules : List Rule) : Node → Styled
  | ⟨kind, children⟩ => ⟨kind, specificValues rules kind, ofNodes rules children⟩

def ofNodes (rules : List Rule) : List Node → List Styled
  | [] => []
  | node :: nodes => ofNode rules node :: ofNodes rules nodes

end

/-- The styled tree of a document under a sheet. -/
def build (root : Node) (sheet : Sheet) : Styled :=
  ofNode sheet.bySpecificity.rules root

/-- The node that a path of child indexes leads to. -/
def at? (node : Styled) : List Nat → Option Styled
  | [] => some node
  | i :: path =>
    match node.children[i]? with
    | some child => child.at? path
    | none => none

/-! ## Questions to a node -/

/-- The value declared for a property. -/
def value (node : Styled) (name : String) : Option Value :=
  node.values.get? name

/-- The value of the first property, else of the second, else a value of last resort. -/
def lookup (node : Styled) (name fallback : String) (default : Value) : Value :=
  ((node.value name).or (node.value fallback)).getD default

/-- What is said of a value that is no display. -/
def displayWarning (value : Value) : Warning :=
  ⟨"CSS", s!"unsupported display value '{value.text}'"⟩

/-- The display that a declared value asks for, with a warning if there is none. -/
def displayOf (value : Value) : Warned (Option Display) := do
  match Display.ofValue? value with
  | some display => return some display
  | none =>
    warnOnce (displayWarning value)
    return none

/-- The display without a usable declaration: what goes with the tag, else inline. -/
def defaultDisplay (tagName : Option String) : Display :=
  (tagName.bind Display.ofTag?).getD .inline

/-- The display of a node with this tag name, if it is an element, and this declared
    value, if there is one. -/
def resolveDisplay (tagName : Option String) (declared : Option Value) : Warned Display := do
  match declared with
  | none => return defaultDisplay tagName
  | some value =>
    match ← displayOf value with
    | some display => return display
    | none => return defaultDisplay tagName

/-- The display of a node: what is declared, if it is one, and else the default. -/
def display (node : Styled) : Warned Display :=
  resolveDisplay node.kind.tagName? (node.value "display")

end Styled

end StyleEngine
