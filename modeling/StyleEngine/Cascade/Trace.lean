import StyleEngine.Cascade.Styled

/-!
# `Cascade/Trace.lean` — how the values of a tree came about

While a tree is styled, a recorder can write down each rule that is found to be about a
node. It keeps the depth at which the work stands: one deeper while the children of a
node are styled, and back again behind them.
-/

set_option autoImplicit false

namespace StyleEngine

/-- A rule that was found to be about a node. -/
structure TraceLine where
  depth : Nat
  target : String
  selectors : String
  declarations : Nat
deriving DecidableEq

def TraceLine.text (line : TraceLine) : String :=
  let indent := String.ofList (List.replicate (2 * line.depth) ' ')
  let count := s!"({line.declarations} declarations)"
  s!"[CASCADE] {indent}<{line.target}> matched '{line.selectors}' {count}"

/-- The depth of the present work, and what was written down. -/
structure Recorder where
  depth : Nat
  lines : Array TraceLine

namespace Recorder

def start : Recorder := ⟨0, #[]⟩

/-- How a node is named in a trace. -/
def target (kind : NodeKind) : String :=
  kind.tagName?.getD "#text"

/-- Writes down a rule that is about a node. -/
def write (recorder : Recorder) (kind : NodeKind) (rule : Rule) : Recorder :=
  let selectors := ", ".intercalate (rule.selectors.map Selector.text)
  let line := ⟨recorder.depth, target kind, selectors, rule.declarations.length⟩
  ⟨recorder.depth, recorder.lines.push line⟩

def withDepth (recorder : Recorder) (depth : Nat) : Recorder :=
  ⟨depth, recorder.lines⟩

/-- The lines as they are printed. -/
def text (recorder : Recorder) : String :=
  String.join (recorder.lines.toList.map fun line => line.text ++ "\n")

end Recorder

/-- A computation that is written down. -/
abbrev Recorded := StateM Recorder

namespace Styled

/-- Puts in what a rule declares, if it is about the node, and writes that down. -/
def recordRule (kind : NodeKind) (values : PropertyMap) (rule : Rule) : Recorded PropertyMap := do
  if rule.matches kind then
    modify (·.write kind rule)
    return values.declare rule.declarations
  else return values

mutual

/-- The styled tree under rules in the order in which they count, written down. -/
def record (rules : List Rule) : Node → Recorded Styled
  | ⟨kind, children⟩ => do
    let depth := (← get).depth
    let values ← rules.foldlM (recordRule kind) .empty
    modify (·.withDepth (depth + 1))
    let children ← recordAll rules children
    modify (·.withDepth depth)
    return ⟨kind, values, children⟩

def recordAll (rules : List Rule) : List Node → Recorded (List Styled)
  | [] => return []
  | node :: nodes => do
    let first ← record rules node
    let rest ← recordAll rules nodes
    return first :: rest

end

/-- The styled tree of a document under a sheet, written down. -/
def buildRecorded (root : Node) (sheet : Sheet) : Recorded Styled :=
  record sheet.bySpecificity.rules root

end Styled

end StyleEngine
