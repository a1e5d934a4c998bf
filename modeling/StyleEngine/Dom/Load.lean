import StyleEngine.Dom.Check
import StyleEngine.Json.Reader

/-!
# `Dom/Load.lean` — document trees from JSON

A node is an object with a `nodeType` and, if it has any, `children`, or an array of
the two. What is found under `nodeType` is read as a plain value first and then taken
for a text or an element; the children are nodes again. Other members of the object
are passed over.

The text is read from left to right, and the first thing wrong with it is the error.
So a member that is given twice fails the text where the second one begins, whatever
the rest is like, and a member that is missing fails it at the closing brace.

Brackets may be open 127 deep. A node opens one bracket for itself and one for its
children.
-/

set_option autoImplicit false

namespace StyleEngine

open Json (Reader ReadError)

/-! ## Elements and texts -/

/-- The contents of a string. -/
def Json.string? : Json → Option String
  | .string contents => some contents
  | _ => none

namespace Element

/-- A value for each attribute; the last counts where a name is repeated. -/
def attributes? : Json → Option (Dict String)
  | .object fields =>
    (fields.mapM fun (field : String × Json) => field.2.string?.map (field.1, ·)).map Dict.ofList
  | _ => none

/-- What the members of an object have said about an element so far. -/
structure Partial where
  tagName : Option String
  attributes : Option (Dict String)

/-- Takes one more member. No member may be given twice. -/
def Partial.add? (found : Partial) (name : String) (value : Json) : Option Partial :=
  if name = "tagName" then
    match found.tagName with
    | some _ => none
    | none => value.string?.map fun tagName => ⟨some tagName, found.attributes⟩
  else if name = "attributes" then
    match found.attributes with
    | some _ => none
    | none => (attributes? value).map fun attributes => ⟨found.tagName, some attributes⟩
  else some found

/-- The element, once all members are known. Attributes may be missing. -/
def Partial.element? (found : Partial) : Option Element :=
  found.tagName.map fun tagName => ⟨tagName, found.attributes.getD .empty⟩

/-- The element that a value describes, as an object or as an array. -/
def ofJson? : Json → Option Element
  | .object fields =>
    let nothing : Partial := ⟨none, none⟩
    (fields.foldlM (fun (found : Partial) field => found.add? field.1 field.2) nothing).bind
      Partial.element?
  | .array [tagName] => tagName.string?.map fun tagName => ⟨tagName, .empty⟩
  | .array [tagName, attributes] =>
    tagName.string?.bind fun tagName => (attributes? attributes).map (⟨tagName, ·⟩)
  | _ => none

end Element

/-- The text or element that a value describes. -/
def NodeKind.ofJson? : Json → Option NodeKind
  | .string contents => some (.text contents)
  | value => (Element.ofJson? value).map .element

namespace Node

/-! ## Nodes -/

/-- Takes a text or an element. -/
def readKind (turns levels : Nat) : Reader NodeKind := fun cs => do
  let (value, rest) ← Json.readValue .full turns levels cs
  match NodeKind.ofJson? value with
  | some kind => return (kind, rest)
  | none => .error .mismatched

/-- Takes an array, and nothing else. -/
def readChildren (items : Reader (List Node)) : Reader (List Node) := fun cs =>
  match Json.skipBlank cs with
  | '[' :: rest => items rest
  | cs => Json.refuse cs

/-- What the members of an object have said about a node so far. -/
structure Partial where
  kind : Option NodeKind
  children : Option (List Node)

/-- Takes one more member, from its colon on. -/
def readMember (kind : Reader NodeKind) (children : Reader (List Node)) (turns : Nat)
    (name : String) (found : Partial) : Reader Partial := fun cs => do
  if name = "nodeType" then
    match found.kind with
    | some _ => .error .mismatched
    | none =>
      let (_, rest) ← Json.readColon cs
      let (kind, rest) ← kind rest
      return (⟨some kind, found.children⟩, rest)
  else if name = "children" then
    match found.children with
    | some _ => .error .mismatched
    | none =>
      let (_, rest) ← Json.readColon cs
      let (children, rest) ← children rest
      return (⟨found.kind, some children⟩, rest)
  else
    let (_, rest) ← Json.readColon cs
    let (_, rest) ← Json.skipValue turns rest
    return (found, rest)

/-- Takes a node written as an object, behind its brace. -/
def readObjectForm (kind : Reader NodeKind) (children : Reader (List Node)) (turns : Nat) :
    Reader Node := fun cs => do
  let member := readMember kind children turns
  let (found, rest) ← Json.readObject .full member turns ⟨none, none⟩ cs
  match found.kind with
  | some kind => return (⟨kind, found.children.getD []⟩, rest)
  | none => .error .mismatched

/-- Takes a closing bracket. -/
def readArrayEnd : Reader Unit := fun cs =>
  match Json.skipBlank cs with
  | [] => .error .incomplete
  | ']' :: rest => .ok ((), rest)
  | _ :: _ => .error .malformed

/-- Takes a node written as an array, behind its bracket. -/
def readArrayForm (kind : Reader NodeKind) (children : Reader (List Node)) : Reader Node :=
  fun cs => do
    match Json.skipBlank cs with
    | ']' :: _ => .error .mismatched
    | cs =>
      let (kind, rest) ← kind cs
      match Json.skipBlank rest with
      | ',' :: rest =>
        let (children, rest) ← children rest
        let (_, rest) ← readArrayEnd rest
        return (⟨kind, children⟩, rest)
      | rest =>
        let (_, rest) ← readArrayEnd rest
        return (⟨kind, []⟩, rest)

/-- Takes a node; what its opening bracket begins is left to `nested`. -/
def readNodeWith (nested : Char → Reader Node) : Reader Node := fun cs =>
  match Json.skipBlank cs with
  | '[' :: rest => nested '[' rest
  | '{' :: rest => nested '{' rest
  | cs => Json.refuse cs

/-- Takes a node in either form, behind its bracket. -/
def readForm (kind : Reader NodeKind) (children : Reader (List Node)) (turns : Nat)
    (bracket : Char) : Reader Node :=
  if bracket = '[' then readArrayForm kind children else readObjectForm kind children turns

/-- Takes a node that opens at most this many brackets inside one another. -/
def readNode (turns : Nat) : Nat → Reader Node
  | 0 => readNodeWith fun _ _ => .error .malformed
  | 1 =>
    readNodeWith (readForm (readKind turns 0) (readChildren fun _ => .error .malformed) turns)
  | levels + 2 =>
    let children := readChildren (Json.readArray (readNode turns levels) turns)
    readNodeWith (readForm (readKind turns (levels + 1)) children turns)

/-- How many brackets may be open at once. -/
def maxDepth : Nat := 127

/-! ## Trees -/

/-- Why a tree cannot be loaded. -/
inductive LoadError where
  | json (error : ReadError)
  | defect (defect : Defect)
deriving DecidableEq

/-- Reads a tree without checking it. -/
def parse (source : String) : Except ReadError Node :=
  Json.readText (fun turns => readNode turns maxDepth) source.toList

/-- Reads a tree and checks it. -/
def load (source : String) : Except LoadError Node :=
  match parse source with
  | .error error => .error (.json error)
  | .ok node =>
    match node.defect? with
    | some defect => .error (.defect defect)
    | none => .ok node

end Node

end StyleEngine
