import StyleEngine.Number.Layout

/-!
# `Json/Basic.lean` — JSON values and their text

A value is a tree; an object is a list of fields, in the order in which they are
written. There are two ways to write a value, on one line and indented, and one way to
put the fields of all objects in order (`Json.sorted`).

Of the characters of a string only the quote, the backslash and the control characters
below the space are escaped. All others stand for themselves.
-/

set_option autoImplicit false

namespace StyleEngine

/-- A JSON value. -/
inductive Json where
  | null
  | bool (value : Bool)
  | number (value : Number)
  | string (contents : String)
  | array (items : List Json)
  | object (fields : List (String × Json))

namespace Json

/-! ## Strings -/

/-- The escape behind a backslash for the control characters that have one. -/
def shortEscape? : Char → Option Char
  | '"' => some '"'
  | '\\' => some '\\'
  | '\x08' => some 'b'
  | '\t' => some 't'
  | '\n' => some 'n'
  | '\x0c' => some 'f'
  | '\r' => some 'r'
  | _ => none

/-- A character inside a string. -/
def escape (c : Char) : List Char :=
  match shortEscape? c with
  | some letter => ['\\', letter]
  | none =>
    if c.toNat < 0x20 then
      ['\\', 'u', '0', '0', Nat.digitChar (c.toNat / 16), Nat.digitChar (c.toNat % 16)]
    else [c]

/-- A string in quotes. -/
def quote (s : String) : List Char :=
  '"' :: (s.toList.flatMap escape ++ ['"'])

/-! ## Values on one line -/

mutual

/-- The value on one line, without a space. -/
def compact : Json → List Char
  | .null => ['n', 'u', 'l', 'l']
  | .bool true => ['t', 'r', 'u', 'e']
  | .bool false => ['f', 'a', 'l', 's', 'e']
  | .number value => Layout.json.number value
  | .string contents => quote contents
  | .array items => '[' :: (compactItems items ++ [']'])
  | .object fields => '{' :: (compactFields fields ++ ['}'])

/-- Items with commas between them. -/
def compactItems : List Json → List Char
  | [] => []
  | [item] => item.compact
  | item :: next :: items => item.compact ++ ',' :: compactItems (next :: items)

/-- Fields with commas between them. -/
def compactFields : List (String × Json) → List Char
  | [] => []
  | [(name, value)] => quote name ++ ':' :: value.compact
  | (name, value) :: next :: fields =>
    quote name ++ ':' :: (value.compact ++ ',' :: compactFields (next :: fields))

end

/-- The value on one line. -/
def text (value : Json) : String :=
  String.ofList value.compact

/-! ## Indented values -/

/-- A new line at this depth. -/
def newLine (depth : Nat) : List Char :=
  '\n' :: List.replicate (2 * depth) ' '

mutual

/-- The value with one item or field a line. -/
def indented (depth : Nat) : Json → List Char
  | .array [] => ['[', ']']
  | .array (item :: items) =>
    '[' :: (indentedItems (depth + 1) (item :: items) ++ newLine depth ++ [']'])
  | .object [] => ['{', '}']
  | .object (field :: fields) =>
    '{' :: (indentedFields (depth + 1) (field :: fields) ++ newLine depth ++ ['}'])
  | .null => ['n', 'u', 'l', 'l']
  | .bool true => ['t', 'r', 'u', 'e']
  | .bool false => ['f', 'a', 'l', 's', 'e']
  | .number value => Layout.json.number value
  | .string contents => quote contents

/-- Items, each on a line of its own. -/
def indentedItems (depth : Nat) : List Json → List Char
  | [] => []
  | [item] => newLine depth ++ item.indented depth
  | item :: next :: items =>
    newLine depth ++ item.indented depth ++ ',' :: indentedItems depth (next :: items)

/-- Fields, each on a line of its own. -/
def indentedFields (depth : Nat) : List (String × Json) → List Char
  | [] => []
  | [(name, value)] => newLine depth ++ quote name ++ ':' :: ' ' :: value.indented depth
  | (name, value) :: next :: fields =>
    newLine depth ++ quote name ++ ':' :: ' ' ::
      (value.indented depth ++ ',' :: indentedFields depth (next :: fields))

end

/-- The value over several lines. -/
def prettyText (value : Json) : String :=
  String.ofList (value.indented 0)

/-! ## Order of fields -/

/-- Puts a field before the first one with a later name. -/
def insertField (field : String × Json) : List (String × Json) → List (String × Json)
  | [] => [field]
  | other :: fields =>
    if other.1 < field.1 then other :: insertField field fields else field :: other :: fields

mutual

/-- The value with the fields of all objects in the order of their names. -/
def sorted : Json → Json
  | .array items => .array (sortedItems items)
  | .object fields => .object (sortedFields fields)
  | value => value

def sortedItems : List Json → List Json
  | [] => []
  | item :: items => item.sorted :: sortedItems items

def sortedFields : List (String × Json) → List (String × Json)
  | [] => []
  | (name, value) :: fields => insertField (name, value.sorted) (sortedFields fields)

end

end Json

end StyleEngine
