import StyleEngine.Css.Sheet
import StyleEngine.Json.Basic

/-!
# `Css/Export.lean` — style sheets as JSON

Values lose their kind: a keyword, a string and a colour are all strings, and a number
with a unit is a pair. Selectors keep theirs, as a field of its own.
-/

set_option autoImplicit false

namespace StyleEngine

def Selector.toJson : Selector → Json
  | .universal => .object [("type", .string "universal")]
  | .tag name => .object [("type", .string "tag"), ("name", .string name)]
  | .cls name => .object [("type", .string "class"), ("name", .string name)]
  | .id name => .object [("type", .string "id"), ("name", .string name)]

def Color.toJson (c : Color) : Json := .string c.text

def PropertyName.toJson (name : PropertyName) : Json := .string name.text

mutual

def Value.toJson : Value → Json
  | .keyword word => .string word
  | .dimension x unit => .array [.number x, .string unit]
  | .number x => .number x
  | .color c => c.toJson
  | .string contents => .string contents
  | .list values => .array (Value.toJsons values)

/-- The members of a list as JSON. -/
def Value.toJsons : List Value → List Json
  | [] => []
  | value :: values => value.toJson :: Value.toJsons values

end

def Declaration.toJson (d : Declaration) : Json :=
  .object [("name", d.name.toJson), ("value", d.value.toJson)]

def Rule.toJson (rule : Rule) : Json :=
  .object [("selectors", .array (rule.selectors.map Selector.toJson)),
    ("declarations", .array (rule.declarations.map Declaration.toJson))]

def Sheet.toJson (sheet : Sheet) : Json :=
  .object [("rules", .array (sheet.rules.map Rule.toJson))]

end StyleEngine
