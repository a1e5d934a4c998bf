import StyleEngine.Cascade.Styled
import StyleEngine.Css.Export
import StyleEngine.Dom.Export

/-!
# `Cascade/Export.lean` — styled trees as JSON
-/

set_option autoImplicit false

namespace StyleEngine

def PropertyMap.toJson (values : PropertyMap) : Json :=
  .object (values.entries.map fun (name, value) => (name, value.toJson))

mutual

def Styled.toJson : Styled → Json
  | ⟨kind, values, children⟩ =>
    .object [("node", kind.toJson), ("specificValues", PropertyMap.toJson values),
      ("children", .array (Styled.toJsons children))]

/-- Styled nodes as JSON, one after another. -/
def Styled.toJsons : List Styled → List Json
  | [] => []
  | node :: nodes => node.toJson :: Styled.toJsons nodes

end

end StyleEngine
