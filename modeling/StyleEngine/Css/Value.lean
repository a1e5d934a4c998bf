import StyleEngine.Css.Color
import StyleEngine.Number.Layout

/-!
# `Css/Value.lean` — declared values

What stands behind the colon of a declaration: a keyword, a number with or without a
unit, a colour, a string, or a list of these. Units are held in lower case
(`Value.ofDimension`), and a percentage is a dimension whose unit is the percent sign.
-/

set_option autoImplicit false

namespace StyleEngine

/-- A declared value. -/
inductive Value where
  | keyword (word : String)
  | dimension (number : Number) (unit : String)
  | number (number : Number)
  | color (color : Color)
  | string (contents : String)
  | list (values : List Value)

namespace Value

/-- A number with a unit in any case. -/
def ofDimension (x : Number) (unit : String) : Value :=
  .dimension x (Ascii.lower unit)

/-- The word of a keyword. -/
def keyword? : Value → Option String
  | .keyword word => some word
  | _ => none

mutual

/-- The value as a style sheet writes it. -/
def text : Value → String
  | .keyword word => word
  | .dimension x unit => x.text ++ unit
  | .number x => x.text
  | .color c => c.text
  | .string contents => "\"" ++ contents ++ "\""
  | .list values => " ".intercalate (texts values)

/-- The members of a list, each as a style sheet writes it. -/
def texts : List Value → List String
  | [] => []
  | value :: values => value.text :: texts values

end

theorem texts_eq_map (values : List Value) : texts values = values.map text := by
  induction values with
  | nil => rfl
  | cons value values ih => rw [texts, ih, List.map_cons]

mutual

/-- Equality of values, with numbers compared as numbers: zeros of either sign are
    equal, and a NaN is not even equal to itself. -/
def equals : Value → Value → Bool
  | .keyword w₁, .keyword w₂ => w₁ = w₂
  | .dimension x₁ u₁, .dimension x₂ u₂ => x₁.equals x₂ && u₁ = u₂
  | .number x₁, .number x₂ => x₁.equals x₂
  | .color c₁, .color c₂ => c₁ = c₂
  | .string s₁, .string s₂ => s₁ = s₂
  | .list vs₁, .list vs₂ => allEqual vs₁ vs₂
  | _, _ => false

/-- Equality of lists of values, member by member. -/
def allEqual : List Value → List Value → Bool
  | [], [] => true
  | v₁ :: vs₁, v₂ :: vs₂ => v₁.equals v₂ && allEqual vs₁ vs₂
  | _, _ => false

end

end Value

end StyleEngine
