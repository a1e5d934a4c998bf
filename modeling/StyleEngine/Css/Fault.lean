import StyleEngine.Css.Token

/-!
# `Css/Fault.lean` — what can be wrong with a style sheet

Reading stops at the first fault. A fault is a cause and a place, and only the message
turns the cause into words.
-/

set_option autoImplicit false

namespace StyleEngine

/-- What is being read when a token is missing or out of place. -/
inductive Construct where
  | selector
  | classSelector
  | selectorList
  | declarationBlock
  | declarationValue
deriving DecidableEq

def Construct.text : Construct → String
  | .selector => "selector"
  | .classSelector => "class selector"
  | .selectorList => "selector list"
  | .declarationBlock => "declaration block"
  | .declarationValue => "declaration value"

/-- Selectors of the full language that are not read here. -/
inductive SelectorForm where
  | pseudoClass
  | attribute
  | compound
  | combinator
deriving DecidableEq

def SelectorForm.text : SelectorForm → String
  | .pseudoClass => "pseudo-classes"
  | .attribute => "attribute selectors"
  | .compound => "compound selectors"
  | .combinator => "combinators"

/-- Why a sheet cannot be read. -/
inductive Cause where
  /-- A token that cannot stand here, as it is shown. -/
  | unexpectedToken (found : String) (inside : Construct)
  /-- The text ends too early. -/
  | unexpectedEnd (inside : Construct)
  /-- A closing brace that nothing opened. -/
  | unmatchedBrace
  /-- A property name without a colon. -/
  | missingColon (property : String)
  /-- A selector list with a gap. -/
  | emptySelector
  /-- A colon with no value behind it. -/
  | emptyValue (property : String)
  | unsupportedSelector (form : SelectorForm)
  | unsupportedAtRule (name : String)
  | importantNotSupported
  /-- A number sign with something that is no colour. -/
  | invalidColor (digits : String)
  /-- A number sign with something that is no identifier. -/
  | invalidIdSelector (name : String)
  | invalidPropertyName (name : String)
deriving DecidableEq

def Cause.message : Cause → String
  | .unexpectedToken found inside => s!"unexpected {found} in {inside.text}"
  | .unexpectedEnd inside => s!"unexpected end of input in {inside.text}"
  | .unmatchedBrace => "unmatched '\x7d'"
  | .missingColon property => s!"expected ':' after property '{property}'"
  | .emptySelector => "empty selector"
  | .emptyValue property => s!"empty value for property '{property}'"
  | .unsupportedSelector form => s!"unsupported selector syntax: {form.text}"
  | .unsupportedAtRule name => s!"unsupported at-rule '@{name}'"
  | .importantNotSupported => "'!important' is not supported"
  | .invalidColor digits => s!"invalid color '#{digits}'"
  | .invalidIdSelector name => s!"invalid id selector '#{name}'"
  | .invalidPropertyName name => s!"invalid property name '{name}'"

/-- A cause, and the place of the token where it shows. -/
structure Fault where
  cause : Cause
  position : Position
deriving DecidableEq

def Fault.message (fault : Fault) : String :=
  fault.cause.message ++ " at " ++ fault.position.text

end StyleEngine
