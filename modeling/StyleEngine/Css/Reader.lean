import StyleEngine.Css.Fault
import StyleEngine.Css.Lexer
import StyleEngine.Css.Sheet

/-!
# `Css/Reader.lean` — from tokens to a sheet

The grammar of sheets has no nesting. Rules follow one another; a rule is selectors
and a block; a block is declarations, and nothing inside a declaration opens anything.
So one token after another is enough: all that has to be remembered between two tokens
is how far the present rule has come (`Progress`). The reader is the table of what each
token does at each point (`Progress.step`), and `Progress.read` applies it from left to right.

That makes three things visible in the types. A fault is found at one token and before
anything behind it is looked at; a finished rule is never touched again; and what
follows a rule does not depend on it.

When the reader stops it says where: the tokens it has not taken. Reading may go on
there, after a fault too (`readTimes`).
-/

set_option autoImplicit false

namespace StyleEngine

/-! ## How far a rule has come -/

/-- A point inside the text of a sheet, with what the present rule holds so far. -/
inductive Progress where
  /-- Between rules. -/
  | top
  /-- A selector must follow. -/
  | selectorStart (selectors : List Selector)
  /-- Behind the point of a class selector. -/
  | className (selectors : List Selector)
  /-- Directly behind a selector. -/
  | selectorEnd (selectors : List Selector)
  /-- Behind a selector and spaces. -/
  | selectorGap (selectors : List Selector)
  /-- In the block, between declarations. -/
  | block (selectors : List Selector) (declarations : List Declaration)
  /-- Behind the name of a property. -/
  | nameEnd (selectors : List Selector) (declarations : List Declaration) (name : PropertyName)
  /-- Behind the colon. -/
  | value (selectors : List Selector) (declarations : List Declaration) (name : PropertyName)
      (components : List Value)

/-- What a token does. -/
inductive Step where
  /-- The token is taken, and the rule goes on. -/
  | next (progress : Progress)
  /-- The token is taken, and ends the rule. -/
  | close (rule : Rule)
  /-- The token ends the sheet, and stays. -/
  | finish
  /-- The token is wrong here. It counts as taken only if the reader has gone past it
      before it knows. -/
  | fail (cause : Cause) (taken : Bool)

/-! ## Pieces of the table -/

/-- Tokens that may begin a selector. -/
def Token.startsSelector : Token → Bool
  | .ident _ => true
  | .hash _ _ => true
  | .delim '*' => true
  | .delim '.' => true
  | _ => false

/-- Tokens that would combine two selectors. -/
def Token.isCombinator : Token → Bool
  | .delim '>' => true
  | .delim '+' => true
  | .delim '~' => true
  | _ => false

/-- The value that a token stands for. -/
def Token.component : Token → Except Cause Value
  | .ident word => .ok (.keyword word)
  | .dimension x unit => .ok (.ofDimension x unit)
  | .percentage x => .ok (.ofDimension x "%")
  | .number x => .ok (.number x)
  | .string contents => .ok (.string contents)
  | .hash digits _ =>
    match Color.ofHex? digits with
    | some color => .ok (.color color)
    | none => .error (.invalidColor digits)
  | .delim '!' => .error .importantNotSupported
  | .badString => .error (.unexpectedToken "unterminated string" .declarationValue)
  | token => .error (.unexpectedToken token.text .declarationValue)

/-- The value of the components behind a colon: one stands for itself, several are a
    list, and none is no value. -/
def Value.ofComponents? : List Value → Option Value
  | [] => none
  | [value] => some value
  | values => some (.list values)

/-- Where a selector must follow. -/
def stepSelectorStart (selectors : List Selector) (token : Token) : Step :=
  match token with
  | .whitespace => .next (.selectorStart selectors)
  | .ident name => .next (.selectorEnd (selectors ++ [.tag name]))
  | .delim '*' => .next (.selectorEnd (selectors ++ [.universal]))
  | .delim '.' => .next (.className selectors)
  | .hash name true => .next (.selectorEnd (selectors ++ [.id name]))
  | .hash name false => .fail (.invalidIdSelector name) true
  | .comma | .openBrace => .fail .emptySelector true
  | .colon => .fail (.unsupportedSelector .pseudoClass) true
  | .openBracket => .fail (.unsupportedSelector .attribute) true
  | .eof => .fail (.unexpectedEnd .selector) true
  | token =>
    if token.isCombinator then .fail (.unsupportedSelector .combinator) true
    else .fail (.unexpectedToken token.text .selector) true

/-- Behind the point of a class selector, where its name must follow at once. -/
def stepClassName (selectors : List Selector) (token : Token) : Step :=
  match token with
  | .ident name => .next (.selectorEnd (selectors ++ [.cls name]))
  | token => .fail (.unexpectedToken token.text .classSelector) false

/-- Behind a selector and spaces. A second selector here would stand for a descendant
    of the first. -/
def stepSelectorGap (selectors : List Selector) (token : Token) : Step :=
  match token with
  | .whitespace => .next (.selectorGap selectors)
  | .comma => .next (.selectorStart selectors)
  | .openBrace => .next (.block selectors [])
  | .eof => .fail (.unexpectedEnd .selectorList) false
  | token =>
    if token.isCombinator || token.startsSelector then
      .fail (.unsupportedSelector .combinator) false
    else .fail (.unexpectedToken token.text .selectorList) false

/-- Directly behind a selector. What touches it would be a further condition on the
    same element. -/
def stepSelectorEnd (selectors : List Selector) (token : Token) : Step :=
  match token with
  | .colon => .fail (.unsupportedSelector .pseudoClass) false
  | .openBracket => .fail (.unsupportedSelector .attribute) false
  | token =>
    if token.startsSelector then .fail (.unsupportedSelector .compound) false
    else stepSelectorGap selectors token

/-- In the block, between declarations. -/
def stepBlock (selectors : List Selector) (declarations : List Declaration)
    (token : Token) : Step :=
  match token with
  | .whitespace | .semicolon => .next (.block selectors declarations)
  | .closeBrace => .close ⟨selectors, declarations⟩
  | .ident name =>
    match PropertyName.ofText? name with
    | some name => .next (.nameEnd selectors declarations name)
    | none => .fail (.invalidPropertyName name) true
  | .atKeyword name => .fail (.unsupportedAtRule name) false
  | .eof => .fail (.unexpectedEnd .declarationBlock) false
  | token => .fail (.unexpectedToken token.text .declarationBlock) false

/-- Behind the name of a property. -/
def stepNameEnd (selectors : List Selector) (declarations : List Declaration)
    (name : PropertyName) (token : Token) : Step :=
  match token with
  | .whitespace => .next (.nameEnd selectors declarations name)
  | .colon => .next (.value selectors declarations name [])
  | _ => .fail (.missingColon name.text) false

/-- Behind the colon. A semicolon or a closing brace ends the value, if there is one. -/
def stepValue (selectors : List Selector) (declarations : List Declaration)
    (name : PropertyName) (components : List Value) (token : Token) : Step :=
  match token with
  | .whitespace => .next (.value selectors declarations name components)
  | .semicolon =>
    match Value.ofComponents? components with
    | some value => .next (.block selectors (declarations ++ [⟨name, value⟩]))
    | none => .fail (.emptyValue name.text) false
  | .closeBrace =>
    match Value.ofComponents? components with
    | some value => .close ⟨selectors, declarations ++ [⟨name, value⟩]⟩
    | none => .fail (.emptyValue name.text) false
  | .eof => .fail (.unexpectedEnd .declarationValue) false
  | token =>
    match token.component with
    | .ok value => .next (.value selectors declarations name (components ++ [value]))
    | .error cause => .fail cause true

/-- Between rules. What does not end the sheet begins a selector. -/
def stepTop (token : Token) : Step :=
  match token with
  | .whitespace => .next .top
  | .eof => .finish
  | .atKeyword name => .fail (.unsupportedAtRule name) false
  | .closeBrace => .fail .unmatchedBrace false
  | token => stepSelectorStart [] token

namespace Progress

/-! ## The table -/

/-- What a token does at each point. -/
def step : Progress → Token → Step
  | .top => stepTop
  | .selectorStart selectors => stepSelectorStart selectors
  | .className selectors => stepClassName selectors
  | .selectorEnd selectors => stepSelectorEnd selectors
  | .selectorGap selectors => stepSelectorGap selectors
  | .block selectors declarations => stepBlock selectors declarations
  | .nameEnd selectors declarations name => stepNameEnd selectors declarations name
  | .value selectors declarations name components =>
    stepValue selectors declarations name components

/-- What is wrong when the tokens end here. Only between rules they may. -/
def atEnd : Progress → Option Cause
  | .top => none
  | .selectorStart _ => some (.unexpectedEnd .selector)
  | .className _ => some (.unexpectedEnd .classSelector)
  | .selectorEnd _ => some (.unexpectedEnd .selectorList)
  | .selectorGap _ => some (.unexpectedEnd .selectorList)
  | .block _ _ => some (.unexpectedEnd .declarationBlock)
  | .nameEnd _ _ name => some (.missingColon name.text)
  | .value _ _ _ _ => some (.unexpectedEnd .declarationValue)

end Progress

/-! ## Reading -/

/-- What reading comes to, and the tokens that are left. -/
structure Reading where
  result : Except Fault (List Rule)
  rest : List PlacedToken

namespace Reading

/-- Puts a rule in front of those that were read behind it. -/
def addRule (rule : Rule) (reading : Reading) : Reading :=
  ⟨reading.result.map (rule :: ·), reading.rest⟩

/-- The sheet, or the fault that kept it from being read. -/
def sheet (reading : Reading) : Except Fault Sheet :=
  reading.result.map Sheet.mk

end Reading

/-- Reads rules from a point on. A missing token is reported where the last one was
    seen, `last`. -/
def Progress.read (progress : Progress) (last : Position) : List PlacedToken → Reading
  | [] =>
    match progress.atEnd with
    | none => ⟨.ok [], []⟩
    | some cause => ⟨.error ⟨cause, last⟩, []⟩
  | t :: ts =>
    match progress.step t.token with
    | .next progress => progress.read t.position ts
    | .close rule => (Progress.top.read t.position ts).addRule rule
    | .finish => ⟨.ok [], t :: ts⟩
    | .fail cause taken => ⟨.error ⟨cause, t.position⟩, if taken then ts else t :: ts⟩

/-- Reads rules to the end of the tokens. -/
def readRules (tokens : List PlacedToken) : Reading :=
  Progress.top.read .start tokens

/-- Reads again and again, each time from where the last reading stopped. -/
def readTimes : Nat → List PlacedToken → List Reading
  | 0, _ => []
  | more + 1, tokens =>
    let reading := readRules tokens
    reading :: readTimes more reading.rest

namespace Sheet

/-- The sheet that the tokens spell. -/
def ofTokens (tokens : List PlacedToken) : Except Fault Sheet :=
  (readRules tokens).sheet

/-- The sheet that a text spells. -/
def ofText (source : String) : Except Fault Sheet :=
  ofTokens (tokenize source)

end Sheet

end StyleEngine
