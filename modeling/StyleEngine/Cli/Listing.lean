import StyleEngine.Css.Sheet
import StyleEngine.Css.Token
import StyleEngine.Text.Paint

/-!
# `Cli/Listing.lean` — tokens and rules, line by line
-/

set_option autoImplicit false

namespace StyleEngine.Cli

/-- Lines as they are printed. -/
def joinLines (lines : List String) : String :=
  String.join (lines.map (· ++ "\n"))

/-- A text with spaces in front up to a width. -/
def padLeft (width : Nat) (s : String) : String :=
  String.ofList (List.replicate (width - s.length) ' ') ++ s

/-! ## Tokens -/

def tokenLine (index : Nat) (t : PlacedToken) : String :=
  let place := padLeft 7 s!"{t.position.line}:{t.position.column}"
  s!"  {padLeft 3 (toString index)}: " ++ Paint.dim.apply place ++ "  " ++ t.token.text

def tokenLines (tokens : List PlacedToken) : List String :=
  s!"=== CSS Tokens ({tokens.length}) ===" :: tokens.mapIdx tokenLine

/-! ## Rules -/

def declarationLine (d : Declaration) : String :=
  "    " ++ Paint.green.apply d.name.text ++ ": " ++ d.value.text

def ruleLines (index : Nat) (rule : Rule) : List String :=
  let selectors := ", ".intercalate (rule.selectors.map Selector.text)
  let count := s!" \x7b {rule.declarations.length} declarations \x7d"
  (s!"  Rule {index}: " ++ Paint.cyan.apply selectors ++ count)
    :: rule.declarations.map declarationLine

def sheetLines (sheet : Sheet) : List String :=
  s!"=== CSS Rules ({sheet.rules.length}, {sheet.declarationCount} declarations) ==="
    :: (sheet.rules.mapIdx ruleLines).flatten

end StyleEngine.Cli
