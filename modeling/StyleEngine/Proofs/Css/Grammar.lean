import StyleEngine.Css.Sheet
import StyleEngine.Css.Token

/-!
# `Proofs/Css/Grammar.lean` — the grammar of sheets

The grammar is given as relations between runs of tokens and what they stand for:

    sheet       = ws* (rule ws*)*
    rule        = selector (ws* ',' ws* selector)* ws* '{' item* '}'
    item        = ws | ';' | declaration
    declaration = name ws* ':' (ws | component)*

with at least one component in a declaration, and `;` or the closing brace behind it. The
lists that the relations build keep the order of the tokens, and every token is accounted
for. The end of the text is no token of the grammar: what counts is what precedes it
(`beforeEnd`).

Nothing here mentions the reader. That it accepts exactly these runs of tokens is the
matter of `Proofs/Css/Acceptance.lean`.
-/

set_option autoImplicit false

namespace StyleEngine

/-! ## Selectors -/

/-- `ws*` -/
def Spaces (ts : List Token) : Prop := ∀ t ∈ ts, t = .whitespace

/-- The four kinds of selectors. The name of a class stands directly behind its point. -/
inductive DerivesSelector : List Token → Selector → Prop
  | tag (name : String) : DerivesSelector [.ident name] (.tag name)
  | universal : DerivesSelector [.delim '*'] .universal
  | cls (name : String) : DerivesSelector [.delim '.', .ident name] (.cls name)
  | id (name : String) : DerivesSelector [.hash name true] (.id name)

/-- `selector (ws* ',' ws* selector)*` -/
inductive DerivesSelectors : List Token → List Selector → Prop
  | one {ts : List Token} {s : Selector} : DerivesSelector ts s → DerivesSelectors ts [s]
  | more {ts w₁ w₂ us : List Token} {s : Selector} {ss : List Selector} :
      DerivesSelector ts s → Spaces w₁ → Spaces w₂ → DerivesSelectors us ss →
      DerivesSelectors (ts ++ (w₁ ++ .comma :: (w₂ ++ us))) (s :: ss)

/-! ## Declarations -/

/-- The tokens that are a value by themselves. -/
inductive DerivesComponent : Token → Value → Prop
  | keyword (word : String) : DerivesComponent (.ident word) (.keyword word)
  | number (x : Number) : DerivesComponent (.number x) (.number x)
  | percentage (x : Number) : DerivesComponent (.percentage x) (.dimension x "%")
  | dimension (x : Number) (unit : String) :
      DerivesComponent (.dimension x unit) (.dimension x (Ascii.lower unit))
  | string (contents : String) : DerivesComponent (.string contents) (.string contents)
  | color {digits : String} {isIdent : Bool} {color : Color} :
      Color.ofHex? digits = some color → DerivesComponent (.hash digits isIdent) (.color color)

/-- `(ws | component)*` -/
inductive DerivesComponents : List Token → List Value → Prop
  | nil : DerivesComponents [] []
  | space {ts : List Token} {vs : List Value} :
      DerivesComponents ts vs → DerivesComponents (.whitespace :: ts) vs
  | component {t : Token} {ts : List Token} {v : Value} {vs : List Value} :
      DerivesComponent t v → DerivesComponents ts vs → DerivesComponents (t :: ts) (v :: vs)

/-- One component is the value, several are a list. None is no value. -/
inductive DerivesValue : List Value → Value → Prop
  | one (v : Value) : DerivesValue [v] v
  | list (v₁ v₂ : Value) (vs : List Value) : DerivesValue (v₁ :: v₂ :: vs) (.list (v₁ :: v₂ :: vs))

/-- `name ws* ':' (ws | component)*` -/
inductive DerivesDeclaration : List Token → Declaration → Prop
  | mk {text : String} {name : PropertyName} {w ts : List Token} {vs : List Value} {v : Value} :
      PropertyName.ofText? text = some name → Spaces w → DerivesComponents ts vs →
      DerivesValue vs v → DerivesDeclaration (.ident text :: (w ++ .colon :: ts)) ⟨name, v⟩

/-- `item*`, up to the closing brace. A declaration goes up to the brace or to a `;`. -/
inductive DerivesItems : List Token → List Declaration → Prop
  | nil : DerivesItems [] []
  | space {ts : List Token} {ds : List Declaration} :
      DerivesItems ts ds → DerivesItems (.whitespace :: ts) ds
  | semicolon {ts : List Token} {ds : List Declaration} :
      DerivesItems ts ds → DerivesItems (.semicolon :: ts) ds
  | declaration {ts us : List Token} {d : Declaration} {ds : List Declaration} :
      DerivesDeclaration ts d → (us = [] ∨ us.head? = some .semicolon) → DerivesItems us ds →
      DerivesItems (ts ++ us) (d :: ds)

/-! ## Rules and sheets -/

/-- `selectors ws* '{' item* '}'` -/
inductive DerivesRule : List Token → Rule → Prop
  | mk {ts w us : List Token} {ss : List Selector} {ds : List Declaration} :
      DerivesSelectors ts ss → Spaces w → DerivesItems us ds →
      DerivesRule (ts ++ (w ++ .openBrace :: (us ++ [.closeBrace]))) ⟨ss, ds⟩

/-- `(rule ws*)*` -/
inductive DerivesRules : List Token → List Rule → Prop
  | nil : DerivesRules [] []
  | rule {ts w us : List Token} {rule : Rule} {rules : List Rule} :
      DerivesRule ts rule → Spaces w → DerivesRules us rules →
      DerivesRules (ts ++ (w ++ us)) (rule :: rules)

/-- `ws* (rule ws*)*` -/
def DerivesSheet (ts : List Token) (sheet : Sheet) : Prop :=
  ∃ w us, ts = w ++ us ∧ Spaces w ∧ DerivesRules us sheet.rules

/-- The tokens before the first end of the text, or all. -/
def beforeEnd (ts : List Token) : List Token := ts.takeWhile (· ≠ .eof)

end StyleEngine
