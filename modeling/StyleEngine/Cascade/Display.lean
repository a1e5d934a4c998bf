import StyleEngine.Css.Value

/-!
# `Cascade/Display.lean` — the boxes that elements make

The display of an element is one of a few keywords. It is declared, or else it goes by
the name of the tag. Case does not matter in either.
-/

set_option autoImplicit false

namespace StyleEngine

/-- How an element is laid out. -/
inductive Display where
  | inline
  | block
  | inlineBlock
  | listItem
  | flowRoot
  | flex
  | inlineFlex
  | grid
  | inlineGrid
  | table
  /-- No box at all. -/
  | noBox
deriving DecidableEq

namespace Display

def keyword : Display → String
  | .inline => "inline"
  | .block => "block"
  | .inlineBlock => "inline-block"
  | .listItem => "list-item"
  | .flowRoot => "flow-root"
  | .flex => "flex"
  | .inlineFlex => "inline-flex"
  | .grid => "grid"
  | .inlineGrid => "inline-grid"
  | .table => "table"
  | .noBox => "none"

def all : List Display :=
  [.inline, .block, .inlineBlock, .listItem, .flowRoot, .flex, .inlineFlex, .grid,
    .inlineGrid, .table, .noBox]

/-- The display that a word names. -/
def ofKeyword? (word : String) : Option Display :=
  all.find? fun display => Ascii.sameIgnoringCase word display.keyword

/-- The display that a declared value asks for. Only keywords do. -/
def ofValue? (value : Value) : Option Display :=
  value.keyword?.bind ofKeyword?

/-- Tags whose elements are blocks. -/
def blockTags : List String :=
  ["html", "body", "div", "p", "h1", "h2", "h3", "h4", "h5", "h6", "ul", "ol", "dl", "dt",
    "dd", "header", "footer", "main", "nav", "section", "article", "aside", "blockquote",
    "pre", "form", "hr", "table", "address", "figure", "figcaption"]

/-- Tags whose elements are not shown. -/
def hiddenTags : List String :=
  ["head", "script", "style", "title", "meta", "link", "template"]

/-- The display that goes with a tag, if one does. -/
def ofTag? (tagName : String) : Option Display :=
  let tag := Ascii.lower tagName
  if blockTags.contains tag then some .block
  else if tag = "li" then some .listItem
  else if hiddenTags.contains tag then some .noBox
  else none

end Display

end StyleEngine
