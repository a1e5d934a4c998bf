import StyleEngine.Css.Sheet

/-!
# `Cascade/Order.lean` — rules in the order in which they count

A rule with several selectors means the same declarations for each. Taken apart
(`Rule.split`), every rule has one selector and with it one specificity, and a sheet
can be put in order: lighter rules first, and rules of equal weight as they stood in
the text. Whoever applies the rules of an ordered sheet one after another, letting
later values replace earlier ones, applies the cascade.
-/

set_option autoImplicit false

namespace StyleEngine

/-- One rule for each selector, with the same declarations. -/
def Rule.split (rule : Rule) : List (Specificity × Rule) :=
  rule.selectors.map fun selector => (selector.specificity, ⟨[selector], rule.declarations⟩)

/-- The single-selector rules of a sheet in the order of the text, each with its
    weight. -/
def Sheet.split (sheet : Sheet) : List (Specificity × Rule) :=
  sheet.rules.flatMap Rule.split

/-- The single-selector rules of a sheet, lighter ones first. -/
def Sheet.bySpecificity (sheet : Sheet) : Sheet :=
  ⟨(sheet.split.mergeSort fun a b => a.1.atMost b.1).map (·.2)⟩

/-- Selectors in the order of their weight; equal ones stay as they were. -/
def Selector.ascending (selectors : List Selector) : List Selector :=
  selectors.mergeSort fun a b => a.specificity.atMost b.specificity

end StyleEngine
