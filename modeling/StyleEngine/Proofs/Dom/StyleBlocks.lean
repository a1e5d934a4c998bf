import Mathlib.Data.List.Forall2
import StyleEngine.Proofs.Css.Joining
import StyleEngine.Proofs.Dom.StyleText

/-!
# `Proofs/Dom/StyleBlocks.lean` — the sheets of a document make one sheet

The style blocks of a document are joined to one text, and the sheet of the document is what
that text is read as. Two things are between this and the sheets of the blocks:

* which blocks there are. The walk that joins them stops at a style element, while the blocks
  are all texts in style elements wherever these stand (`Node.styleBlocks`). It is the same if
  no style element is below another (`Node.styleText_eq_joinBlocks`);
* that the joined text falls apart into the blocks again. A line feed ends every block, so one
  block after the other is read off the front (`Sheet.ofText_joinBlocks`). Where a comment has no end
  it would take the next block with it, so all comments must have one.
-/

set_option autoImplicit false

namespace StyleEngine

namespace Node

/-! ## 1. Documents without a style element in another -/

/-- No style element is below another one. -/
def StylesApart (root : Node) : Prop :=
  ∀ path outer, root.at? path = some outer → outer.kind.isStyle = true →
    ∀ below inner, below ≠ [] → outer.at? below = some inner → inner.kind.isStyle = false

theorem stylesApart_iff {root : Node} :
    root.StylesApart ↔ ∀ outer ∈ root.inOrder, outer.kind.isStyle = true →
      ∀ inner ∈ inOrderOf outer.children, inner.kind.isStyle = false := by
  constructor
  · intro h outer houter hstyle inner hinner
    obtain ⟨path, hpath⟩ := mem_inOrder_iff.mp houter
    obtain ⟨below, hne, hbelow⟩ := mem_below_iff.mp hinner
    exact h path outer hpath hstyle below inner hne hbelow
  · intro h path outer hpath hstyle below inner hne hbelow
    exact h outer (mem_inOrder_iff.mpr ⟨path, hpath⟩) hstyle inner
      (mem_below_iff.mpr ⟨below, hne, hbelow⟩)

/-- The walk meets all blocks. -/
theorem styleText_eq_joinBlocks {root : Node} (h : root.StylesApart) :
    root.styleText = joinBlocks root.styleBlocks := by
  rw [styleText_eq_joinBlocks_iff]
  intro path outer houter hstyle below inner hne hinner hinnerStyle
  rw [h path outer houter hstyle below inner hne hinner] at hinnerStyle
  cases hinnerStyle

end Node

/-! ## 2. The sheet of the document -/

theorem Sheet.ofText_empty : ofText "" = .ok .empty := by
  have htokens : tokenize "" = [⟨.eof, .start⟩] := by decide +kernel
  rw [ofText, htokens]
  rfl

theorem Sheet.ofText_joinBlocks {blocks : List String} {sheets : List Sheet}
    (h : List.Forall₂ (fun block sheet => ofText block = .ok sheet ∧ ClosesComments block.toList)
      blocks sheets) :
    ofText (Node.joinBlocks blocks) = .ok ⟨sheets.flatMap (·.rules)⟩ := by
  induction h with
  | nil => exact ofText_empty
  | @cons block sheet blocks sheets hblock _ ih =>
    -- The block and its line feed are read off the front. What is left is the others, joined.
    rw [Node.joinBlocks_cons, ofText_append hblock.1 hblock.2, ih]
    rfl

/-- **The sheet of a document has the rules of its blocks**, those of the first block first. It
    is enough that every block is a sheet if it stands alone, with an end to each comment. -/
theorem ofText_styleText {root : Node} (hapart : root.StylesApart) :
    (∀ sheets, List.Forall₂
      (fun block sheet => Sheet.ofText block = .ok sheet ∧ ClosesComments block.toList)
      root.styleBlocks sheets →
      Sheet.ofText root.styleText = .ok ⟨sheets.flatMap (·.rules)⟩) ∧
    (root.styleBlocks = [] → Sheet.ofText root.styleText = .ok .empty) := by
  rw [Node.styleText_eq_joinBlocks hapart]
  refine ⟨fun sheets h => Sheet.ofText_joinBlocks h, ?_⟩
  intro hnone
  rw [hnone]
  exact Sheet.ofText_joinBlocks .nil

/-- A document with two style elements and texts around them that are no blocks. -/
def styledPage : Node :=
  .ofElement "html" [] [
    .ofElement "head" [] [.ofElement "style" [] [.ofText "a\x7b\x7d/**/"]],
    .ofElement "body" [] [.ofText "\x7b",
      .ofElement "STYLE" [] [.ofElement "i" [] [.ofText "\x7b"], .ofText "b\x7b\x7d"]]]

theorem ofText_styleText_styledPage :
    styledPage.StylesApart ∧ styledPage.styleBlocks = ["a\x7b\x7d/**/", "b\x7b\x7d"] ∧
    styledPage.styleText = "a\x7b\x7d/**/\nb\x7b\x7d\n" ∧
    Sheet.ofText "a\x7b\x7d/**/\nb\x7b\x7d\n" = .ok ⟨[⟨[.tag "a"], []⟩, ⟨[.tag "b"], []⟩]⟩ := by
  have hapart : styledPage.StylesApart := by
    rw [Node.stylesApart_iff]
    simp only [NodeKind.isStyle_eq]
    decide +kernel
  have hblocks : styledPage.styleBlocks = ["a\x7b\x7d/**/", "b\x7b\x7d"] := by
    unfold Node.styleBlocks Node.blocksAmong
    simp only [NodeKind.isStyle_eq]
    decide +kernel
  have htext : styledPage.styleText = "a\x7b\x7d/**/\nb\x7b\x7d\n" := by
    rw [Node.styleText_eq_joinBlocks hapart, hblocks]
    rfl
  have htokens₁ : tokenize "a\x7b\x7d/**/" = [⟨.ident "a", ⟨0, 1, 1⟩⟩, ⟨.openBrace, ⟨1, 1, 2⟩⟩,
      ⟨.closeBrace, ⟨2, 1, 3⟩⟩, ⟨.eof, ⟨7, 1, 8⟩⟩] := by decide +kernel
  have hfirst : Sheet.ofText "a\x7b\x7d/**/" = .ok ⟨[⟨[.tag "a"], []⟩]⟩ := by
    rw [Sheet.ofText, htokens₁]
    rfl
  have hbehind₁ : behindTokens "a\x7b\x7d/**/".toList = ['/', '*', '*', '/'] := by decide +kernel
  have hclosed₁ : ClosesComments "a\x7b\x7d/**/".toList := by
    rw [ClosesComments, hbehind₁]
    exact .cons IsRemark.nil .nil
  have htokens₂ : tokenize "b\x7b\x7d" = [⟨.ident "b", ⟨0, 1, 1⟩⟩, ⟨.openBrace, ⟨1, 1, 2⟩⟩,
      ⟨.closeBrace, ⟨2, 1, 3⟩⟩, ⟨.eof, ⟨3, 1, 4⟩⟩] := by decide +kernel
  have hsecond : Sheet.ofText "b\x7b\x7d" = .ok ⟨[⟨[.tag "b"], []⟩]⟩ := by
    rw [Sheet.ofText, htokens₂]
    rfl
  have hbehind₂ : behindTokens "b\x7b\x7d".toList = [] := by decide +kernel
  have hclosed₂ : ClosesComments "b\x7b\x7d".toList := by
    rw [ClosesComments, hbehind₂]
    exact .nil
  have hall := (ofText_styleText hapart).1 [⟨[⟨[.tag "a"], []⟩]⟩, ⟨[⟨[.tag "b"], []⟩]⟩]
  rw [hblocks, htext] at hall
  refine ⟨hapart, hblocks, htext, hall ?_⟩
  exact .cons ⟨hfirst, hclosed₁⟩ (.cons ⟨hsecond, hclosed₂⟩ .nil)

end StyleEngine
