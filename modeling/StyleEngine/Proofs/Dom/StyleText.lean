import Mathlib.Data.List.Basic
import StyleEngine.Dom.StyleBlock
import StyleEngine.Proofs.Dom.DocumentOrder

/-!
# `Proofs/Dom/StyleText.lean` — which style elements the walk finds

The text of the style sheets of a document is put together by a walk that stops at a style
element: it takes the texts directly below, and does not go on from there. So a style element
below another one is not found. This file says what is found and what is lost.

* The blocks of a document are the texts directly below its style elements, wherever these
  stand (`Node.styleBlocks`).
* The walk finds those that are not below another style element (`Node.styleText_eq_outer`).
  These are a part of the nodes in document order, and what is left out is what has a style
  element above it (`Node.underStyle_iff`).
* A block is never empty once there is a line feed behind it. So nothing is lost exactly if
  there was nothing to lose (`Node.styleText_eq_joinBlocks_iff`).
-/

set_option autoImplicit false

namespace StyleEngine

/-! ## 1. Blocks -/

theorem NodeKind.isStyle_eq (kind : NodeKind) :
    kind.isStyle = decide (kind.tagName?.map Ascii.lower = some "style") := by
  have hlower : Ascii.lower "style" = "style" := by decide +kernel
  cases kind with
  | text contents => rfl
  | element e =>
    rw [isStyle, Ascii.sameIgnoringCase, hlower]
    exact decide_eq_decide.mpr Option.some_inj.symm

namespace Node

/-- The texts directly below the style elements among these nodes. -/
def blocksAmong (nodes : List Node) : List String :=
  (nodes.filter (·.kind.isStyle)).flatMap fun node => node.children.filterMap (·.kind.text?)

/-- The style blocks of a document, in document order. -/
def styleBlocks (root : Node) : List String := blocksAmong root.inOrder

/-- The texts directly below a node, if it is a style element. -/
def ownBlocks (node : Node) : List String :=
  if node.kind.isStyle then node.children.filterMap (·.kind.text?) else []

theorem ownBlocks_of_not_isStyle {node : Node} (h : node.kind.isStyle = false) :
    node.ownBlocks = [] := by
  rw [ownBlocks, h, if_neg Bool.false_ne_true]

theorem blocksAmong_eq_flatMap (nodes : List Node) :
    blocksAmong nodes = nodes.flatMap ownBlocks := by
  rw [blocksAmong]
  induction nodes with
  | nil => rfl
  | cons node nodes ih =>
    rw [List.filter_cons, List.flatMap_cons, ownBlocks]
    split
    · rw [List.flatMap_cons, ih]
    · rw [ih, List.nil_append]

/-- Blocks as one text, a line feed behind each. -/
def joinBlocks (blocks : List String) : String := String.join (blocks.map (· ++ "\n"))

theorem joinBlocks_cons (block : String) (blocks : List String) :
    joinBlocks (block :: blocks) = block ++ "\n" ++ joinBlocks blocks := by
  rw [joinBlocks, List.map_cons, String.join_cons]
  rfl

theorem joinBlocks_append (blocks others : List String) :
    joinBlocks (blocks ++ others) = joinBlocks blocks ++ joinBlocks others := by
  rw [joinBlocks, List.map_append, String.join_append]
  rfl

theorem length_joinBlocks_cons (block : String) (blocks : List String) :
    (joinBlocks (block :: blocks)).length = block.length + 1 + (joinBlocks blocks).length := by
  rw [joinBlocks_cons, String.length_append, String.length_append]
  rfl

theorem length_joinBlocks_le {blocks others : List String} (h : blocks.Sublist others) :
    (joinBlocks blocks).length ≤ (joinBlocks others).length := by
  induction h with
  | slnil => exact Nat.le_refl _
  | cons block _ ih =>
    rw [length_joinBlocks_cons]
    exact Nat.le_trans ih (Nat.le_add_left _ _)
  | cons_cons block _ ih =>
    rw [length_joinBlocks_cons, length_joinBlocks_cons]
    exact Nat.add_le_add_left ih _

/-- A block that is left out is missed, if only for its line feed. -/
theorem eq_of_joinBlocks_eq {blocks others : List String} (h : blocks.Sublist others)
    (heq : joinBlocks blocks = joinBlocks others) : blocks = others := by
  induction h with
  | slnil => rfl
  | @cons blocks others block hsub _ =>
    have hle := length_joinBlocks_le hsub
    have hlength := congrArg String.length heq
    rw [length_joinBlocks_cons] at hlength
    omega
  | cons_cons block _ ih =>
    rw [joinBlocks_cons, joinBlocks_cons] at heq
    rw [ih (String.append_right_inj _ |>.mp heq)]

/-! ## 2. Outer nodes -/

/-- Whether a path goes on from a style element. -/
def underStyle (root : Node) : List Nat → Bool
  | [] => false
  | i :: path =>
    root.kind.isStyle ||
      match root.children[i]? with
      | some child => child.underStyle path
      | none => false

theorem underStyle_cons_eq_true_iff {root : Node} {i : Nat} {path : List Nat} :
    root.underStyle (i :: path) = true ↔ root.kind.isStyle = true ∨
      ∃ child, root.children[i]? = some child ∧ child.underStyle path = true := by
  rw [underStyle, Bool.or_eq_true]
  cases root.children[i]? <;> simp

theorem underStyle_iff {root : Node} {path : List Nat} :
    root.underStyle path = true ↔ ∃ above below outer, path = above ++ below ∧ below ≠ [] ∧
      root.at? above = some outer ∧ outer.kind.isStyle = true := by
  induction path generalizing root with
  | nil =>
    constructor
    · intro h
      cases h
    · rintro ⟨above, below, _, hpath, hbelow, _⟩
      exact absurd (List.append_eq_nil_iff.mp hpath.symm).2 hbelow
  | cons i path ih =>
    rw [underStyle_cons_eq_true_iff]
    constructor
    · rintro (hroot | ⟨child, hchild, hunder⟩)
      · exact ⟨[], i :: path, root, rfl, List.cons_ne_nil i path, rfl, hroot⟩
      · obtain ⟨above, below, outer, rfl, hbelow, houter, hstyle⟩ := ih.mp hunder
        exact ⟨i :: above, below, outer, rfl, hbelow,
          at?_cons_eq_some_iff.mpr ⟨child, hchild, houter⟩, hstyle⟩
    · rintro ⟨above, below, outer, hpath, hbelow, houter, hstyle⟩
      cases above with
      | nil =>
        obtain rfl := Option.some.inj houter
        exact Or.inl hstyle
      | cons j above =>
        rw [List.cons_append, List.cons.injEq] at hpath
        obtain ⟨rfl, rfl⟩ := hpath
        obtain ⟨child, hchild, houter⟩ := at?_cons_eq_some_iff.mp houter
        exact Or.inr ⟨child, hchild, ih.mpr ⟨above, below, outer, rfl, hbelow, houter, hstyle⟩⟩

/-- The nodes that are not below a style element, in document order. -/
def outerNodes (root : Node) : List Node :=
  (root.spots.filter fun spot => !root.underStyle spot.path).map (·.node)

/-- Below a style element there are none. -/
theorem outerNodes_of_isStyle {root : Node} (h : root.kind.isStyle = true) :
    root.outerNodes = [root] := by
  have hnone : (spotsFrom 0 root.children).filter (fun spot => !root.underStyle spot.path) = [] := by
    refine List.filter_eq_nil_iff.mpr fun spot hspot => ?_
    obtain ⟨j, _, _, inner, _, rfl⟩ := mem_spotsFrom_iff.mp hspot
    have hunder : root.underStyle ((0 + j) :: inner.path) = true :=
      underStyle_cons_eq_true_iff.mpr (Or.inl h)
    rw [Spot.below, hunder]
    decide
  rw [outerNodes, spots_eq_cons, List.filter_cons, hnone, underStyle]
  rfl

/-- Below any other element a path is judged by the child that it goes through. The nodes are
    the children from the index `i` on. -/
theorem outerNodes_spotsFrom {root : Node} (h : root.kind.isStyle = false) {nodes : List Node}
    {i : Nat} (hat : ∀ j, root.children[i + j]? = nodes[j]?) :
    ((spotsFrom i nodes).filter fun spot => !root.underStyle spot.path).map (·.node) =
      nodes.flatMap outerNodes := by
  induction nodes generalizing i with
  | nil => rfl
  | cons node nodes ih =>
    have hfirst : (fun spot : Spot => !root.underStyle spot.path) ∘ Spot.below i =
        fun spot => !node.underStyle spot.path := by
      funext spot
      have hnode : root.children[i]? = some node := hat 0
      rw [Function.comp_apply, Spot.below, underStyle, h, hnode, Bool.false_or]
    have hrest := ih (i := i + 1) fun j => by
      rw [Nat.add_right_comm]
      exact hat (j + 1)
    rw [spotsFrom, List.filter_append, List.map_append, hrest, List.filter_map, hfirst,
      List.map_map, List.flatMap_cons]
    rfl

theorem outerNodes_of_not_isStyle {root : Node} (h : root.kind.isStyle = false) :
    root.outerNodes = root :: root.children.flatMap outerNodes := by
  have hbelow := outerNodes_spotsFrom h (i := 0) fun j => by rw [Nat.zero_add]
  rw [outerNodes, spots_eq_cons, List.filter_cons, ← hbelow, underStyle]
  rfl

/-! ## 3. The walk -/

theorem ownText_eq_joinBlocks {node : Node} (h : node.kind.isStyle = true) :
    ownText node.children = joinBlocks node.ownBlocks := by
  rw [ownBlocks, if_pos h]
  rfl

mutual

/-- **The walk finds the blocks of the outer nodes.** -/
theorem styleText_eq_outer : ∀ root : Node,
    root.styleText = joinBlocks (root.outerNodes.flatMap ownBlocks)
  | ⟨kind, children⟩ => by
    rw [styleText]
    cases hstyle : kind.isStyle with
    | true =>
      have howned := @ownText_eq_joinBlocks ⟨kind, children⟩ hstyle
      rw [if_pos rfl, outerNodes_of_isStyle hstyle, List.flatMap_singleton]
      exact howned
    | false =>
      rw [if_neg Bool.false_ne_true, outerNodes_of_not_isStyle hstyle, List.flatMap_cons,
        ownBlocks_of_not_isStyle hstyle, List.nil_append]
      exact styleTextOf_eq_outer children

theorem styleTextOf_eq_outer : ∀ nodes : List Node,
    styleTextOf nodes = joinBlocks ((nodes.flatMap outerNodes).flatMap ownBlocks)
  | [] => rfl
  | node :: nodes => by
    rw [styleTextOf, List.flatMap_cons, List.flatMap_append, joinBlocks_append,
      styleText_eq_outer node, styleTextOf_eq_outer nodes]

end

/-! ## 4. What is lost -/

theorem flatMap_filter_sublist {α β : Type} (p : α → Bool) (f : α → List β) (l : List α) :
    ((l.filter p).flatMap f).Sublist (l.flatMap f) := by
  induction l with
  | nil => exact .slnil
  | cons a l ih =>
    rw [List.filter_cons, List.flatMap_cons]
    split
    · rw [List.flatMap_cons]
      exact ih.append_left (f a)
    · exact ih.trans (List.sublist_append_right (f a) _)

/-- Members are left out without a trace if there is nothing to them. -/
theorem flatMap_filter_eq_iff {α β : Type} {p : α → Bool} {f : α → List β} {l : List α} :
    (l.filter p).flatMap f = l.flatMap f ↔ ∀ a ∈ l, p a = false → f a = [] := by
  induction l with
  | nil => simp
  | cons a l ih =>
    rw [List.forall_mem_cons, ← ih, List.filter_cons, List.flatMap_cons]
    cases hp : p a with
    | true =>
      rw [if_pos rfl, List.flatMap_cons, List.append_cancel_left_eq]
      exact (and_iff_right (fun h => nomatch h)).symm
    | false =>
      rw [if_neg Bool.false_ne_true]
      constructor
      · intro heq
        have hle := (flatMap_filter_sublist p f l).length_le
        have hlength := congrArg List.length heq
        rw [List.length_append] at hlength
        have hnil : f a = [] := List.eq_nil_of_length_eq_zero (by omega)
        rw [hnil, List.nil_append] at heq
        exact ⟨fun _ => hnil, heq⟩
      · rintro ⟨hnil, heq⟩
        rw [hnil rfl, heq, List.nil_append]

theorem styleBlocks_eq_flatMap (root : Node) :
    root.styleBlocks = root.spots.flatMap fun spot => spot.node.ownBlocks := by
  rw [styleBlocks, blocksAmong_eq_flatMap, ← map_node_spots, List.flatMap_map]

/-- **Nothing is lost exactly if there is nothing to lose**: no style element below another one
    has a text of its own. -/
theorem styleText_eq_joinBlocks_iff {root : Node} :
    root.styleText = joinBlocks root.styleBlocks ↔
      ∀ path outer, root.at? path = some outer → outer.kind.isStyle = true →
        ∀ below inner, below ≠ [] → outer.at? below = some inner → inner.kind.isStyle = true →
          inner.children.filterMap (·.kind.text?) = [] := by
  have hpart := flatMap_filter_sublist (fun spot => !root.underStyle spot.path)
    (fun spot : Spot => spot.node.ownBlocks) root.spots
  rw [styleText_eq_outer, outerNodes, List.flatMap_map, styleBlocks_eq_flatMap]
  have hjoin := fun heq => eq_of_joinBlocks_eq hpart heq
  rw [Iff.intro hjoin (congrArg joinBlocks), flatMap_filter_eq_iff]
  constructor
  · intro hnone path outer houter hstyle below inner hne hinner hinnerStyle
    have hspot : (⟨path ++ below, inner⟩ : Spot) ∈ root.spots := by
      rw [mem_spots_iff, at?_append, houter]
      exact hinner
    have hunder : root.underStyle (path ++ below) = true :=
      underStyle_iff.mpr ⟨path, below, outer, rfl, hne, houter, hstyle⟩
    have hown := hnone _ hspot (by rw [hunder]; rfl)
    rwa [ownBlocks, if_pos hinnerStyle] at hown
  · rintro hnone ⟨path, inner⟩ hspot hunder
    rw [Bool.not_eq_false'] at hunder
    obtain ⟨above, below, outer, rfl, hne, houter, hstyle⟩ := underStyle_iff.mp hunder
    rw [mem_spots_iff, at?_append, houter] at hspot
    rw [ownBlocks]
    split
    · rename_i hinnerStyle
      exact hnone above outer houter hstyle below inner hne hspot hinnerStyle
    · rfl

end Node

/-- **The style sheets of a document are those of its outer style elements.** What is collected
    is the text of each block of a style element that is not below another one, in document
    order, with a line feed behind it. All blocks of the document are collected exactly if the
    style elements below other ones have no texts of their own. -/
theorem styleText_outermost (root : Node) :
    root.styleText = Node.joinBlocks (Node.blocksAmong
      ((root.spots.filter fun spot => !root.underStyle spot.path).map (·.node))) ∧
    (∀ path, root.underStyle path = true ↔ ∃ above below outer, path = above ++ below ∧
      below ≠ [] ∧ root.at? above = some outer ∧ outer.kind.isStyle = true) ∧
    (root.styleText = Node.joinBlocks root.styleBlocks ↔
      ∀ path outer, root.at? path = some outer → outer.kind.isStyle = true →
        ∀ below inner, below ≠ [] → outer.at? below = some inner → inner.kind.isStyle = true →
          inner.children.filterMap (·.kind.text?) = []) := by
  refine ⟨?_, fun _ => Node.underStyle_iff, Node.styleText_eq_joinBlocks_iff⟩
  rw [Node.blocksAmong_eq_flatMap]
  exact Node.styleText_eq_outer root

/-- A style element in a style element. Its blocks are `a`, `c` and `b`. -/
def nestedStyle : Node :=
  .ofElement "style" [] [.ofText "a", .ofElement "STYLE" [] [.ofText "b"], .ofText "c"]

theorem styleBlocks_nestedStyle : nestedStyle.styleBlocks = ["a", "c", "b"] := by
  unfold Node.styleBlocks Node.blocksAmong
  simp only [NodeKind.isStyle_eq]
  decide +kernel

theorem styleText_nestedStyle : nestedStyle.styleText = "a\nc\n" := by
  have hstyle : nestedStyle.kind.isStyle = true := by
    rw [NodeKind.isStyle_eq]
    decide +kernel
  rw [Node.styleText_eq_outer, Node.outerNodes_of_isStyle hstyle, List.flatMap_singleton,
    Node.ownBlocks, if_pos hstyle]
  rfl

/-- Not every style element is found. -/
theorem not_forall_styleText_eq_joinBlocks :
    ¬ ∀ root : Node, root.styleText = Node.joinBlocks root.styleBlocks := by
  intro hall
  have hnested := hall nestedStyle
  rw [styleText_nestedStyle, styleBlocks_nestedStyle] at hnested
  exact absurd hnested (by decide)

end StyleEngine
