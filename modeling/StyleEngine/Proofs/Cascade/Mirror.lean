import StyleEngine.Proofs.Cascade.Winner

/-!
# `Proofs/Cascade/Mirror.lean` — the styled tree has the shape of the document

A sheet is put in order once, at the root, and the whole tree is styled with what came of
that. So it has to be said that nothing else is handed down: what stands at a path of the
styled tree is what the document below that path would be styled to if it stood alone.
From that everything about shape follows, since it determines a styled node and all below
it by the document node in the same place. What is left is to count, and that texts are
outside the cascade: no selector is about one, not even the universal one.
-/

set_option autoImplicit false

namespace StyleEngine

/-! ## 1. Counting -/

namespace Styled

mutual

/-- How many nodes the styled tree has. -/
def count : Styled → Nat
  | ⟨_, _, children⟩ => 1 + countAll children

def countAll : List Styled → Nat
  | [] => 0
  | styled :: others => styled.count + countAll others

end

mutual

theorem count_ofNode (rules : List Rule) (node : Node) :
    (ofNode rules node).count = node.count := by
  obtain ⟨kind, children⟩ := node
  rw [ofNode, count, Node.count, countAll_ofNodes rules children]

theorem countAll_ofNodes (rules : List Rule) (nodes : List Node) :
    countAll (ofNodes rules nodes) = Node.countAll nodes := by
  cases nodes with
  | nil => rfl
  | cons node nodes =>
    rw [ofNodes, countAll, Node.countAll, count_ofNode rules node, countAll_ofNodes rules nodes]

end

end Styled

/-! ## 2. Texts -/

theorem Selector.matches_text (s : Selector) (contents : String) :
    s.matches (.text contents) = false :=
  rfl

theorem Rule.matches_text (rule : Rule) (contents : String) :
    rule.matches (.text contents) = false := by
  rw [Rule.matches, List.any_eq_false]
  intro s _
  rw [s.matches_text]
  exact Bool.false_ne_true

/-- Whatever the rules, a text has no values. -/
theorem specificValues_text (rules : List Rule) (contents : String) :
    specificValues rules (.text contents) = .empty := by
  rw [specificValues]
  induction rules with
  | nil => rfl
  | cons rule rules ih =>
    rw [List.foldl_cons, PropertyMap.apply, rule.matches_text, if_neg Bool.false_ne_true]
    exact ih

/-- Only elements have a winner. -/
theorem Sheet.Wins.exists_element {sheet : Sheet} {kind : NodeKind} {property : String}
    {c : Contender} (h : sheet.Wins kind property c) : ∃ e, kind = .element e := by
  obtain ⟨⟨_, _, _, hmatch, _⟩, _⟩ := h
  cases kind with
  | element e => exact ⟨e, rfl⟩
  | text contents =>
    rw [c.selector.matches_text] at hmatch
    cases hmatch

/-! ## 3. Trees -/

namespace Styled

/-- What stands at a path is styled as if it stood alone. -/
theorem at?_build (root : Node) (sheet : Sheet) (path : List Nat) :
    (build root sheet).at? path = (root.at? path).map (build · sheet) :=
  at?_ofNode sheet.bySpecificity.rules root path

theorem kind_build (node : Node) (sheet : Sheet) : (build node sheet).kind = node.kind := by
  obtain ⟨kind, children⟩ := node
  rfl

theorem children_build (node : Node) (sheet : Sheet) :
    (build node sheet).children = node.children.map (build · sheet) := by
  obtain ⟨kind, children⟩ := node
  exact ofNodes_eq_map sheet.bySpecificity.rules children

theorem values_build (node : Node) (sheet : Sheet) :
    (build node sheet).values = specificValues sheet.bySpecificity.rules node.kind := by
  obtain ⟨kind, children⟩ := node
  rfl

theorem values_build_of_text {node : Node} {contents : String} (h : node.kind = .text contents)
    (sheet : Sheet) : (build node sheet).values = .empty := by
  rw [values_build, h]
  exact specificValues_text sheet.bySpecificity.rules contents

end Styled

/-- **The styled tree mirrors the document.** Both have the same paths. At each of them stand
    a node and that node styled, with children that are the children of the node styled, one
    by one; and all of it is what would come of the document below the path alone. There are
    as many styled nodes as nodes, and texts have no values. -/
theorem build_mirrors (root : Node) (sheet : Sheet) :
    (∀ path, (Styled.build root sheet).at? path = none ↔ root.at? path = none) ∧
    (∀ path node styled, root.at? path = some node →
      (Styled.build root sheet).at? path = some styled →
      styled.kind = node.kind ∧
      styled.children.length = node.children.length ∧
      (∀ (i : Nat) child, node.children[i]? = some child →
        styled.children[i]? = some (Styled.build child sheet)) ∧
      styled = Styled.build node sheet ∧
      ∀ contents, node.kind = .text contents → styled.values = .empty) ∧
    (Styled.build root sheet).count = root.count := by
  refine ⟨?_, ?_, Styled.count_ofNode sheet.bySpecificity.rules root⟩
  · intro path
    rw [Styled.at?_build, Option.map_eq_none_iff]
  · intro path node styled hnode hstyled
    rw [Styled.at?_build, hnode] at hstyled
    obtain rfl : Styled.build node sheet = styled := Option.some.inj hstyled
    refine ⟨Styled.kind_build node sheet, ?_, ?_, rfl, ?_⟩
    · rw [Styled.children_build, List.length_map]
    · intro i child hchild
      rw [Styled.children_build, List.getElem?_map, hchild]
      rfl
    · intro contents htext
      exact Styled.values_build_of_text htext sheet

end StyleEngine
