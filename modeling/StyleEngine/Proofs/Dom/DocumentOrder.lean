import StyleEngine.Dom.Node

/-!
# `Proofs/Dom/DocumentOrder.lean` — the nodes of a document, one after the other

Document order is the order in which the opening tags would stand in a text: a node before its
children, and all below one child before the next child. The walks through a document all go
this way, and what they do is best said over the list of the nodes.

There are two such lists. `Node.inOrder` has the nodes alone. `Node.spots` has with each node
the path that leads to it, and so tells equal nodes apart. The second is the one that is looked
into here: its members are what the paths lead to (`Node.mem_spots_iff`), each once and in the
order of their paths (`Node.pairwise_spots`), and without the paths it is the first
(`Node.map_node_spots`).
-/

set_option autoImplicit false

namespace StyleEngine

namespace Node

mutual

/-- The nodes of a tree in document order, a node before its children. -/
def inOrder : Node → List Node
  | ⟨kind, children⟩ => ⟨kind, children⟩ :: inOrderOf children

def inOrderOf : List Node → List Node
  | [] => []
  | node :: nodes => node.inOrder ++ inOrderOf nodes

end

end Node

/-- A node of a document, and the child indexes that lead to it. -/
structure Spot where
  path : List Nat
  node : Node

/-- The same node, seen from one step further up. -/
def Spot.below (i : Nat) (spot : Spot) : Spot :=
  ⟨i :: spot.path, spot.node⟩

namespace Node

mutual

/-- The nodes of a tree in document order, with their paths. -/
def spots : Node → List Spot
  | ⟨kind, children⟩ => ⟨[], ⟨kind, children⟩⟩ :: spotsFrom 0 children

/-- The nodes of children of which the first has index `i`. -/
def spotsFrom (i : Nat) : List Node → List Spot
  | [] => []
  | node :: nodes => node.spots.map (Spot.below i) ++ spotsFrom (i + 1) nodes

end

theorem spots_eq_cons (node : Node) : node.spots = ⟨[], node⟩ :: spotsFrom 0 node.children := by
  obtain ⟨kind, children⟩ := node
  rw [spots]

/-! ## 1. Which nodes -/

theorem at?_cons_eq_some_iff {node inner : Node} {i : Nat} {path : List Nat} :
    node.at? (i :: path) = some inner ↔
      ∃ child, node.children[i]? = some child ∧ child.at? path = some inner := by
  rw [at?]
  cases node.children[i]? <;> simp

theorem at?_append (node : Node) (above below : List Nat) :
    node.at? (above ++ below) = (node.at? above).bind (·.at? below) := by
  induction above generalizing node with
  | nil => rfl
  | cons i above ih =>
    rw [List.cons_append, at?, at?]
    cases node.children[i]? with
    | none => rfl
    | some child => exact ih child

theorem mem_spotsFrom_iff {nodes : List Node} {i : Nat} {spot : Spot} :
    spot ∈ spotsFrom i nodes ↔
      ∃ (j : Nat) (child : Node), nodes[j]? = some child ∧
        ∃ inner ∈ child.spots, spot = inner.below (i + j) := by
  induction nodes generalizing i with
  | nil => simp [spotsFrom]
  | cons node nodes ih =>
    rw [spotsFrom, List.mem_append, List.mem_map, ih]
    constructor
    · rintro (⟨inner, hinner, rfl⟩ | ⟨j, child, hchild, inner, hinner, rfl⟩)
      · exact ⟨0, node, rfl, inner, hinner, rfl⟩
      · exact ⟨j + 1, child, hchild, inner, hinner, by rw [Nat.add_right_comm, Nat.add_assoc]⟩
    · rintro ⟨j, child, hchild, inner, hinner, rfl⟩
      cases j with
      | zero =>
        obtain rfl := Option.some.inj hchild
        exact Or.inl ⟨inner, hinner, rfl⟩
      | succ j =>
        exact Or.inr ⟨j, child, hchild, inner, hinner, by rw [Nat.add_right_comm, Nat.add_assoc]⟩

/-- **The spots are what the paths lead to.** -/
theorem mem_spots_iff {root : Node} {spot : Spot} :
    spot ∈ root.spots ↔ root.at? spot.path = some spot.node := by
  obtain ⟨path, node⟩ := spot
  rw [spots_eq_cons, List.mem_cons, mem_spotsFrom_iff]
  induction path generalizing root with
  | nil =>
    simp [at?, Spot.below, eq_comm]
  | cons i path ih =>
    rw [at?_cons_eq_some_iff]
    constructor
    · rintro (hroot | ⟨j, child, hchild, ⟨innerPath, inner⟩, hinner, hspot⟩)
      · cases hroot
      · rw [Spot.below, Nat.zero_add, Spot.mk.injEq, List.cons.injEq] at hspot
        obtain ⟨⟨rfl, rfl⟩, rfl⟩ := hspot
        rw [spots_eq_cons, List.mem_cons, mem_spotsFrom_iff, ih] at hinner
        exact ⟨child, hchild, hinner⟩
    · rintro ⟨child, hchild, hinner⟩
      refine Or.inr ⟨i, child, hchild, ⟨path, node⟩, ?_, by rw [Spot.below, Nat.zero_add]⟩
      rw [spots_eq_cons, List.mem_cons, mem_spotsFrom_iff]
      exact ih.mpr hinner

mutual

theorem map_node_spots : ∀ root : Node, root.spots.map (·.node) = root.inOrder
  | ⟨kind, children⟩ => by
    rw [spots, inOrder, List.map_cons, map_node_spotsFrom 0 children]

theorem map_node_spotsFrom (i : Nat) : ∀ nodes : List Node,
    (spotsFrom i nodes).map (·.node) = inOrderOf nodes
  | [] => rfl
  | node :: nodes => by
    rw [spotsFrom, inOrderOf, List.map_append, List.map_map, map_node_spotsFrom (i + 1) nodes,
      ← map_node_spots node]
    rfl

end

/-- The nodes in document order are those that paths lead to. -/
theorem mem_inOrder_iff {node inner : Node} :
    inner ∈ node.inOrder ↔ ∃ path, node.at? path = some inner := by
  rw [← map_node_spots, List.mem_map]
  constructor
  · rintro ⟨spot, hspot, rfl⟩
    exact ⟨spot.path, mem_spots_iff.mp hspot⟩
  · rintro ⟨path, hpath⟩
    exact ⟨⟨path, inner⟩, mem_spots_iff.mpr hpath, rfl⟩

theorem mem_below_iff {node inner : Node} :
    inner ∈ inOrderOf node.children ↔ ∃ path, path ≠ [] ∧ node.at? path = some inner := by
  rw [← map_node_spotsFrom 0, List.mem_map]
  constructor
  · rintro ⟨spot, hspot, rfl⟩
    obtain ⟨j, child, _, below, _, rfl⟩ := mem_spotsFrom_iff.mp hspot
    have hmem : below.below (0 + j) ∈ node.spots := by
      rw [spots_eq_cons]
      exact List.mem_cons_of_mem _ hspot
    exact ⟨_, List.cons_ne_nil _ _, mem_spots_iff.mp hmem⟩
  · rintro ⟨path, hne, hpath⟩
    have hmem : ⟨path, inner⟩ ∈ node.spots := mem_spots_iff.mpr hpath
    rw [spots_eq_cons, List.mem_cons] at hmem
    rcases hmem with hroot | hbelow
    · exact absurd (congrArg Spot.path hroot) hne
    · exact ⟨⟨path, inner⟩, hbelow, rfl⟩

/-! ## 2. In which order -/

mutual

/-- **The paths go up.** A path is before all that go on from it, and of two that part it is the
    smaller index that decides. So no path occurs twice. -/
theorem pairwise_spots : ∀ root : Node, root.spots.Pairwise fun a b => a.path < b.path
  | ⟨kind, children⟩ => by
    rw [spots, List.pairwise_cons]
    refine ⟨?_, pairwise_spotsFrom 0 children⟩
    intro spot hspot
    obtain ⟨j, _, _, inner, _, rfl⟩ := mem_spotsFrom_iff.mp hspot
    exact List.nil_lt_cons (0 + j) inner.path

theorem pairwise_spotsFrom (i : Nat) : ∀ nodes : List Node,
    (spotsFrom i nodes).Pairwise fun a b => a.path < b.path
  | [] => .nil
  | node :: nodes => by
    rw [spotsFrom, List.pairwise_append, List.pairwise_map]
    refine ⟨?_, pairwise_spotsFrom (i + 1) nodes, ?_⟩
    · exact (pairwise_spots node).imp fun hlt => List.cons_lt_cons_iff.mpr (Or.inr ⟨rfl, hlt⟩)
    · intro first hfirst later hlater
      obtain ⟨inner, _, rfl⟩ := List.mem_map.mp hfirst
      obtain ⟨j, _, _, inner', _, rfl⟩ := mem_spotsFrom_iff.mp hlater
      have hindex : i < i + 1 + j := by omega
      exact List.cons_lt_cons_iff.mpr (Or.inl hindex)

end

/-- One path, one spot. -/
theorem filter_spots_of_at? {root node : Node} {path : List Nat} (h : root.at? path = some node) :
    root.spots.filter (·.path = path) = [⟨path, node⟩] := by
  have hother {spots : List Spot} (hpart : ∀ spot ∈ spots, spot.path < path ∨ path < spot.path) :
      spots.filter (·.path = path) = [] := by
    rw [List.filter_eq_nil_iff]
    intro spot hspot heq
    have hlt := hpart spot hspot
    rw [of_decide_eq_true heq, or_self] at hlt
    exact List.lt_irrefl path hlt
  have hmem : ⟨path, node⟩ ∈ root.spots := mem_spots_iff.mpr h
  obtain ⟨before, behind, hsplit⟩ := List.append_of_mem hmem
  have hpaths := pairwise_spots root
  rw [hsplit, List.pairwise_append, List.pairwise_cons] at hpaths
  obtain ⟨-, ⟨hbehind, -⟩, hbefore⟩ := hpaths
  have hbefore' : before.filter (·.path = path) = [] :=
    hother fun spot hspot => Or.inl (hbefore spot hspot _ List.mem_cons_self)
  have hbehind' : behind.filter (·.path = path) = [] :=
    hother fun spot hspot => Or.inr (hbehind spot hspot)
  rw [hsplit, List.filter_append, List.filter_cons, if_pos (decide_eq_true rfl), hbefore', hbehind',
    List.nil_append]

end Node

end StyleEngine
