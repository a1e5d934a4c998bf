import StyleEngine.Dom.Check
import StyleEngine.Proofs.Dom.DocumentOrder

/-!
# `Proofs/Dom/FirstDefect.lean` — the check reports the first defect

The check of a tree returns as soon as it meets a flaw, and the path it reports is put together
on the way back up. Three things have to be said of it.

* **What it looks for.** A flaw of a node is one of two (`Node.HasFlaw`), and a node has no flaw
  because of what is below it.
* **Which one it finds.** The walk is a search through the spots of the tree for the first that
  has a flaw (`Node.defect?_eq_findSome?`). All about sound trees and about what comes first is
  read off this one equation.
* **That the path can be followed.** What is reported is a text, and the text of a path has the
  decimal digits of each index between slashes. There is no slash in a number, so the text can
  be cut into the numbers again, however large they are (`pathOfText?_pathText`).
-/

set_option autoImplicit false

namespace StyleEngine

/-! ## 1. Flaws -/

/-- What it means for a node to have a flaw. -/
def Node.HasFlaw (node : Node) : Flaw → Prop
  | .emptyTagName => ∃ e, node.kind = .element e ∧ e.tagName = ""
  | .textWithChildren => (∃ contents, node.kind = .text contents) ∧ node.children ≠ []

theorem Node.flaw?_eq_some_iff {node : Node} {flaw : Flaw} :
    node.flaw? = some flaw ↔ node.HasFlaw flaw := by
  obtain ⟨kind, children⟩ := node
  cases kind with
  | text contents => cases flaw <;> simp [flaw?, HasFlaw]
  | element e => cases flaw <;> simp [flaw?, HasFlaw]

theorem Node.flaw?_eq_none_iff {node : Node} :
    node.flaw? = none ↔ ∀ flaw, ¬ node.HasFlaw flaw := by
  simp only [Option.eq_none_iff_forall_ne_some, ne_eq, flaw?_eq_some_iff]

/-! ## 2. The walk -/

/-- The defect at one spot, if there is one. -/
def Spot.defect? (spot : Spot) : Option Defect :=
  spot.node.flaw?.map (⟨·, spot.path⟩)

theorem Spot.defect?_below (i : Nat) (spot : Spot) :
    (spot.below i).defect? = spot.defect?.map (Defect.below i) := by
  rw [defect?, defect?, Option.map_map]
  rfl

namespace Node

mutual

/-- **The check is a search in document order.** -/
theorem defect?_eq_findSome? : ∀ root : Node, root.defect? = root.spots.findSome? Spot.defect?
  | ⟨kind, children⟩ => by
    have hbelow := defectIn?_eq_findSome? 0 children
    rw [defect?, spots, List.findSome?_cons, Spot.defect?]
    cases hflaw : flaw? ⟨kind, children⟩ with
    | some flaw => rfl
    | none => exact hbelow

theorem defectIn?_eq_findSome? (i : Nat) : ∀ nodes : List Node,
    defectIn? i nodes = (spotsFrom i nodes).findSome? Spot.defect?
  | [] => rfl
  | node :: nodes => by
    have hcomp : Spot.defect? ∘ Spot.below i = Option.map (Defect.below i) ∘ Spot.defect? :=
      funext (Spot.defect?_below i)
    rw [defectIn?, spotsFrom, List.findSome?_append, List.findSome?_map, hcomp,
      ← List.map_findSome?, ← defect?_eq_findSome? node, ← defectIn?_eq_findSome? (i + 1) nodes]
    cases node.defect? <;> rfl

end

theorem defect?_eq_none_iff {root : Node} :
    root.defect? = none ↔ ∀ spot ∈ root.spots, ∀ flaw, ¬ spot.node.HasFlaw flaw := by
  rw [defect?_eq_findSome?, List.findSome?_eq_none_iff]
  simp only [Spot.defect?, Option.map_eq_none_iff, flaw?_eq_none_iff]

theorem exists_of_defect?_eq_some {root : Node} {defect : Defect}
    (h : root.defect? = some defect) :
    ∃ before node behind, root.spots = before ++ ⟨defect.path, node⟩ :: behind ∧
      node.HasFlaw defect.flaw ∧ ∀ spot ∈ before, ∀ flaw, ¬ spot.node.HasFlaw flaw := by
  rw [defect?_eq_findSome?, List.findSome?_eq_some_iff] at h
  obtain ⟨before, spot, behind, hsplit, hspot, hbefore⟩ := h
  obtain ⟨flaw, hflaw, rfl⟩ := Option.map_eq_some_iff.mp hspot
  refine ⟨before, spot.node, behind, hsplit, flaw?_eq_some_iff.mp hflaw, ?_⟩
  intro other hother
  exact flaw?_eq_none_iff.mp (Option.map_eq_none_iff.mp (hbefore other hother))

end Node

/-! ## 3. Paths -/

/-- The number that is written in decimal digits. -/
def indexOfDigits? (digits : List Char) : Option Nat :=
  if digits ≠ [] ∧ digits.all Char.isDigit then some (Nat.ofDigitChars 10 digits 0) else none

/-- The child indexes in the text of a path: what stands behind the slashes, read as numbers. -/
def pathOfText? (text : String) : Option (List Nat) :=
  match text.toList.splitOn '/' with
  | start :: steps => if start = "root".toList then steps.mapM indexOfDigits? else none
  | [] => none

theorem indexOfDigits?_repr (i : Nat) : indexOfDigits? i.repr.toList = some i := by
  have hdigits : (Nat.toDigits 10 i).all Char.isDigit = true :=
    List.all_eq_true.mpr fun _ => Nat.isDigit_of_mem_toDigits (by decide) (by decide)
  rw [Nat.toList_repr, indexOfDigits?, if_pos ⟨Nat.toDigits_ne_nil, hdigits⟩,
    Nat.ofDigitChars_ten_toDigits]

/-- The pieces of a path's text, which stand between slashes. -/
def pathPieces (path : List Nat) : List (List Char) :=
  "root".toList :: path.map fun i => i.repr.toList

theorem toList_pathText (path : List Nat) :
    (pathText path).toList = ['/'].intercalate (pathPieces path) := by
  have hsteps : ∀ (start : List Char) (path : List Nat),
      start ++ path.flatMap (fun i => '/' :: i.repr.toList) =
        ['/'].intercalate (start :: path.map fun i => i.repr.toList) := by
    intro start path
    induction path generalizing start with
    | nil => simp
    | cons i path ih =>
      rw [List.map_cons, List.intercalate_cons_cons, ← ih]
      simp
  rw [pathPieces, ← hsteps, pathText, String.toList_append, String.toList_join, List.flatMap_map]
  simp [toString]

theorem slash_not_mem_of_mem_pathPieces {path : List Nat} {piece : List Char}
    (h : piece ∈ pathPieces path) : '/' ∉ piece := by
  rcases List.mem_cons.mp h with rfl | hstep
  · decide
  · obtain ⟨i, -, rfl⟩ := List.mem_map.mp hstep
    intro hslash
    rw [Nat.toList_repr] at hslash
    have hdigit := Nat.isDigit_of_mem_toDigits (by decide) (by decide) hslash
    exact absurd hdigit (by decide)

/-- **The text of a path is read back as the path.** -/
theorem pathOfText?_pathText (path : List Nat) : pathOfText? (pathText path) = some path := by
  have hcut : (pathText path).toList.splitOn '/' = pathPieces path := by
    rw [toList_pathText]
    exact List.splitOn_intercalate '/' (fun _ => slash_not_mem_of_mem_pathPieces)
      (List.cons_ne_nil _ _)
  have hread : (indexOfDigits? ∘ fun i : Nat => i.repr.toList) = pure :=
    funext indexOfDigits?_repr
  rw [pathOfText?, hcut, pathPieces]
  dsimp only
  rw [if_pos rfl, List.mapM_map, hread]
  exact List.mapM_pure.trans (congrArg some (List.map_id' path))

/-! ## 4. The check -/

/-- **The check finds the first defect and names it.** There is nothing to report exactly if no
    element has an empty name and no text has children. If there is something, the text that is
    reported can be read as a path, the path leads to a node with the flaw that is reported, and
    no node before this one in document order has a flaw. -/
theorem defect?_first (root : Node) :
    (root.defect? = none ↔ ∀ path node, root.at? path = some node →
      (∀ e, node.kind = .element e → e.tagName ≠ "") ∧
      (∀ contents, node.kind = .text contents → node.children = [])) ∧
    ∀ defect, root.defect? = some defect →
      ∃ path node, pathOfText? (pathText defect.path) = some path ∧
        root.at? path = some node ∧ node.HasFlaw defect.flaw ∧
        ∃ before behind, root.spots = before ++ ⟨path, node⟩ :: behind ∧
          ∀ spot ∈ before, ∀ flaw, ¬ spot.node.HasFlaw flaw := by
  constructor
  · rw [Node.defect?_eq_none_iff]
    constructor
    · intro hnone path node hnode
      have hsound := hnone ⟨path, node⟩ (Node.mem_spots_iff.mpr hnode)
      refine ⟨?_, ?_⟩
      · intro e he hname
        exact hsound .emptyTagName ⟨e, he, hname⟩
      · intro contents htext
        refine Decidable.byContradiction fun hchildren => ?_
        exact hsound .textWithChildren ⟨⟨contents, htext⟩, hchildren⟩
    · intro hall spot hspot flaw hflaw
      obtain ⟨hname, hchildren⟩ := hall spot.path spot.node (Node.mem_spots_iff.mp hspot)
      cases flaw with
      | emptyTagName =>
        obtain ⟨e, he, hempty⟩ := hflaw
        exact hname e he hempty
      | textWithChildren =>
        obtain ⟨⟨contents, htext⟩, hsome⟩ := hflaw
        exact hsome (hchildren contents htext)
  · intro defect hdefect
    obtain ⟨before, node, behind, hsplit, hflaw, hbefore⟩ := Node.exists_of_defect?_eq_some hdefect
    have hmem : ⟨defect.path, node⟩ ∈ root.spots := by
      rw [hsplit]
      exact List.mem_append_right _ List.mem_cons_self
    exact ⟨defect.path, node, pathOfText?_pathText defect.path, Node.mem_spots_iff.mp hmem, hflaw,
      before, behind, hsplit, hbefore⟩

/-- Ten items without a flaw, then one with an element that has no name and a text that has a
    child. -/
def unnamedItem : Node :=
  .ofElement "ul" [] (List.replicate 10 (.ofElement "li" [] [.ofText ""]) ++
    [.ofElement "li" [] [.ofElement "" [] [], ⟨.text "x", [.ofText "y"]⟩]])

theorem defect?_first_unnamedItem :
    unnamedItem.defect? = some ⟨.emptyTagName, [10, 0]⟩ ∧ pathText [10, 0] = "root/10/0" ∧
      ∃ path node, pathOfText? "root/10/0" = some path ∧ unnamedItem.at? path = some node ∧
        node.HasFlaw .emptyTagName ∧
        ∃ before behind, unnamedItem.spots = before ++ ⟨path, node⟩ :: behind ∧
          ∀ spot ∈ before, ∀ flaw, ¬ spot.node.HasFlaw flaw := by
  have hdefect : unnamedItem.defect? = some ⟨.emptyTagName, [10, 0]⟩ := by decide +kernel
  have htext : pathText [10, 0] = "root/10/0" := by decide +kernel
  have hfirst := (defect?_first unnamedItem).2 _ hdefect
  rw [htext] at hfirst
  exact ⟨hdefect, htext, hfirst⟩

end StyleEngine
