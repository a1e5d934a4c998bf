import StyleEngine.Dom.Export
import StyleEngine.Dom.Load
import StyleEngine.Proofs.Data.Enumeration
import StyleEngine.Proofs.Json.RoundTrip

/-!
# `Proofs/Dom/SaveLoad.lean` — a tree that is saved can be loaded, unless it is too tall

The loader allows 127 brackets to be open at once. Of these a tree takes two for every level but
the lowest, the brace of the node and the bracket of its children. The lowest level takes up to
three: an element has a brace for itself and another for its attributes. So a tree of height 63
just fits, whatever its nodes are, and one of height 64 never does, not even with a text at the
bottom, since a text too is written with an array of children.

How a tree is written is a relation (`Node.Written`), because the attributes of an element may
be enumerated in any order. It is read level by level:

* `readNode_step` takes two brackets off: a node reads as its children do;
* `readNode_last` says what one bracket is good for, and this is nothing;
* **`readNode_compact`** is the whole tree, by induction on the height that is allowed.

**`load_of_written`** adds that nothing is wrong with a tree that was put together as it should.
-/

set_option autoImplicit false

namespace StyleEngine

open Json (Reader ReadError)

/-! ## 1. Saved trees -/

/-- A text or an element as JSON, with the attributes in some order. -/
inductive NodeKind.Written : NodeKind → Json → Prop where
  | text (contents : String) : Written (.text contents) (.string contents)
  | element {e : Element} {attributes : List (String × String)}
      (h : attributes.Perm e.attributes.entries) :
      Written (.element e) (.object [("tagName", .string e.tagName),
        ("attributes", .object (attributes.map fun (name, value) => (name, .string value)))])

/-- A tree as JSON, with the attributes of each element in some order. -/
inductive Node.Written : Node → Json → Prop where
  | mk {kind : NodeKind} {children : List Node} {k : Json} {js : List Json}
      (hkind : kind.Written k) (hchildren : List.Forall₂ Node.Written children js) :
      Node.Written ⟨kind, children⟩ (.object [("nodeType", k), ("children", .array js)])

/-- No element without a name, and no text with children. -/
inductive Node.Sound : Node → Prop where
  | text (contents : String) : Node.Sound ⟨.text contents, []⟩
  | element {e : Element} {children : List Node} (hname : e.tagName ≠ "")
      (hchildren : ∀ child ∈ children, child.Sound) : Node.Sound ⟨.element e, children⟩

namespace Node

mutual

/-- How many nodes a way down the tree has at most. -/
def height : Node → Nat
  | ⟨_, children⟩ => heightAll children + 1

def heightAll : List Node → Nat
  | [] => 0
  | node :: nodes => max node.height (heightAll nodes)

end

mutual

/-- The order of the names is one of the orders. -/
theorem written_toJson : ∀ node : Node, node.Written node.toJson
  | ⟨.text contents, children⟩ => .mk (.text contents) (written_toJsons children)
  | ⟨.element _, children⟩ => .mk (.element (.refl _)) (written_toJsons children)

theorem written_toJsons : ∀ nodes : List Node, List.Forall₂ Node.Written nodes (toJsons nodes)
  | [] => .nil
  | node :: nodes => .cons node.written_toJson (written_toJsons nodes)

end

end Node

/-! ## 2. Texts and elements -/

theorem Element.attributes?_object (attributes : List (String × String)) :
    Element.attributes? (.object (attributes.map fun (name, value) => (name, .string value))) =
      some (Dict.ofList attributes) := by
  have hall : (attributes.map fun (name, value) => (name, Json.string value)).mapM
      (fun (field : String × Json) => field.2.string?.map (field.1, ·)) = some attributes := by
    induction attributes with
    | nil => rfl
    | cons entry entries ih =>
      rw [List.map_cons, List.mapM_cons, ih]
      rfl
  rw [Element.attributes?, hall]
  rfl

namespace NodeKind.Written

variable {kind : NodeKind} {k : Json}

theorem ofJson? (h : kind.Written k) : NodeKind.ofJson? k = some kind := by
  cases h with
  | text contents => rfl
  | @element e attributes h =>
    have hattributes := Element.attributes?_object attributes
    rw [Dict.ofList_of_perm h] at hattributes
    simp [NodeKind.ofJson?, Element.ofJson?, Element.Partial.add?, Element.Partial.element?,
      Json.string?, hattributes]

theorem nests (h : kind.Written k) : k.Nests 2 := by
  cases h with
  | text contents => exact .string contents
  | @element e attributes _ =>
    have hattributes : Json.Nests 1
        (.object (attributes.map fun (name, value) => (name, .string value))) := by
      refine .object fun field hfield => ?_
      obtain ⟨entry, -, rfl⟩ := List.mem_map.mp hfield
      exact .string entry.2
    refine .object fun field hfield => ?_
    simp only [List.mem_cons, List.not_mem_nil, or_false] at hfield
    obtain rfl | rfl := hfield
    · exact .string e.tagName
    · exact hattributes

theorem readKind_compact (h : kind.Written k) {n turns levels : Nat} (hnests : k.Nests n)
    (hturns : k.compact.length ≤ turns) (hlevels : n ≤ levels) (rest : List Char) :
    Node.readKind turns levels (k.compact ++ rest) = .ok (kind, rest) := by
  rw [Node.readKind, Json.readValue_compact hnests .full hturns hlevels]
  simp only [bind, Except.bind, h.ofJson?]
  rfl

end NodeKind.Written

/-! ## 3. Nodes -/

namespace Node

section Form

variable {kind : Reader NodeKind} {children : Reader (List Node)}

theorem readMember_kind (turns : Nat) (cs : List Char) :
    readMember kind children turns "nodeType" ⟨none, none⟩ (':' :: cs) =
      (kind cs).map fun (kind, rest) => (⟨some kind, none⟩, rest) := by
  have hcolon : Json.readColon (':' :: cs) = .ok ((), cs) := rfl
  rw [readMember, if_pos rfl, hcolon]
  cases hkind : kind cs <;> simp [hkind, bind, Except.bind, Except.map, pure, Except.pure]

theorem readMember_children (turns : Nat) (k : NodeKind) (cs : List Char) :
    readMember kind children turns "children" ⟨some k, none⟩ (':' :: cs) =
      (children cs).map fun (nodes, rest) => (⟨some k, some nodes⟩, rest) := by
  have hcolon : Json.readColon (':' :: cs) = .ok ((), cs) := rfl
  have hname : "children" ≠ "nodeType" := by decide
  rw [readMember, if_neg hname, if_pos rfl, hcolon]
  cases hchildren : children cs <;>
    simp [hchildren, bind, Except.bind, Except.map, pure, Except.pure]

/-- What stands behind the kind of a node. -/
def childrenMember (c : Json) (rest : List Char) : List Char :=
  ',' :: (Json.quote "children" ++ ':' :: (c.compact ++ '}' :: rest))

/-- What stands behind the opening brace of a node. -/
def members (k c : Json) (rest : List Char) : List Char :=
  Json.quote "nodeType" ++ ':' :: (k.compact ++ childrenMember c rest)

theorem compact_node (k c : Json) (rest : List Char) :
    (Json.object [("nodeType", k), ("children", c)]).compact ++ rest = '{' :: members k c rest := by
  simp [Json.compact, Json.compactFields, members, childrenMember]

/-- The members of a node are taken one after the other. -/
theorem readObject_members (member : String → Partial → Reader Partial) (turns : Nat)
    (k c : Json) (rest : List Char) :
    Json.readObject .full member (turns + 2) ⟨none, none⟩ (members k c rest) =
      member "nodeType" ⟨none, none⟩ (':' :: (k.compact ++ childrenMember c rest)) >>=
        Json.afterMember (Json.readMembers .full member (turns + 1)) := by
  rw [members, ← Json.readMembers_quote]
  rfl

theorem readObjectForm_error {e : ReadError} {k c : Json} {rest : List Char} (turns : Nat)
    (hkind : kind (k.compact ++ childrenMember c rest) = .error e) :
    readObjectForm kind children (turns + 2) (members k c rest) = .error e := by
  have hmember := @readMember_kind kind children (turns + 2) (k.compact ++ childrenMember c rest)
  rw [hkind] at hmember
  rw [readObjectForm]
  dsimp only
  rw [readObject_members, hmember]
  rfl

theorem readObjectForm_ok {kd : NodeKind} {nodes : Except ReadError (List Node)} {k c : Json}
    {rest : List Char} (turns : Nat)
    (hkind : kind (k.compact ++ childrenMember c rest) = .ok (kd, childrenMember c rest))
    (hchildren : children (c.compact ++ '}' :: rest) = nodes.map (·, '}' :: rest)) :
    readObjectForm kind children (turns + 2) (members k c rest) =
      nodes.map fun nodes => (⟨kd, nodes⟩, rest) := by
  have hmember := @readMember_kind kind children (turns + 2) (k.compact ++ childrenMember c rest)
  have hmember' := @readMember_children kind children (turns + 2) kd (c.compact ++ '}' :: rest)
  rw [hkind] at hmember
  rw [hchildren] at hmember'
  rw [readObjectForm]
  dsimp only
  rw [readObject_members, hmember]
  show (Json.readMembers .full _ (turns + 1) (Partial.mk (some kd) none)
    (Json.quote "children" ++ ':' :: (c.compact ++ '}' :: rest)) >>= _) = _
  rw [Json.readMembers_quote, hmember']
  cases nodes <;> rfl

end Form

/-! ## 4. Levels -/

theorem length_members (k : Json) (js : List Json) :
    k.compact.length + (Json.compactItems js).length + 2 ≤
      (Json.object [("nodeType", k), ("children", .array js)]).compact.length := by
  simp only [Json.compact, Json.compactFields, List.length_append, List.length_cons]
  omega

section Levels

variable {kind : NodeKind} {k : Json} {js : List Json} {turns : Nat}

/-- **A node reads as its children do**, two brackets further in. -/
theorem readNode_step {levels : Nat} {children : List Node} {f : Node → Except ReadError Node}
    (hkind : kind.Written k)
    (hchildren : List.Forall₂ (Json.ReadsAs (readNode turns (levels + 1)) f) children js)
    (hturns : (Json.object [("nodeType", k), ("children", .array js)]).compact.length ≤ turns)
    (rest : List Char) :
    readNode turns (levels + 3)
        ((Json.object [("nodeType", k), ("children", .array js)]).compact ++ rest) =
      (children.mapM f).map fun nodes => (⟨kind, nodes⟩, rest) := by
  have hlength := length_members k js
  have hcount := Json.length_items_le js
  obtain ⟨turns, rfl⟩ : ∃ more, turns = more + 2 := Nat.exists_eq_add_of_le' (by omega)
  have hread := hkind.readKind_compact hkind.nests (Nat.le_trans (by omega) hturns)
    (Nat.le_add_left 2 levels) (childrenMember (.array js) rest)
  have harray :=
    Json.readArray_compactItems hchildren (Nat.le_trans (by omega) hturns) ('}' :: rest)
  rw [compact_node]
  refine readObjectForm_ok turns hread ?_
  rw [← harray, Json.compact, List.cons_append, List.append_assoc]
  rfl

/-- At the last bracket only a text can be read, and then not the array of its children, empty
    as it is. -/
theorem readNode_last (hkind : kind.Written k)
    (hturns : (Json.object [("nodeType", k), ("children", .array js)]).compact.length ≤ turns)
    (rest : List Char) :
    readNode turns 1 ((Json.object [("nodeType", k), ("children", .array js)]).compact ++ rest) =
      .error .malformed := by
  have hlength := length_members k js
  obtain ⟨turns, rfl⟩ : ∃ more, turns = more + 2 := Nat.exists_eq_add_of_le' (by omega)
  rw [compact_node]
  cases hkind with
  | text contents =>
    have hread := (NodeKind.Written.text contents).readKind_compact (.string contents)
      (Nat.le_trans (by omega) hturns) (Nat.le_refl 0) (childrenMember (.array js) rest)
    exact @readObjectForm_ok _ _ _ (.error .malformed) _ _ _ turns hread rfl
  | element hattributes => exact readObjectForm_error turns rfl

end Levels

/-! ## 5. Trees -/

/-- The tree, or no JSON where it is taller than allowed. -/
def bounded (m : Nat) (node : Node) : Except ReadError Node :=
  if node.height ≤ m then .ok node else .error .malformed

theorem mapM_bounded (m : Nat) (nodes : List Node) :
    nodes.mapM (bounded m) = if heightAll nodes ≤ m then .ok nodes else .error .malformed := by
  induction nodes with
  | nil => rfl
  | cons node nodes ih =>
    rw [List.mapM_cons, ih, bounded, heightAll]
    by_cases hnode : node.height ≤ m
    · by_cases hnodes : heightAll nodes ≤ m
      · rw [if_pos hnode, if_pos hnodes, if_pos (Nat.max_le.mpr ⟨hnode, hnodes⟩)]
        rfl
      · rw [if_pos hnode, if_neg hnodes, if_neg fun hmax => hnodes (Nat.max_le.mp hmax).2]
        rfl
    · rw [if_neg hnode, if_neg fun hmax => hnode (Nat.max_le.mp hmax).1]
      rfl

theorem bounded_succ (m : Nat) (kind : NodeKind) (children : List Node) :
    bounded (m + 1) ⟨kind, children⟩ = (children.mapM (bounded m)).map (Node.mk kind) := by
  rw [mapM_bounded, bounded, height]
  by_cases hheight : heightAll children ≤ m
  · rw [if_pos hheight, if_pos (Nat.succ_le_succ hheight)]
    rfl
  · rw [if_neg hheight, if_neg fun hle => hheight (Nat.le_of_succ_le_succ hle)]
    rfl

/-- **A tree reads back, and where it is too tall it is no JSON.** -/
theorem readNode_compact {turns : Nat} (m : Nat) {node : Node} {j : Json} (h : node.Written j)
    (hturns : j.compact.length ≤ turns) :
    Json.ReadsAs (readNode turns (2 * m + 1)) (bounded m) node j := by
  induction m generalizing node j with
  | zero =>
    cases h with
    | @mk kind children k js hkind _ =>
      refine ⟨⟨'{', _, rfl, by decide⟩, fun rest => ?_⟩
      rw [bounded, height, if_neg (Nat.not_succ_le_zero _)]
      exact readNode_last hkind hturns rest
  | succ m ih =>
    cases h with
    | @mk kind children k js hkind hchildren =>
      have hlength := length_members k js
      have hreads :
          List.Forall₂ (Json.ReadsAs (readNode turns (2 * m + 1)) (bounded m)) children js := by
        refine List.forall₂_iff_zip.mpr ⟨hchildren.length_eq, fun hmem => ?_⟩
        have hitem := Json.length_le_compactItems (List.of_mem_zip hmem).2
        exact ih (List.forall₂_zip hchildren hmem) (by omega)
      refine ⟨⟨'{', _, rfl, by decide⟩, fun rest => ?_⟩
      rw [bounded_succ]
      refine (readNode_step hkind hreads hturns rest).trans ?_
      cases children.mapM (bounded m) <;> rfl

/-! ## 6. Loading -/

theorem defectIn?_eq_none {nodes : List Node} (h : ∀ node ∈ nodes, node.defect? = none) (i : Nat) :
    defectIn? i nodes = none := by
  induction nodes generalizing i with
  | nil => rfl
  | cons node nodes ih =>
    obtain ⟨hnode, hnodes⟩ := List.forall_mem_cons.mp h
    rw [defectIn?, hnode]
    exact ih hnodes (i + 1)

theorem Sound.defect?_eq_none {node : Node} (h : node.Sound) : node.defect? = none := by
  induction h with
  | text contents => rfl
  | @element e children hname _ ih =>
    have hflaw : flaw? ⟨.element e, children⟩ = none := if_neg hname
    rw [defect?, hflaw]
    exact defectIn?_eq_none ih 0

theorem parse_of_written {node : Node} {j : Json} (h : node.Written j) :
    Node.parse j.text = bounded 63 node := by
  have hread := (readNode_compact 63 h (Nat.le_refl _)).reads []
  rw [List.append_nil] at hread
  have hdepth : maxDepth = 2 * 63 + 1 := rfl
  rw [parse, Json.text, String.toList_ofList, Json.readText, hdepth, hread]
  cases bounded 63 node <;> rfl

end Node

/-- **A saved tree loads as it was, up to a height of 63, and from then on it is no JSON.** -/
theorem load_of_written {node : Node} {j : Json} (h : node.Written j) (hsound : node.Sound) :
    (node.height ≤ 63 → Node.load j.text = .ok node) ∧
      (64 ≤ node.height → Node.load j.text = .error (.json .malformed)) := by
  have hparse := Node.parse_of_written h
  rw [Node.bounded] at hparse
  refine ⟨fun hheight => ?_, fun hheight => ?_⟩
  · rw [if_pos hheight] at hparse
    rw [Node.load, hparse]
    dsimp only
    rw [hsound.defect?_eq_none]
  · rw [if_neg (Nat.not_le.mpr hheight)] at hparse
    rw [Node.load, hparse]

/-- A text with elements around it. -/
def tower : Nat → Node
  | 0 => .ofText "top"
  | n + 1 => .ofElement "p" [] [tower n]

theorem height_tower (n : Nat) : (tower n).height = n + 1 := by
  induction n with
  | zero => rfl
  | succ n ih =>
    show max (tower n).height 0 + 1 = n + 1 + 1
    rw [Nat.max_zero, ih]

theorem sound_tower (n : Nat) : (tower n).Sound := by
  induction n with
  | zero => exact .text "top"
  | succ n ih => exact .element (by decide) (List.forall_mem_singleton.mpr ih)

def listItem : Node := .ofElement "li" [("id", "x"), ("class", "a b")] [.ofText "1\n"]

/-- The names of the attributes stand in another order than the dictionary has them in. -/
def listItemJson : Json :=
  .object [("nodeType", .object [("tagName", .string "li"),
      ("attributes", .object [("id", .string "x"), ("class", .string "a b")])]),
    ("children", .array [.object [("nodeType", .string "1\n"), ("children", .array [])]])]

theorem listItem_written : listItem.Written listItemJson := by
  have hentries : (Dict.ofList [("id", "x"), ("class", "a b")]).entries =
      [("class", "a b"), ("id", "x")] := by decide +kernel
  have horder : [("id", "x"), ("class", "a b")].Perm
      (Dict.ofList [("id", "x"), ("class", "a b")]).entries := by
    rw [hentries]
    exact .swap _ _ _
  have hkind := @NodeKind.Written.element ⟨"li", .ofList [("id", "x"), ("class", "a b")]⟩ _ horder
  exact .mk hkind (.cons (.mk (.text "1\n") .nil) .nil)

theorem listItem_sound : listItem.Sound :=
  .element (by decide) (List.forall_mem_singleton.mpr (.text "1\n"))

theorem load_of_written_listItem :
    listItem.Written listItemJson ∧ listItem.Sound ∧ listItem.height ≤ 63 ∧
      Node.load listItemJson.text = .ok listItem ∧
    (tower 63).Written (tower 63).toJson ∧ (tower 63).Sound ∧ 64 ≤ (tower 63).height ∧
      Node.load (tower 63).toJson.text = .error (.json .malformed) := by
  have hlow : listItem.height ≤ 63 := by decide
  have htall : 64 ≤ (tower 63).height := Nat.le_of_eq (height_tower 63).symm
  have hwritten := (tower 63).written_toJson
  exact ⟨listItem_written, listItem_sound, hlow,
    (load_of_written listItem_written listItem_sound).1 hlow, hwritten, sound_tower 63, htall,
    (load_of_written hwritten (sound_tower 63)).2 htall⟩

end StyleEngine
