import StyleEngine.Cascade.Trace
import StyleEngine.Proofs.Cascade.Buckets
import StyleEngine.Proofs.Cascade.Mirror
import StyleEngine.Proofs.Dom.DocumentOrder

/-!
# `Proofs/Cascade/Tracing.lean` — a trace says what was done, and does nothing

A recorder goes along while a tree is styled. It has a depth that is set before the children of
a node are gone through and set back behind them, and lines that are added to it. What a build
does to a recorder is all said by one equation (`Styled.run_record`): the tree is the one that
is built without a recorder, the depth is as it was, and lines have been added for what was
found.

What was found is a list of its own that knows nothing of recorders (`Node.findings`): the nodes
in document order, and with each the rules of the ordered sheet that are about it, in the order
in which they count. The lines are read off it one by one. So are the values of a node, since
the rules that are passed over put nothing in (`specificValues_eq_declare`).

The depth is set back at every node, and so it is the same behind any number of builds. That is
why a build writes down the same lines whatever was built before.
-/

set_option autoImplicit false

namespace StyleEngine

/-! ## 1. Findings -/

/-- A rule that is about a node, and where the node is. -/
structure Finding where
  spot : Spot
  rule : Rule

/-- The line for a rule that is about a node, at some depth. -/
def TraceLine.of (depth : Nat) (kind : NodeKind) (rule : Rule) : TraceLine :=
  ⟨depth, Recorder.target kind, ", ".intercalate (rule.selectors.map Selector.text),
    rule.declarations.length⟩

/-- The line for a finding, where the root stands at some depth. -/
def Finding.line (start : Nat) (finding : Finding) : TraceLine :=
  .of (start + finding.spot.path.length) finding.spot.node.kind finding.rule

/-- What is found at one spot, in the order of the rules. -/
def Spot.findings (rules : List Rule) (spot : Spot) : List Finding :=
  (rules.filter (·.matches spot.node.kind)).map (⟨spot, ·⟩)

/-- What is found in a document: one node after the other, in document order. -/
def Node.findings (rules : List Rule) (root : Node) : List Finding :=
  root.spots.flatMap (Spot.findings rules)

/-- One step further up the paths are longer by one. -/
theorem Spot.lines_below (rules : List Rule) (i start : Nat) (spot : Spot) :
    ((spot.below i).findings rules).map (Finding.line start) =
      (spot.findings rules).map (Finding.line (start + 1)) := by
  have hline : Finding.line start ∘ Finding.mk (spot.below i) =
      Finding.line (start + 1) ∘ Finding.mk spot := by
    funext rule
    rw [Function.comp_apply, Function.comp_apply, Finding.line, Finding.line, Spot.below,
      List.length_cons, Nat.add_right_comm, Nat.add_assoc]
  rw [findings, findings, List.map_map, List.map_map, ← hline]
  rfl

/-! ## 2. Recorders -/

/-- More lines at the same depth. -/
def Recorder.add (recorder : Recorder) (lines : List TraceLine) : Recorder :=
  ⟨recorder.depth, recorder.lines ++ lines.toArray⟩

namespace Recorder

@[simp] theorem depth_add (recorder : Recorder) (lines : List TraceLine) :
    (recorder.add lines).depth = recorder.depth :=
  rfl

theorem add_nil (recorder : Recorder) : recorder.add [] = recorder := by
  simp [add]

theorem add_append (recorder : Recorder) (lines more : List TraceLine) :
    recorder.add (lines ++ more) = (recorder.add lines).add more := by
  simp [add]

theorem text_add (recorder : Recorder) (lines : List TraceLine) :
    (recorder.add lines).text =
      recorder.text ++ String.join (lines.map fun line => line.text ++ "\n") := by
  simp [add, text]

end Recorder

/-! ## 3. One node, and all of them -/

namespace Styled

theorem run_recordRule (kind : NodeKind) (values : PropertyMap) (rule : Rule)
    (recorder : Recorder) :
    (recordRule kind values rule).run recorder = (values.apply kind rule,
      recorder.add (if rule.matches kind then [.of recorder.depth kind rule] else [])) := by
  rw [recordRule, PropertyMap.apply]
  split
  · rfl
  · rw [Recorder.add_nil]
    rfl

theorem run_recordRules (kind : NodeKind) (rules : List Rule) (values : PropertyMap)
    (recorder : Recorder) :
    (rules.foldlM (recordRule kind) values).run recorder =
      (rules.foldl (PropertyMap.apply kind) values,
        recorder.add ((rules.filter (·.matches kind)).map (.of recorder.depth kind))) := by
  induction rules generalizing values recorder with
  | nil =>
    rw [List.filter_nil, List.map_nil, Recorder.add_nil]
    rfl
  | cons rule rules ih =>
    rw [List.foldlM_cons, StateT.run_bind, run_recordRule]
    refine (ih _ _).trans ?_
    rw [List.foldl_cons, List.filter_cons, Recorder.depth_add, ← Recorder.add_append]
    split <;> rfl

/-- A node: its rules at the present depth, its children one deeper, and back again. -/
theorem run_record_mk (rules : List Rule) (kind : NodeKind) (children : List Node)
    (recorder : Recorder) :
    (record rules ⟨kind, children⟩).run recorder =
      let own := (rules.foldlM (recordRule kind) .empty).run recorder
      let below := (recordAll rules children).run (own.2.withDepth (recorder.depth + 1))
      (⟨kind, own.1, below.1⟩, below.2.withDepth recorder.depth) := by
  rw [record]
  rfl

theorem run_recordAll_cons (rules : List Rule) (node : Node) (nodes : List Node)
    (recorder : Recorder) :
    (recordAll rules (node :: nodes)).run recorder =
      let first := (record rules node).run recorder
      let rest := (recordAll rules nodes).run first.2
      (first.1 :: rest.1, rest.2) := by
  rw [recordAll]
  rfl

/-- What is found below a node is one deeper than the node. -/
theorem lines_below (rules : List Rule) (i start : Nat) (node : Node) :
    ((node.spots.map (Spot.below i)).flatMap (Spot.findings rules)).map (Finding.line start) =
      (node.findings rules).map (Finding.line (start + 1)) := by
  rw [Node.findings, List.flatMap_map, List.map_flatMap, List.map_flatMap]
  exact List.flatMap_congr fun spot _ => spot.lines_below rules i start

mutual

/-- **What a build does to a recorder.** -/
theorem run_record (rules : List Rule) (recorder : Recorder) : ∀ node : Node,
    (record rules node).run recorder =
      (ofNode rules node, recorder.add ((node.findings rules).map (Finding.line recorder.depth)))
  | ⟨kind, children⟩ => by
    have hown := run_recordRules kind rules .empty recorder
    have hbelow := run_recordAll rules 0 recorder.depth
      ((recorder.add ((rules.filter (·.matches kind)).map (.of recorder.depth kind))).withDepth
        (recorder.depth + 1)) rfl children
    rw [run_record_mk, hown]
    dsimp only
    rw [hbelow, ofNode, Node.findings, Node.spots, List.flatMap_cons, List.map_append,
      Recorder.add_append, Spot.findings, List.map_map]
    -- The depth is set back to what it was.
    rfl

/-- The same for children, one deeper than the node that they are children of. -/
theorem run_recordAll (rules : List Rule) (i start : Nat) (recorder : Recorder)
    (h : recorder.depth = start + 1) : ∀ nodes : List Node,
    (recordAll rules nodes).run recorder =
      (ofNodes rules nodes, recorder.add
        (((Node.spotsFrom i nodes).flatMap (Spot.findings rules)).map (Finding.line start)))
  | [] => by
    rw [Node.spotsFrom, List.flatMap_nil, List.map_nil, Recorder.add_nil]
    rfl
  | node :: nodes => by
    have hnode := run_record rules recorder node
    rw [h] at hnode
    have hnodes := run_recordAll rules (i + 1) start
      (recorder.add ((node.findings rules).map (Finding.line (start + 1)))) h nodes
    rw [run_recordAll_cons, hnode]
    dsimp only
    rw [hnodes, ofNodes, Node.spotsFrom, List.flatMap_append, List.map_append, lines_below,
      Recorder.add_append]

end

theorem run_buildRecorded (root : Node) (sheet : Sheet) (recorder : Recorder) :
    (buildRecorded root sheet).run recorder = (build root sheet,
      recorder.add ((root.findings sheet.bySpecificity.rules).map (Finding.line recorder.depth))) :=
  run_record sheet.bySpecificity.rules recorder root

/-- Builds in a row: each starts at the depth at which the first one started. -/
theorem run_mapM_buildRecorded (jobs : List (Node × Sheet)) (recorder : Recorder) :
    (jobs.mapM fun job => buildRecorded job.1 job.2).run recorder =
      (jobs.map fun job => build job.1 job.2, recorder.add (jobs.flatMap fun job =>
        (job.1.findings job.2.bySpecificity.rules).map (Finding.line recorder.depth))) := by
  induction jobs generalizing recorder with
  | nil =>
    rw [List.mapM_nil, List.flatMap_nil, Recorder.add_nil]
    rfl
  | cons job jobs ih =>
    rw [List.mapM_cons, StateT.run_bind, run_buildRecorded, List.flatMap_cons, Recorder.add_append]
    have hrest := ih (recorder.add
      ((job.1.findings job.2.bySpecificity.rules).map (Finding.line recorder.depth)))
    rw [Recorder.depth_add] at hrest
    exact congrArg (fun rest => (build job.1 job.2 :: rest.1, rest.2)) hrest

end Styled

/-! ## 4. What is found -/

/-- A line as it is printed, for a rule with one selector. -/
theorem TraceLine.text_of (depth : Nat) (e : Element) {rule : Rule} {selector : Selector}
    (h : rule.selectors = [selector]) :
    (TraceLine.of depth (.element e) rule).text =
      "[CASCADE] " ++ String.ofList (List.replicate (2 * depth) ' ') ++
        s!"<{e.tagName}> matched '{selector.text}' ({rule.declarations.length} declarations)" := by
  have hopen : "' (" = "' " ++ "(" := rfl
  rw [of, h, List.map_singleton, String.intercalate_singleton]
  -- Not by its equation, which takes seconds to come by over so many pieces of text.
  delta text
  simp only [Recorder.target, NodeKind.tagName?, NodeKind.element?, Option.map_some,
    Option.getD_some, String.append_assoc, toString, hopen]

/-- The rules that are passed over put nothing in. -/
theorem specificValues_eq_declare (rules : List Rule) (kind : NodeKind) :
    specificValues rules kind =
      PropertyMap.declare .empty ((rules.filter (·.matches kind)).flatMap (·.declarations)) := by
  have hfold (values : PropertyMap) : rules.foldl (PropertyMap.apply kind) values =
      values.declare ((rules.filter (·.matches kind)).flatMap (·.declarations)) := by
    induction rules generalizing values with
    | nil => rfl
    | cons rule rules ih =>
      rw [List.foldl_cons, ih, List.filter_cons, PropertyMap.apply]
      split
      · rw [List.flatMap_cons, PropertyMap.declare, PropertyMap.declare, PropertyMap.declare,
          List.foldl_append]
      · rfl
  exact hfold .empty

namespace Node

theorem mem_findings_iff {rules : List Rule} {root : Node} {finding : Finding} :
    finding ∈ root.findings rules ↔ root.at? finding.spot.path = some finding.spot.node ∧
      finding.rule ∈ rules ∧ finding.rule.matches finding.spot.node.kind = true := by
  obtain ⟨spot, rule⟩ := finding
  simp [findings, Spot.findings, mem_spots_iff, and_assoc]

/-- The findings go along the nodes in document order. -/
theorem pairwise_findings (rules : List Rule) (root : Node) :
    (root.findings rules).Pairwise fun a b =>
      a.spot.path = b.spot.path ∨ a.spot.path < b.spot.path := by
  rw [findings, List.pairwise_flatMap]
  constructor
  · intro spot _
    rw [Spot.findings, List.pairwise_map]
    exact List.pairwise_of_forall fun _ _ => Or.inl rfl
  · refine (pairwise_spots root).imp fun hlt a ha b hb => ?_
    obtain ⟨_, _, rfl⟩ := List.mem_map.mp ha
    obtain ⟨_, _, rfl⟩ := List.mem_map.mp hb
    exact Or.inr hlt

theorem filter_flatMap_findings (rules : List Rule) (path : List Nat) (spots : List Spot) :
    (spots.flatMap (Spot.findings rules)).filter (·.spot.path = path) =
      (spots.filter (·.path = path)).flatMap (Spot.findings rules) := by
  induction spots with
  | nil => rfl
  | cons spot spots ih =>
    rw [List.flatMap_cons, List.filter_append, ih, List.filter_cons]
    -- All that is found at one spot has one path.
    by_cases hpath : spot.path = path
    · rw [if_pos (decide_eq_true hpath), List.flatMap_cons, Spot.findings, List.filter_map]
      simp [Function.comp_def, hpath]
    · rw [if_neg (by simpa using hpath), Spot.findings, List.filter_map]
      simp [Function.comp_def, hpath]

/-- **At one node the findings are the rules about it**, each as often as the sheet has it and
    in the order of the sheet. -/
theorem map_rule_findings_at (rules : List Rule) {root node : Node} {path : List Nat}
    (h : root.at? path = some node) :
    ((root.findings rules).filter (·.spot.path = path)).map (·.rule) =
      rules.filter (·.matches node.kind) := by
  rw [findings, filter_flatMap_findings, filter_spots_of_at? h, List.flatMap_singleton,
    Spot.findings, List.map_map]
  exact List.map_id _

end Node

/-! ## 5. The trace -/

/-- **A trace says what was done, and does nothing.**

    The tree is the one that is built without a recorder, the depth is what it was, and what is
    added are lines for findings, each ended by a line feed. The findings follow the nodes in
    document order. Each is about an element and a rule of one selector, and its line is
    indented by twice the depth of the element and gives the selector and how many declarations
    there are. Over the path of a node stand, once each and in the order of the ordered sheet,
    the rules about the node, and their declarations, put into an empty map one after another,
    are its values. Builds in a row write down what each of them would write down as the first.

    A line is what is written for one finding. A tag name from outside may have a line feed in
    it, and that is written as it is. -/
theorem buildRecorded_faithful (root : Node) (sheet : Sheet) :
    let rules := sheet.bySpecificity.rules
    let found := root.findings rules
    (∀ recorder : Recorder,
      (Styled.buildRecorded root sheet).run recorder = (Styled.build root sheet,
        ⟨recorder.depth, recorder.lines ++ (found.map (Finding.line recorder.depth)).toArray⟩) ∧
      ((Styled.buildRecorded root sheet).run recorder).2.text = recorder.text ++
        String.join (found.map fun finding => (finding.line recorder.depth).text ++ "\n")) ∧
    (found.Pairwise fun a b => a.spot.path = b.spot.path ∨ a.spot.path < b.spot.path) ∧
    (∀ spot rule, ⟨spot, rule⟩ ∈ found → ∃ (e : Element) (selector : Selector),
      root.at? spot.path = some spot.node ∧ spot.node.kind = .element e ∧
      rule.selectors = [selector] ∧
      ∀ start, (Finding.line start ⟨spot, rule⟩).text =
        "[CASCADE] " ++ String.ofList (List.replicate (2 * (start + spot.path.length)) ' ') ++
          s!"<{e.tagName}> matched '{selector.text}' ({rule.declarations.length} declarations)") ∧
    (∀ path node, root.at? path = some node →
      let traced := (found.filter (·.spot.path = path)).map (·.rule)
      traced = rules.filter (·.matches node.kind) ∧
      ∃ styled, (Styled.build root sheet).at? path = some styled ∧
        styled.values = PropertyMap.declare .empty (traced.flatMap (·.declarations))) ∧
    ∀ jobs : List (Node × Sheet),
      (jobs.mapM fun job => Styled.buildRecorded job.1 job.2).run .start =
        (jobs.map fun job => Styled.build job.1 job.2,
          ⟨0, (jobs.flatMap fun job =>
            ((Styled.buildRecorded job.1 job.2).run .start).2.lines.toList).toArray⟩) := by
  intro rules found
  refine ⟨?_, root.pairwise_findings rules, ?_, ?_, ?_⟩
  · intro recorder
    have hrun := Styled.run_buildRecorded root sheet recorder
    refine ⟨hrun, ?_⟩
    rw [hrun, Recorder.text_add, List.map_map]
    rfl
  · intro spot rule hfound
    obtain ⟨hat, hrule, hmatch⟩ := Node.mem_findings_iff.mp hfound
    obtain ⟨selector, hselector⟩ := Sheet.exists_selectors_eq hrule
    cases hkind : spot.node.kind with
    | element e =>
      refine ⟨e, selector, hat, rfl, hselector, fun start => ?_⟩
      rw [Finding.line, hkind]
      exact TraceLine.text_of (start + spot.path.length) e hselector
    | text contents =>
      rw [hkind, rule.matches_text] at hmatch
      cases hmatch
  · intro path node hnode
    have htraced := Node.map_rule_findings_at rules hnode
    refine ⟨htraced, Styled.build node sheet, ?_, ?_⟩
    · rw [Styled.at?_build, hnode]
      rfl
    · rw [htraced, ← specificValues_eq_declare]
      exact Styled.values_build node sheet
  · intro jobs
    rw [Styled.run_mapM_buildRecorded]
    simp [Styled.run_buildRecorded, Recorder.add, Recorder.start]

end StyleEngine
