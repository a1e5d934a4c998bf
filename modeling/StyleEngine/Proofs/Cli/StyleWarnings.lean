import StyleEngine.Cli.Run
import StyleEngine.Proofs.Cascade.Buckets
import StyleEngine.Proofs.Cascade.Warnings
import StyleEngine.Proofs.Dom.SaveLoad
import StyleEngine.Proofs.Dom.StyleBlocks

/-!
# `Proofs/Cli/StyleWarnings.lean` — what `style` warns of

The warnings of a run come from two places. One is about the sheet as a whole, and the other
ones turn up while the outline is drawn, when the display of an element is asked for. The log
goes through the whole walk, but nothing in the walk depends on it. So it is enough to know in
which order things are said: of every node what the cascade leaves to be said of it, in document
order (`Listed.snd_lines`). The log drops what it has had before, and the rest is what is printed
(`errors_style`).

With JSON there is no outline, no display is asked for, and nothing but the sheet as a whole
can be complained of.
-/

set_option autoImplicit false

namespace StyleEngine

namespace Cli

/-! ## 1. The walk -/

namespace Listed

variable (depth : Nat) (log : WarningLog)

/-- Nothing is said of a text itself. -/
theorem snd_lines_text (contents : String) (children : List Listed) :
    ((lines depth (.text contents children)).run log).2 =
      ((linesOf (depth + 1) children).run log).2 :=
  rfl

/-- What is said of an element is said before anything is said of what is in it. -/
theorem snd_lines_element (tagName : String) (attributes : List (String × String))
    (values : List (String × Value)) (children : List Listed) :
    ((lines depth (.element tagName attributes values children)).run log).2 =
      ((linesOf (depth + 1) children).run (log.warnAll
        ((values.lookup "display").bind Styled.complaint?).toList)).2 := by
  have hdisplay := Styled.run_resolveDisplay (some tagName) (values.lookup "display") log
  rw [lines, StateT.run_bind, hdisplay]
  rfl

theorem snd_linesOf_cons (node : Listed) (nodes : List Listed) :
    ((linesOf depth (node :: nodes)).run log).2 =
      ((linesOf depth nodes).run ((lines depth node).run log).2).2 :=
  rfl

mutual

/-- The walk through a styled tree says what there is to be said of its nodes. -/
theorem snd_lines (sheet : Sheet) (depth : Nat) (log : WarningLog) : ∀ node : Node,
    (((ofStyled (.build node sheet)).lines depth).run log).2 =
      log.warnAll (Node.complaints sheet node.inOrder)
  | ⟨.text contents, children⟩ => by
    have hbelow := snd_linesOf sheet (depth + 1) log children
    rw [Styled.build, Styled.ofNode, ofStyled, snd_lines_text, hbelow, Node.inOrder,
      Node.complaints_cons, Node.complaint?_text, Option.toList_none, List.nil_append]
  | ⟨.element e, children⟩ => by
    have hbelow := snd_linesOf sheet (depth + 1)
      (log.warnAll (Node.complaint? sheet ⟨.element e, children⟩).toList) children
    rw [Styled.build, Styled.ofNode, ofStyled, snd_lines_element, Node.inOrder,
      Node.complaints_cons, WarningLog.warnAll_append, ← hbelow]
    -- The outline looks the display up in the list that the values are kept in.
    rfl

theorem snd_linesOf (sheet : Sheet) (depth : Nat) (log : WarningLog) : ∀ nodes : List Node,
    ((linesOf depth (ofAll (Styled.ofNodes sheet.bySpecificity.rules nodes))).run log).2 =
      log.warnAll (Node.complaints sheet (Node.inOrderOf nodes))
  | [] => rfl
  | node :: nodes => by
    have hnode := snd_lines sheet depth log node
    have hnodes := snd_linesOf sheet depth (log.warnAll (Node.complaints sheet node.inOrder)) nodes
    rw [Styled.build] at hnode
    rw [Styled.ofNodes, ofAll, snd_linesOf_cons, hnode, hnodes, Node.inOrderOf,
      Node.complaints_append, WarningLog.warnAll_append]

end

end Listed

/-! ## 2. The command -/

theorem readSheet_inline (files : Files) (text : String) :
    (Source.inline text).readSheet files = (Sheet.ofText text).mapError .sheet :=
  rfl

theorem readTree_inline (files : Files) (text : String) :
    (Source.inline text).readTree files = (Node.load text).mapError (.tree text) :=
  rfl

/-- Once there are a sheet and a document, nothing can fail. -/
theorem run_style {files : Files} {css dom : Source} {sheet : Sheet} {root : Node}
    (hsheet : css.readSheet files = .ok sheet) (hroot : dom.readTree files = .ok root)
    (json : Bool) : (Command.style css dom json).run files =
      .success ((styleOutput root sheet json).run .empty).1
        ((styleOutput root sheet json).run .empty).2 := by
  rw [Command.run, Command.execute, hsheet, hroot]
  rfl

/-! ## 3. What is said -/

/-- What is said of a sheet as a whole. -/
def sheetComplaints (sheet : Sheet) : List Warning :=
  if sheet.rules = [] then [emptySheetWarning] else []

theorem snd_warnIfEmpty (sheet : Sheet) (log : WarningLog) :
    ((warnIfEmpty sheet).run log).2 = log.warnAll (sheetComplaints sheet) := by
  rw [warnIfEmpty, sheetComplaints]
  simp only [List.isEmpty_iff]
  split <;> rfl

/-- With JSON there is no outline, and no node is looked at for its display. -/
theorem snd_styleOutput (root : Node) (sheet : Sheet) (json : Bool) (log : WarningLog) :
    ((styleOutput root sheet json).run log).2 = log.warnAll
      (sheetComplaints sheet ++ Node.complaints sheet (if json then [] else root.inOrder)) := by
  rw [WarningLog.warnAll_append]
  cases json with
  | true => exact snd_warnIfEmpty sheet log
  | false =>
    have hlines := Listed.snd_lines sheet 0 (log.warnAll (sheetComplaints sheet)) root
    rw [← snd_warnIfEmpty] at hlines ⊢
    exact hlines

theorem component_of_mem_sheetComplaints {sheet : Sheet} {w : Warning}
    (h : w ∈ sheetComplaints sheet) : w.component = "CLI" := by
  rw [sheetComplaints] at h
  split at h
  · rw [List.mem_singleton.mp h]
    rfl
  · cases h

theorem component_of_mem_complaints {sheet : Sheet} {nodes : List Node} {w : Warning}
    (h : w ∈ Node.complaints sheet nodes) : w.component = "CSS" := by
  obtain ⟨node, -, hw⟩ := List.mem_filterMap.mp h
  obtain ⟨_, _, _, _, _, rfl⟩ := Node.complaint?_eq_some_iff.mp hw
  rfl

theorem join_sheetComplaints (sheet : Sheet) :
    String.join ((sheetComplaints sheet).map Warning.text) =
      if sheet.rules = [] then
        "\x1b[33m[Toy CLI] ⚠ stylesheet has no rules; every node will be unstyled\x1b[39m\n"
      else "" := by
  rw [sheetComplaints]
  split
  · rw [List.map_singleton, Warning.text_eq]
    decide +kernel
  · rfl

theorem eq_displayWarning_iff {w : Warning} {value : Value} :
    w = Styled.displayWarning value ↔
      w.component = "CSS" ∧ w.message = "unsupported display value '" ++ value.text ++ "'" := by
  have hmessage : (Styled.displayWarning value).message =
      "unsupported display value '" ++ value.text ++ "'" := by
    simp [Styled.displayWarning, toString]
  rw [← hmessage]
  cases w
  simp [Styled.displayWarning]

/-- A new log gives all that is said, and nothing of it twice. What is said of nodes is never
    what is said of the sheet. -/
theorem given_complaints (sheet : Sheet) (nodes : List Node) :
    (WarningLog.empty.warnAll (sheetComplaints sheet ++ Node.complaints sheet nodes)).given =
      sheetComplaints sheet ++ (Node.complaints sheet nodes).eraseDups := by
  have honce : (sheetComplaints sheet).eraseDups = sheetComplaints sheet := by
    rw [sheetComplaints]
    split <;> rfl
  have hapart : (Node.complaints sheet nodes).removeAll (sheetComplaints sheet) =
      Node.complaints sheet nodes := by
    refine List.filter_eq_self.mpr fun w hnodes => ?_
    rw [Bool.not_eq_true', ← Bool.not_eq_true, List.elem_iff]
    intro hsheet
    have hcomponent := component_of_mem_sheetComplaints hsheet
    rw [component_of_mem_complaints hnodes] at hcomponent
    exact absurd hcomponent (by decide)
  rw [WarningLog.given_warnAll_empty, List.eraseDups_append, honce, hapart]
  intro w hw
  rcases List.mem_append.mp hw with hsheet | hnodes
  · rw [Warning.IsPlain, component_of_mem_sheetComplaints hsheet]
    decide
  · rw [Warning.IsPlain, component_of_mem_complaints hnodes]
    decide

/-- **What `style` warns of.** If there are a sheet and a document, everything that goes to
    standard error is this: a line that the sheet has no rules, if it has none; and then, unless
    JSON is asked for, the lines of what there is to be said of the nodes in document order, each
    of them where it first occurs. What is said of a node is that the declaration that wins its
    display gives a value that is no display, and which one. -/
theorem errors_style {files : Files} {css dom : Source} {sheet : Sheet} {root : Node}
    (hsheet : css.readSheet files = .ok sheet) (hroot : dom.readTree files = .ok root) :
    (∀ node w, Node.complaint? sheet node = some w ↔ ∃ e c, node.kind = .element e ∧
      sheet.Wins node.kind "display" c ∧
      (∀ (word : String) (display : Display), c.declaration.value = .keyword word →
        Ascii.sameIgnoringCase word display.keyword = false) ∧
      w.component = "CSS" ∧
      w.message = "unsupported display value '" ++ c.declaration.value.text ++ "'") ∧
    ∀ json wording, ((Command.style css dom json).run files).code = 0 ∧
      ((Command.style css dom json).run files).errors wording =
        (if sheet.rules = [] then
          "\x1b[33m[Toy CLI] ⚠ stylesheet has no rules; every node will be unstyled\x1b[39m\n"
        else "") ++
        if json then ""
        else String.join ((root.inOrder.filterMap (Node.complaint? sheet)).eraseDups.map fun w =>
          "\x1b[33m[Toy " ++ w.component ++ "] ⚠ " ++ w.message ++ "\x1b[39m\n") := by
  refine ⟨fun node w => ?_, fun json wording => ?_⟩
  · simp only [Node.complaint?_eq_some_iff, eq_displayWarning_iff]
  · rw [run_style hsheet hroot]
    refine ⟨rfl, ?_⟩
    rw [Outcome.errors, WarningLog.text, snd_styleOutput, given_complaints, List.map_append,
      String.join_append, join_sheetComplaints, funext Warning.text_eq, Node.complaints]
    cases json <;> rfl

/-- Two rules with values that are no display, and a class that outweighs one of them. -/
def oddText : String :=
  "p\x7bdisplay:x\x7d.a\x7bdisplay:flex\x7ddiv\x7bdisplay:y\x7d"

def oddSheet : Sheet :=
  ⟨[⟨[.tag "p"], [⟨⟨"display", rfl⟩, .keyword "x"⟩]⟩,
    ⟨[.cls "a"], [⟨⟨"display", rfl⟩, .keyword "flex"⟩]⟩,
    ⟨[.tag "div"], [⟨⟨"display", rfl⟩, .keyword "y"⟩]⟩]⟩

def oddPage : Node :=
  .ofElement "div" [] [.ofElement "p" [] [.ofText "x"], .ofElement "p" [("class", "a")] [],
    .ofElement "p" [] []]

theorem ofText_odd : Sheet.ofText oddText = .ok oddSheet := by
  have htokens : (tokenize oddText).map (·.token) =
      [.ident "p", .openBrace, .ident "display", .colon, .ident "x", .closeBrace, .delim '.',
        .ident "a", .openBrace, .ident "display", .colon, .ident "flex", .closeBrace, .ident "div",
        .openBrace, .ident "display", .colon, .ident "y", .closeBrace, .eof] := by decide +kernel
  have hname : PropertyName.ofText? "display" = some ⟨"display", rfl⟩ := by decide +kernel
  rw [Sheet.ofText, Sheet.ofTokens_eq_ok, htokens]
  simp [Progress.rules?, Progress.step, stepTop, stepSelectorStart, stepSelectorEnd,
    stepSelectorGap, stepClassName, stepBlock, stepNameEnd, stepValue, Token.startsSelector,
    Token.component, Value.ofComponents?, hname, oddSheet]

theorem load_odd : Node.load oddPage.toJson.text = .ok oddPage := by
  rw [Node.load, Node.parse_of_written oddPage.written_toJson]
  rfl

/-- The `div` comes first, though its rule is the last. Of the paragraphs the second has a
    display. -/
theorem complaints_odd : oddPage.inOrder.filterMap (Node.complaint? oddSheet) =
    [⟨"CSS", "unsupported display value 'y'"⟩, ⟨"CSS", "unsupported display value 'x'"⟩,
      ⟨"CSS", "unsupported display value 'x'"⟩] := by
  rw [funext (Node.complaint?_eq oddSheet), Sheet.rules_bySpecificity_eq_piles]
  decide +kernel

theorem errors_style_odd :
    (Source.inline oddText).readSheet (Folder.ofList []).files = .ok oddSheet ∧
    (Source.inline oddPage.toJson.text).readTree (Folder.ofList []).files = .ok oddPage ∧
    ((Command.style (.inline oddText) (.inline oddPage.toJson.text) false).run
        (Folder.ofList []).files).errors .silent =
      "\x1b[33m[Toy CSS] ⚠ unsupported display value 'y'\x1b[39m\n" ++
        "\x1b[33m[Toy CSS] ⚠ unsupported display value 'x'\x1b[39m\n" ∧
    (Source.inline "").readSheet (Folder.ofList []).files = .ok .empty ∧
    ((Command.style (.inline "") (.inline oddPage.toJson.text) true).run
        (Folder.ofList []).files).errors .silent =
      "\x1b[33m[Toy CLI] ⚠ stylesheet has no rules; every node will be unstyled\x1b[39m\n" := by
  have hsheet : (Source.inline oddText).readSheet (Folder.ofList []).files = .ok oddSheet := by
    rw [readSheet_inline, ofText_odd]
    rfl
  have hroot : (Source.inline oddPage.toJson.text).readTree (Folder.ofList []).files =
      .ok oddPage := by
    rw [readTree_inline, load_odd]
    rfl
  have hempty : (Source.inline "").readSheet (Folder.ofList []).files = .ok .empty := by
    rw [readSheet_inline, Sheet.ofText_empty]
    rfl
  refine ⟨hsheet, hroot, ?_, hempty, ?_⟩
  · rw [((errors_style hsheet hroot).2 false .silent).2, complaints_odd]
    decide +kernel
  · rw [((errors_style hempty hroot).2 true .silent).2]
    decide +kernel

end Cli

end StyleEngine
