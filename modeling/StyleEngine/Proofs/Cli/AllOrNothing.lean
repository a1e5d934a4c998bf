import StyleEngine.Proofs.Cli.Reports
import StyleEngine.Proofs.Cli.StyleWarnings

/-!
# `Proofs/Cli/AllOrNothing.lean` — a run that fails has said nothing before

`Command.run` knows how a command ends before anything is printed, so it cannot print half of it.
Someone at the terminal has no such order of things. A line is there once it is written and a
warning once it is given, and if after that something fails, the report comes on top.
`Command.perform` is the run in this order: it goes through the command step by step, writes to
a `Console` as it goes, and may stop anywhere.

The two come to the same (`run_perform`). A step that writes only adds to the console, and the
walk through the styled tree is made of such steps (`run_draw`). What can fail leaves the console
as it was, and stands in front of all that writes.

Which failure it is depends on the stages of the command, of which each has a failure of its own
or none (`Command.stages`). It is the first one that counts (`failure?_run`), and its report, of
which `Failure.ReportedAs` has the text, is all that is left of the run.
-/

set_option autoImplicit false

namespace StyleEngine.Cli

/-! ## 1. Step by step -/

/-- What has been written to standard output, and warned of on standard error. -/
structure Console where
  output : String
  log : WarningLog

def Console.fresh : Console := ⟨"", .empty⟩

/-- What is done at a console, up to a failure. What was written before it stays. -/
abbrev Session := ExceptT Failure (StateM Console)

namespace Session

/-- Writes a line. -/
def say (line : String) : Session Unit :=
  modify fun console => { console with output := console.output ++ (line ++ "\n") }

/-- Writes lines, one after the other. -/
def sayAll : List String → Session Unit
  | [] => return ()
  | line :: lines => do
    say line
    sayAll lines

/-- Does what may warn. -/
def warned {α : Type} (x : Warned α) : Session α := do
  let console ← get
  let (a, log) := x.run console.log
  set { console with log }
  return a

end Session

namespace Listed

mutual

/-- Writes the lines of a node, and of the nodes below it, on the way. -/
def draw (depth : Nat) : Listed → Session Unit
  | .text contents children => do
    Session.sayAll (textLines depth contents)
    drawAll (depth + 1) children
  | .element tagName attributes values children => do
    let display ← Session.warned (Styled.resolveDisplay (some tagName) (values.lookup "display"))
    Session.say (heading depth tagName attributes display)
    Session.sayAll ((inOrder values).map (valueLine depth))
    drawAll (depth + 1) children

def drawAll (depth : Nat) : List Listed → Session Unit
  | [] => return ()
  | node :: nodes => do
    draw depth node
    drawAll depth nodes

end

end Listed

/-- Shows a document under a sheet. -/
def showStyled (root : Node) (sheet : Sheet) (json : Bool) : Session Unit := do
  Session.warned (warnIfEmpty sheet)
  let styled := Styled.build root sheet
  if json then Session.say styled.toJson.prettyText
  else
    Session.say s!"=== Styled Tree ({root.count} nodes, {sheet.rules.length} rules) ==="
    (Listed.ofStyled styled).draw 0

/-- Goes through a command and does one thing after the other. -/
def Command.perform (files : Files) : Command → Session Unit
  | .version => Session.say "toy 0.1.0"
  | .tokens css => do
    let text ← ofExcept (css.read files)
    Session.sayAll (tokenLines (tokenize text))
  | .parse css json sorted => do
    let sheet ← ofExcept (css.readSheet files)
    let sheet := if sorted then sheet.bySpecificity else sheet
    if json then Session.say sheet.toJson.prettyText
    else Session.sayAll (sheetLines sheet)
  | .style css dom json => do
    let sheet ← ofExcept (css.readSheet files)
    let root ← ofExcept (dom.readTree files)
    showStyled root sheet json

/-- What someone outside gets to see of a session that began at a fresh console: the exit code
    and what is on either stream. A report comes last. -/
def Session.shown (session : Session Unit) (wording : JsonWording) : UInt32 × String × String :=
  match session.run.run .fresh with
  | (.ok (), console) => (0, console.output, console.log.text)
  | (.error failure, console) => (1, console.output, console.log.text ++ failure.report wording)

/-! ## 2. What is written on the way -/

theorem joinLines_append (lines more : List String) :
    joinLines (lines ++ more) = joinLines lines ++ joinLines more := by
  rw [joinLines, List.map_append, String.join_append, joinLines, joinLines]

theorem joinLines_singleton (line : String) : joinLines [line] = line ++ "\n" := by
  rw [joinLines, List.map_singleton, String.join_cons, String.join_nil, String.append_empty]

/-- The console after these lines, and with this log. -/
def Console.add (console : Console) (said : List String × WarningLog) : Console :=
  ⟨console.output ++ joinLines said.1, said.2⟩

theorem Console.add_add (console : Console) (said more : List String × WarningLog) :
    (console.add said).add more = console.add (said.1 ++ more.1, more.2) := by
  rw [add, add, add, joinLines_append, String.append_assoc]

theorem Console.add_nil (console : Console) : console.add ([], console.log) = console := by
  rw [add, joinLines, List.map_nil, String.join_nil, String.append_empty]

namespace Session

variable {α β : Type} {session : Session α} {next : α → Session β} {console console' : Console}

theorem run_bind_ok {a : α} (h : session.run.run console = (.ok a, console')) :
    (session >>= next).run.run console = (next a).run.run console' := by
  rw [ExceptT.run_bind, StateT.run_bind, h]
  rfl

/-- What can fail leaves the console as it was, and after a failure nothing is done. -/
theorem run_ofExcept_bind (x : Except Failure α) (next : α → Session β) (console : Console) :
    ((ofExcept x : Session α) >>= next).run.run console =
      match x with
      | .ok a => (next a).run.run console
      | .error failure => (.error failure, console) := by
  cases x <;> rfl

theorem run_say (line : String) (console : Console) :
    (say line).run.run console = (.ok (), console.add ([line], console.log)) := by
  rw [Console.add, joinLines_singleton]
  rfl

theorem run_sayAll (lines : List String) (console : Console) :
    (sayAll lines).run.run console = (.ok (), console.add (lines, console.log)) := by
  induction lines generalizing console with
  | nil =>
    rw [Console.add_nil]
    rfl
  | cons line lines ih =>
    rw [sayAll, run_bind_ok (run_say line console), ih, Console.add_add]
    rfl

theorem run_warned (x : Warned α) (console : Console) :
    (warned x).run.run console =
      (.ok (x.run console.log).1, console.add ([], (x.run console.log).2)) := by
  rw [Console.add, joinLines, List.map_nil, String.join_nil, String.append_empty]
  rfl

end Session

namespace Listed

mutual

/-- **Line by line comes to the same** as all lines at once. -/
theorem run_draw (depth : Nat) : ∀ (listed : Listed) (console : Console),
    (listed.draw depth).run.run console =
      (.ok (), console.add ((listed.lines depth).run console.log))
  | .text contents children, console => by
    rw [draw, Session.run_bind_ok (Session.run_sayAll _ console), run_drawAll (depth + 1) children,
      Console.add_add]
    rfl
  | .element tagName attributes values children, console => by
    rw [draw, Session.run_bind_ok (Session.run_warned _ console),
      Session.run_bind_ok (Session.run_say _ _), Session.run_bind_ok (Session.run_sayAll _ _),
      run_drawAll (depth + 1) children, Console.add_add, Console.add_add, Console.add_add]
    rfl

theorem run_drawAll (depth : Nat) : ∀ (nodes : List Listed) (console : Console),
    (drawAll depth nodes).run.run console =
      (.ok (), console.add ((linesOf depth nodes).run console.log))
  | [], console => by
    rw [drawAll, linesOf]
    exact congrArg (Prod.mk _) console.add_nil.symm
  | node :: nodes, console => by
    rw [drawAll, Session.run_bind_ok (run_draw depth node console), run_drawAll depth nodes,
      Console.add_add]
    rfl

end

end Listed

/-! ## 3. Commands -/

theorem Console.fresh_add_lines (lines : List String) (log : WarningLog) :
    Console.fresh.add (lines, log) = ⟨(Output.lines lines).text, log⟩ := by
  rw [add, fresh, String.empty_append]
  rfl

theorem Console.fresh_add_json (value : Json) (log : WarningLog) :
    Console.fresh.add ([value.prettyText], log) = ⟨(Output.json value).text, log⟩ := by
  rw [add, fresh, String.empty_append, joinLines_singleton]
  rfl

theorem run_say_json (value : Json) :
    (Session.say value.prettyText).run.run .fresh =
      (.ok (), ⟨(Output.json value).text, .empty⟩) := by
  rw [Session.run_say, Console.fresh_add_json]
  rfl

theorem run_sayAll_lines (lines : List String) :
    (Session.sayAll lines).run.run .fresh = (.ok (), ⟨(Output.lines lines).text, .empty⟩) := by
  rw [Session.run_sayAll, Console.fresh_add_lines]
  rfl

theorem run_showStyled (root : Node) (sheet : Sheet) (json : Bool) :
    (showStyled root sheet json).run.run .fresh =
      (.ok (), ⟨((styleOutput root sheet json).run .empty).1.text,
        ((styleOutput root sheet json).run .empty).2⟩) := by
  rw [showStyled, Session.run_bind_ok (Session.run_warned _ _)]
  cases json with
  | true =>
    refine (Session.run_say _ _).trans ?_
    rw [Console.add_add, List.nil_append, Console.fresh_add_json]
    rfl
  | false =>
    refine (Session.run_bind_ok (Session.run_say _ _)).trans ?_
    rw [Listed.run_draw, Console.add_add, Console.add_add, Console.fresh_add_lines]
    rfl

/-- **Step by step comes to the same as all at once.** A failure finds the console as it was in
    the beginning. -/
theorem run_perform (files : Files) (command : Command) :
    (command.perform files).run.run .fresh =
      match command.execute files with
      | .ok (output, log) => (.ok (), ⟨output.text, log⟩)
      | .error failure => (.error failure, .fresh) := by
  cases command with
  | version => exact run_sayAll_lines ["toy 0.1.0"]
  | tokens css =>
    rw [Command.perform, Session.run_ofExcept_bind, Command.execute]
    cases css.read files with
    | error failure => rfl
    | ok text => exact run_sayAll_lines _
  | parse css json sorted =>
    rw [Command.perform, Session.run_ofExcept_bind, Command.execute]
    cases css.readSheet files with
    | error failure => rfl
    | ok sheet =>
      cases json with
      | true => exact run_say_json _
      | false => exact run_sayAll_lines _
  | style css dom json =>
    rw [Command.perform, Session.run_ofExcept_bind, Command.execute]
    cases css.readSheet files with
    | error failure => rfl
    | ok sheet =>
      refine (Session.run_ofExcept_bind (dom.readTree files) _ _).trans ?_
      cases dom.readTree files with
      | error failure => rfl
      | ok root => exact run_showStyled root sheet json

/-- Whoever looks on sees what the run comes to. -/
theorem shown_perform (files : Files) (wording : JsonWording) (command : Command) :
    (command.perform files).shown wording =
      ((command.run files).code, (command.run files).output,
        (command.run files).errors wording) := by
  rw [Session.shown, run_perform, Command.run]
  cases command.execute files with
  | error failure =>
    have hnothing : Console.fresh.log.text = "" := rfl
    dsimp only
    rw [hnothing, String.empty_append]
    rfl
  | ok said => rfl

/-! ## 4. Stages -/

/-- What went wrong, if anything did. -/
def failureOf {α : Type} : Except Failure α → Option Failure
  | .ok _ => none
  | .error failure => some failure

/-- What goes wrong in reading a source. -/
def Source.readFailure? (files : Files) (source : Source) : Option Failure :=
  failureOf (source.read files)

/-- What goes wrong in parsing the sheet of a source that can be read. -/
def Source.sheetFailure? (files : Files) (source : Source) : Option Failure :=
  match source.read files with
  | .ok text => failureOf ((Sheet.ofText text).mapError .sheet)
  | .error _ => none

/-- What goes wrong in loading the document of a source that can be read. -/
def Source.treeFailure? (files : Files) (source : Source) : Option Failure :=
  match source.read files with
  | .ok text => failureOf ((Node.load text).mapError (.tree text))
  | .error _ => none

/-- What goes wrong at each of the stages of a command, whatever goes wrong at the others. -/
def Command.stages (files : Files) : Command → List (Option Failure)
  | .version => []
  | .tokens css => [css.readFailure? files]
  | .parse css _ _ => [css.readFailure? files, css.sheetFailure? files]
  | .style css dom _ =>
    [css.readFailure? files, css.sheetFailure? files, dom.readFailure? files,
      dom.treeFailure? files]

/-- The failure that a command ends with. -/
def Outcome.failure? : Outcome → Option Failure
  | .success _ _ => none
  | .failure reason => some reason

/-- The first of some failures, if there is one. -/
theorem findSome?_cons_id (found : Option Failure) (others : List (Option Failure)) :
    (found :: others).findSome? id = found.or (others.findSome? id) := by
  cases found <;> rfl

section Stages

variable (files : Files)

theorem failureOf_readSheet (css : Source) :
    failureOf (css.readSheet files) = (css.readFailure? files).or (css.sheetFailure? files) := by
  rw [Source.readSheet, Source.readFailure?, Source.sheetFailure?]
  cases css.read files <;> rfl

theorem failureOf_readTree (dom : Source) :
    failureOf (dom.readTree files) = (dom.readFailure? files).or (dom.treeFailure? files) := by
  rw [Source.readTree, Source.readFailure?, Source.treeFailure?]
  cases dom.read files <;> rfl

theorem sheetFailure?_inline (text : String) : (Source.inline text).sheetFailure? files =
    failureOf ((Sheet.ofText text).mapError .sheet) :=
  rfl

theorem treeFailure?_inline (text : String) : (Source.inline text).treeFailure? files =
    failureOf ((Node.load text).mapError (.tree text)) :=
  rfl

theorem failure?_run_eq (command : Command) :
    (command.run files).failure? = failureOf (command.execute files) := by
  rw [Command.run]
  cases command.execute files <;> rfl

/-- **The first stage that fails decides.** -/
theorem failure?_run (command : Command) :
    (command.run files).failure? = (command.stages files).findSome? id := by
  rw [failure?_run_eq]
  cases command with
  | version => rfl
  | tokens css =>
    rw [Command.execute, Command.stages, Source.readFailure?]
    cases css.read files <;> rfl
  | parse css json sorted =>
    have hstages : failureOf (Command.execute files (.parse css json sorted)) =
        failureOf (css.readSheet files) := by
      rw [Command.execute]
      cases css.readSheet files <;> rfl
    rw [hstages, failureOf_readSheet, Command.stages, findSome?_cons_id, findSome?_cons_id,
      List.findSome?_nil, Option.or_none]
  | style css dom json =>
    have hstages : failureOf (Command.execute files (.style css dom json)) =
        (failureOf (css.readSheet files)).or (failureOf (dom.readTree files)) := by
      rw [Command.execute]
      cases css.readSheet files with
      | error failure => rfl
      | ok sheet => cases dom.readTree files <;> rfl
    simp only [hstages, failureOf_readSheet, failureOf_readTree, Command.stages,
      findSome?_cons_id, List.findSome?_nil, Option.or_none, Option.or_assoc]

end Stages

/-! ## 5. Runs -/

/-- **A run is all or nothing.** Gone through step by step, it ends as it should: either no stage
    fails, and then the exit code is 0; or the first stage that fails decides, and then nothing
    has been written or warned of before, nothing is on standard output, and on standard error
    there is the report of this failure alone, whatever words a reader of JSON has for what it
    refuses. So what is wrong with a sheet is reported whatever is wrong with the document.

    It is taken for granted that writing JSON cannot fail. The names in an object are texts, and
    `Json.prettyText` has a text for every value, so there is no stage for it. -/
theorem run_all_or_nothing (files : Files) (wording : JsonWording) (command : Command) :
    (command.perform files).shown wording =
      ((command.run files).code, (command.run files).output,
        (command.run files).errors wording) ∧
    ((command.stages files).findSome? id = none ∧ (command.run files).code = 0 ∨
      ∃ failure, (command.stages files).findSome? id = some failure ∧
        (command.perform files).run.run .fresh = (.error failure, .fresh) ∧
        (command.run files).code = 1 ∧ (command.run files).output = "" ∧
        failure.ReportedAs wording ((command.run files).errors wording)) ∧
    ∀ css dom json failure, css.readSheet files = .error failure →
      (Command.style css dom json).run files = .failure failure := by
  refine ⟨shown_perform files wording command, ?_, fun css dom json failure hsheet => ?_⟩
  · have hfirst := failure?_run files command
    have hperform := run_perform files command
    rw [Command.run] at hfirst ⊢
    cases hexecute : command.execute files with
    | ok said =>
      rw [hexecute] at hfirst
      exact .inl ⟨hfirst.symm, rfl⟩
    | error failure =>
      rw [hexecute] at hfirst hperform
      exact .inr ⟨failure, hfirst.symm, hperform, rfl, rfl, failure.reportedAs_report wording⟩
  · rw [Command.run, Command.execute, hsheet]
    rfl

/-- What is said of a text that ends behind its first brace. -/
def braceWording : JsonWording :=
  fun _ => "EOF while parsing an object at line 1 column 1"

theorem readSheet_stray : (Source.inline "\x7d").readSheet (Folder.ofList []).files =
    .error (.sheet ⟨.unmatchedBrace, ⟨0, 1, 1⟩⟩) := by
  have htokens : tokenize "\x7d" = [⟨.closeBrace, ⟨0, 1, 1⟩⟩, ⟨.eof, ⟨1, 1, 2⟩⟩] := by
    decide +kernel
  rw [readSheet_inline, Sheet.ofText, htokens]
  rfl

theorem readTree_missing : (Source.file "page.json").readTree (Folder.ofList []).files =
    .error (.unreadable "page.json" .missing) := by
  have hmissing : (Folder.ofList []).files.text "page.json" = .error .missing := rfl
  rw [Source.readTree, Source.read, hmissing]
  rfl

theorem readSheet_missing : (Source.file "page.css").readSheet (Folder.ofList []).files =
    .error (.unreadable "page.css" .missing) := by
  have hmissing : (Folder.ofList []).files.text "page.css" = .error .missing := rfl
  rw [Source.readSheet, Source.read, hmissing]
  rfl

/-- Of all stages only the last one fails. -/
theorem stages_brace : (Command.stages (Folder.ofList []).files
    (.style (.inline "") (.inline "\x7b") false)).findSome? id =
      some (.tree "\x7b" (.json .incomplete)) := by
  have hload : Node.load "\x7b" = .error (.json .incomplete) := rfl
  have hsheet : (Source.inline "").sheetFailure? (Folder.ofList []).files = none := by
    rw [sheetFailure?_inline, Sheet.ofText_empty]
    rfl
  have htree : (Source.inline "\x7b").treeFailure? (Folder.ofList []).files =
      some (.tree "\x7b" (.json .incomplete)) := by
    rw [treeFailure?_inline, hload]
    rfl
  rw [Command.stages, hsheet, htree]
  rfl

/-- No sheet, and a document that ends behind its first brace; a stray brace for a sheet, and no
    document; and a sheet without rules, of which nothing is said since the document ends behind
    its first brace. -/
theorem run_all_or_nothing_brace :
    Command.ofArgs? ["style", "--css-text", "\x7d", "--dom", "page.json"] =
      some (.style (.inline "\x7d") (.file "page.json") false) ∧
    (Source.file "page.css").readSheet (Folder.ofList []).files =
      .error (.unreadable "page.css" .missing) ∧
    ((Command.style (.file "page.css") (.inline "\x7b") false).perform
        (Folder.ofList []).files).shown braceWording =
      (1, "", "Error: failed to read 'page.css'\n\nCaused by:\n" ++
        "    No such file or directory (os error 2)\n") ∧
    (Source.inline "\x7d").readSheet (Folder.ofList []).files =
      .error (.sheet ⟨.unmatchedBrace, ⟨0, 1, 1⟩⟩) ∧
    (Source.file "page.json").readTree (Folder.ofList []).files =
      .error (.unreadable "page.json" .missing) ∧
    ((Command.style (.inline "\x7d") (.file "page.json") false).perform
        (Folder.ofList []).files).shown braceWording =
      (1, "", "Error: failed to parse stylesheet\n\nCaused by:\n" ++
        "    unmatched '\x7d' at line 1, column 1\n") ∧
    ((Command.style (.inline "") (.inline "\x7b") false).perform
        (Folder.ofList []).files).shown braceWording =
      (1, "", "Error: failed to load document tree\n\nCaused by:\n" ++
        "    0: invalid node tree JSON: EOF while parsing an object at line 1 column 1\n" ++
        "    1: EOF while parsing an object at line 1 column 1\n") := by
  refine ⟨by decide +kernel, readSheet_missing, ?_, readSheet_stray, readTree_missing, ?_, ?_⟩
  · obtain ⟨hshown, -, hsheet⟩ := run_all_or_nothing (Folder.ofList []).files braceWording
      (.style (.file "page.css") (.inline "\x7b") false)
    rw [hshown, hsheet _ _ _ _ readSheet_missing]
    decide +kernel
  · obtain ⟨hshown, -, hsheet⟩ := run_all_or_nothing (Folder.ofList []).files braceWording
      (.style (.inline "\x7d") (.file "page.json") false)
    rw [hshown, hsheet _ _ _ _ readSheet_stray]
    decide +kernel
  · obtain ⟨hshown, hends, -⟩ := run_all_or_nothing (Folder.ofList []).files braceWording
      (.style (.inline "") (.inline "\x7b") false)
    rw [stages_brace] at hends
    obtain ⟨hnone, -⟩ | ⟨failure, hfirst, -, hcode, houtput, hreport⟩ := hends
    · cases hnone
    · obtain rfl := Option.some.inj hfirst
      rw [hshown, hcode, houtput]
      generalize ((Command.style (.inline "") (.inline "\x7b") false).run
        (Folder.ofList []).files).errors braceWording = errors at hreport ⊢
      cases hreport
      decide +kernel

end StyleEngine.Cli
