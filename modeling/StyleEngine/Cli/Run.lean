import StyleEngine.Cascade.Export
import StyleEngine.Cli.Args
import StyleEngine.Cli.Files
import StyleEngine.Cli.Listing
import StyleEngine.Cli.Outline
import StyleEngine.Css.Reader
import StyleEngine.Dom.Load

/-!
# `Cli/Run.lean` — what a command does

A command first gets hold of everything it works on, and only then prints. So it either
fails with a report and nothing else, or it succeeds with all of its output. The report
names what could not be done, and under it why.

What is wrong with a document that is no JSON, or JSON of another shape, is for the reader
of JSON to say (`JsonWording`). What a command does never depends on these words. They are
first asked for when the report is written.
-/

set_option autoImplicit false

namespace StyleEngine.Cli

/-! ## Failures -/

/-- What a reader of JSON says, in a line, of a text that it refuses as a node tree. -/
abbrev JsonWording := String → String

/-- Refuses without a word. -/
def JsonWording.silent : JsonWording :=
  fun _ => ""

/-- What a command can fail at. The text of a document that cannot be loaded is kept with what
    is wrong with it. -/
inductive Failure where
  | unreadable (path : String) (failure : ReadFailure)
  | sheet (fault : Fault)
  | tree (text : String) (error : Node.LoadError)

namespace Failure

/-- What could not be done. -/
def context : Failure → String
  | .unreadable path _ => s!"failed to read '{path}'"
  | .sheet _ => "failed to parse stylesheet"
  | .tree _ _ => "failed to load document tree"

/-- Why, each cause followed by what lies behind it. -/
def causes (wording : JsonWording) : Failure → List String
  | .unreadable _ failure => [failure.message]
  | .sheet fault => [fault.message]
  | .tree _ (.defect defect) => [defect.message]
  | .tree text (.json _) => [s!"invalid node tree JSON: {wording text}", wording text]

/-- The lines of the causes; several are numbered. -/
def causeLines : List String → List String
  | [cause] => ["    " ++ cause]
  | causes => causes.mapIdx fun index cause => padLeft 5 (toString index) ++ ": " ++ cause

/-- The report of a failure. -/
def report (wording : JsonWording) (failure : Failure) : String :=
  joinLines (("Error: " ++ failure.context) :: "" :: "Caused by:" ::
    causeLines (failure.causes wording))

end Failure

/-! ## Output -/

/-- What a command prints. The names in an object are texts, so there is no value that cannot be
    written as JSON. -/
inductive Output where
  | lines (lines : List String)
  | json (value : Json)

def Output.text : Output → String
  | .lines printed => joinLines printed
  | .json value => value.prettyText ++ "\n"

/-- How a command ends: with output and warnings, or with a failure. -/
inductive Outcome where
  | success (output : Output) (warnings : WarningLog)
  | failure (failure : Failure)

namespace Outcome

def code : Outcome → UInt32
  | .success _ _ => 0
  | .failure _ => 1

/-- What goes to standard output. -/
def output : Outcome → String
  | .success output _ => output.text
  | .failure _ => ""

/-- What goes to standard error. The words of a reader of JSON are left out unless they are
    given. -/
def errors (outcome : Outcome) (wording : JsonWording := .silent) : String :=
  match outcome with
  | .success _ warnings => warnings.text
  | .failure reason => reason.report wording

end Outcome

/-! ## Commands -/

/-- The text of a source. -/
def Source.read (files : Files) : Source → Except Failure String
  | .inline text => .ok text
  | .file path => (files.text path).mapError (.unreadable path)

/-- The sheet of a source. -/
def Source.readSheet (files : Files) (source : Source) : Except Failure Sheet := do
  let text ← source.read files
  (Sheet.ofText text).mapError .sheet

/-- The document of a source. -/
def Source.readTree (files : Files) (source : Source) : Except Failure Node := do
  let text ← source.read files
  (Node.load text).mapError (.tree text)

/-- What is said of a sheet without rules. -/
def emptySheetWarning : Warning :=
  ⟨"CLI", "stylesheet has no rules; every node will be unstyled"⟩

/-- Warns if a sheet can style nothing. -/
def warnIfEmpty (sheet : Sheet) : Warned Unit :=
  if sheet.rules.isEmpty then warnOnce emptySheetWarning else return ()

/-- The outline of a document under a sheet, below a line that counts both. -/
def styleLines (root : Node) (sheet : Sheet) : Warned (List String) := do
  let lines ← outline (.build root sheet)
  return s!"=== Styled Tree ({root.count} nodes, {sheet.rules.length} rules) ===" :: lines

/-- What `style` prints, once it has its sheet and its document. -/
def styleOutput (root : Node) (sheet : Sheet) (json : Bool) : Warned Output := do
  warnIfEmpty sheet
  if json then return .json (Styled.build root sheet).toJson
  else return .lines (← styleLines root sheet)

/-- What a command prints, and what it warns of. -/
def Command.execute (files : Files) : Command → Except Failure (Output × WarningLog)
  | .version => return (.lines ["toy 0.1.0"], .empty)
  | .tokens css => do
    let text ← css.read files
    return (.lines (tokenLines (tokenize text)), .empty)
  | .parse css json sorted => do
    let sheet ← css.readSheet files
    let sheet := if sorted then sheet.bySpecificity else sheet
    return (if json then .json sheet.toJson else .lines (sheetLines sheet), .empty)
  | .style css dom json => do
    let sheet ← css.readSheet files
    let root ← dom.readTree files
    return (styleOutput root sheet json).run .empty

/-- Runs a command. -/
def Command.run (files : Files) (command : Command) : Outcome :=
  match command.execute files with
  | .ok (output, warnings) => .success output warnings
  | .error failure => .failure failure

/-! ## Files -/

/-- The path of a source that is a file. -/
def Source.path? : Source → Option String
  | .file path => some path
  | .inline _ => none

/-- The sources of a command. -/
def Command.sources : Command → List Source
  | .version => []
  | .tokens css => [css]
  | .parse css _ _ => [css]
  | .style css dom _ => [css, dom]

/-- The paths that a command may read. -/
def Command.paths (command : Command) : List String :=
  command.sources.filterMap Source.path?

end StyleEngine.Cli
