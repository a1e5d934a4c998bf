/-!
# `Cli/Args.lean` — the command line

A command line names one of three commands and what the command works on. Options are
written out in full, a value follows its option or an equals sign, and two hyphens end
the options. Anything that is unknown, missing, doubled or in conflict makes the whole
line a usage error, and then nothing is done at all.
-/

set_option autoImplicit false

namespace StyleEngine.Cli

/-- Where a text comes from. -/
inductive Source where
  | file (path : String)
  | inline (text : String)
deriving DecidableEq

/-- What is asked for. -/
inductive Command where
  | version
  | tokens (css : Source)
  | parse (css : Source) (json : Bool) (sorted : Bool)
  | style (css : Source) (dom : Source) (json : Bool)
deriving DecidableEq

/-! ## Options -/

/-- What the options of a command are. -/
structure Shape where
  /-- Options whose value is a text. -/
  texts : List String
  /-- Options whose value is a path. -/
  paths : List String
  /-- Options without a value. -/
  flags : List String
  /-- Whether a path may stand alone. -/
  takesPath : Bool

/-- What was found on a command line. -/
structure Found where
  values : List (String × String)
  flags : List String
  path : Option String

namespace Found

def nothing : Found := ⟨[], [], none⟩

def value? (found : Found) (option : String) : Option String :=
  found.values.lookup option

def has (found : Found) (flag : String) : Bool :=
  found.flags.contains flag

/-- Adds the value of an option. A path is never empty, and no option is given twice. -/
def addValue (shape : Shape) (found : Found) (option value : String) : Option Found :=
  if (found.value? option).isSome || (shape.paths.contains option && value.isEmpty) then none
  else some { found with values := (option, value) :: found.values }

def addFlag (found : Found) (flag : String) : Option Found :=
  if found.has flag then none else some { found with flags := flag :: found.flags }

/-- Adds a path that stands alone. -/
def addPath (shape : Shape) (found : Found) (path : String) : Option Found :=
  if shape.takesPath && found.path.isNone && !path.isEmpty then
    some { found with path := some path }
  else none

end Found

/-- Whether an argument can only be an option: it begins with a hyphen, and is not the
    hyphen alone. -/
def isOption (arg : String) : Bool :=
  match arg.toList with
  | '-' :: _ :: _ => true
  | _ => false

/-- An option and the value behind its first equals sign. -/
def splitOption (arg : String) : String × Option String :=
  let inName (c : Char) : Bool := c ≠ '='
  let name := String.ofList (arg.toList.takeWhile inName)
  match arg.toList.dropWhile inName with
  | [] => (name, none)
  | _ :: value => (name, some (String.ofList value))

/-- Reads the arguments of a command from left to right. -/
def scan (shape : Shape) (found : Found) : List String → Option Found
  | [] => some found
  | arg :: args =>
    if arg = "--" then args.foldlM (Found.addPath shape) found
    else if !isOption arg then (found.addPath shape arg).bind fun found => scan shape found args
    else
      let (option, value?) := splitOption arg
      if shape.flags.contains option then
        if value?.isSome then none
        else (found.addFlag option).bind fun found => scan shape found args
      else if shape.texts.contains option || shape.paths.contains option then
        match value?, args with
        | some value, args =>
          (found.addValue shape option value).bind fun found => scan shape found args
        | none, value :: args =>
          if isOption value then none
          else (found.addValue shape option value).bind fun found => scan shape found args
        | none, [] => none
      else none

/-- The one source that is given, as a path or as a text. -/
def oneSource (path text : Option String) : Option Source :=
  match path, text with
  | some path, none => some (.file path)
  | none, some text => some (.inline text)
  | _, _ => none

/-! ## Commands -/

def tokensShape : Shape := ⟨["--css-text"], [], [], true⟩

def parseShape : Shape := ⟨["--css-text"], [], ["--json", "--sorted"], true⟩

def styleShape : Shape := ⟨["--css-text", "--dom-text"], ["--css", "--dom"], ["--json"], false⟩

/-- The command that a line of arguments gives; a usage error gives none. -/
def Command.ofArgs? : List String → Option Command
  | "tokens" :: args => do
    let found ← scan tokensShape .nothing args
    return .tokens (← oneSource found.path (found.value? "--css-text"))
  | "parse" :: args => do
    let found ← scan parseShape .nothing args
    let css ← oneSource found.path (found.value? "--css-text")
    return .parse css (found.has "--json") (found.has "--sorted")
  | "style" :: args => do
    let found ← scan styleShape .nothing args
    let css ← oneSource (found.value? "--css") (found.value? "--css-text")
    let dom ← oneSource (found.value? "--dom") (found.value? "--dom-text")
    return .style css dom (found.has "--json")
  | arg :: _ =>
    match arg.toList with
    | '-' :: 'V' :: _ => some .version
    | _ => if arg = "--version" then some .version else none
  | [] => none

end StyleEngine.Cli
