import StyleEngine.Cli.Run

/-!
# `Main.lean` — the program

Reads the files that the command names, runs the command, and prints what it comes to.
All decisions are made in `Cli/Run.lean`.
-/

set_option autoImplicit false

open StyleEngine.Cli

/-- The reason that the system gives. -/
def readFailure : IO.Error → ReadFailure
  | .noFileOrDirectory .. => .missing
  | .permissionDenied .. => .denied
  | .inappropriateType _ code _ => if code = 21 then .isDirectory else .notDirectory
  | .invalidArgument _ code details =>
    if code = 0 - 36 then .nameTooLong else .other details
  | error => .other (toString error)

/-- Reads one file from disk. -/
def readFromDisk (path : String) : IO (Except ReadFailure ByteArray) := do
  try
    return .ok (← IO.FS.readBinFile path)
  catch error => return .error (readFailure error)

/-- Reads the files at these paths. -/
def readAll (paths : List String) : IO Files := do
  let contents ← paths.mapM fun path => return (path, ← readFromDisk path)
  return fun path => (contents.lookup path).getD (.error .missing)

def main (args : List String) : IO UInt32 := do
  match Command.ofArgs? args with
  | none =>
    IO.eprintln "error: invalid arguments"
    return 2
  | some command =>
    let outcome := command.run (← readAll command.paths)
    IO.print outcome.output
    IO.eprint outcome.errors
    return outcome.code
