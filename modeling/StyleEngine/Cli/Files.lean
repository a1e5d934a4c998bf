/-!
# `Cli/Files.lean` — what can be read

A command reads its files by path and gets bytes or a reason. What a path means is
settled outside of the commands: by the system when the program runs, or by a folder
that holds a few named entries (`Folder`). Text is bytes in UTF-8.

A path in a folder is walked one name at a time, from left to right, and the walk ends
at the first name that cannot be entered. Nothing is cancelled beforehand: behind the
name of a file even `..` leads nowhere.
-/

set_option autoImplicit false

namespace StyleEngine.Cli

/-- Why a file cannot be read. -/
inductive ReadFailure where
  | missing
  | denied
  | notDirectory
  | isDirectory
  | nameTooLong
  | notText
  | other (message : String)
deriving DecidableEq

def ReadFailure.message : ReadFailure → String
  | .missing => "No such file or directory (os error 2)"
  | .denied => "Permission denied (os error 13)"
  | .notDirectory => "Not a directory (os error 20)"
  | .isDirectory => "Is a directory (os error 21)"
  | .nameTooLong => "File name too long (os error 36)"
  | .notText => "stream did not contain valid UTF-8"
  | .other message => message

/-- The bytes behind every path. -/
abbrev Files := String → Except ReadFailure ByteArray

/-- The text of a file. -/
def Files.text (files : Files) (path : String) : Except ReadFailure String := do
  match String.fromUTF8? (← files path) with
  | some text => return text
  | none => .error .notText

/-! ## Entries -/

/-- A file, or a folder. What a folder holds is listed beside it. -/
inductive Entry where
  | file (content : ByteArray)
  | folder

/-- Files and folders by the names that lead to them. -/
abbrev Entries := List (List String × Entry)

/-- The entry that the names lead to. A folder need not be listed if something in it
    is. -/
def Entries.find? (entries : Entries) (names : List String) : Option Entry :=
  match entries.lookup names with
  | some entry => some entry
  | none => if entries.any (names.isPrefixOf ·.1) then some .folder else none

/-- What every system has. -/
def systemEntries : Entries :=
  (["dev", "null"], .file .empty) ::
    (["bin", "dev", "etc", "home", "lib", "opt", "proc", "root", "run", "sbin", "sys", "tmp",
      "usr", "var"].map fun name => ([name], .folder))

/-- The working folder, by what it holds. -/
structure Folder where
  entries : Entries

/-- The names of a path, in order. Slashes at both ends and doubled ones make empty
    names. -/
def pathNames (path : String) : List String :=
  (path.toList.splitOn '/').map String.ofList

/-- A folder with files and folders by their paths. -/
def Folder.ofList (entries : List (String × Entry)) : Folder :=
  ⟨entries.map fun (path, entry) => (pathNames path, entry)⟩

/-! ## Walking a path -/

/-- A place that a path can lead to. -/
inductive Place where
  /-- A folder, by the names that lead to it from the working folder. -/
  | inside (names : List String)
  /-- A folder, by the names that lead to it from the root of the system. -/
  | system (names : List String)
  /-- Somewhere above the working folder. Nothing but its own kind is known. -/
  | above
  | file (content : ByteArray)

namespace Place

/-- The folder that holds a folder. The root holds itself. -/
def parent : Place → Place
  | .inside [] => .above
  | .inside names => .inside names.dropLast
  | .system names => .system names.dropLast
  | place => place

/-- Where the names of a relative path begin, or of one with a slash in front. -/
def start (path : String) : Place :=
  if path.toList.head? = some '/' then .system [] else .inside []

end Place

namespace Folder

/-- How many bytes a name may have. -/
def nameLimit : Nat := 255

/-- How many bytes a path may have. -/
def pathLimit : Nat := 4095

/-- The place of an entry, which is `place` if the entry is a folder. -/
def settle (place : Place) : Option Entry → Except ReadFailure Place
  | some (.file content) => .ok (.file content)
  | some .folder => .ok place
  | none => .error .missing

/-- The place that a name means in a folder. -/
def child (folder : Folder) (name : String) : Place → Except ReadFailure Place
  | .inside names =>
    settle (.inside (names ++ [name])) (folder.entries.find? (names ++ [name]))
  | .system names =>
    settle (.system (names ++ [name])) (systemEntries.find? (names ++ [name]))
  | .above => .error .missing
  | .file _ => .error .notDirectory

/-- One step of a path. An empty name and a single point stay, if they may; two points
    lead back. -/
def enter (folder : Folder) (place : Place) (name : String) : Except ReadFailure Place :=
  match place with
  | .file _ => .error .notDirectory
  | place =>
    if name = "" ∨ name = "." then .ok place
    else if name = ".." then .ok place.parent
    else if nameLimit < name.utf8ByteSize then .error .nameTooLong
    else folder.child name place

/-- The files that can be read in a folder. -/
def files (folder : Folder) : Files := fun path => do
  if path = "" then .error .missing
  else if pathLimit < path.utf8ByteSize then .error .nameTooLong
  else
    match ← (pathNames path).foldlM folder.enter (.start path) with
    | .file content => .ok content
    | _ => .error .isDirectory

end Folder

end StyleEngine.Cli
