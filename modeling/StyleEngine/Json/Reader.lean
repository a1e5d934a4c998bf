import StyleEngine.Json.Scalar

/-!
# `Json/Reader.lean` — reading JSON values

Values nest, and the reader bounds how deep: `readValue` is given a number of levels,
and opening a bracket spends one. That bound is also what its recursion runs on. The
items of one array and the members of one object are taken in a loop, and every turn
takes at least one character. So it is enough to allow as many turns as the text has
characters, and that number is the `turns` which all readers pass on.

The loops do not know what they read. They serve values of any kind, and the loader of
document trees uses them for its own.
-/

set_option autoImplicit false

namespace StyleEngine.Json

variable {α σ : Type}

/-! ## Arrays and objects -/

/-- Takes items up to the closing bracket. There is at least one. -/
def readItems (item : Reader α) : Nat → Reader (List α)
  | 0, _ => .error .malformed
  | turns + 1, cs => do
    let (first, rest) ← item cs
    match skipBlank rest with
    | [] => .error .incomplete
    | ',' :: rest =>
      let (items, rest) ← readItems item turns rest
      return (first :: items, rest)
    | ']' :: rest => return ([first], rest)
    | _ :: _ => .error .malformed

/-- Takes an array whose opening bracket has been taken. -/
def readArray (item : Reader α) (turns : Nat) : Reader (List α) := fun cs =>
  match skipBlank cs with
  | ']' :: rest => .ok ([], rest)
  | cs => readItems item turns cs

/-- Takes a colon. -/
def readColon : Reader Unit := fun cs =>
  match skipBlank cs with
  | [] => .error .incomplete
  | ':' :: rest => .ok ((), rest)
  | _ :: _ => .error .malformed

/-- Takes members up to the closing brace. There is at least one. Each member is handed
    its name and what the members before it came to, and begins at its colon. -/
def readMembers (care : Care) (member : String → σ → Reader σ) : Nat → σ → Reader σ
  | 0, _, _ => .error .malformed
  | turns + 1, state, cs => do
    match skipBlank cs with
    | [] => .error .incomplete
    | '"' :: rest =>
      let (name, rest) ← readString care rest
      let (state, rest) ← member name state rest
      match skipBlank rest with
      | [] => .error .incomplete
      | ',' :: rest => readMembers care member turns state rest
      | '}' :: rest => return (state, rest)
      | _ :: _ => .error .malformed
    | _ :: _ => .error .malformed

/-- Takes an object whose opening brace has been taken. -/
def readObject (care : Care) (member : String → σ → Reader σ) (turns : Nat) (state : σ) :
    Reader σ := fun cs =>
  match skipBlank cs with
  | '}' :: rest => .ok (state, rest)
  | cs => readMembers care member turns state cs

/-! ## Values -/

/-- Takes a value; what an opening bracket begins is left to `nested`. -/
def readValueWith (care : Care) (nested : Char → Reader Json) : Reader Json := fun cs => do
  match skipBlank cs with
  | [] => .error .incomplete
  | '"' :: rest =>
    let (contents, rest) ← readString care rest
    return (.string contents, rest)
  | '[' :: rest => nested '[' rest
  | '{' :: rest => nested '{' rest
  | '-' :: rest =>
    let (x, rest) ← readNumber care true rest
    return (.number x, rest)
  | 'n' :: rest =>
    let (_, rest) ← readWord ['u', 'l', 'l'] rest
    return (.null, rest)
  | 't' :: rest =>
    let (_, rest) ← readWord ['r', 'u', 'e'] rest
    return (.bool true, rest)
  | 'f' :: rest =>
    let (_, rest) ← readWord ['a', 'l', 's', 'e'] rest
    return (.bool false, rest)
  | c :: rest =>
    if c.isDigit then do
      let (x, rest) ← readNumber care false (c :: rest)
      return (.number x, rest)
    else .error .malformed

/-- A member of an object that is kept as a value, last member first. -/
def readField (value : Reader Json) (name : String) (fields : List (String × Json)) :
    Reader (List (String × Json)) := fun cs => do
  let (_, rest) ← readColon cs
  let (v, rest) ← value rest
  return ((name, v) :: fields, rest)

/-- Takes a value that nests at most this many levels deep. -/
def readValue (care : Care) (turns : Nat) : Nat → Reader Json
  | 0 => readValueWith care fun _ _ => .error .malformed
  | levels + 1 => readValueWith care fun bracket rest =>
    if bracket = '[' then do
      let (items, rest) ← readArray (readValue care turns levels) turns rest
      return (.array items, rest)
    else do
      let (fields, rest) ← readObject care (readField (readValue care turns levels)) turns [] rest
      return (.object fields.reverse, rest)

/-- Passes over a value, however deep it nests: a text cannot open more brackets than it
    has characters. -/
def skipValue (turns : Nat) : Reader Unit := fun cs => do
  let (_, rest) ← readValue .skip turns turns cs
  return ((), rest)

/-- Takes a value in a place where a value of its kind is not wanted, only to say what
    is wrong. An opening bracket settles it at once; anything else is read first, and
    may turn out not to be JSON. -/
def refuse : Reader α := fun cs => do
  let _ ← readValueWith .full (fun _ _ => .error .mismatched) cs
  .error .mismatched

/-- Reads a text that is one value from end to end. -/
def readText (value : Nat → Reader α) (cs : List Char) : Except ReadError α := do
  let (x, rest) ← value cs.length cs
  if skipBlank rest = [] then return x else .error .malformed

end StyleEngine.Json
