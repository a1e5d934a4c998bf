import StyleEngine.Css.Token

/-!
# `Css/LineTable.lean` — the place of an offset

The lexer knows where it is because it carries the place along, one character after the
other. An offset alone has a place too. It is looked up in a table of where the lines of the
text start: its line is the number of starts that are not behind it, and its columns are
counted from the last of these. The starts ascend, so they are counted by halving
(`partitionPoint`).

That both come to the same place is proved in `Proofs/Css/Places.lean`.
-/

set_option autoImplicit false

namespace StyleEngine

/-- Where the lines of a text start: at its beginning, and behind every line feed. -/
def lineStarts (cs : List Char) : List Nat :=
  0 :: (cs.zipIdx.filter (·.1 = '\n')).map (·.2 + 1)

/-- Where `holds` stops holding among `size` indices from `low` on. It has to hold at all
    indices before that one and at none behind it, for each turn looks only at the middle
    and drops one half. -/
def partitionPoint (holds : Nat → Bool) (low size : Nat) : Nat :=
  if size = 0 then low
  else
    let half := size / 2
    if holds (low + half) then partitionPoint holds (low + half + 1) (size - half - 1)
    else partitionPoint holds low half
termination_by size

/-- How many lines start at an offset or before it. -/
def lineAt (starts : List Nat) (offset : Nat) : Nat :=
  partitionPoint (fun i => starts[i]?.any (· ≤ offset)) 0 starts.length

/-- Where the line of an offset starts. -/
def lineStartAt (starts : List Nat) (offset : Nat) : Nat :=
  starts[lineAt starts offset - 1]?.getD 0

/-- The place of an offset. -/
def Position.locate (starts : List Nat) (offset : Nat) : Position :=
  ⟨offset, lineAt starts offset, offset - lineStartAt starts offset + 1⟩

end StyleEngine
