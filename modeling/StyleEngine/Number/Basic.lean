/-!
# `Number/Basic.lean` — binary64 numbers, by rank

A number of a style sheet is a binary64 number. The magnitudes of that format are a
finite, ordered set, so a magnitude is held as its **rank**: how many magnitudes are
smaller. Rank `0` is zero and the last rank is infinity. This is the same count that
the format's bit patterns make when they are read as integers, so nothing is lost.

Ranks make the arithmetic small. Every finite magnitude is a whole number of
**units**, where one unit is `2 ^ -1074`, the least magnitude above zero
(`units`). Rounding then is division of natural numbers (`Number/Rounding.lean`), and
no exponent is ever negative.

Two zeros compare equal and a NaN equals nothing, itself included (`equals`). That is
the comparison which sheets inherit; `=` tells all numbers apart.
-/

set_option autoImplicit false

namespace StyleEngine

/-! ## Magnitudes -/

namespace Magnitude

-- Powers are `Nat.pow` by name: what `^` stands for depends on the algebra in scope.

/-- How many magnitudes share one spacing. -/
def binade : Nat := Nat.pow 2 52

/-- The rank of infinity. Every smaller rank is a finite magnitude. -/
def infinity : Nat := 2047 * binade

/-- Below `2 * binade` neighbours are one unit apart; the spacing doubles with every
    further `binade` ranks. -/
def doublings (rank : Nat) : Nat :=
  rank / binade - 1

/-- A magnitude in multiples of the spacing at its place. -/
def significand (rank : Nat) : Nat :=
  if rank < 2 * binade then rank else binade + rank % binade

/-- A finite magnitude in units of `2 ^ -1074`. -/
def units (rank : Nat) : Nat :=
  significand rank * Nat.pow 2 (doublings rank)

/-- One is `2 ^ 1074` units. -/
def unitsPerOne : Nat := Nat.pow 2 1074

end Magnitude

/-! ## Numbers -/

/-- A binary64 number: a sign and the rank of a magnitude, or no number at all. -/
inductive Number where
  | nan
  | signed (negative : Bool) (rank : Nat) (rank_le : rank ≤ Magnitude.infinity)
deriving DecidableEq

namespace Number

/-- The number with this sign and rank; a rank past infinity is infinity. -/
def ofRank (negative : Bool) (rank : Nat) : Number :=
  .signed negative (min rank Magnitude.infinity) (Nat.min_le_right _ _)

def zero : Number := ofRank false 0

def infinity (negative : Bool) : Number := ofRank negative Magnitude.infinity

/-- Neither infinite nor a NaN. -/
def isFinite : Number → Bool
  | .nan => false
  | .signed _ rank _ => rank < Magnitude.infinity

/-- Numeric comparison: the zeros are equal, and a NaN equals nothing. -/
def equals : Number → Number → Bool
  | .signed n₁ r₁ _, .signed n₂ r₂ _ => r₁ = r₂ && (n₁ = n₂ || r₁ = 0)
  | _, _ => false

theorem equals_self {x : Number} (h : x ≠ .nan) : x.equals x = true := by
  cases x with
  | nan => exact absurd rfl h
  | signed n r hr => simp [equals]

end Number

end StyleEngine
