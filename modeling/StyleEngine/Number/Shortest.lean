import StyleEngine.Number.Decimal

/-!
# `Number/Shortest.lean` — the fewest digits that read back

A magnitude is written with as few digits as identify it: `Decimal.shortest` is a
decimal of least width whose nearest magnitude is the given one, and of two such
decimals the nearer. For each width from one to seventeen there are two candidates,
the neighbours of the magnitude on the grid of that width, and the reader itself tests
them. So what is found reads back by the way it was found, and nothing about the
search has to be trusted for that. Seventeen digits always suffice; if none of the
candidates read back, the exact value would be taken.

Both neighbours may read back and be equally near. The two written forms of a number
settle that differently, so the choice is an argument (`Tie`).
-/

set_option autoImplicit false

namespace StyleEngine

/-- Which of two equally near candidates is taken. -/
inductive Tie where
  | up
  | toEven
deriving DecidableEq

/-- Whether the whole number above `a / b` is taken when the one below would do too. -/
def Tie.takesUpper (tie : Tie) (a b : Nat) : Bool :=
  let twice := 2 * (a % b)
  match tie with
  | .up => b ≤ twice
  | .toEven => b < twice || (twice = b && a / b % 2 = 1)

namespace Decimal

/-- How many digits a whole number has when it is written; zero has one. -/
def width (n : Nat) : Nat := (Nat.toDigits 10 n).length

/-- Drops the zeros at the end of a whole number and counts them, at most `limit`. -/
def dropZeros : Nat → Nat → Nat × Nat
  | 0, n => (n, 0)
  | limit + 1, n =>
    if n ≠ 0 ∧ n % 10 = 0 then
      let (m, count) := dropZeros limit (n / 10)
      (m, count + 1)
    else (n, 0)

/-- The decimal without zeros at the end of its digits. -/
def trim (d : Decimal) : Decimal :=
  let (digits, count) := dropZeros (width d.digits) d.digits
  ⟨digits, d.exponent + count⟩

/-- The exact value of a finite magnitude. -/
def exact (rank : Nat) : Decimal :=
  ⟨Magnitude.units rank * Nat.pow 5 1074, -1074⟩

/-- The power of ten just above a magnitude: its first digit stands for one tenth of
    it. -/
def leadingPlace (units : Nat) : Int :=
  if Magnitude.unitsPerOne ≤ units then width (units / Magnitude.unitsPerOne)
  else 1 - width (Magnitude.unitsPerOne / units)

/-- A magnitude in steps of `10 ^ exponent`, as a fraction. -/
def inSteps (units : Nat) : Int → Nat × Nat
  | .ofNat e => (units, Magnitude.unitsPerOne * Nat.pow 10 e)
  | .negSucc e => (units * Nat.pow 10 (e + 1), Magnitude.unitsPerOne)

/-- The neighbour of a magnitude, on the grid of decimals of this width, that reads
    back, if there is one. -/
def ofWidth? (tie : Tie) (rank width : Nat) : Option Decimal :=
  let units := Magnitude.units rank
  let exponent := leadingPlace units - width
  let (a, b) := inSteps units exponent
  let lower := trim ⟨a / b, exponent⟩
  let upper := trim ⟨a / b + 1, exponent⟩
  match decide (lower.rank = rank), decide (upper.rank = rank) with
  | true, true => some (if tie.takesUpper a b then upper else lower)
  | true, false => some lower
  | false, true => some upper
  | false, false => none

/-- The decimal of fewest digits that reads back as this finite magnitude. -/
def shortest (tie : Tie) (rank : Nat) : Decimal :=
  if rank = 0 then ⟨0, 0⟩
  else ((List.range 17).findSome? fun n => ofWidth? tie rank (n + 1)).getD (exact rank)

theorem rank_ofWidth? {tie : Tie} {rank width : Nat} {d : Decimal}
    (h : ofWidth? tie rank width = some d) : d.rank = rank := by
  unfold ofWidth? at h
  dsimp only at h
  split at h
  · rename_i hl hu
    simp only [decide_eq_true_eq] at hl hu
    simp only [Option.some.injEq] at h
    split at h <;> exact h ▸ ‹_›
  · rename_i hl _
    simp only [decide_eq_true_eq] at hl
    simp only [Option.some.injEq] at h
    exact h ▸ hl
  · rename_i _ hu
    simp only [decide_eq_true_eq] at hu
    simp only [Option.some.injEq] at h
    exact h ▸ hu
  · cases h

end Decimal

end StyleEngine
