import StyleEngine.Number.Basic

/-!
# `Number/Rounding.lean` — the magnitude nearest to a fraction

`Magnitude.nearest a b` is the rank of the magnitude nearest to `a / b`, and of two
that are equally near the one with an even significand. The fraction is taken to
units first. If its whole part has more than 53 bits, the spacing there is wider than
a unit, and the surplus bits are the doublings. One rounded division gives the
significand, and rank and significand differ by `binade` for each doubling. When the
division rounds up to the next power of two, that same sum is already the right rank.
-/

set_option autoImplicit false

namespace StyleEngine.Magnitude

/-- The whole number nearest to `a / b`; halves go to the even neighbour. -/
def divideToEven (a b : Nat) : Nat :=
  let whole := a / b
  let twice := 2 * (a % b)
  if b < twice ∨ (twice = b ∧ whole % 2 = 1) then whole + 1 else whole

/-- The rank of the magnitude nearest to `a / b` units. -/
def nearestUnits (a b : Nat) : Nat :=
  let surplus := (a / b).log2 - 52
  min infinity (surplus * binade + divideToEven a (b * Nat.pow 2 surplus))

/-- The rank of the magnitude nearest to `a / b`. -/
def nearest (a b : Nat) : Nat :=
  nearestUnits (a * unitsPerOne) b

/-- The rank of the product of two finite magnitudes. -/
def times (r₁ r₂ : Nat) : Nat :=
  nearestUnits (units r₁ * units r₂) unitsPerOne

/-! ## Whole divisions -/

theorem divideToEven_of_dvd {a b : Nat} (hb : 0 < b) : divideToEven (a * b) b = a := by
  have h : ¬ (b < 2 * (a * b % b) ∨ (2 * (a * b % b) = b ∧ a * b / b % 2 = 1)) := by
    rw [Nat.mul_mod_left]; omega
  unfold divideToEven
  simp only [h, if_false]
  exact Nat.mul_div_cancel a hb

end StyleEngine.Magnitude
