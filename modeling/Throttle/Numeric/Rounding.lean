/-!
# Rounding a quotient to a whole number

The two rules in use: a quotient goes to the nearest whole number, and a quotient
that lies halfway between two goes either to the even one or away from zero.
-/

namespace Throttle

/-- The whole number nearest to `numerator / denominator`; halfway between two,
the even one. -/
def roundHalfEven (numerator denominator : Nat) : Nat :=
  let whole := numerator / denominator
  let rest := numerator % denominator
  if 2 * rest < denominator then whole
  else if denominator < 2 * rest then whole + 1
  else if whole % 2 = 0 then whole
  else whole + 1

/-- The whole number nearest to `numerator / denominator`; halfway between two,
the larger one. -/
def roundHalfUp (numerator denominator : Nat) : Nat :=
  (2 * numerator + denominator) / (2 * denominator)

/-- A quotient is rounded to one of its two whole neighbours. -/
theorem roundHalfEven_eq_or (numerator denominator : Nat) :
    roundHalfEven numerator denominator = numerator / denominator ∨
      roundHalfEven numerator denominator = numerator / denominator + 1 := by
  unfold roundHalfEven
  simp only
  split
  · exact Or.inl rfl
  · split
    · exact Or.inr rfl
    · split
      · exact Or.inl rfl
      · exact Or.inr rfl

/-- A quotient without remainder is its own rounding. -/
theorem roundHalfEven_mul_self (whole denominator : Nat) (hpositive : 0 < denominator) :
    roundHalfEven (whole * denominator) denominator = whole := by
  unfold roundHalfEven
  simp [Nat.mul_div_cancel _ hpositive, hpositive]

end Throttle
