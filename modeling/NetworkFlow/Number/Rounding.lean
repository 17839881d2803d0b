namespace NetworkFlow

/-- The nearest natural number to a quotient, with a half going to the even neighbour. -/
def roundHalfEven (numerator denominator : Nat) : Nat :=
  let quotient := numerator / denominator
  let twiceRest := 2 * (numerator % denominator)
  if twiceRest < denominator ∨ (twiceRest = denominator ∧ quotient % 2 = 0) then quotient
  else quotient + 1

/-- An exact quotient is its own rounding. -/
theorem roundHalfEven_mul {denominator : Nat} (positive : 0 < denominator) (quotient : Nat) :
    roundHalfEven (quotient * denominator) denominator = quotient := by
  simp [roundHalfEven, Nat.mul_div_cancel _ positive, positive]

/-- The rounding is never further than half a unit from the quotient. -/
theorem roundHalfEven_near {denominator : Nat} (positive : 0 < denominator) (numerator : Nat) :
    2 * numerator ≤ (2 * roundHalfEven numerator denominator + 1) * denominator ∧
      2 * roundHalfEven numerator denominator * denominator ≤ 2 * numerator + denominator := by
  have split := Nat.div_add_mod numerator denominator
  have small := Nat.mod_lt numerator positive
  simp only [roundHalfEven]
  generalize numerator / denominator = quotient at *
  generalize numerator % denominator = rest at *
  subst split
  split
  · constructor <;> grind
  · constructor <;> grind

end NetworkFlow
