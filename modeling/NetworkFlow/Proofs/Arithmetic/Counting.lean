import NetworkFlow.Proofs.Arithmetic.Number

namespace NetworkFlow

open Quantity ExactQuantity

namespace Binary64

/-- The first integer above 2^53 is halfway between two numbers and rounds to 2^53. -/
theorem roundUnits_top :
    roundUnits ((2 ^ 53 + 1) * unitsPerOne) 1 = 2 ^ 53 * unitsPerOne := by
  decide +kernel

/-- One more than 2^53 is lost. -/
theorem rational?_add_top {first second : Binary64}
    (firstStands : first.rational? = some ((2 ^ 53 : Nat) : Rat))
    (secondStands : second.rational? = some 1) :
    (first.add second).rational? = some ((2 ^ 53 : Nat) : Rat) := by
  have integer : first.rational? = some (((2 ^ 53 : Nat) : Int) : Rat) := firstStands
  have one : second.rational? = some ((1 : Int) : Rat) := by rwa [Int.cast_one]
  obtain ⟨firstSign, firstUnits, rfl, firstEqual⟩ := rational?_eq_some_int integer
  obtain ⟨secondSign, secondUnits, rfl, secondEqual⟩ := rational?_eq_some_int one
  have total : signed firstSign firstUnits + signed secondSign secondUnits =
      (((2 ^ 53 + 1) * unitsPerOne : Nat) : Int) := by
    rw [firstEqual, secondEqual]
    push_cast
    ring
  have positive : (2 ^ 53 + 1) * unitsPerOne ≠ 0 :=
    Nat.mul_ne_zero (by decide) unitsPerOne_pos.ne'
  rw [add, total, if_neg (Int.natCast_ne_zero.mpr positive),
    decide_eq_false (not_lt.mpr (Int.natCast_nonneg _)), Int.natAbs_natCast, ofUnits,
    roundUnits_top, if_pos (mul_unitsPerOne_lt le_rfl)]
  have units : signed false (2 ^ 53 * unitsPerOne) = ((2 ^ 53 : Nat) : Int) * unitsPerOne := by
    simp only [signed, Bool.false_eq_true, if_false, Nat.cast_mul]
  exact rational?_of_signed units

end Binary64

namespace Number

/-- A number counts as binary64 numbers do when it stands for the count or for 2^53. -/
def Counts (total : Number) (count : Nat) : Prop :=
  ∃ real : Binary64, total = .real real ∧
    real.rational? = some ((min count (2 ^ 53) : Nat) : Rat)

theorem counts_zero : (zero : Number).Counts 0 := by
  refine ⟨.zero, rfl, ?_⟩
  rw [Nat.zero_min, Nat.cast_zero]
  exact value?_zero (α := Number)

theorem Counts.value?_eq {total : Number} {count : Nat} (counts : total.Counts count) :
    value? total = some ((min count (2 ^ 53) : Nat) : Rat) := by
  obtain ⟨real, rfl, stands⟩ := counts
  exact stands

/-- Adding one counts on. -/
theorem Counts.add_one {total amount : Number} {count : Nat} (counts : total.Counts count)
    (one : value? amount = some 1) :
    ∃ after, Quantity.add total amount = .ok after ∧ after.Counts (count + 1) := by
  obtain ⟨real, rfl, stands⟩ := counts
  obtain ⟨unit, converted, -, unitStands⟩ :=
    exact_toBinary (show amount.rational? = some ((1 : Int) : Rat) by rwa [Int.cast_one])
      (by decide)
  have counted : (Number.real real).value = .inr real := rfl
  have read : (Number.real real).toBinary = .ok real := rfl
  have added : Quantity.add (Number.real real) amount = .ok (.real (real.add unit)) := by
    show (combine _ _ (.real real) amount).mapError _ = _
    simp only [combine, counted, read, converted]
    rfl
  refine ⟨_, added, real.add unit, rfl, ?_⟩
  rcases Nat.lt_or_ge count (2 ^ 53) with below | above
  · rw [min_eq_left (Nat.le_of_lt below)] at stands
    rw [min_eq_left (Nat.succ_le_of_lt below)]
    have left : real.rational? = some ((count : Int) : Rat) := stands
    exact Binary64.rational?_add left unitStands (by omega)
  -- From 2^53 on every sum is halfway to the next number and falls back.
  · rw [min_eq_right above] at stands
    rw [min_eq_right (Nat.le_succ_of_le above)]
    rw [Int.cast_one] at unitStands
    exact Binary64.rational?_add_top stands unitStands

end Number
end NetworkFlow
