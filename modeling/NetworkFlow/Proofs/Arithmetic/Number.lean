import NetworkFlow.Number.Basic
import NetworkFlow.Proofs.Arithmetic.ExactQuantity

namespace NetworkFlow

namespace Binary64

/-- The rational number that a finite binary64 number is. -/
def rational? : Binary64 → Option Rat
  | .finite negative units => some (signed negative units / unitsPerOne)
  | _ => none

/-- A rounding keeps a number that is a multiple of its grid. -/
theorem roundUnits_of_dvd {numerator : Nat} (onGrid : 2 ^ (numerator.log2 - 52) ∣ numerator) :
    roundUnits numerator 1 = numerator := by
  obtain ⟨quotient, equal⟩ := onGrid
  simp only [roundUnits, Nat.div_one, one_mul, Nat.pow_eq]
  have exact := roundHalfEven_mul (Nat.two_pow_pos (numerator.log2 - 52)) quotient
  rw [Nat.mul_comm, ← equal] at exact
  rw [exact, Nat.mul_comm, ← equal]

/-- An integer with at most 53 bits lies on the grid of its units. -/
theorem grid_dvd {value exponent : Nat} (small : value ≤ 2 ^ 53) :
    2 ^ ((value * 2 ^ exponent).log2 - 52) ∣ value * 2 ^ exponent := by
  rcases Nat.eq_zero_or_pos value with rfl | positive
  · simp
  have nonzero : value * 2 ^ exponent ≠ 0 :=
    Nat.mul_ne_zero (Nat.pos_iff_ne_zero.mp positive) (Nat.two_pow_pos exponent).ne'
  rcases Nat.lt_or_eq_of_le small with below | rfl
  · have bits : (value * 2 ^ exponent).log2 < 53 + exponent := by
      rw [Nat.log2_lt nonzero, pow_add]
      exact Nat.mul_lt_mul_of_pos_right below (Nat.two_pow_pos exponent)
    exact (pow_dvd_pow 2 (by omega)).trans (Nat.dvd_mul_left _ value)
  · rw [← pow_add, Nat.log2_two_pow]
    exact pow_dvd_pow 2 (by omega)

theorem unitsPerOne_eq : unitsPerOne = 2 ^ 1074 := by
  rw [unitsPerOne, Nat.pow_eq]

theorem unitsPerOne_pos : 0 < unitsPerOne := by
  rw [unitsPerOne_eq]
  exact Nat.two_pow_pos _

/-- An integer of at most 53 bits is its own rounding. -/
theorem roundUnits_mul {value : Nat} (small : value ≤ 2 ^ 53) :
    roundUnits (value * unitsPerOne) 1 = value * unitsPerOne := by
  rw [unitsPerOne_eq]
  exact roundUnits_of_dvd (grid_dvd small)

theorem mul_unitsPerOne_lt {value : Nat} (small : value ≤ 2 ^ 53) :
    value * unitsPerOne < unitsLimit := by
  rw [unitsPerOne_eq, unitsLimit, Nat.pow_eq]
  refine Nat.lt_of_le_of_lt (Nat.mul_le_mul_right _ small) ?_
  rw [← pow_add]
  exact Nat.pow_lt_pow_right (by decide) (by decide)

theorem ofUnits_mul (negative : Bool) {value : Nat} (small : value ≤ 2 ^ 53) :
    ofUnits negative (value * unitsPerOne) 1 = .finite negative (value * unitsPerOne) := by
  simp only [ofUnits, roundUnits_mul small, mul_unitsPerOne_lt small, if_true]

/-- The units behind a sign are those of the integer. -/
theorem signed_natAbs (value : Int) (units : Nat) :
    signed (decide (value < 0)) (value.natAbs * units) = value * units := by
  by_cases negative : value < 0
  · simp only [signed, negative, decide_true, if_true, Nat.cast_mul,
      Int.ofNat_natAbs_of_nonpos (le_of_lt negative)]
    ring
  · simp only [signed, negative, decide_false, Bool.false_eq_true, if_false, Nat.cast_mul,
      Int.natAbs_of_nonneg (not_lt.mp negative)]

theorem rational?_eq_some_int {number : Binary64} {value : Int}
    (stands : number.rational? = some (value : Rat)) :
    ∃ negative units, number = .finite negative units ∧
      signed negative units = value * unitsPerOne := by
  cases number with
  | nan => cases stands
  | infinity negative => cases stands
  | finite negative units =>
    refine ⟨negative, units, rfl, ?_⟩
    have nonzero : (unitsPerOne : Rat) ≠ 0 := Nat.cast_ne_zero.mpr unitsPerOne_pos.ne'
    have equal := Option.some.inj stands
    rw [div_eq_iff nonzero] at equal
    exact_mod_cast equal

theorem rational?_of_signed {negative : Bool} {units : Nat} {value : Int}
    (equal : signed negative units = value * unitsPerOne) :
    (Binary64.finite negative units).rational? = some (value : Rat) := by
  have nonzero : (unitsPerOne : Rat) ≠ 0 := Nat.cast_ne_zero.mpr unitsPerOne_pos.ne'
  simp only [rational?, equal]
  push_cast
  rw [mul_div_cancel_right₀ _ nonzero]

/-- The nearest number to an integer of at most 53 bits is the integer. -/
theorem rational?_ofInt {value : Int} (small : value.natAbs ≤ 2 ^ 53) :
    (ofInt value).isFinite ∧ (ofInt value).rational? = some (value : Rat) := by
  have finite : ofInt value = .finite (decide (value < 0)) (value.natAbs * unitsPerOne) :=
    ofUnits_mul _ small
  rw [finite]
  exact ⟨rfl, rational?_of_signed (signed_natAbs value unitsPerOne)⟩

/-- A sum of integers is exact while it has at most 53 bits. -/
theorem rational?_add {first second : Binary64} {left right : Int}
    (firstStands : first.rational? = some (left : Rat))
    (secondStands : second.rational? = some (right : Rat))
    (small : (left + right).natAbs ≤ 2 ^ 53) :
    (first.add second).rational? = some ((left + right : Int) : Rat) := by
  obtain ⟨firstSign, firstUnits, rfl, firstEqual⟩ := rational?_eq_some_int firstStands
  obtain ⟨secondSign, secondUnits, rfl, secondEqual⟩ := rational?_eq_some_int secondStands
  have total : signed firstSign firstUnits + signed secondSign secondUnits =
      (left + right) * unitsPerOne := by
    rw [firstEqual, secondEqual]
    ring
  have positive : (0 : Int) < unitsPerOne := Int.natCast_pos.mpr unitsPerOne_pos
  simp only [add, total]
  by_cases zero : left + right = 0
  · rw [if_pos (by rw [zero, zero_mul])]
    apply rational?_of_signed
    rw [zero, zero_mul]
    cases firstSign && secondSign <;> rfl
  · rw [if_neg (mul_ne_zero zero positive.ne'), Int.natAbs_mul, Int.natAbs_natCast,
      ofUnits_mul _ small]
    apply rational?_of_signed
    have sign : decide ((left + right) * (unitsPerOne : Int) < 0) = decide (left + right < 0) := by
      rw [decide_eq_decide]
      constructor
      · intro below
        by_contra nonneg
        exact absurd (mul_nonneg (not_lt.mp nonneg) positive.le) (not_le.mpr below)
      · exact fun below => mul_neg_of_neg_of_pos below positive
    rw [sign]
    exact signed_natAbs (left + right) unitsPerOne

theorem signed_not (negative : Bool) (units : Nat) :
    signed (!negative) units = -signed negative units := by
  cases negative <;> simp [signed]

theorem rational?_neg {number : Binary64} {value : Rat} (stands : number.rational? = some value) :
    number.neg.rational? = some (-value) := by
  cases number with
  | nan => cases stands
  | infinity negative => cases stands
  | finite negative units =>
    rw [← Option.some.inj stands]
    simp only [neg, rational?, signed_not]
    push_cast
    rw [neg_div]

theorem rational?_magnitude {number : Binary64} {value : Rat}
    (stands : number.rational? = some value) : number.magnitude.rational? = some |value| := by
  cases number with
  | nan => cases stands
  | infinity negative => cases stands
  | finite negative units =>
    have absolute : |((signed negative units : Int) : Rat)| = (units : Rat) := by
      cases negative <;> simp [signed]
    rw [← Option.some.inj stands, abs_div, absolute, Nat.abs_cast]
    rfl

/-- The units of two finite numbers are ordered as their values. -/
theorem units_lt_iff (left right : Int) :
    ((left : Rat) / unitsPerOne < (right : Rat) / unitsPerOne) ↔ left < right := by
  have positive : (0 : Rat) < unitsPerOne := Nat.cast_pos.mpr unitsPerOne_pos
  rw [div_lt_div_iff_of_pos_right positive, Int.cast_lt]

theorem units_eq_iff (left right : Int) :
    ((left : Rat) / unitsPerOne = (right : Rat) / unitsPerOne) ↔ left = right := by
  have nonzero : (unitsPerOne : Rat) ≠ 0 := Nat.cast_ne_zero.mpr unitsPerOne_pos.ne'
  rw [div_left_inj' nonzero, Int.cast_inj]

theorem intCast_eq_units (value : Int) :
    (value : Rat) = ((value * unitsPerOne : Int) : Rat) / unitsPerOne := by
  have nonzero : (unitsPerOne : Rat) ≠ 0 := Nat.cast_ne_zero.mpr unitsPerOne_pos.ne'
  push_cast
  rw [mul_div_cancel_right₀ _ nonzero]

end Binary64

namespace Number

open Binary64

/-- The rational number that a finite number is. -/
def rational? (number : Number) : Option Rat :=
  match number.value with
  | .inl value => some value
  | .inr value => value.rational?

/-- An integer fits when it has at most 53 bits or is 2^53 itself. -/
def Fits (value : Rat) : Prop :=
  ∃ integer : Int, value = integer ∧ integer.natAbs ≤ 2 ^ 53

/-- A number counts as an integer or as a finite binary64 number. -/
theorem rational?_cases {number : Number} {value : Rat} (stands : number.rational? = some value) :
    (∃ integer : Int, number.value = .inl integer ∧ value = integer) ∨
      ∃ negative units, number.value = .inr (.finite negative units) ∧
        value = ((signed negative units : Int) : Rat) / unitsPerOne := by
  unfold rational? at stands
  cases counted : number.value with
  | inl integer =>
    rw [counted] at stands
    exact Or.inl ⟨integer, rfl, (Option.some.inj stands).symm⟩
  | inr binary =>
    rw [counted] at stands
    cases binary with
    | nan => cases stands
    | infinity negative => cases stands
    | finite negative units =>
      exact Or.inr ⟨negative, units, rfl, (Option.some.inj stands).symm⟩

/-- A number that fits converts to the binary64 number of the same value. -/
theorem exact_toBinary {number : Number} {integer : Int}
    (stands : number.rational? = some (integer : Rat)) (small : integer.natAbs ≤ 2 ^ 53) :
    ∃ binary, number.toBinary = .ok binary ∧ binary.isFinite ∧
      binary.rational? = some (integer : Rat) := by
  rcases rational?_cases stands with ⟨other, counted, equal⟩ | ⟨negative, units, counted, equal⟩
  · obtain rfl : integer = other := by exact_mod_cast equal
    obtain ⟨finite, value⟩ := rational?_ofInt small
    refine ⟨Binary64.ofInt integer, ?_, finite, value⟩
    simp only [toBinary, counted, finite, if_true]
  · refine ⟨.finite negative units, ?_, rfl, ?_⟩
    · simp only [toBinary, counted]
    · rw [equal]
      rfl

/-- A combination of numbers that fit is exact when its binary64 form is. -/
theorem exact_combine (exact : Int → Int → Int) (rounded : Binary64 → Binary64 → Binary64)
    {first second : Number} {left right : Int}
    (firstStands : first.rational? = some (left : Rat)) (leftSmall : left.natAbs ≤ 2 ^ 53)
    (secondStands : second.rational? = some (right : Rat)) (rightSmall : right.natAbs ≤ 2 ^ 53)
    (rounding : ∀ {one other : Binary64}, one.rational? = some (left : Rat) →
      other.rational? = some (right : Rat) →
      (rounded one other).rational? = some ((exact left right : Int) : Rat)) :
    ∃ result, combine exact rounded first second = .ok result ∧
      result.rational? = some ((exact left right : Int) : Rat) := by
  obtain ⟨one, firstBinary, -, oneStands⟩ := exact_toBinary firstStands leftSmall
  obtain ⟨other, secondBinary, -, otherStands⟩ := exact_toBinary secondStands rightSmall
  have mixed := rounding oneStands otherStands
  rcases rational?_cases firstStands with ⟨a, counted, equal⟩ | ⟨negative, units, counted, -⟩
  · rcases rational?_cases secondStands with ⟨b, counts, equals⟩ | ⟨negative, units, counts, -⟩
    · obtain rfl : left = a := by exact_mod_cast equal
      obtain rfl : right = b := by exact_mod_cast equals
      refine ⟨.int (exact left right), ?_, rfl⟩
      simp only [combine, counted, counts]
    · refine ⟨.real (rounded one other), ?_, mixed⟩
      simp only [combine, counted, counts, firstBinary, secondBinary]
      rfl
  · refine ⟨.real (rounded one other), ?_, mixed⟩
    simp only [combine, counted, firstBinary, secondBinary]
    rfl

theorem rational?_neg {number : Number} {value : Rat} (stands : number.rational? = some value) :
    number.neg.rational? = some (-value) := by
  rcases rational?_cases stands with ⟨integer, counted, rfl⟩ | ⟨negative, units, counted, rfl⟩
  · simp only [neg, counted]
    show some ((-integer : Int) : Rat) = some (-(integer : Rat))
    rw [Int.cast_neg]
  · simp only [neg, counted]
    exact Binary64.rational?_neg (show (Binary64.finite negative units).rational? = _ from rfl)

theorem rational?_magnitude {number : Number} {value : Rat}
    (stands : number.rational? = some value) : number.magnitude.rational? = some |value| := by
  rcases rational?_cases stands with ⟨integer, counted, rfl⟩ | ⟨negative, units, counted, rfl⟩
  · simp only [magnitude, counted]
    show some ((integer.natAbs : Int) : Rat) = some |(integer : Rat)|
    rw [Int.natCast_natAbs, Int.cast_abs]
  · simp only [magnitude, counted]
    exact Binary64.rational?_magnitude
      (show (Binary64.finite negative units).rational? = _ from rfl)

/-- Finite numbers are ordered as their values. -/
theorem less_iff {first second : Number} {left right : Rat}
    (firstStands : first.rational? = some left) (secondStands : second.rational? = some right) :
    first.less second ↔ left < right := by
  rcases rational?_cases firstStands with ⟨a, counted, rfl⟩ | ⟨oneSign, oneUnits, counted, rfl⟩ <;>
    rcases rational?_cases secondStands with ⟨b, counts, rfl⟩ | ⟨sign, units, counts, rfl⟩ <;>
    simp only [less, counted, counts]
  · rw [decide_eq_true_iff, Int.cast_lt]
  · rw [intLess, decide_eq_true_iff, intCast_eq_units a, units_lt_iff]
  · rw [lessInt, decide_eq_true_iff, intCast_eq_units b, units_lt_iff]
  · rw [Binary64.less, decide_eq_true_iff, units_lt_iff]

/-- Finite numbers are the same when their values are. -/
theorem same_iff {first second : Number} {left right : Rat}
    (firstStands : first.rational? = some left) (secondStands : second.rational? = some right) :
    first.same second ↔ left = right := by
  rcases rational?_cases firstStands with ⟨a, counted, rfl⟩ | ⟨oneSign, oneUnits, counted, rfl⟩ <;>
    rcases rational?_cases secondStands with ⟨b, counts, rfl⟩ | ⟨sign, units, counts, rfl⟩ <;>
    simp only [same, counted, counts]
  · rw [beq_iff_eq, Int.cast_inj]
  · rw [sameInt, beq_iff_eq, intCast_eq_units a, units_eq_iff, eq_comm]
  · rw [sameInt, beq_iff_eq, intCast_eq_units b, units_eq_iff]
  · rw [Binary64.same, beq_iff_eq, units_eq_iff]

theorem lessEq_iff {first second : Number} {left right : Rat}
    (firstStands : first.rational? = some left) (secondStands : second.rational? = some right) :
    first.lessEq second ↔ left ≤ right := by
  rw [lessEq, Bool.or_eq_true, less_iff firstStands secondStands,
    same_iff firstStands secondStands, le_iff_lt_or_eq]

end Number

/-- Integers of at most 53 bits are added and subtracted exactly. -/
instance : ExactQuantity Number where
  value? := Number.rational?
  Fits := Number.Fits
  lattice := (Int.castAddHom Rat).range
  fits_zero := ⟨0, by norm_num, by norm_num⟩
  fits_of_abs_le := by
    rintro p q ⟨integer, rfl⟩ less ⟨other, rfl, small⟩
    rw [Int.coe_castAddHom, ← Int.cast_abs, ← Int.cast_abs, Int.cast_le] at less
    have natAbs : integer.natAbs ≤ other.natAbs := by
      rw [← Int.natCast_natAbs, ← Int.natCast_natAbs] at less
      exact_mod_cast less
    exact ⟨integer, rfl, natAbs.trans small⟩
  value?_zero := by
    show some (((Binary64.signed false 0 : Int) : Rat) / Binary64.unitsPerOne) = some 0
    rw [show Binary64.signed false 0 = 0 from rfl, Int.cast_zero, zero_div]
  value?_ofInt_zero := by
    show some ((0 : Int) : Rat) = some 0
    norm_num
  exact_add := by
    rintro first second p q firstStands secondStands ⟨left, rfl, leftSmall⟩
      ⟨right, rfl, rightSmall⟩ ⟨sum, equal, sumSmall⟩
    obtain rfl : left + right = sum := by exact_mod_cast equal
    obtain ⟨result, combined, stands⟩ := Number.exact_combine (· + ·) Binary64.add
      firstStands leftSmall secondStands rightSmall
      (fun one other => Binary64.rational?_add one other sumSmall)
    refine ⟨result, ?_, by rw [stands, equal]⟩
    show (Number.combine _ _ first second).mapError _ = _
    rw [combined]
    rfl
  exact_sub := by
    rintro first second p q firstStands secondStands ⟨left, rfl, leftSmall⟩
      ⟨right, rfl, rightSmall⟩ ⟨difference, equal, differenceSmall⟩
    obtain rfl : left - right = difference := by exact_mod_cast equal
    obtain ⟨result, combined, stands⟩ := Number.exact_combine (· - ·) Binary64.sub
      firstStands leftSmall secondStands rightSmall (by
        intro one other oneStands otherStands
        have negated := Binary64.rational?_neg otherStands
        rw [← Int.cast_neg] at negated
        exact Binary64.rational?_add oneStands negated differenceSmall)
    refine ⟨result, ?_, by rw [stands, equal]⟩
    show (Number.combine _ _ first second).mapError _ = _
    rw [combined]
    rfl
  value?_neg := Number.rational?_neg
  value?_magnitude := Number.rational?_magnitude
  less_iff := Number.less_iff
  lessEq_iff := Number.lessEq_iff
  exact_isFinite := by
    rintro number p stands ⟨integer, rfl, small⟩
    obtain ⟨binary, converted, finite, -⟩ := Number.exact_toBinary stands small
    show (Number.isFinite number).mapError _ = _
    simp only [Number.isFinite, converted]
    exact congrArg Except.ok finite
  exact_toReal := by
    rintro number p stands ⟨integer, rfl, small⟩
    obtain ⟨binary, converted, -, value⟩ := Number.exact_toBinary stands small
    refine ⟨.real binary, ?_, value⟩
    show (number.toBinary.map Number.real).mapError _ = _
    rw [converted]
    rfl

theorem Number.value?_int (value : Int) :
    ExactQuantity.value? (Number.int value) = some (value : Rat) :=
  rfl

theorem Number.fits_intCast {value : Int} (small : value.natAbs ≤ 2 ^ 53) :
    ExactQuantity.Fits Number value :=
  ⟨value, rfl, small⟩

end NetworkFlow
