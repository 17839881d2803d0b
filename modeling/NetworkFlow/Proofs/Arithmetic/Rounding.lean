import NetworkFlow.Proofs.Arithmetic.Tolerance

namespace NetworkFlow

/-- A larger numerator never rounds to less. -/
theorem roundHalfEven_mono {first second : Nat} (most : first ≤ second) (denominator : Nat) :
    roundHalfEven first denominator ≤ roundHalfEven second denominator := by
  have quotients := Nat.div_le_div_right (c := denominator) most
  have firstSplit := Nat.div_add_mod first denominator
  have secondSplit := Nat.div_add_mod second denominator
  simp only [roundHalfEven]
  rcases Nat.lt_or_eq_of_le quotients with less | same
  · split <;> split <;> omega
  · have rests : first % denominator ≤ second % denominator := by
      rw [same] at firstSplit
      omega
    rw [same]
    split <;> split <;> omega

/-- A rounding keeps at least the whole part of its quotient. -/
theorem div_le_roundHalfEven (numerator denominator : Nat) :
    numerator / denominator ≤ roundHalfEven numerator denominator := by
  simp only [roundHalfEven]
  split <;> omega

namespace Binary64

/-- The grid of a number is the distance of the numbers with as many bits that binary64 holds. -/
def grid (numerator : Nat) : Nat := 2 ^ (numerator.log2 - 52)

theorem grid_pos (numerator : Nat) : 0 < grid numerator := Nat.two_pow_pos _

theorem roundUnits_one (numerator : Nat) :
    roundUnits numerator 1 = roundHalfEven numerator (grid numerator) * grid numerator := by
  simp only [roundUnits, Nat.div_one, one_mul, Nat.pow_eq, grid]

/-- A number has at most 53 bits on its grid. -/
theorem lt_mul_grid (numerator : Nat) : numerator < 2 ^ 53 * grid numerator := by
  rw [grid, ← pow_add]
  refine Nat.lt_log2_self.trans_le (Nat.pow_le_pow_right (by omega) ?_)
  omega

/-- What a rounding gives lies on its own grid, also when it has one more bit. -/
theorem onGrid_roundUnits (numerator : Nat) {denominator : Nat} (positive : 0 < denominator) :
    2 ^ ((roundUnits numerator denominator).log2 - 52) ∣ roundUnits numerator denominator := by
  have scaled : 0 < denominator * grid (numerator / denominator) :=
    Nat.mul_pos positive (grid_pos _)
  have bits : numerator ≤ 2 ^ 53 * (denominator * grid (numerator / denominator)) := by
    calc numerator ≤ denominator * (numerator / denominator + 1) :=
          (Nat.lt_mul_div_succ numerator positive).le
      _ ≤ denominator * (2 ^ 53 * grid (numerator / denominator)) :=
          Nat.mul_le_mul_left _ (lt_mul_grid _)
      _ = 2 ^ 53 * (denominator * grid (numerator / denominator)) := Nat.mul_left_comm _ _ _
  have small := roundHalfEven_mono bits (denominator * grid (numerator / denominator))
  rw [roundHalfEven_mul scaled] at small
  have rounded : roundUnits numerator denominator =
      roundHalfEven numerator (denominator * grid (numerator / denominator)) *
        grid (numerator / denominator) := by
    simp only [roundUnits, Nat.pow_eq, grid]
  rw [rounded]
  exact grid_dvd small

/-- Rounding twice is rounding once. -/
theorem roundUnits_roundUnits (numerator : Nat) :
    roundUnits (roundUnits numerator 1) 1 = roundUnits numerator 1 :=
  roundUnits_of_dvd (onGrid_roundUnits numerator Nat.one_pos)

/-- A rounding keeps the highest bit or has one more. -/
theorem two_pow_le_roundUnits {numerator : Nat} (positive : numerator ≠ 0) :
    2 ^ numerator.log2 ≤ roundUnits numerator 1 := by
  have highest := Nat.log2_self_le positive
  have split : 2 ^ numerator.log2 = 2 ^ (numerator.log2 - (numerator.log2 - 52)) *
      grid numerator := by
    rw [grid, ← pow_add]
    congr 1
    omega
  have whole : 2 ^ (numerator.log2 - (numerator.log2 - 52)) ≤ numerator / grid numerator := by
    rw [Nat.le_div_iff_mul_le (grid_pos numerator), ← split]
    exact highest
  rw [roundUnits_one, split]
  exact Nat.mul_le_mul_right _ (whole.trans (div_le_roundHalfEven _ _))

theorem roundUnits_ne_zero {numerator : Nat} (positive : numerator ≠ 0) :
    roundUnits numerator 1 ≠ 0 := by
  have least := two_pow_le_roundUnits positive
  have power := Nat.two_pow_pos numerator.log2
  omega

/-- A larger number of units never rounds to less. -/
theorem roundUnits_mono {first second : Nat} (most : first ≤ second) :
    roundUnits first 1 ≤ roundUnits second 1 := by
  rcases Nat.eq_zero_or_pos second with rfl | positive
  · rw [Nat.le_zero.mp most]
  have bits : first.log2 ≤ second.log2 := by
    rw [Nat.log2_eq_log_two, Nat.log2_eq_log_two]
    exact Nat.log_mono_right most
  rcases Nat.lt_or_eq_of_le bits with fewer | same
  · have below : first ≤ 2 ^ second.log2 :=
      (Nat.lt_log2_self.trans_le (Nat.pow_le_pow_right (by omega) fewer)).le
    have onGrid : 2 ^ ((2 ^ second.log2).log2 - 52) ∣ 2 ^ second.log2 := by
      rw [Nat.log2_two_pow]
      exact pow_dvd_pow 2 (Nat.sub_le _ _)
    exact (roundUnits_le below onGrid).trans (two_pow_le_roundUnits positive.ne')
  · rw [roundUnits_one, roundUnits_one, grid, grid, same]
    exact Nat.mul_le_mul_right _ (roundHalfEven_mono most _)

/-- The type holds any number of units, and the format only those below the limit
that a rounding leaves as they are: the counts of at most 53 bits on their grid. -/
inductive InFormat : Binary64 → Prop where
  | nan : InFormat nan
  | infinity (negative : Bool) : InFormat (infinity negative)
  | finite (negative : Bool) {units : Nat} (rounded : roundUnits units 1 = units)
      (small : units < unitsLimit) : InFormat (finite negative units)

theorem unitsLimit_pos : 0 < unitsLimit :=
  (Nat.zero_le _).trans_lt (mul_unitsPerOne_lt (Nat.zero_le (2 ^ 53)))

/-- A rounding is finite when it stays below the limit of the units. -/
theorem ofUnits_eq (negative : Bool) (numerator denominator : Nat) :
    (roundUnits numerator denominator < unitsLimit ∧ ofUnits negative numerator denominator =
      .finite negative (roundUnits numerator denominator)) ∨
    ofUnits negative numerator denominator = .infinity negative := by
  by_cases small : roundUnits numerator denominator < unitsLimit
  · left
    simp only [ofUnits, small, if_true, and_self]
  · right
    simp only [ofUnits, small, if_false]

theorem inFormat_zero (negative : Bool) : InFormat (finite negative 0) :=
  .finite negative (roundUnits_of_dvd (dvd_zero _)) unitsLimit_pos

/-- Adding zero to a stable number gives it back. -/
structure IsStable (number : Binary64) : Prop where
  ne_nan : number ≠ .nan
  add_zero : number.add zero = number

theorem isStable_zero : zero.IsStable := ⟨by simp [zero], rfl⟩

theorem isStable_infinity (negative : Bool) : (infinity negative).IsStable := ⟨by simp, rfl⟩

/-- The sign of a positive number of units tells whether it is below zero. -/
theorem signed_neg_iff {negative : Bool} {units : Nat} (positive : units ≠ 0) :
    decide (signed negative units < 0) = negative := by
  cases negative
  · simp [signed]
  · simp [signed, Nat.pos_of_ne_zero positive]

/-- A rounding is stable unless it rounds zero, whose sign could be lost. -/
theorem isStable_ofUnits (negative : Bool) {numerator : Nat} (positive : numerator ≠ 0) :
    (ofUnits negative numerator 1).IsStable := by
  rcases ofUnits_eq negative numerator 1 with ⟨small, rounded⟩ | rounded
  · have nonzero := roundUnits_ne_zero positive
    have total : signed negative (roundUnits numerator 1) ≠ 0 := by
      cases negative <;> simp [signed, nonzero]
    have units : (signed negative (roundUnits numerator 1)).natAbs = roundUnits numerator 1 := by
      cases negative <;> simp [signed]
    have none : signed false 0 = 0 := rfl
    rw [rounded]
    refine ⟨by simp, ?_⟩
    simp only [add, zero, none, Int.add_zero, if_neg total, units, signed_neg_iff nonzero, ofUnits,
      roundUnits_roundUnits, if_pos small]
  · rw [rounded]
    exact isStable_infinity negative

/-- The negative zero is not stable. -/
theorem IsStable.eq_false {negative : Bool} (stable : (finite negative 0).IsStable) :
    negative = false := by
  cases negative
  · rfl
  · exact absurd stable.add_zero (by decide)

/-- A sum with a stable number is stable. -/
theorem IsStable.add {first second : Binary64} (stable : first.IsStable)
    (finite : second.isFinite = true) : (first.add second).IsStable := by
  cases second with
  | nan => cases finite
  | infinity negative => cases finite
  | finite negative units =>
    cases first with
    | nan => exact absurd rfl stable.ne_nan
    | infinity sign => exact isStable_infinity sign
    | finite sign count =>
      by_cases total : signed sign count + signed negative units = 0
      · have plus : (sign && negative) = false := by
          cases sign with
          | false => rfl
          | true =>
            cases negative with
            | false => rfl
            | true =>
              have none : count = 0 := by
                simp only [signed, if_true] at total
                omega
              exact absurd (none ▸ stable).eq_false (by decide)
        simp only [Binary64.add, if_pos total, plus]
        exact isStable_zero
      · simp only [Binary64.add, if_neg total]
        exact isStable_ofUnits _ (Int.natAbs_ne_zero.mpr total)

theorem add_comm (first second : Binary64) : first.add second = second.add first := by
  cases first <;> cases second <;> try rfl
  · simp only [add]
    grind
  · simp only [add, Int.add_comm, Bool.and_comm]

/-- Half of an integer of at most 53 bits is its own rounding. -/
theorem roundUnits_half {half : Nat} (small : half ≤ 2 ^ 53) :
    roundUnits (half * 2 ^ 1073) 1 = half * 2 ^ 1073 :=
  roundUnits_of_dvd (grid_dvd small)

theorem half_le_iff (half : Nat) (units : Int) :
    (half : Rat) / 2 ≤ (units : Rat) / unitsPerOne ↔ ((half * 2 ^ 1073 : Nat) : Int) ≤ units := by
  have split : (half : Rat) / 2 = (((half * 2 ^ 1073 : Nat) : Int) : Rat) / unitsPerOne := by
    rw [unitsPerOne_eq, pow_succ' 2 1073, Int.cast_natCast, Nat.cast_mul, Nat.cast_mul,
      Nat.cast_ofNat, mul_div_mul_right _ _ (Nat.cast_ne_zero.mpr (Nat.two_pow_pos _).ne')]
  rw [split, div_le_div_iff_of_pos_right (Nat.cast_pos.mpr unitsPerOne_pos), Int.cast_le]

/-- A difference does not round past a half below it. -/
theorem half_le_sub {first second : Binary64} {value : Int} {taken left : Rat}
    (firstStands : first.rational? = some (value : Rat))
    (secondStands : second.rational? = some taken)
    (rounded : (first.sub second).rational? = some left) {half : Nat} (small : half ≤ 2 ^ 53)
    (most : (half : Rat) / 2 ≤ value - taken) : (half : Rat) / 2 ≤ left := by
  obtain ⟨firstSign, firstUnits, rfl, units⟩ := rational?_eq_some_int firstStands
  cases second with
  | nan => cases secondStands
  | infinity negative => cases secondStands
  | finite negative secondUnits =>
    obtain ⟨total, known⟩ : ∃ total, total = signed firstSign firstUnits +
      signed (!negative) secondUnits := ⟨_, rfl⟩
    have difference : (value : Rat) - taken = (total : Rat) / unitsPerOne := by
      rw [known, signed_not, units, intCast_eq_units, ← Option.some.inj secondStands]
      push_cast
      ring
    rw [difference, half_le_iff] at most
    simp only [sub, neg, add, ← known] at rounded
    split at rounded
    · rw [← Option.some.inj rounded, half_le_iff]
      refine most.trans (le_of_eq ?_)
      rw [‹total = 0›]
      cases firstSign && !negative <;> rfl
    · have positive : ¬total < 0 := by omega
      rcases ofUnits_eq (decide (total < 0)) total.natAbs 1 with ⟨-, finite⟩ | infinite
      · rw [finite] at rounded
        rw [← Option.some.inj rounded, half_le_iff]
        simp only [positive, decide_false, signed, Bool.false_eq_true, if_false]
        rw [← roundUnits_half small, Nat.cast_le]
        exact roundUnits_mono (by omega)
      · rw [infinite] at rounded
        cases rounded

end Binary64

namespace Number

open Binary64 ExactQuantity

/-- A total without its tolerance does not pass the halves below the difference. -/
theorem half_le_of_sub {total tolerance room : Number} {value taken left : Rat}
    (known : value? total = some value) (fits : ExactQuantity.Fits Number value)
    (tolerances : value? tolerance = some taken) (least : 0 ≤ taken) (below : taken < 1)
    (computed : Quantity.sub total tolerance = .ok room) (stands : value? room = some left)
    {half : Nat} (small : half ≤ 2 ^ 53) (most : (half : Rat) / 2 ≤ value - taken) :
    (half : Rat) / 2 ≤ left := by
  obtain ⟨integer, rfl, fewer⟩ := fits
  rcases sub_cases known fewer tolerances least below with
    ⟨exactRoom, exactly, difference⟩ | ⟨first, second, rounding, firstStands, secondStands⟩
  · obtain rfl : exactRoom = room := Except.ok.inj (exactly.symm.trans computed)
    rwa [Option.some.inj (difference.symm.trans stands)] at most
  · obtain rfl : Number.real (first.sub second) = room :=
      Except.ok.inj (rounding.symm.trans computed)
    exact Binary64.half_le_sub firstStands secondStands stands small most

end Number
end NetworkFlow
