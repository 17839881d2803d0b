import NetworkFlow.Proofs.Arithmetic.Number

namespace NetworkFlow

open Quantity ExactQuantity

namespace Binary64

/-- A rounding never passes a number that lies on its own grid. -/
theorem roundUnits_le {numerator limit : Nat} (most : numerator ≤ limit)
    (onGrid : 2 ^ (limit.log2 - 52) ∣ limit) : roundUnits numerator 1 ≤ limit := by
  obtain ⟨grid, equal⟩ : ∃ grid, grid = 2 ^ (numerator.log2 - 52) := ⟨_, rfl⟩
  have positive : 0 < grid := equal ▸ Nat.two_pow_pos _
  have finer : grid ∣ limit := by
    refine dvd_trans ?_ onGrid
    rw [equal]
    apply pow_dvd_pow
    have bits : numerator.log2 ≤ limit.log2 := by
      rw [Nat.log2_eq_log_two, Nat.log2_eq_log_two]
      exact Nat.log_mono_right most
    omega
  obtain ⟨quotient, rfl⟩ := finer
  have near := (roundHalfEven_near positive numerator).2
  have rounded : roundUnits numerator 1 = roundHalfEven numerator grid * grid := by
    simp only [roundUnits, Nat.div_one, one_mul, Nat.pow_eq, equal]
  have half : 2 * roundHalfEven numerator grid * grid < (2 * quotient + 2) * grid := by
    calc 2 * roundHalfEven numerator grid * grid ≤ 2 * numerator + grid := near
      _ ≤ 2 * (grid * quotient) + grid := by omega
      _ < 2 * (grid * quotient) + 2 * grid := by omega
      _ = (2 * quotient + 2) * grid := by ring
  have small := Nat.lt_of_mul_lt_mul_right half
  rw [rounded, Nat.mul_comm grid]
  exact Nat.mul_le_mul_right grid (by omega)

/-- Units below an integer of at most 53 bits round to a finite number that is no larger. -/
theorem ofUnits_le (negative : Bool) {units value : Nat} (small : value ≤ 2 ^ 53)
    (most : units ≤ value * unitsPerOne) :
    ∃ rounded ≤ value * unitsPerOne, ofUnits negative units 1 = .finite negative rounded := by
  have onGrid : 2 ^ ((value * unitsPerOne).log2 - 52) ∣ value * unitsPerOne := by
    rw [unitsPerOne_eq]
    exact grid_dvd small
  have rounded := roundUnits_le most onGrid
  refine ⟨roundUnits units 1, rounded, ?_⟩
  simp only [ofUnits, rounded.trans_lt (mul_unitsPerOne_lt small), if_true]

theorem div_unitsPerOne_le {units : Int} {value : Int} (most : units ≤ value * unitsPerOne) :
    (units : Rat) / unitsPerOne ≤ value := by
  rw [div_le_iff₀ (Nat.cast_pos.mpr unitsPerOne_pos)]
  exact_mod_cast most

/-- A small amount taken from an integer leaves no more than the integer. -/
theorem sub_le {first second : Binary64} {value : Int} {taken : Rat}
    (firstStands : first.rational? = some (value : Rat)) (nonneg : 0 ≤ value)
    (small : value.natAbs ≤ 2 ^ 53) (secondStands : second.rational? = some taken)
    (least : 0 ≤ taken) (below : taken < 1) :
    ∃ left, (first.sub second).rational? = some left ∧ left ≤ value := by
  obtain ⟨firstSign, firstUnits, rfl, units⟩ := rational?_eq_some_int firstStands
  cases second with
  | nan => cases secondStands
  | infinity negative => cases secondStands
  | finite negative secondUnits =>
    have positive : (0 : Rat) < unitsPerOne := Nat.cast_pos.mpr unitsPerOne_pos
    obtain ⟨amount, known⟩ : ∃ amount, amount = signed negative secondUnits := ⟨_, rfl⟩
    have equal := Option.some.inj secondStands
    rw [← known] at equal
    have amountLeast : 0 ≤ amount := by
      rw [← equal, le_div_iff₀ positive, zero_mul] at least
      exact_mod_cast least
    have amountBelow : amount < unitsPerOne := by
      rw [← equal, div_lt_one positive] at below
      exact_mod_cast below
    have total : signed firstSign firstUnits + signed (!negative) secondUnits =
        value * unitsPerOne - amount := by
      rw [units, signed_not, known, sub_eq_add_neg]
    simp only [sub, neg, add, total]
    split
    · refine ⟨((0 : Int) : Rat), rational?_of_signed ?_, by exact_mod_cast nonneg⟩
      rw [zero_mul]
      cases firstSign && !negative <;> rfl
    · by_cases negativeTotal : value * unitsPerOne - amount < 0
      · have little : (value * unitsPerOne - amount).natAbs ≤ 1 * unitsPerOne := by
          have enough : 0 ≤ value * unitsPerOne := mul_nonneg nonneg (Int.natCast_nonneg _)
          omega
        obtain ⟨rounded, -, finite⟩ := ofUnits_le (decide (value * unitsPerOne - amount < 0))
          (by decide) little
        refine ⟨_, by rw [finite]; rfl, div_unitsPerOne_le ?_⟩
        have enough : 0 ≤ value * unitsPerOne := mul_nonneg nonneg (Int.natCast_nonneg _)
        simp only [negativeTotal, decide_true, signed, if_true]
        omega
      · have little : (value * unitsPerOne - amount).natAbs ≤ value.natAbs * unitsPerOne := by
          zify
          rw [abs_of_nonneg (not_lt.mp negativeTotal), abs_of_nonneg nonneg]
          omega
        obtain ⟨rounded, most, finite⟩ := ofUnits_le (decide (value * unitsPerOne - amount < 0))
          small little
        refine ⟨_, by rw [finite]; rfl, div_unitsPerOne_le ?_⟩
        zify at most
        rw [abs_of_nonneg nonneg] at most
        simpa only [negativeTotal, decide_false, signed, Bool.false_eq_true, if_false] using most

end Binary64

namespace Number

open Binary64

/-- A tolerance below one converts to the binary64 number of the same value. -/
theorem exact_toBinary_of_lt_one {number : Number} {value : Rat}
    (stands : number.rational? = some value) (least : 0 ≤ value) (below : value < 1) :
    ∃ binary, number.toBinary = .ok binary ∧ binary.rational? = some value := by
  rcases rational?_cases stands with ⟨integer, -, equal⟩ | ⟨negative, units, counted, equal⟩
  · have zero : integer = 0 := by
      rw [equal] at least below
      have lower : 0 ≤ integer := by exact_mod_cast least
      have upper : integer < 1 := by exact_mod_cast below
      omega
    rw [equal, zero] at stands
    obtain ⟨binary, converted, -, known⟩ := exact_toBinary stands (by decide)
    exact ⟨binary, converted, by rw [known, equal, zero]⟩
  · refine ⟨.finite negative units, ?_, ?_⟩
    · simp only [toBinary, counted]
    · rw [equal]
      rfl

/-- A tolerance below one is taken from an integer exactly, or by one rounding. -/
theorem sub_cases {total tolerance : Number} {value : Int} {taken : Rat}
    (known : value? total = some (value : Rat)) (small : value.natAbs ≤ 2 ^ 53)
    (tolerances : value? tolerance = some taken) (least : 0 ≤ taken) (below : taken < 1) :
    (∃ room, Quantity.sub total tolerance = .ok room ∧ value? room = some (value - taken)) ∨
    ∃ first second : Binary64, Quantity.sub total tolerance = .ok (.real (first.sub second)) ∧
      first.rational? = some (value : Rat) ∧ second.rational? = some taken := by
  obtain ⟨first, firstBinary, -, firstStands⟩ := exact_toBinary known small
  obtain ⟨second, secondBinary, secondStands⟩ := exact_toBinary_of_lt_one tolerances least below
  rcases rational?_cases known with ⟨a, counted, equal⟩ | ⟨negative, units, counted, -⟩
  · rcases rational?_cases tolerances with ⟨b, counts, rfl⟩ | ⟨negative, units, counts, -⟩
    · left
      refine ⟨.int (a - b), ?_, ?_⟩
      · show (combine _ _ total tolerance).mapError _ = _
        simp only [combine, counted, counts]
        rfl
      · rw [equal, ← Int.cast_sub]
        rfl
    · right
      refine ⟨first, second, ?_, firstStands, secondStands⟩
      show (combine _ _ total tolerance).mapError _ = _
      simp only [combine, counted, counts, firstBinary, secondBinary]
      rfl
  · right
    refine ⟨first, second, ?_, firstStands, secondStands⟩
    show (combine _ _ total tolerance).mapError _ = _
    simp only [combine, counted, firstBinary, secondBinary]
    rfl

/-- A tolerance below one can be taken from an integer total, and leaves no more than the total. -/
theorem exact_sub_le {total tolerance : Number} {value taken : Rat}
    (known : value? total = some value) (fits : ExactQuantity.Fits Number value)
    (nonneg : 0 ≤ value) (tolerances : value? tolerance = some taken) (least : 0 ≤ taken)
    (below : taken < 1) :
    ∃ room left, Quantity.sub total tolerance = .ok room ∧ value? room = some left ∧
      left ≤ value := by
  obtain ⟨integer, rfl, small⟩ := fits
  have integerLeast : 0 ≤ integer := by exact_mod_cast nonneg
  rcases sub_cases known small tolerances least below with
    ⟨room, computed, stands⟩ | ⟨first, second, computed, firstStands, secondStands⟩
  · exact ⟨room, _, computed, stands, sub_le_self _ least⟩
  · obtain ⟨left, rounded, most⟩ :=
      Binary64.sub_le firstStands integerLeast small secondStands least below
    exact ⟨.real (first.sub second), left, computed, rounded, most⟩

end Number
end NetworkFlow
