import NetworkFlow.Proofs.Drawing.Sketching

namespace NetworkFlow

open ExactQuantity

namespace Binary64

/-- A rounding at most doubles a magnitude. -/
theorem two_mul_roundUnits_le (numerator : Nat) {denominator : Nat} (positive : 0 < denominator) :
    2 * roundUnits numerator denominator ≤ 3 * numerator + 1 := by
  obtain ⟨grid, equal⟩ : ∃ grid, grid = 2 ^ ((numerator / denominator).log2 - 52) := ⟨_, rfl⟩
  have fine : grid ≤ numerator + 1 := by
    rcases Nat.eq_zero_or_pos (numerator / denominator) with none | some
    · simp [equal, none]
    · calc grid ≤ 2 ^ (numerator / denominator).log2 := by
            rw [equal]
            exact Nat.pow_le_pow_right (by decide) (Nat.sub_le _ _)
        _ ≤ numerator / denominator := Nat.log2_self_le some.ne'
        _ ≤ numerator + 1 := (Nat.div_le_self _ _).trans (Nat.le_succ _)
  have scaled : 0 < denominator * grid :=
    Nat.mul_pos positive (equal ▸ Nat.two_pow_pos _)
  have near := (roundHalfEven_near scaled numerator).2
  have rounded : roundUnits numerator denominator =
      roundHalfEven numerator (denominator * grid) * grid := by
    rw [roundUnits, Nat.pow_eq, equal]
  rw [rounded]
  generalize roundHalfEven numerator (denominator * grid) = quotient at near ⊢
  by_contra more
  nlinarith

/-- The finite range goes far beyond the integers of 54 bits. -/
theorem two_pow_mul_unitsPerOne_lt : 2 ^ 54 * unitsPerOne < unitsLimit := by
  calc 2 ^ 54 * unitsPerOne = 2 ^ (54 + 1074) := by rw [unitsPerOne_eq, pow_add]
    _ < unitsLimit := Nat.pow_lt_pow_right (by decide) (by decide)

theorem isFinite_ofUnits (negative : Bool) {numerator denominator : Nat}
    (below : roundUnits numerator denominator < unitsLimit) :
    (ofUnits negative numerator denominator).isFinite := by
  simp only [ofUnits, below, if_true, isFinite]

/-- The nearest number to a quotient of integers is finite when the first has at most 53 bits. -/
theorem isFinite_quotient (negative : Bool) {numerator denominator : Nat}
    (small : numerator ≤ 2 ^ 53) (positive : 0 < denominator) :
    (ofUnits negative (numerator * unitsPerOne) denominator).isFinite := by
  apply isFinite_ofUnits
  have most : numerator * unitsPerOne ≤ 2 ^ 53 * unitsPerOne := Nat.mul_le_mul_right _ small
  have bound := two_mul_roundUnits_le (numerator * unitsPerOne) positive
  have limit := two_pow_mul_unitsPerOne_lt
  generalize numerator * unitsPerOne = units at most bound ⊢
  generalize unitsLimit = top at limit ⊢
  generalize unitsPerOne = unit at limit most
  omega

end Binary64

namespace Number

/-- A number is whole when it is an integer of at most 53 bits. -/
def Whole (number : Number) : Prop :=
  ∃ integer : Int, value? number = some (integer : Rat) ∧ integer.natAbs ≤ 2 ^ 53

theorem value?_real (value : Binary64) : value? (real value) = value.rational? :=
  rfl

theorem Whole.toBinary {number : Number} (whole : number.Whole) :
    ∃ binary, number.toBinary = .ok binary := by
  obtain ⟨integer, stands, small⟩ := whole
  obtain ⟨binary, converted, -⟩ := exact_toBinary stands small
  exact ⟨binary, converted⟩

theorem Whole.magnitude {number : Number} (whole : number.Whole) : number.magnitude.Whole := by
  obtain ⟨integer, stands, small⟩ := whole
  refine ⟨|integer|, ?_, by rwa [Int.natAbs_abs]⟩
  rw [Int.cast_abs]
  exact value?_magnitude stands

/-- A whole number may be divided by a positive one. -/
theorem Whole.exists_div {first second : Number} (whole : first.Whole) (wholeToo : second.Whole)
    (positive : (int 0).less second) :
    ∃ quotient : Binary64, first.div second = .ok (.real quotient) := by
  obtain ⟨one, converted⟩ := whole.toBinary
  obtain ⟨other, convertedToo⟩ := wholeToo.toBinary
  unfold div
  split
  · next left right counted counts =>
    obtain ⟨integer, stands, small⟩ := whole
    have same : integer = left := by
      have read : value? first = some (left : Rat) := by
        show first.rational? = _
        rw [rational?, counted]
      exact_mod_cast Option.some.inj (stands.symm.trans read)
    have above : 0 < right := by
      rw [less, counts] at positive
      exact of_decide_eq_true positive
    have finite := Binary64.isFinite_quotient (decide (left < 0) != decide (right < 0))
      (same ▸ small) (Int.natAbs_pos.mpr above.ne')
    exact ⟨_, by simp only [divInt, finite, if_true]; rfl⟩
  · exact ⟨one.div other, by rw [converted, convertedToo]; rfl⟩

end Number

namespace Drawing

open Number

/-- The text of a whole number can be written. -/
theorem exists_general {number : Number} (whole : number.Whole) :
    ∃ text, general number = .ok text := by
  obtain ⟨binary, converted⟩ := whole.toBinary
  exact ⟨binary.general, by rw [general, converted]; rfl⟩

theorem exists_flowLabel {edge : DrawnEdge Number} (flow : edge.flow.Whole)
    (upper : edge.upper.Whole) : ∃ text, flowLabel edge = .ok text := by
  obtain ⟨flowText, flows⟩ := exists_general flow
  obtain ⟨upperText, uppers⟩ := exists_general upper
  exact ⟨_, by rw [flowLabel, flows, ok_bind, uppers, ok_bind]; rfl⟩

/-- The largest magnitude is that of one of the edges. -/
theorem whole_largest {edges : List ((Text × Text) × DrawnEdge Number)}
    (flows : ∀ entry ∈ edges, entry.2.flow.Whole) : (largest edges).Whole := by
  have magnitudes : ∀ flow ∈ edges.map fun entry => entry.2.flow.magnitude, flow.Whole := by
    intro flow member
    obtain ⟨entry, listed, rfl⟩ := List.mem_map.mp member
    exact (flows entry listed).magnitude
  unfold largest
  split
  · have one := (Binary64.rational?_ofInt (show (1 : Int).natAbs ≤ 2 ^ 53 by decide)).2
    exact ⟨1, (value?_real _).trans one, by decide⟩
  · next first rest listed =>
    rw [listed] at magnitudes
    clear listed
    induction rest generalizing first with
    | nil => exact magnitudes first (by simp)
    | cons second rest inductionHypothesis =>
      refine inductionHypothesis _ fun flow member => ?_
      dsimp only at member
      rcases List.mem_cons.mp member with rfl | later
      · split
        · exact magnitudes second (by simp)
        · exact magnitudes first (by simp)
      · exact magnitudes flow (by simp [later])

/-- The width of an edge is computed from whole flows. -/
theorem exists_width {most flow : Number} (whole : flow.Whole) (wholeToo : most.Whole) :
    ∃ wide, checked (width most flow) = .ok wide := by
  unfold width
  dsimp only
  split
  · next positive =>
    obtain ⟨quotient, divided⟩ := whole.magnitude.exists_div wholeToo positive
    exact ⟨_, by rw [divided]; rfl⟩
  · exact ⟨_, rfl⟩

/-- A graph with whole flows and upper bounds can be drawn. -/
theorem drawable_of_whole {graph : DrawnGraph Number}
    (flows : ∀ entry ∈ graph.edgeList, entry.2.flow.Whole)
    (uppers : ∀ entry ∈ graph.edgeList, entry.2.upper.Whole) : Drawable graph :=
  ⟨fun entry member => exists_width (flows entry member) (whole_largest flows),
    fun entry member => exists_flowLabel (flows entry member) (uppers entry member)⟩

end Drawing
end NetworkFlow
