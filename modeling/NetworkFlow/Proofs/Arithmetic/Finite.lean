import NetworkFlow.Proofs.Arithmetic.Rounding

namespace NetworkFlow

open Quantity ExactQuantity Binary64

namespace Binary64

/-- Only finite numbers have a finite sum. -/
theorem isFinite_of_add {first second : Binary64} (finite : (first.add second).isFinite = true) :
    first.isFinite = true ∧ second.isFinite = true := by
  cases first with
  | nan => cases finite
  | infinity negative =>
    cases second with
    | nan => cases finite
    | infinity sign =>
      rw [add] at finite
      split at finite <;> cases finite
    | finite sign units => cases finite
  | finite negative units =>
    cases second with
    | nan => cases finite
    | infinity sign => cases finite
    | finite sign count => exact ⟨rfl, rfl⟩

theorem signed_false (units : Nat) : signed false units = units := rfl

theorem ofInt_natCast (value : Nat) :
    Binary64.ofInt (value : Int) = ofUnits false (value * unitsPerOne) 1 := by
  have sign : decide ((value : Int) < 0) = false := decide_eq_false (by omega)
  rw [Binary64.ofInt, sign, Int.natAbs_natCast]

/-- A rounding below the limit of the units is finite. -/
theorem ofUnits_of_lt (negative : Bool) {numerator : Nat}
    (small : roundUnits numerator 1 < unitsLimit) :
    ofUnits negative numerator 1 = .finite negative (roundUnits numerator 1) := by
  rw [ofUnits, if_pos small]

/-- What is left of a finite number that is not below zero is finite when it is not below zero. -/
theorem sub_nonneg {negative sign : Bool} {units taken : Nat}
    (first : signed negative units = units) (second : signed sign taken = taken)
    (most : taken ≤ units) (format : roundUnits units 1 = units) (small : units < unitsLimit) :
    ∃ side rest, (finite negative units).sub (finite sign taken) = .finite side rest ∧
      signed side rest = rest ∧ roundUnits rest 1 = rest ∧ rest < unitsLimit := by
  have total : signed negative units + signed (!sign) taken = (units - taken : Nat) := by
    rw [signed_not, first, second]
    omega
  have none : roundUnits 0 1 = 0 := roundUnits_of_dvd (dvd_zero _)
  by_cases same : ((units - taken : Nat) : Int) = 0
  · refine ⟨negative && !sign, 0, ?_, ?_, none, (Nat.zero_le _).trans_lt small⟩
    · simp only [sub, neg, add, total, if_pos same]
    · cases negative && !sign <;> rfl
  · have least : roundUnits (units - taken) 1 ≤ units :=
      (roundUnits_mono (Nat.sub_le units taken)).trans format.le
    have plus : decide (((units - taken : Nat) : Int) < 0) = false := decide_eq_false (by omega)
    refine ⟨false, roundUnits (units - taken) 1, ?_, signed_false _, roundUnits_roundUnits _,
      least.trans_lt small⟩
    simp only [sub, neg, add, total, if_neg same, plus, Int.natAbs_natCast,
      ofUnits_of_lt false (least.trans_lt small)]

theorem isFinite_neg (number : Binary64) : number.neg.isFinite = number.isFinite := by
  cases number <;> rfl

end Binary64

namespace Number

/-- A number is in the format unless it is a count of units that binary64 does not hold.
Reading a numeral and taking a sum both end in a rounding, which gives what binary64 holds. -/
def InFormat : Number → Prop
  | .real number => number.InFormat
  | _ => True

/-- A number that is finite and not below zero weighs its units before any rounding. -/
structure Weighs (number : Number) (weight : Nat) : Prop where
  kind : (∃ value : Nat, number.value = .inl (value : Int) ∧ weight = value * unitsPerOne) ∨
    ∃ negative, number.value = .inr (.finite negative weight) ∧
      signed negative weight = weight ∧ roundUnits weight 1 = weight
  small : roundUnits weight 1 < unitsLimit

/-- An integer is near a binary64 number when that one is finite. -/
theorem toBinary_of_inl {number : Number} {value : Int} {binary : Binary64}
    (kind : number.value = .inl value) (near : Binary64.ofInt value = binary)
    (finite : binary.isFinite = true) : number.toBinary = .ok binary := by
  rw [Number.toBinary, kind]
  dsimp only
  rw [near, if_pos finite]

theorem toBinary_of_inr {number : Number} {binary : Binary64}
    (kind : number.value = .inr binary) : number.toBinary = .ok binary := by
  rw [Number.toBinary, kind]

/-- Two numbers of which one is rounded have a rounded result. -/
theorem combine_of_inr {exact : Int → Int → Int} {rounded : Binary64 → Binary64 → Binary64}
    {first second : Number}
    (kind : (∃ binary, first.value = .inr binary) ∨ ∃ binary, second.value = .inr binary) :
    combine exact rounded first second =
      (do return .real (rounded (← first.toBinary) (← second.toBinary))) := by
  rw [combine]
  rcases kind with ⟨binary, kind⟩ | ⟨binary, kind⟩
  · rw [kind]
  · rw [kind]
    cases first.value <;> rfl

namespace Weighs

variable {number first second : Number} {weight left right : Nat}

/-- The nearest binary64 number has the rounded weight. -/
theorem toBinary (weighs : number.Weighs weight) :
    ∃ negative, number.toBinary = .ok (.finite negative (roundUnits weight 1)) ∧
      signed negative (roundUnits weight 1) = roundUnits weight 1 := by
  have small := weighs.small
  rcases weighs.kind with ⟨value, kind, equal⟩ | ⟨negative, kind, sign, format⟩
  · refine ⟨false, ?_, signed_false _⟩
    have rounded : Binary64.ofInt (value : Int) = .finite false (roundUnits weight 1) := by
      rw [ofInt_natCast, ← equal, ofUnits_of_lt false small]
    exact toBinary_of_inl kind rounded rfl
  · refine ⟨negative, ?_, by rw [format, sign]⟩
    rw [toBinary_of_inr kind, format]

theorem isFinite (weighs : number.Weighs weight) : Quantity.isFinite number = .ok true := by
  obtain ⟨negative, computed, -⟩ := weighs.toBinary
  change (Number.isFinite number).mapError Fault.overflow = .ok true
  simp only [Number.isFinite, computed]
  rfl

/-- Weights are ordered as the numbers are. -/
theorem less_iff (leftWeighs : first.Weighs left) (rightWeighs : second.Weighs right) :
    Number.less first second = true ↔ left < right := by
  rcases leftWeighs.kind with ⟨value, kind, equal⟩ | ⟨negative, kind, sign, -⟩
  · rcases rightWeighs.kind with ⟨other, kindToo, equalToo⟩ | ⟨negative, kindToo, sign, -⟩
    · rw [Number.less, kind, kindToo, equal, equalToo, Nat.mul_lt_mul_right unitsPerOne_pos]
      dsimp only
      rw [decide_eq_true_iff, Nat.cast_lt]
    · rw [Number.less, kind, kindToo]
      dsimp only
      rw [intLess, sign, equal, decide_eq_true_iff, ← Nat.cast_mul, Nat.cast_lt]
  · rcases rightWeighs.kind with ⟨other, kindToo, equalToo⟩ | ⟨negative', kindToo, signToo, -⟩
    · rw [Number.less, kind, kindToo]
      dsimp only
      rw [lessInt, sign, equalToo, decide_eq_true_iff, ← Nat.cast_mul, Nat.cast_lt]
    · rw [Number.less, kind, kindToo]
      dsimp only
      rw [Binary64.less, sign, signToo, decide_eq_true_iff, Nat.cast_lt]

theorem zero : (Quantity.zero : Number).Weighs 0 := by
  have none : roundUnits 0 1 = 0 := roundUnits_of_dvd (dvd_zero _)
  exact ⟨Or.inr ⟨false, rfl, rfl, none⟩, none.symm ▸ unitsLimit_pos⟩

theorem ofInt_zero : (Quantity.ofInt 0 : Number).Weighs 0 :=
  ⟨Or.inl ⟨0, rfl, (Nat.zero_mul _).symm⟩, Weighs.zero.small⟩

/-- A number that weighs something is not below zero. -/
theorem isNegative (weighs : number.Weighs weight) : Quantity.isNegative number = false := by
  change Number.less number (Quantity.ofInt 0) = false
  rw [Bool.eq_false_iff, Ne, weighs.less_iff ofInt_zero]
  omega

theorem not_less_zero (weighs : number.Weighs weight) :
    Quantity.less number Quantity.zero = false := by
  change Number.less number Quantity.zero = false
  rw [Bool.eq_false_iff, Ne, weighs.less_iff Weighs.zero]
  omega

/-- What is left of a bound weighs something. -/
theorem sub (leftWeighs : first.Weighs left) (rightWeighs : second.Weighs right)
    (most : right ≤ left) :
    ∃ rest weight, Number.sub first second = .ok rest ∧ rest.Weighs weight := by
  obtain ⟨negative, firstBinary, firstSign⟩ := leftWeighs.toBinary
  obtain ⟨sign, secondBinary, secondSign⟩ := rightWeighs.toBinary
  obtain ⟨side, rest, computed, restSign, format, small⟩ := Binary64.sub_nonneg firstSign
    secondSign (roundUnits_mono most) (roundUnits_roundUnits left) leftWeighs.small
  have real : (Number.real (.finite side rest)).Weighs rest :=
    ⟨Or.inr ⟨side, rfl, restSign, format⟩, format.symm ▸ small⟩
  have rounds (kind : (∃ binary, first.value = .inr binary) ∨
      ∃ binary, second.value = .inr binary) :
      Number.sub first second = .ok (.real (.finite side rest)) := by
    rw [Number.sub, combine_of_inr kind, firstBinary, secondBinary, ok_bind, ok_bind, computed]
    rfl
  rcases leftWeighs.kind with ⟨value, kind, equal⟩ | ⟨_, kind, -, -⟩
  · rcases rightWeighs.kind with ⟨other, kindToo, equalToo⟩ | ⟨_, kindToo, -, -⟩
    · have ordered : other ≤ value := by
        rw [equal, equalToo] at most
        exact Nat.le_of_mul_le_mul_right most unitsPerOne_pos
      have less : (value - other) * unitsPerOne ≤ left := by
        rw [equal]
        exact Nat.mul_le_mul_right _ (Nat.sub_le value other)
      refine ⟨.int (value - other : Nat), (value - other) * unitsPerOne, ?_,
        Or.inl ⟨value - other, rfl, rfl⟩, (roundUnits_mono less).trans_lt leftWeighs.small⟩
      rw [Number.sub, Number.combine, kind, kindToo]
      dsimp only
      rw [Nat.cast_sub ordered]
    · exact ⟨_, rest, rounds (Or.inr ⟨_, kindToo⟩), real⟩
  · exact ⟨_, rest, rounds (Or.inl ⟨_, kind⟩), real⟩

end Weighs

/-- The binary64 zero is at most the integer zero. -/
theorem zero_lessEq : Quantity.lessEq (Quantity.zero : Number) (Quantity.ofInt 0) = true := by
  change Number.lessEq (.real .zero) (.int 0) = true
  rw [Number.lessEq, Number.less, Number.same]
  simp only [Number.value, Binary64.zero, lessInt, sameInt, signed_false, zero_mul]
  rfl

/-- A finite number is near a finite binary64 number. -/
theorem toBinary_of_isFinite {number : Number} (finite : Quantity.isFinite number = .ok true) :
    ∃ negative units, number.toBinary = .ok (.finite negative units) := by
  change (Number.isFinite number).mapError Fault.overflow = .ok true at finite
  cases computed : number.toBinary with
  | error fault =>
    simp only [Number.isFinite, computed] at finite
    cases finite
  | ok binary =>
    simp only [Number.isFinite, computed] at finite
    cases binary with
    | nan => cases finite
    | infinity negative => cases finite
    | finite negative units => exact ⟨negative, units, rfl⟩

/-- A natural number that is near a finite binary64 number weighs its units. -/
theorem weighs_of_inl {number : Number} {value : Nat} {negative : Bool} {units : Nat}
    (kind : number.value = .inl (value : Int))
    (near : number.toBinary = .ok (.finite negative units)) :
    number.Weighs (value * unitsPerOne) := by
  refine ⟨Or.inl ⟨value, kind, rfl⟩, ?_⟩
  cases ofUnits_eq false (value * unitsPerOne) 1 with
  | inl finite => exact finite.1
  | inr infinite =>
    rw [Number.toBinary, kind] at near
    dsimp only at near
    rw [ofInt_natCast, infinite] at near
    cases near

/-- A finite number in the format that is not below zero weighs something. -/
theorem exists_weighs {number : Number} (inFormat : number.InFormat)
    (finite : Quantity.isFinite number = .ok true) (nonneg : isNegative number = false) :
    ∃ weight, number.Weighs weight := by
  obtain ⟨negative, units, near⟩ := toBinary_of_isFinite finite
  cases number with
  | int value =>
    have least : 0 ≤ value := not_lt.mp (of_decide_eq_false nonneg)
    obtain ⟨value, rfl⟩ := Int.eq_ofNat_of_zero_le least
    exact ⟨_, weighs_of_inl rfl near⟩
  | truth value =>
    have kind : (Number.truth value).value = .inl (value.toNat : Int) := by cases value <;> rfl
    exact ⟨_, weighs_of_inl kind near⟩
  | real binary =>
    obtain rfl : binary = .finite negative units := Except.ok.inj near
    have least : 0 ≤ signed negative units := by
      have below : ¬signed negative units < 0 * unitsPerOne := of_decide_eq_false nonneg
      rwa [zero_mul, not_lt] at below
    have sign : signed negative units = units := by
      cases negative with
      | false => rfl
      | true =>
        simp only [signed, if_true] at least ⊢
        omega
    cases inFormat with
    | finite _ rounded small =>
      exact ⟨units, Or.inr ⟨negative, rfl, sign, rounded⟩, rounded.symm ▸ small⟩

/-- A rounded result was computed from the nearest binary64 numbers. -/
theorem combine_eq_ok {exact : Int → Int → Int} {rounded : Binary64 → Binary64 → Binary64}
    {first second total : Number}
    (kind : (∃ binary, first.value = .inr binary) ∨ ∃ binary, second.value = .inr binary)
    (computed : combine exact rounded first second = .ok total) :
    ∃ left right, first.toBinary = .ok left ∧ second.toBinary = .ok right ∧
      total = .real (rounded left right) := by
  rw [combine_of_inr kind] at computed
  obtain ⟨left, near, computed⟩ := ok_of_bind computed
  obtain ⟨right, nearToo, computed⟩ := ok_of_bind computed
  exact ⟨left, right, near, nearToo, (Except.ok.inj computed).symm⟩

/-- The sum of quantities is the sum of the numbers. -/
theorem add_eq_ok {first second total : Number} :
    Quantity.add first second = .ok total ↔ Number.add first second = .ok total := by
  change (Number.add first second).mapError Fault.overflow = .ok total ↔ _
  cases Number.add first second with
  | error fault => exact ⟨nofun, nofun⟩
  | ok value => exact ⟨fun equal => congrArg _ (Except.ok.inj equal),
      fun equal => congrArg _ (Except.ok.inj equal)⟩

theorem sub_eq_ok {first second total : Number} :
    Quantity.sub first second = .ok total ↔ Number.sub first second = .ok total := by
  change (Number.sub first second).mapError Fault.overflow = .ok total ↔ _
  cases Number.sub first second with
  | error fault => exact ⟨nofun, nofun⟩
  | ok value => exact ⟨fun equal => congrArg _ (Except.ok.inj equal),
      fun equal => congrArg _ (Except.ok.inj equal)⟩

/-- An unbounded number is a rounded one that is not finite. -/
def IsUnbounded (number : Number) : Prop :=
  ∃ binary, number = .real binary ∧ binary.isFinite = false

/-- What is computed with an unbounded number is unbounded,
when only finite numbers have a finite result. -/
theorem IsUnbounded.combine {exact : Int → Int → Int} {rounded : Binary64 → Binary64 → Binary64}
    {first second total : Number} (unbounded : first.IsUnbounded ∨ second.IsUnbounded)
    (bounded : ∀ {left right : Binary64}, (rounded left right).isFinite = true →
      left.isFinite = true ∧ right.isFinite = true)
    (computed : Number.combine exact rounded first second = .ok total) : total.IsUnbounded := by
  have kind : (∃ binary, first.value = .inr binary) ∨ ∃ binary, second.value = .inr binary :=
    unbounded.imp (fun ⟨binary, equal, _⟩ => ⟨binary, equal ▸ rfl⟩)
      fun ⟨binary, equal, _⟩ => ⟨binary, equal ▸ rfl⟩
  obtain ⟨left, right, near, nearToo, rfl⟩ := combine_eq_ok kind computed
  refine ⟨_, rfl, ?_⟩
  by_contra finite
  obtain ⟨leftFinite, rightFinite⟩ := bounded (Bool.not_eq_false _ ▸ finite)
  rcases unbounded with ⟨binary, rfl, infinite⟩ | ⟨binary, rfl, infinite⟩
  · obtain rfl := Except.ok.inj near
    rw [leftFinite] at infinite
    cases infinite
  · obtain rfl := Except.ok.inj nearToo
    rw [rightFinite] at infinite
    cases infinite

theorem IsUnbounded.add {first second total : Number}
    (unbounded : first.IsUnbounded ∨ second.IsUnbounded)
    (added : Quantity.add first second = .ok total) : total.IsUnbounded :=
  combine unbounded isFinite_of_add (add_eq_ok.mp added)

theorem IsUnbounded.sub {first second total : Number}
    (unbounded : first.IsUnbounded ∨ second.IsUnbounded)
    (subtracted : Quantity.sub first second = .ok total) : total.IsUnbounded := by
  apply combine unbounded ?_ (sub_eq_ok.mp subtracted)
  intro left right finite
  rw [← isFinite_neg right]
  exact isFinite_of_add finite

theorem IsUnbounded.neg {number : Number} (unbounded : number.IsUnbounded) :
    (Quantity.neg number).IsUnbounded := by
  obtain ⟨binary, rfl, infinite⟩ := unbounded
  exact ⟨binary.neg, rfl, (isFinite_neg binary).trans infinite⟩

/-- The magnitude of an unbounded number is at most no finite number. -/
theorem IsUnbounded.not_lessEq {number bound : Number} (unbounded : number.IsUnbounded)
    (finite : Quantity.isFinite bound = .ok true) :
    Quantity.lessEq (Quantity.magnitude number) bound = false := by
  obtain ⟨binary, rfl, infinite⟩ := unbounded
  obtain ⟨negative, units, near⟩ := toBinary_of_isFinite finite
  change (Number.less (.real binary.magnitude) bound ||
    Number.same (.real binary.magnitude) bound) = false
  cases binary with
  | finite sign count => cases infinite
  | nan => cases bound <;> rfl
  | infinity sign =>
    cases bound with
    | int value => rfl
    | truth value => rfl
    | real other =>
      obtain rfl := Except.ok.inj near
      rfl

/-- A sum of terms of which one is unbounded is unbounded. -/
theorem IsUnbounded.sum {terms : List Number} {term total : Number} (unbounded : term.IsUnbounded)
    (member : term ∈ terms) (summed : Quantity.sum terms = .ok total) : total.IsUnbounded :=
  foldlM_absorbs IsUnbounded IsUnbounded (fun some added => IsUnbounded.add some added)
    (Or.inr ⟨term, member, unbounded⟩) summed

/-- A stable number is a rounded one that adding zero gives back. -/
def IsStable (number : Number) : Prop :=
  ∃ binary, number = .real binary ∧ binary.IsStable

theorem isStable_zero : IsStable Quantity.zero := ⟨_, rfl, Binary64.isStable_zero⟩

theorem IsStable.add_zero {number : Number} (stable : number.IsStable) :
    Quantity.add number Quantity.zero = .ok number := by
  obtain ⟨binary, rfl, stays⟩ := stable
  exact congrArg (fun total => Except.ok (Number.real total)) stays.add_zero

/-- What is computed from a stable number and a finite number is stable. -/
theorem IsStable.combine {exact : Int → Int → Int} {rounded : Binary64 → Binary64 → Binary64}
    {first second total : Number} (stable : first.IsStable)
    (finite : Quantity.isFinite second = .ok true)
    (keeps : ∀ {left right : Binary64}, left.IsStable → right.isFinite = true →
      (rounded left right).IsStable)
    (computed : Number.combine exact rounded first second = .ok total) : total.IsStable := by
  obtain ⟨binary, rfl, stays⟩ := stable
  obtain ⟨negative, units, bounded⟩ := toBinary_of_isFinite finite
  obtain ⟨left, right, near, nearToo, rfl⟩ := combine_eq_ok (Or.inl ⟨binary, rfl⟩) computed
  obtain rfl := Except.ok.inj near
  obtain rfl := Except.ok.inj (bounded.symm.trans nearToo)
  exact ⟨_, rfl, keeps stays rfl⟩

theorem IsStable.add {first second total : Number} (stable : first.IsStable)
    (finite : Quantity.isFinite second = .ok true)
    (added : Quantity.add first second = .ok total) : total.IsStable :=
  stable.combine finite Binary64.IsStable.add (add_eq_ok.mp added)

theorem IsStable.sub {first second total : Number} (stable : first.IsStable)
    (finite : Quantity.isFinite second = .ok true)
    (subtracted : Quantity.sub first second = .ok total) : total.IsStable := by
  apply stable.combine finite ?_ (sub_eq_ok.mp subtracted)
  intro left right stays bounded
  exact stays.add ((isFinite_neg right).trans bounded)

/-- A finite binary64 number and a stable number have a stable sum. -/
theorem IsStable.real_add {binary : Binary64} {second total : Number} (stable : second.IsStable)
    (finite : binary.isFinite = true)
    (added : Quantity.add (.real binary) second = .ok total) : total.IsStable := by
  obtain ⟨other, rfl, stays⟩ := stable
  obtain rfl := Except.ok.inj added
  exact ⟨_, rfl, Binary64.add_comm binary other ▸ stays.add finite⟩

/-- A stable number that is not finite has a sign. -/
theorem IsStable.isFinite_or {number : Number} (stable : number.IsStable) :
    Quantity.isFinite number = .ok true ∨
      number.IsUnbounded ∧ (isPositive number = true ∨ isNegative number = true) := by
  obtain ⟨binary, rfl, stays⟩ := stable
  cases binary with
  | nan => exact absurd rfl stays.ne_nan
  | infinity negative => cases negative <;> exact Or.inr ⟨⟨_, rfl, rfl⟩, by decide⟩
  | finite negative units => exact Or.inl rfl

end Number
end NetworkFlow
