import NetworkFlow.Proofs.Arithmetic.Number

namespace NetworkFlow

open Quantity

section

variable {α : Type} [Quantity α]

theorem lesser_eq_or (first second : α) : lesser first second = first ∨
    lesser first second = second := by
  rw [lesser]
  split
  · exact Or.inr rfl
  · exact Or.inl rfl

theorem mem_foldl_lesser (first : α) (rest : List α) :
    rest.foldl lesser first ∈ first :: rest := by
  induction rest generalizing first with
  | nil => exact List.mem_singleton_self first
  | cons second rest inductionHypothesis =>
    rw [List.foldl_cons]
    rcases List.mem_cons.mp (inductionHypothesis (lesser first second)) with same | later
    · rw [same]
      rcases lesser_eq_or first second with left | right
      · simp [left]
      · simp [right]
    · exact List.mem_cons_of_mem _ (List.mem_cons_of_mem _ later)

/-- The least quantity of a list is one of its members. -/
theorem mem_of_least? {quantities : List α} {least : α} (found : least? quantities = some least) :
    least ∈ quantities := by
  cases quantities with
  | nil => cases found
  | cons first rest =>
    rw [← Option.some.inj found]
    exact mem_foldl_lesser first rest

end

/-- A rank is a number of units, or lies below or above all of them. -/
abbrev Rank : Type := WithBot (WithTop Int)

/-- The rank of a number of units. -/
def Rank.ofUnits (units : Int) : Rank := ((units : WithTop Int) : Rank)

namespace Rank

theorem ofUnits_lt {left right : Int} : ofUnits left < ofUnits right ↔ left < right := by
  rw [ofUnits, ofUnits, WithBot.coe_lt_coe, WithTop.coe_lt_coe]

theorem ofUnits_inj {left right : Int} : ofUnits left = ofUnits right ↔ left = right := by
  rw [ofUnits, ofUnits, WithBot.coe_inj, WithTop.coe_inj]

theorem bot_lt_ofUnits (units : Int) : ⊥ < ofUnits units := WithBot.bot_lt_coe _

theorem ofUnits_lt_top (units : Int) : ofUnits units < ⊤ :=
  WithBot.coe_lt_coe.mpr (WithTop.coe_lt_top units)

end Rank

/-- Two optional ranks are in an order when both are ranks and their order is that. -/
def Ranked (order : Rank → Rank → Prop) (first second : Option Rank) : Prop :=
  ∃ left right, first = some left ∧ second = some right ∧ order left right

namespace Binary64

/-- The rank of a binary64 number. -/
def rank? : Binary64 → Option Rank
  | .nan => none
  | .infinity negative => some (if negative then ⊥ else ⊤)
  | .finite negative units => some (.ofUnits (signed negative units))

/-- A binary64 number is less than another when both have a rank and its rank is less. -/
theorem less_iff_rank {first second : Binary64} :
    first.less second = true ↔ Ranked (· < ·) first.rank? second.rank? := by
  unfold Ranked
  cases first with
  | nan => simp [less, rank?]
  | infinity negative =>
    cases second with
    | nan => simp [less, rank?]
    | infinity other => cases negative <;> cases other <;> simp [less, rank?]
    | finite other units => cases negative <;> simp [less, rank?, Rank.bot_lt_ofUnits]
  | finite negative units =>
    cases second with
    | nan => simp [less, rank?]
    | infinity other => cases other <;> simp [less, rank?, Rank.ofUnits_lt_top]
    | finite other more => simp [less, rank?, Rank.ofUnits_lt]

theorem same_iff_rank {first second : Binary64} :
    first.same second = true ↔ Ranked (· = ·) first.rank? second.rank? := by
  unfold Ranked
  cases first with
  | nan => simp [same, rank?]
  | infinity negative =>
    cases second with
    | nan => simp [same, rank?]
    | infinity other => cases negative <;> cases other <;> simp [same, rank?]
    | finite other units =>
      cases negative <;> simp [same, rank?, (Rank.bot_lt_ofUnits _).ne, (Rank.ofUnits_lt_top _).ne']
  | finite negative units =>
    cases second with
    | nan => simp [same, rank?]
    | infinity other =>
      cases other <;> simp [same, rank?, (Rank.bot_lt_ofUnits _).ne', (Rank.ofUnits_lt_top _).ne]
    | finite other more => simp [same, rank?, Rank.ofUnits_inj]

end Binary64

namespace Number

open Binary64

/-- An integer as a number of units, which may have too many bits for binary64. -/
def unrounded (number : Number) : Binary64 :=
  match number.value with
  | .inl value => .finite (value < 0) (value.natAbs * unitsPerOne)
  | .inr binary => binary

/-- The order between the kinds is that of the units. -/
theorem less_eq_unrounded (first second : Number) :
    first.less second = first.unrounded.less second.unrounded := by
  unfold less unrounded
  rcases first.value with left | left <;> rcases second.value with right | right
  · have positive : (0 : Int) < unitsPerOne := Int.natCast_pos.mpr unitsPerOne_pos
    simp only [Binary64.less, signed_natAbs]
    exact decide_eq_decide.mpr (mul_lt_mul_iff_left₀ positive).symm
  · cases right <;> simp only [intLess, Binary64.less, signed_natAbs]
  · cases left <;> simp only [lessInt, Binary64.less, signed_natAbs]
  · rfl

theorem same_eq_unrounded (first second : Number) :
    first.same second = first.unrounded.same second.unrounded := by
  unfold same unrounded
  rcases first.value with left | left <;> rcases second.value with right | right
  · have nonzero : (unitsPerOne : Int) ≠ 0 := Int.natCast_ne_zero.mpr unitsPerOne_pos.ne'
    simp only [Binary64.same, signed_natAbs]
    rw [Bool.eq_iff_iff, beq_iff_eq, beq_iff_eq, mul_left_inj' nonzero]
  · cases right <;> simp only [sameInt, Binary64.same, signed_natAbs]
    exact BEq.comm
  · cases left <;> simp only [sameInt, Binary64.same, signed_natAbs]
  · rfl

def rank? (number : Number) : Option Rank :=
  number.unrounded.rank?

/-- A number is less than another when both have a rank and its rank is less. -/
theorem less_iff_rank {first second : Number} :
    less first second = true ↔ Ranked (· < ·) first.rank? second.rank? := by
  rw [less_eq_unrounded, Binary64.less_iff_rank, rank?, rank?]

theorem lessEq_iff_rank {first second : Number} :
    lessEq first second = true ↔ Ranked (· ≤ ·) first.rank? second.rank? := by
  rw [lessEq, Bool.or_eq_true, less_iff_rank, same_eq_unrounded, Binary64.same_iff_rank]
  constructor
  · rintro (⟨left, right, ranked, rankedToo, less⟩ | ⟨left, right, ranked, rankedToo, same⟩)
    · exact ⟨left, right, ranked, rankedToo, less.le⟩
    · exact ⟨left, right, ranked, rankedToo, same.le⟩
  · rintro ⟨left, right, ranked, rankedToo, most⟩
    rcases most.lt_or_eq with less | same
    · exact Or.inl ⟨left, right, ranked, rankedToo, less⟩
    · exact Or.inr ⟨left, right, ranked, rankedToo, same⟩

/-- What is at most another number is not above it. -/
theorem not_less_of_lessEq {first second : Number} (ordered : lessEq first second = true) :
    less second first = false := by
  obtain ⟨left, right, ranked, rankedToo, most⟩ := lessEq_iff_rank.mp ordered
  rw [Bool.eq_false_iff]
  intro above
  obtain ⟨high, low, highest, lowest, beyond⟩ := less_iff_rank.mp above
  obtain rfl := Option.some.inj (rankedToo.symm.trans highest)
  obtain rfl := Option.some.inj (ranked.symm.trans lowest)
  exact absurd beyond (not_lt.mpr most)

theorem lessEq_trans {first second third : Number} (left : lessEq first second = true)
    (right : lessEq second third = true) : lessEq first third = true := by
  obtain ⟨low, middle, lowest, shared, below⟩ := lessEq_iff_rank.mp left
  obtain ⟨other, high, same, highest, above⟩ := lessEq_iff_rank.mp right
  obtain rfl := Option.some.inj (shared.symm.trans same)
  exact lessEq_iff_rank.mpr ⟨low, high, lowest, highest, below.trans above⟩

/-- Of two numbers with a rank the lesser one exceeds neither. -/
theorem lesser_lessEq {first second : Number} {left right : Rank}
    (ranked : first.rank? = some left) (rankedToo : second.rank? = some right) :
    lessEq (lesser first second) first = true ∧ lessEq (lesser first second) second = true := by
  rw [lesser]
  split
  · next smaller =>
    obtain ⟨low, high, lowest, highest, less⟩ := less_iff_rank.mp smaller
    exact ⟨lessEq_iff_rank.mpr ⟨low, high, lowest, highest, less.le⟩,
      lessEq_iff_rank.mpr ⟨right, right, rankedToo, rankedToo, le_rfl⟩⟩
  · next larger =>
    have most : left ≤ right := by
      by_contra less
      exact larger (less_iff_rank.mpr ⟨right, left, rankedToo, ranked, not_le.mp less⟩)
    exact ⟨lessEq_iff_rank.mpr ⟨left, left, ranked, ranked, le_rfl⟩,
      lessEq_iff_rank.mpr ⟨left, right, ranked, rankedToo, most⟩⟩

theorem foldl_lesser_lessEq {first : Number} {rest : List Number}
    (ranked : ∀ number ∈ first :: rest, ∃ rank, number.rank? = some rank) :
    ∀ number ∈ first :: rest, lessEq (rest.foldl lesser first) number = true := by
  induction rest generalizing first with
  | nil =>
    obtain ⟨rank, known⟩ := ranked first (by simp)
    intro number member
    obtain rfl := List.mem_singleton.mp member
    exact lessEq_iff_rank.mpr ⟨rank, rank, known, known, le_rfl⟩
  | cons second rest inductionHypothesis =>
    obtain ⟨left, known⟩ := ranked first (by simp)
    obtain ⟨right, knownToo⟩ := ranked second (by simp)
    obtain ⟨belowFirst, belowSecond⟩ := lesser_lessEq known knownToo
    have stays : ∀ number ∈ lesser first second :: rest, ∃ rank, number.rank? = some rank := by
      intro number member
      rcases List.mem_cons.mp member with rfl | later
      · rcases lesser_eq_or first second with same | same
        · exact ⟨left, by rw [same, known]⟩
        · exact ⟨right, by rw [same, knownToo]⟩
      · exact ranked number (by simp [later])
    have least := inductionHypothesis stays
    have below := least (lesser first second) (by simp)
    intro number member
    simp only [List.mem_cons] at member
    rcases member with rfl | rfl | later
    · exact lessEq_trans below belowFirst
    · exact lessEq_trans below belowSecond
    · exact least number (by simp [later])

/-- The least of several numbers with a rank exceeds none of them. -/
theorem lessEq_of_least? {numbers : List Number} {least : Number}
    (found : least? numbers = some least)
    (ranked : ∀ number ∈ numbers, ∃ rank, number.rank? = some rank) :
    ∀ number ∈ numbers, lessEq least number = true := by
  cases numbers with
  | nil => cases found
  | cons first rest =>
    rw [← Option.some.inj found]
    exact foldl_lesser_lessEq ranked

end Number
end NetworkFlow
