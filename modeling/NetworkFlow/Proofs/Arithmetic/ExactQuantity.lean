import NetworkFlow.Edge
import Mathlib.Tactic

namespace NetworkFlow

open Quantity

theorem ok_bind {ε β γ : Type} (value : β) (next : β → Except ε γ) :
    (Except.ok value >>= next) = next value := rfl

theorem error_bind {ε β γ : Type} (fault : ε) (next : β → Except ε γ) :
    (Except.error fault >>= next) = Except.error fault := rfl

theorem throw_bind {ε β γ : Type} (fault : ε) (next : β → Except ε γ) :
    ((throw fault : Except ε β) >>= next) = Except.error fault := rfl

/-- A computation that gives a result computed its first part. -/
theorem ok_of_bind {ε β γ : Type} {first : Except ε β} {next : β → Except ε γ} {result : γ}
    (computed : first >>= next = .ok result) :
    ∃ value, first = .ok value ∧ next value = .ok result := by
  cases first with
  | error fault => cases computed
  | ok value => exact ⟨value, rfl, computed⟩

theorem ok_of_map {ε β γ : Type} {first : Except ε β} {change : β → γ} {result : γ}
    (computed : first.map change = .ok result) :
    ∃ value, first = .ok value ∧ change value = result := by
  cases first with
  | error fault => cases computed
  | ok value => exact ⟨value, rfl, Except.ok.inj computed⟩

theorem ok_of_toOption {ε β : Type} {outcome : Except ε β} {value : β}
    (computed : outcome.toOption = some value) : outcome = .ok value := by
  cases outcome with
  | error fault => cases computed
  | ok other => exact congrArg Except.ok (Option.some.inj computed)

/-- What each step that succeeds keeps holds at the end of a loop. -/
theorem foldlM_induction {ι β ε : Type} {step : β → ι → Except ε β} {items : List ι}
    {start finish : β} (invariant : List ι → β → Prop) (holds : invariant [] start)
    (further : ∀ {done item before after}, invariant done before →
      step before item = .ok after → invariant (done ++ [item]) after)
    (folded : items.foldlM step start = .ok finish) : invariant items finish := by
  induction items using List.reverseRecOn generalizing finish with
  | nil =>
    rw [← Except.ok.inj folded]
    exact holds
  | append_singleton done item inductionHypothesis =>
    rw [List.foldlM_append] at folded
    obtain ⟨before, first, folded⟩ := ok_of_bind folded
    rw [List.foldlM_cons] at folded
    obtain ⟨after, stepped, last⟩ := ok_of_bind folded
    rw [← Except.ok.inj last]
    exact further (inductionHypothesis first) stepped

/-- A property that every marked item brings and every step keeps holds at the end of a loop. -/
theorem foldlM_absorbs {ι β ε : Type} {step : β → ι → Except ε β} {items : List ι}
    {start finish : β} (holds : β → Prop) (marked : ι → Prop)
    (absorbs : ∀ {before item after}, holds before ∨ marked item →
      step before item = .ok after → holds after)
    (some : holds start ∨ ∃ item ∈ items, marked item)
    (folded : items.foldlM step start = .ok finish) : holds finish := by
  induction items generalizing start with
  | nil =>
    rw [← Except.ok.inj folded]
    rcases some with started | ⟨_, member, _⟩
    · exact started
    · cases member
  | cons first rest inductionHypothesis =>
    rw [List.foldlM_cons] at folded
    obtain ⟨next, stepped, folded⟩ := ok_of_bind folded
    apply inductionHypothesis ?_ folded
    rcases some with started | ⟨item, member, mark⟩
    · exact Or.inl (absorbs (Or.inl started) stepped)
    · rcases List.mem_cons.mp member with rfl | later
      · exact Or.inl (absorbs (Or.inr mark) stepped)
      · exact Or.inr ⟨item, later, mark⟩

/-- A loop ends when each of its steps does, from what the steps before it keep. -/
theorem foldlM_exists {ι β ε : Type} {step : β → ι → Except ε β} {items : List ι} {start : β}
    (holds : β → Prop) (started : holds start)
    (further : ∀ {before}, ∀ item ∈ items, holds before →
      ∃ after, step before item = .ok after ∧ holds after) :
    ∃ finish, items.foldlM step start = .ok finish ∧ holds finish := by
  induction items generalizing start with
  | nil => exact ⟨start, rfl, started⟩
  | cons first rest inductionHypothesis =>
    obtain ⟨next, stepped, kept⟩ := further first (by simp) started
    rw [List.foldlM_cons, stepped, ok_bind]
    exact inductionHypothesis kept fun item member => further item (by simp [member])

/-- What follows a check is computed when the check refuses nothing. -/
theorem guard_eq_ok {ε β γ : Type} {refuses : Bool} {fault : ε} {refused : β → Except ε γ}
    {rest : Except ε γ} {result : γ} :
    (if refuses then throw fault >>= refused else rest) = .ok result ↔
      refuses = false ∧ rest = .ok result := by
  cases refuses with
  | false => exact ⟨fun computed => ⟨rfl, computed⟩, And.right⟩
  | true => exact ⟨nofun, nofun⟩

/-- A list is computed entry by entry when no entry fails. -/
theorem mapM_ok {ε ι κ : Type} {compute : ι → Except ε κ} {exact : ι → κ} {items : List ι}
    (each : ∀ item ∈ items, compute item = .ok (exact item)) :
    items.mapM compute = .ok (items.map exact) := by
  induction items with
  | nil => rfl
  | cons first rest inductionHypothesis =>
    rw [List.mapM_cons, each first (by simp),
      inductionHypothesis fun item member => each item (by simp [member])]
    rfl

/-- The entries of a computed list were computed from the items in their order. -/
theorem mapM_forall₂ {ε ι κ : Type} {compute : ι → Except ε κ} {items : List ι} {results : List κ}
    (computed : items.mapM compute = .ok results) :
    List.Forall₂ (fun item result => compute item = .ok result) items results := by
  induction items generalizing results with
  | nil =>
    rw [← Except.ok.inj computed]
    exact .nil
  | cons first rest inductionHypothesis =>
    rw [List.mapM_cons] at computed
    obtain ⟨head, heads, computed⟩ := ok_of_bind computed
    obtain ⟨tail, tails, computed⟩ := ok_of_bind computed
    rw [← Except.ok.inj computed]
    exact .cons heads (inductionHypothesis tails)

/-- Every entry of a computed list was computed from an item. -/
theorem mapM_member {ε ι κ : Type} {compute : ι → Except ε κ} {items : List ι} {results : List κ}
    (computed : items.mapM compute = .ok results) {result : κ} (member : result ∈ results) :
    ∃ item ∈ items, compute item = .ok result := by
  have each := mapM_forall₂ computed
  obtain ⟨position, inside, rfl⟩ := List.getElem_of_mem member
  have early : position < items.length := each.length_eq ▸ inside
  exact ⟨items[position], List.getElem_mem early, each.get early inside⟩

/-- Every item has an entry in a computed list. -/
theorem mapM_covers {ε ι κ : Type} {compute : ι → Except ε κ} {items : List ι} {results : List κ}
    (computed : items.mapM compute = .ok results) {item : ι} (member : item ∈ items) :
    ∃ result ∈ results, compute item = .ok result := by
  have each := mapM_forall₂ computed
  obtain ⟨position, inside, rfl⟩ := List.getElem_of_mem member
  have early : position < results.length := each.length_eq ▸ inside
  exact ⟨results[position], List.getElem_mem early, each.get inside early⟩

/-- A computed list has an entry for each item. -/
theorem mapM_length {ε ι κ : Type} {compute : ι → Except ε κ} {items : List ι} {results : List κ}
    (computed : items.mapM compute = .ok results) : results.length = items.length :=
  (mapM_forall₂ computed).length_eq.symm

/-- A list is computed when each of its entries is. -/
theorem mapM_exists {ε ι κ : Type} {compute : ι → Except ε κ} {items : List ι}
    (each : ∀ item ∈ items, ∃ result, compute item = .ok result) :
    ∃ results, items.mapM compute = .ok results := by
  induction items with
  | nil => exact ⟨[], rfl⟩
  | cons first rest inductionHypothesis =>
    obtain ⟨head, heads⟩ := each first (by simp)
    obtain ⟨tail, tails⟩ := inductionHypothesis fun item member => each item (by simp [member])
    refine ⟨head :: tail, ?_⟩
    rw [List.mapM_cons, heads, ok_bind, tails]
    rfl

/-- What is read off every computed entry may be read off its item when both agree. -/
theorem map_of_mapM {ε ι κ μ : Type} {compute : ι → Except ε κ} {read : κ → μ} {exact : ι → μ}
    {items : List ι} {results : List κ}
    (each : ∀ item result, compute item = .ok result → read result = exact item)
    (computed : items.mapM compute = .ok results) : results.map read = items.map exact := by
  have entries := mapM_forall₂ computed
  clear computed
  induction entries with
  | nil => rfl
  | cons first _ inductionHypothesis =>
    rw [List.map_cons, List.map_cons, each _ _ first, inductionHypothesis]

/-- Quantities that stand for rational numbers are compared exactly,
and they are added and subtracted exactly when the operands and the result fit.
What fits is bounded, and it belongs to a lattice. -/
class ExactQuantity (α : Type) [Quantity α] where
  value? : α → Option Rat
  Fits : Rat → Prop
  lattice : AddSubgroup Rat
  fits_zero : Fits 0
  fits_of_abs_le : ∀ {p q : Rat}, q ∈ lattice → |q| ≤ |p| → Fits p → Fits q
  value?_zero : value? zero = some 0
  value?_ofInt_zero : value? (ofInt 0 : α) = some 0
  exact_add : ∀ {first second : α} {p q : Rat}, value? first = some p → value? second = some q →
    Fits p → Fits q → Fits (p + q) → ∃ total, add first second = .ok total ∧
      value? total = some (p + q)
  exact_sub : ∀ {first second : α} {p q : Rat}, value? first = some p → value? second = some q →
    Fits p → Fits q → Fits (p - q) → ∃ difference, sub first second = .ok difference ∧
      value? difference = some (p - q)
  value?_neg : ∀ {number : α} {p : Rat}, value? number = some p → value? (neg number) = some (-p)
  value?_magnitude : ∀ {number : α} {p : Rat}, value? number = some p →
    value? (magnitude number) = some |p|
  less_iff : ∀ {first second : α} {p q : Rat}, value? first = some p → value? second = some q →
    (less first second ↔ p < q)
  lessEq_iff : ∀ {first second : α} {p q : Rat}, value? first = some p → value? second = some q →
    (lessEq first second ↔ p ≤ q)
  exact_isFinite : ∀ {number : α} {p : Rat}, value? number = some p → Fits p →
    isFinite number = .ok true
  exact_toReal : ∀ {number : α} {p : Rat}, value? number = some p → Fits p →
    ∃ value, toReal number = .ok value ∧ value? value = some p

/-- Every rational number stands for itself, and all of them fit. -/
instance : ExactQuantity Rat where
  value? := some
  Fits _ := True
  lattice := ⊤
  fits_zero := trivial
  fits_of_abs_le _ _ _ := trivial
  value?_zero := rfl
  value?_ofInt_zero := rfl
  exact_add := by
    rintro first second p q ⟨⟩ ⟨⟩ - - -
    exact ⟨_, rfl, rfl⟩
  exact_sub := by
    rintro first second p q ⟨⟩ ⟨⟩ - - -
    exact ⟨_, rfl, rfl⟩
  value?_neg := by
    rintro number p ⟨⟩
    rfl
  value?_magnitude := by
    rintro number p ⟨⟩
    show some (if number < 0 then -number else number) = some |number|
    split
    · rw [abs_of_neg ‹_›]
    · rw [abs_of_nonneg (not_lt.mp ‹_›)]
  less_iff := by
    rintro first second p q ⟨⟩ ⟨⟩
    exact decide_eq_true_iff
  lessEq_iff := by
    rintro first second p q ⟨⟩ ⟨⟩
    exact decide_eq_true_iff
  exact_isFinite _ _ := rfl
  exact_toReal := by
    rintro number p ⟨⟩ -
    exact ⟨_, rfl, rfl⟩

namespace ExactQuantity

variable {α : Type} [Quantity α] [ExactQuantity α]

theorem less_eq_decide {first second : α} {p q : Rat} (left : value? first = some p)
    (right : value? second = some q) : less first second = decide (p < q) :=
  Bool.eq_iff_iff.mpr ((less_iff left right).trans decide_eq_true_iff.symm)

theorem lessEq_eq_decide {first second : α} {p q : Rat} (left : value? first = some p)
    (right : value? second = some q) : lessEq first second = decide (p ≤ q) :=
  Bool.eq_iff_iff.mpr ((lessEq_iff left right).trans decide_eq_true_iff.symm)

theorem isNegative_eq_decide {number : α} {p : Rat} (stands : value? number = some p) :
    isNegative number = decide (p < 0) :=
  less_eq_decide stands value?_ofInt_zero

theorem isPositive_eq_decide {number : α} {p : Rat} (stands : value? number = some p) :
    isPositive number = decide (0 < p) :=
  less_eq_decide value?_ofInt_zero stands

/-- The lesser of two quantities stands for the smaller value. -/
theorem value?_lesser {first second : α} {p q : Rat} (left : value? first = some p)
    (right : value? second = some q) : value? (lesser first second) = some (min p q) := by
  rw [lesser, less_eq_decide right left]
  by_cases smaller : q < p
  · simp [smaller, min_eq_right (le_of_lt smaller), right]
  · simp [smaller, min_eq_left (not_lt.mp smaller), left]

/-- A list of quantities stands for a list of values of the same length. -/
abbrev AllStandFor (quantities : List α) (values : List Rat) : Prop :=
  List.Forall₂ (fun quantity value => value? quantity = some value) quantities values

/-- Rational numbers stand for themselves only. -/
theorem allStandFor_rat {quantities values : List Rat} :
    AllStandFor quantities values ↔ quantities = values := by
  refine ⟨fun stands => ?_, fun equal => equal ▸ List.forall₂_same.mpr fun _ _ => rfl⟩
  exact List.forall₂_eq_eq_eq ▸ stands.imp fun _ _ equal => Option.some.inj equal

/-- The lesser of all quantities stands for a value that occurs and exceeds none. -/
theorem value?_foldl_lesser {rest : List α} {values : List Rat} (stands : AllStandFor rest values)
    {first : α} {value : Rat} (start : value? first = some value) :
    ∃ smallest, value? (rest.foldl lesser first) = some smallest ∧
      smallest ∈ value :: values ∧ ∀ other ∈ value :: values, smallest ≤ other := by
  induction stands generalizing first value with
  | nil => exact ⟨value, start, by simp, by simp⟩
  | @cons next second rest values head tail inductionHypothesis =>
    obtain ⟨smallest, found, member, least⟩ := inductionHypothesis (value?_lesser start head)
    refine ⟨smallest, found, ?_, ?_⟩
    · rcases List.mem_cons.mp member with equal | later
      · rcases min_choice value second with left | right
        · simp [equal, left]
        · simp [equal, right]
      · simp [later]
    · have lower := least (min value second) (by simp)
      intro other member
      simp only [List.mem_cons] at member
      rcases member with rfl | rfl | later
      · exact lower.trans (min_le_left _ _)
      · exact lower.trans (min_le_right _ _)
      · exact least other (by simp [later])

/-- The first smallest quantity stands for a value that occurs and exceeds none. -/
theorem value?_least {quantities : List α} {values : List Rat}
    (stands : AllStandFor quantities values) (nonempty : quantities ≠ []) :
    ∃ least smallest, least? quantities = some least ∧ value? least = some smallest ∧
      smallest ∈ values ∧ ∀ value ∈ values, smallest ≤ value := by
  cases stands with
  | nil => exact absurd rfl nonempty
  | cons head tail =>
    obtain ⟨smallest, found, member, least⟩ := value?_foldl_lesser tail head
    exact ⟨_, smallest, rfl, found, member, least⟩

/-- Terms are added up exactly when every partial sum fits. -/
theorem exact_foldlM_add {terms : List α} {values : List Rat} (stands : AllStandFor terms values)
    {start : α} {value : Rat} (begins : value? start = some value)
    (fits : ∀ term ∈ values, Fits α term)
    (partials : ∀ count, Fits α (value + (values.take count).sum)) :
    ∃ total, terms.foldlM add start = .ok total ∧ value? total = some (value + values.sum) := by
  induction stands generalizing start value with
  | nil => exact ⟨start, rfl, by simpa using begins⟩
  | @cons first term terms values head tail inductionHypothesis =>
    have here := partials 0
    have next := partials 1
    simp only [List.take_zero, List.sum_nil, add_zero] at here
    simp only [List.take_succ_cons, List.take_zero, List.sum_cons, List.sum_nil, add_zero] at next
    obtain ⟨middle, added, known⟩ := exact_add begins head here (fits term (by simp)) next
    obtain ⟨total, rest, found⟩ := inductionHypothesis known
      (fun other member => fits other (by simp [member]))
      (fun count => by simpa [add_assoc] using partials (count + 1))
    refine ⟨total, ?_, by simpa [add_assoc] using found⟩
    rw [List.foldlM_cons, added]
    exact rest

/-- A sum is exact when every partial sum fits. -/
theorem exact_sum {terms : List α} {values : List Rat} (stands : AllStandFor terms values)
    (fits : ∀ term ∈ values, Fits α term) (partials : ∀ count, Fits α (values.take count).sum) :
    ∃ total, sum terms = .ok total ∧ value? total = some values.sum := by
  obtain ⟨total, added, found⟩ := exact_foldlM_add stands value?_ofInt_zero fits
    (fun count => by simpa using partials count)
  exact ⟨total, added, by simpa using found⟩

/-- A sum of lattice values is exact when the sum of their magnitudes fits. -/
theorem exact_sum_of_abs {terms : List α} {values : List Rat} (stands : AllStandFor terms values)
    (members : ∀ value ∈ values, value ∈ lattice α) (fits : Fits α (values.map abs).sum) :
    ∃ total, sum terms = .ok total ∧ value? total = some values.sum := by
  have nonneg : ∀ magnitude ∈ values.map abs, (0 : Rat) ≤ magnitude := by
    intro magnitude member
    obtain ⟨value, -, rfl⟩ := List.mem_map.mp member
    exact abs_nonneg value
  have all : |(values.map abs).sum| = (values.map abs).sum := abs_of_nonneg (List.sum_nonneg nonneg)
  apply exact_sum stands
  · intro value member
    refine fits_of_abs_le (members value member) ?_ fits
    rw [all]
    exact List.single_le_sum nonneg _ (List.mem_map_of_mem member)
  · intro count
    refine fits_of_abs_le ?_ ?_ fits
    · exact list_sum_mem fun value member => members value (List.mem_of_mem_take member)
    · rw [all]
      calc |(values.take count).sum| ≤ ((values.take count).map abs).sum := by
            simpa using Multiset.abs_sum_le_sum_abs (s := (values.take count : Multiset Rat))
        _ = ((values.map abs).take count).sum := by rw [List.map_take]
        _ ≤ (values.map abs).sum :=
          (List.take_sublist count _).sum_le_sum fun value member => nonneg value member

/-- A list is computed exactly when each of its entries is. -/
theorem exact_mapM {δ : Type} {compute : δ → Except (Fault α) α} {exact : δ → Rat} {items : List δ}
    (each : ∀ item ∈ items, ∃ result, compute item = .ok result ∧
      value? result = some (exact item)) :
    ∃ results, items.mapM compute = .ok results ∧ AllStandFor results (items.map exact) := by
  induction items with
  | nil => exact ⟨[], rfl, .nil⟩
  | cons first rest inductionHypothesis =>
    obtain ⟨result, computed, known⟩ := each first (by simp)
    obtain ⟨results, all, stands⟩ := inductionHypothesis fun item member =>
      each item (by simp [member])
    refine ⟨result :: results, ?_, .cons known stands⟩
    rw [List.mapM_cons, computed]
    simp only [all]
    rfl

end ExactQuantity
end NetworkFlow
