import NetworkFlow.Network.WellFormed
import NetworkFlow.Proofs.Arithmetic.Finite
import NetworkFlow.Proofs.Network.Incidence
import NetworkFlow.Validation

namespace NetworkFlow

open Quantity Network

namespace Number

/-- What is not a number. -/
def nan : Number := .real .nan

theorem less_nan (number : Number) : Quantity.less number nan = false := by
  change Number.less number nan = false
  cases number with
  | int value => rfl
  | truth value => rfl
  | real binary => cases binary <;> rfl

theorem nan_less (number : Number) : Quantity.less nan number = false := by
  cases number <;> rfl

/-- What is computed with what is not a number is not a number. -/
theorem combine_nan {exact : Int → Int → Int} {rounded : Binary64 → Binary64 → Binary64}
    (left : ∀ binary, rounded .nan binary = .nan) (right : ∀ binary, rounded binary .nan = .nan)
    {first second result : Number} (some : first = nan ∨ second = nan)
    (computed : Number.combine exact rounded first second = .ok result) : result = nan := by
  obtain ⟨one, other, near, nearToo, rfl⟩ := combine_eq_ok
    (some.imp (fun same => ⟨.nan, same ▸ rfl⟩) fun same => ⟨.nan, same ▸ rfl⟩) computed
  rcases some with rfl | rfl
  · obtain rfl := Except.ok.inj near
    exact congrArg Number.real (left other)
  · obtain rfl := Except.ok.inj nearToo
    exact congrArg Number.real (right one)

theorem add_nan {first second total : Number} (some : first = nan ∨ second = nan)
    (added : Quantity.add first second = .ok total) : total = nan :=
  combine_nan (fun _ => rfl) (fun binary => by cases binary <;> rfl) some (add_eq_ok.mp added)

theorem sub_nan {first second difference : Number} (some : first = nan ∨ second = nan)
    (subtracted : Quantity.sub first second = .ok difference) : difference = nan :=
  combine_nan (fun _ => rfl) (fun binary => by cases binary <;> rfl) some
    (sub_eq_ok.mp subtracted)

/-- A finite number is near a finite binary64 number. -/
theorem toReal_of_isFinite {number : Number} (finite : Quantity.isFinite number = .ok true) :
    ∃ negative units, Quantity.toReal number = .ok (.real (.finite negative units)) := by
  obtain ⟨negative, units, near⟩ := toBinary_of_isFinite finite
  refine ⟨negative, units, ?_⟩
  change (number.toBinary.map Number.real).mapError Fault.overflow = _
  rw [near]
  rfl

end Number

/-- A violation blames an edge when it names the edge or one of its ends. -/
def Violation.Blames {α : Type} (edge : Edge α) : Violation α → Prop
  | .unknownEdge index => index = edge.index
  | .aboveCapacity index .. => index = edge.index
  | .belowLower index .. => index = edge.index
  | .imbalance vertex _ => vertex = edge.tail ∨ vertex = edge.head

/-- The bounds of an edge are finite up to a tolerance when they are finite numbers and stay so
when the tolerance is added to the upper one and subtracted from the lower one. -/
structure Edge.FiniteUpTo (edge : Edge Number) (tolerance : Number) : Prop where
  upper : (do isFinite (← edge.upper)) = .ok true
  highest : (do isFinite (← add (← edge.upper) tolerance)) = .ok true
  lower : (do isFinite (← edge.fullLower)) = .ok true
  lowest : (do isFinite (← sub (← edge.fullLower) tolerance)) = .ok true

namespace Validation

section Computed

variable {α : Type} [Quantity α] {network : Network α} {flows : Table Int α}

/-- The flow that a table gives for an edge. -/
def givenOn (flows : Table Int α) (edge : Edge α) : Except (Fault α) α :=
  match flows.find? edge.index with
  | some flow => toReal flow
  | none => .ok zero

/-- The flows are read in the order of the edges. -/
theorem given_eq_mapM (wellFormed : network.WellFormed) (flows : Table Int α) :
    given network flows = network.edges.toList.mapM (givenOn flows) := by
  rw [given, ← wellFormed.map_index, List.mapM_map]
  rfl

/-- Every edge is paired with the flow that is given for it. -/
theorem mem_zip_given (wellFormed : network.WellFormed) {values : List α}
    (read : given network flows = .ok values) {edge : Edge α} {value : α} :
    (edge, value) ∈ network.edges.toList.zip values ↔
      edge ∈ network.edges ∧ givenOn flows edge = .ok value := by
  rw [given_eq_mapM wellFormed] at read
  obtain ⟨lengths, each⟩ := List.forall₂_iff_zip.mp (mapM_forall₂ read)
  constructor
  · intro member
    exact ⟨Array.mem_toList_iff.mp (List.of_mem_zip member).1, each member⟩
  · rintro ⟨member, computed⟩
    obtain ⟨position, inside, rfl⟩ := List.getElem_of_mem (Array.mem_toList_iff.mpr member)
    have early : position < (network.edges.toList.zip values).length := by
      rw [List.length_zip, ← lengths, min_self]
      exact inside
    have paired := List.getElem_mem early
    rw [List.getElem_zip] at paired
    obtain same := Except.ok.inj ((each paired).symm.trans computed)
    rwa [same] at paired

/-- A check of an edge compares its flow with both bounds, moved by the tolerance. -/
theorem checkEdge_eq_ok {tolerance flow : α} {edge : Edge α} {broken : List (Violation α)}
    (ok : checkEdge tolerance edge flow = .ok broken) :
    ∃ upper top highest lower bottom lowest capacity least, edge.upper = .ok upper ∧
      add upper tolerance = .ok top ∧ toReal top = .ok highest ∧ edge.fullLower = .ok lower ∧
      sub lower tolerance = .ok bottom ∧ toReal bottom = .ok lowest ∧
      broken = (if less highest flow then
        [.aboveCapacity edge.index edge.tail edge.head flow capacity] else []) ++
        if less flow lowest then [.belowLower edge.index edge.tail edge.head flow least]
        else [] := by
  -- The lower bound is compared alike, whatever the comparison with the upper one gave.
  have rest (above : List (Violation α)) (ok : (do
      let lower ← edge.fullLower
      let lowest ← toReal (← sub lower tolerance)
      let below ←
        if less flow lowest then do
          pure [Violation.belowLower edge.index edge.tail edge.head flow (← toReal lower)]
        else pure []
      return above ++ below) = .ok broken) :
      ∃ lower bottom lowest least, edge.fullLower = .ok lower ∧
        sub lower tolerance = .ok bottom ∧ toReal bottom = .ok lowest ∧
        broken = above ++ if less flow lowest then
          [.belowLower edge.index edge.tail edge.head flow least] else [] := by
    obtain ⟨lower, lowers, ok⟩ := ok_of_bind ok
    obtain ⟨bottom, bottoms, ok⟩ := ok_of_bind ok
    obtain ⟨lowest, lowests, ok⟩ := ok_of_bind ok
    dsimp only at ok
    split at ok
    · next beyond =>
      obtain ⟨least, -, ok⟩ := ok_of_bind ok
      refine ⟨lower, bottom, lowest, least, lowers, bottoms, lowests, ?_⟩
      rw [if_pos beyond]
      exact (Except.ok.inj ok).symm
    · next within =>
      refine ⟨lower, bottom, lowest, flow, lowers, bottoms, lowests, ?_⟩
      rw [if_neg within]
      exact (Except.ok.inj ok).symm
  obtain ⟨upper, uppers, ok⟩ := ok_of_bind ok
  obtain ⟨top, tops, ok⟩ := ok_of_bind ok
  obtain ⟨highest, highests, ok⟩ := ok_of_bind ok
  dsimp only at ok
  split at ok
  · next beyond =>
    obtain ⟨capacity, -, ok⟩ := ok_of_bind ok
    obtain ⟨lower, bottom, lowest, least, lowers, bottoms, lowests, same⟩ := rest _ ok
    refine ⟨upper, top, highest, lower, bottom, lowest, capacity, least, uppers, tops, highests,
      lowers, bottoms, lowests, ?_⟩
    rwa [if_pos beyond]
  · next within =>
    obtain ⟨lower, bottom, lowest, least, lowers, bottoms, lowests, same⟩ := rest _ ok
    refine ⟨upper, top, highest, lower, bottom, lowest, flow, least, uppers, tops, highests,
      lowers, bottoms, lowests, ?_⟩
    rwa [if_neg within]

/-- A validation lists entries without an edge, broken bounds and vertices out of balance. -/
theorem ofFlows_eq_ok {demands : Option (Demands α)} {source sink : Option Int} {tolerance : α}
    {validation : Validation α}
    (ok : ofFlows network flows demands source sink tolerance = .ok validation) :
    ∃ values bounds balances bound, given network flows = .ok values ∧
      (network.edges.toList.zip values).mapM (fun (edge, flow) => checkEdge tolerance edge flow) =
        .ok bounds ∧
      balancesOf network (network.edges.toList.zip values) demands = .ok balances ∧
      validation.violations = (flows.keys.filter fun (edge : Int) =>
          ¬(0 ≤ edge ∧ edge < network.edgeCount)).map .unknownEdge ++ bounds.flatten ++
        ((balances.filter fun (vertex, _) =>
          some (vertex : Int) ≠ source ∧ some (vertex : Int) ≠ sink).filter
          fun (_, balance) => less bound (magnitude balance)).map
          fun (vertex, balance) => .imbalance vertex balance := by
  obtain ⟨values, read, ok⟩ := ok_of_bind ok
  obtain ⟨bounds, checked, ok⟩ := ok_of_bind ok
  obtain ⟨balances, balanced, ok⟩ := ok_of_bind ok
  dsimp only at ok
  split at ok
  · exact ⟨values, bounds, balances, tolerance, read, checked, balanced,
      congrArg violations (Except.ok.inj ok).symm⟩
  · obtain ⟨bound, -, ok⟩ := ok_of_bind ok
    exact ⟨values, bounds, balances, bound, read, checked, balanced,
      congrArg violations (Except.ok.inj ok).symm⟩

end Computed

variable {network : Network Number} {flows : Table Int Number}

/-- Nothing is beyond a bound that is not a number. -/
theorem checkEdge_nan {tolerance : Number} {edge : Edge Number} {broken : List (Violation Number)}
    (ok : checkEdge tolerance edge .nan = .ok broken) : broken = [] := by
  obtain ⟨_, _, highest, _, _, lowest, _, _, -, -, -, -, -, -, rfl⟩ := checkEdge_eq_ok ok
  rw [Number.less_nan, Number.nan_less]
  rfl

/-- An infinite flow is beyond one of two finite bounds. -/
theorem checkEdge_infinity {tolerance : Number} {edge : Edge Number}
    (bounds : edge.FiniteUpTo tolerance) {negative : Bool} {broken : List (Violation Number)}
    (ok : checkEdge tolerance edge (.real (.infinity negative)) = .ok broken) : broken ≠ [] := by
  obtain ⟨upper, top, highest, lower, bottom, lowest, _, _, uppers, tops, highests, lowers,
    bottoms, lowests, rfl⟩ := checkEdge_eq_ok ok
  cases negative with
  | false =>
    obtain ⟨other, others, moved⟩ := ok_of_bind bounds.highest
    obtain ⟨sum, sums, finite⟩ := ok_of_bind moved
    obtain rfl := Except.ok.inj (others.symm.trans uppers)
    obtain rfl := Except.ok.inj (sums.symm.trans tops)
    obtain ⟨sign, units, near⟩ := Number.toReal_of_isFinite finite
    obtain rfl := Except.ok.inj (near.symm.trans highests)
    have beyond : less (.real (.finite sign units)) (Number.real (.infinity false)) = true := rfl
    rw [if_pos beyond]
    exact List.append_ne_nil_of_left_ne_nil (List.cons_ne_nil _ _) _
  | true =>
    obtain ⟨other, others, moved⟩ := ok_of_bind bounds.lowest
    obtain ⟨difference, differences, finite⟩ := ok_of_bind moved
    obtain rfl := Except.ok.inj (others.symm.trans lowers)
    obtain rfl := Except.ok.inj (differences.symm.trans bottoms)
    obtain ⟨sign, units, near⟩ := Number.toReal_of_isFinite finite
    obtain rfl := Except.ok.inj (near.symm.trans lowests)
    have beyond : less (.real (.infinity true)) (Number.real (.finite sign units)) = true := rfl
    rw [if_pos beyond]
    exact List.append_ne_nil_of_right_ne_nil _ (List.cons_ne_nil _ _)

/-- What is not a number reaches the net inflow of both ends of its edge. -/
theorem netInflow_nan {carried : List (Edge Number × Number)} {edge : Edge Number}
    (member : (edge, Number.nan) ∈ carried) {vertex : Nat} {total : Number}
    (atEnd : vertex = edge.tail ∨ vertex = edge.head) (ok : netInflow carried vertex = .ok total) :
    total = .nan := by
  obtain ⟨inflow, received, sent⟩ := ok_of_bind ok
  refine foldlM_absorbs (· = Number.nan)
    (fun pair : Edge Number × Number => pair.2 = Number.nan)
    (fun some subtracted => Number.sub_nan some subtracted) ?_ sent
  rcases atEnd with rfl | rfl
  · exact Or.inr ⟨_, List.mem_filter.mpr ⟨member, by simp⟩, rfl⟩
  · exact Or.inl (foldlM_absorbs (· = Number.nan)
    (fun pair : Edge Number × Number => pair.2 = Number.nan)
      (fun some added => Number.add_nan some added)
      (Or.inr ⟨_, List.mem_filter.mpr ⟨member, by simp⟩, rfl⟩) received)

/-- What is not a number reaches the balance of both ends of its edge. -/
theorem balancesOf_nan {carried : List (Edge Number × Number)} {edge : Edge Number}
    (member : (edge, Number.nan) ∈ carried) {demands : Option (Demands Number)}
    {balances : List (Nat × Number)} (ok : balancesOf network carried demands = .ok balances)
    {entry : Nat × Number} (listed : entry ∈ balances)
    (atEnd : entry.1 = edge.tail ∨ entry.1 = edge.head) : entry.2 = .nan := by
  obtain ⟨inflows, measured, ok⟩ := ok_of_bind ok
  have inflowNan {pair : Nat × Number} (inside : pair ∈ inflows)
      (atEnd : pair.1 = edge.tail ∨ pair.1 = edge.head) : pair.2 = .nan := by
    obtain ⟨vertex, -, computed⟩ := mapM_member measured inside
    obtain ⟨total, inflow, same⟩ := ok_of_bind computed
    obtain rfl := Except.ok.inj same
    exact netInflow_nan member atEnd inflow
  cases demands with
  | none =>
    obtain rfl := Except.ok.inj ok
    exact inflowNan listed atEnd
  | some demands =>
    obtain ⟨expected, -, ok⟩ := ok_of_bind ok
    obtain ⟨⟨⟨vertex, inflow⟩, demand⟩, paired, computed⟩ := mapM_member ok listed
    obtain ⟨balance, subtracted, same⟩ := ok_of_bind computed
    obtain rfl := Except.ok.inj same
    exact Number.sub_nan (Or.inl (inflowNan (List.of_mem_zip paired).1 atEnd)) subtracted

section Returns

variable {tolerance : Number}

/-- The bounds of an edge that are finite up to the tolerance are compared with any flow. -/
theorem checkEdge_returns {edge : Edge Number} (bounds : edge.FiniteUpTo tolerance)
    (flow : Number) : ∃ broken, checkEdge tolerance edge flow = .ok broken := by
  obtain ⟨upper, uppers, upperFinite⟩ := ok_of_bind bounds.upper
  obtain ⟨lower, lowers, lowerFinite⟩ := ok_of_bind bounds.lower
  obtain ⟨top, tops, topFinite⟩ : ∃ top, add upper tolerance = .ok top ∧
      isFinite top = .ok true := by
    have moved := bounds.highest
    rw [uppers] at moved
    exact ok_of_bind moved
  obtain ⟨bottom, bottoms, bottomFinite⟩ : ∃ bottom, sub lower tolerance = .ok bottom ∧
      isFinite bottom = .ok true := by
    have moved := bounds.lowest
    rw [lowers] at moved
    exact ok_of_bind moved
  obtain ⟨_, _, upperNear⟩ := Number.toReal_of_isFinite upperFinite
  obtain ⟨_, _, topNear⟩ := Number.toReal_of_isFinite topFinite
  obtain ⟨_, _, lowerNear⟩ := Number.toReal_of_isFinite lowerFinite
  obtain ⟨_, _, bottomNear⟩ := Number.toReal_of_isFinite bottomFinite
  simp only [checkEdge, uppers, tops, topNear, lowers, bottoms, bottomNear, upperNear, lowerNear,
    ok_bind]
  split <;> split <;> exact ⟨_, rfl⟩

/-- A rounded number is what a conversion gives. -/
theorem exists_of_toReal {number rounded : Number} (ok : toReal number = .ok rounded) :
    ∃ binary, rounded = .real binary := by
  change (number.toBinary.map Number.real).mapError Fault.overflow = .ok rounded at ok
  cases near : number.toBinary with
  | error fault =>
    rw [near] at ok
    cases ok
  | ok binary =>
    rw [near] at ok
    exact ⟨binary, (Except.ok.inj ok).symm⟩

/-- Rounded flows that change a rounded total one by one leave it rounded. -/
theorem foldlM_rounded {change : Number → Number → Except (Fault Number) Number}
    (changes : ∀ total flow, ∃ next, change (.real total) (.real flow) = .ok (.real next))
    {carried : List (Edge Number × Number)}
    (rounded : ∀ pair ∈ carried, ∃ binary, pair.2 = .real binary)
    (keeps : Edge Number → Prop) [DecidablePred keeps] (start : Binary64) :
    ∃ finish, (carried.filter fun pair => keeps pair.1).foldlM
      (fun total pair => change total pair.2) (.real start) = .ok (.real finish) := by
  obtain ⟨total, folded, finish, rfl⟩ : ∃ total, (carried.filter fun pair => keeps pair.1).foldlM
      (fun total pair => change total pair.2) (.real start) = .ok total ∧
        ∃ binary, total = Number.real binary := by
    refine foldlM_exists (fun total => ∃ binary, total = Number.real binary) ⟨start, rfl⟩ ?_
    rintro _ pair member ⟨before, rfl⟩
    obtain ⟨flow, same⟩ := rounded pair (List.mem_filter.mp member).1
    obtain ⟨next, changed⟩ := changes before flow
    exact ⟨_, by rw [same, changed], next, rfl⟩
  exact ⟨finish, folded⟩

/-- Rounded flows have a net inflow at every vertex. -/
theorem netInflow_returns {carried : List (Edge Number × Number)}
    (rounded : ∀ pair ∈ carried, ∃ binary, pair.2 = .real binary) (vertex : Nat) :
    ∃ binary, netInflow carried vertex = .ok (.real binary) := by
  have adds (total flow : Binary64) : ∃ next, (add (.real total) (.real flow) :
      Except (Fault Number) Number) = .ok (.real next) := ⟨_, rfl⟩
  have subtracts (total flow : Binary64) : ∃ next, (sub (.real total) (.real flow) :
      Except (Fault Number) Number) = .ok (.real next) := ⟨_, rfl⟩
  obtain ⟨inflow, received⟩ :=
    foldlM_rounded adds rounded (fun edge => edge.head = vertex) Binary64.zero
  obtain ⟨total, sent⟩ :=
    foldlM_rounded subtracts rounded (fun edge => edge.tail = vertex) inflow
  refine ⟨total, ?_⟩
  refine Eq.trans (congrArg (· >>= _) received) ?_
  exact sent

/-- The demands that were accepted are rounded numbers. -/
theorem rounded_of_vector {demands : Demands Number} {count : Int} {expected : List Number}
    (accepted : demands.vector count = .ok expected) :
    ∀ demand ∈ expected, ∃ binary, demand = .real binary := by
  have finite {vertex : Int} {given demand : Number}
      (ok : Demands.finiteDemand vertex given = .ok demand) : ∃ binary, demand = .real binary := by
    obtain ⟨value, near, ok⟩ := ok_of_bind ok
    obtain ⟨bounded, -, ok⟩ := ok_of_bind ok
    split at ok
    · rw [← Except.ok.inj ok]
      exact exists_of_toReal near
    · cases ok
  cases demands with
  | dense values =>
    rw [Demands.vector] at accepted
    split at accepted
    · cases accepted
    · intro demand member
      obtain ⟨pair, -, ok⟩ := mapM_member accepted member
      exact finite ok
  | sparse values =>
    obtain ⟨vector, entered, same⟩ := ok_of_bind accepted
    rw [← Except.ok.inj same]
    refine foldlM_induction (fun _ (vector : Array Number) =>
      ∀ demand ∈ vector.toList, ∃ binary, demand = .real binary) ?_ ?_ entered
    · intro demand member
      rw [Array.toList_replicate] at member
      exact ⟨.zero, (List.mem_replicate.mp member).2⟩
    · rintro done ⟨vertex, given⟩ before after all step demand member
      rw [Demands.enter] at step
      split at step
      · obtain ⟨entry, ok, step⟩ := ok_of_bind step
        rw [← Except.ok.inj step, Array.toList_setIfInBounds] at member
        rcases List.mem_or_eq_of_mem_set member with old | rfl
        · exact all demand old
        · exact finite ok
      · cases step

/-- A validation is returned when the tolerance and the bounds are finite, the given flows are
numbers that can be rounded, and the demands are accepted. -/
theorem ofFlows_returns (wellFormed : network.WellFormed)
    (finite : isFinite tolerance = .ok true)
    (bounds : ∀ edge ∈ network.edges, edge.FiniteUpTo tolerance)
    (readable : ∀ edge ∈ network.edges, ∃ value, givenOn flows edge = .ok value)
    {demands : Option (Demands Number)}
    (accepted : ∀ given ∈ demands, ∃ expected, given.vector network.vertexCount = .ok expected)
    (source sink : Option Int) :
    ∃ validation, ofFlows network flows demands source sink tolerance = .ok validation := by
  obtain ⟨values, read⟩ : ∃ values, given network flows = .ok values := by
    rw [given_eq_mapM wellFormed]
    exact mapM_exists fun edge member => readable edge (Array.mem_toList_iff.mp member)
  obtain ⟨broken, checked⟩ : ∃ broken, ((network.edges.toList.zip values).mapM
      fun (edge, flow) => checkEdge tolerance edge flow) = .ok broken := by
    apply mapM_exists
    rintro ⟨edge, flow⟩ member
    exact checkEdge_returns (bounds edge (Array.mem_toList_iff.mp (List.of_mem_zip member).1)) flow
  have rounded : ∀ pair ∈ network.edges.toList.zip values, ∃ binary, pair.2 = .real binary := by
    rintro ⟨edge, flow⟩ member
    have computed := ((mem_zip_given wellFormed read).mp member).2
    rw [givenOn] at computed
    split at computed
    · exact exists_of_toReal computed
    · exact ⟨.zero, (Except.ok.inj computed).symm⟩
  obtain ⟨inflows, measured⟩ : ∃ inflows, ((List.range network.vertexCount).mapM fun vertex => do
      return (vertex, ← netInflow (network.edges.toList.zip values) vertex)) = .ok inflows := by
    apply mapM_exists
    intro vertex _
    obtain ⟨binary, inflow⟩ := netInflow_returns rounded vertex
    exact ⟨_, by rw [inflow]; rfl⟩
  have roundedInflows : ∀ pair ∈ inflows, ∃ binary, pair.2 = .real binary := by
    intro pair member
    obtain ⟨vertex, -, computed⟩ := mapM_member measured member
    obtain ⟨binary, inflow⟩ := netInflow_returns rounded vertex
    rw [inflow] at computed
    exact ⟨binary, by rw [← Except.ok.inj computed]⟩
  obtain ⟨balances, balanced⟩ : ∃ balances,
      balancesOf network (network.edges.toList.zip values) demands = .ok balances := by
    cases demands with
    | none => exact ⟨inflows, by simp only [balancesOf, measured, ok_bind]; rfl⟩
    | some given =>
      obtain ⟨expected, vector⟩ := accepted given rfl
      have roundedDemands := rounded_of_vector vector
      simp only [balancesOf, measured, vector, ok_bind]
      apply mapM_exists
      rintro ⟨⟨vertex, inflow⟩, demand⟩ member
      obtain ⟨inside, asked⟩ := List.of_mem_zip member
      obtain ⟨left, rfl⟩ := roundedInflows _ inside
      obtain ⟨right, rfl⟩ := roundedDemands _ asked
      exact ⟨_, rfl⟩
  obtain ⟨_, _, near⟩ := Number.toReal_of_isFinite finite
  simp only [ofFlows, read, checked, balanced, near, ok_bind]
  split <;> exact ⟨_, rfl⟩

end Returns

/-- A validation refuses an infinite flow on an edge whose bounds are finite up to the tolerance. -/
theorem isValid_infinity (wellFormed : network.WellFormed) {edge : Edge Number}
    (member : edge ∈ network.edges) {negative : Bool}
    (given : flows.find? edge.index = some (.real (.infinity negative)))
    {demands : Option (Demands Number)} {source sink : Option Int} {tolerance : Number}
    (finite : edge.FiniteUpTo tolerance) {validation : Validation Number}
    (ok : ofFlows network flows demands source sink tolerance = .ok validation) :
    validation.isValid = false := by
  obtain ⟨values, bounds, balances, bound, read, checked, balanced, violations⟩ := ofFlows_eq_ok ok
  have carried : (edge, Number.real (.infinity negative)) ∈ network.edges.toList.zip values := by
    refine (mem_zip_given wellFormed read).mpr ⟨member, ?_⟩
    rw [givenOn, given]
    rfl
  obtain ⟨broken, inside, computed⟩ := mapM_covers checked carried
  rw [isValid, List.isEmpty_eq_false_iff, violations]
  refine List.append_ne_nil_of_left_ne_nil (List.append_ne_nil_of_right_ne_nil _ ?_) _
  intro none
  exact checkEdge_infinity finite computed (List.flatten_eq_nil_iff.mp none broken inside)

/-- A validation blames no edge for a flow that is not a number, and neither of its ends. -/
theorem not_blames_nan (wellFormed : network.WellFormed) {edge : Edge Number}
    (member : edge ∈ network.edges) (given : flows.find? edge.index = some .nan)
    {demands : Option (Demands Number)} {source sink : Option Int} {tolerance : Number}
    {validation : Validation Number}
    (ok : ofFlows network flows demands source sink tolerance = .ok validation)
    {violation : Violation Number} (listed : violation ∈ validation.violations) :
    ¬violation.Blames edge := by
  intro blames
  obtain ⟨values, bounds, balances, bound, read, checked, balanced, violations⟩ := ofFlows_eq_ok ok
  have carried : (edge, Number.nan) ∈ network.edges.toList.zip values := by
    refine (mem_zip_given wellFormed read).mpr ⟨member, ?_⟩
    rw [givenOn, given]
    rfl
  rw [violations, List.mem_append, List.mem_append] at listed
  rcases listed with (unknown | beyond) | unbalanced
  · obtain ⟨key, outside, rfl⟩ := List.mem_map.mp unknown
    have same : key = edge.index := blames
    have inside := wellFormed.index_lt member
    have wrong := of_decide_eq_true (List.mem_filter.mp outside).2
    omega
  · obtain ⟨broken, inside, listed⟩ := List.mem_flatten.mp beyond
    obtain ⟨⟨other, flow⟩, paired, computed⟩ := mapM_member checked inside
    obtain ⟨known, read⟩ := (mem_zip_given wellFormed read).mp paired
    by_cases same : other.index = edge.index
    · have equal : some other = some edge := by
        rw [← wellFormed.getElem?_index known, ← wellFormed.getElem?_index member, same]
      obtain rfl := Option.some.inj equal
      rw [givenOn, given] at read
      obtain rfl : Number.nan = flow := Except.ok.inj read
      rw [checkEdge_nan computed] at listed
      cases listed
    · obtain ⟨_, _, highest, _, _, lowest, _, _, -, -, -, -, -, -, rfl⟩ :=
        checkEdge_eq_ok computed
      rcases List.mem_append.mp listed with above | below
      · split at above
        · rw [List.mem_singleton.mp above] at blames
          exact same blames
        · cases above
      · split at below
        · rw [List.mem_singleton.mp below] at blames
          exact same blames
        · cases below
  · obtain ⟨⟨vertex, balance⟩, missing, rfl⟩ := List.mem_map.mp unbalanced
    obtain ⟨considered, beyond⟩ := List.mem_filter.mp missing
    have nan := balancesOf_nan carried balanced (List.mem_filter.mp considered).1 blames
    dsimp only at nan beyond
    rw [nan] at beyond
    exact Bool.false_ne_true ((Number.less_nan bound).symm.trans beyond)

/-- A validation that is given a flow which is not finite refuses it when it is infinite and the
bounds are finite, and blames nothing for it when it is not a number. It is returned when all
bounds, flows and demands can be compared. -/
theorem ofFlows_unbounded (wellFormed : network.WellFormed) {edge : Edge Number}
    (member : edge ∈ network.edges) {binary : Binary64}
    (given : flows.find? edge.index = some (.real binary)) (unbounded : binary.isFinite = false)
    (demands : Option (Demands Number)) (source sink : Option Int) (tolerance : Number) :
    (∀ validation, ofFlows network flows demands source sink tolerance = .ok validation →
      (binary ≠ .nan → edge.FiniteUpTo tolerance → validation.isValid = false) ∧
      (binary = .nan → ∀ violation ∈ validation.violations, ¬violation.Blames edge)) ∧
    (isFinite tolerance = .ok true → (∀ other ∈ network.edges, other.FiniteUpTo tolerance) →
      (∀ other ∈ network.edges, ∃ value, givenOn flows other = .ok value) →
      (∀ given ∈ demands, ∃ expected, given.vector network.vertexCount = .ok expected) →
      ∃ validation, ofFlows network flows demands source sink tolerance = .ok validation) := by
  refine ⟨fun validation ok => ⟨fun number finite => ?_, fun same violation listed => ?_⟩, ?_⟩
  · cases binary with
    | nan => exact absurd rfl number
    | infinity negative => exact isValid_infinity wellFormed member given finite ok
    | finite negative units => cases unbounded
  · subst same
    exact not_blames_nan wellFormed member given ok listed
  · intro finite bounds readable accepted
    exact ofFlows_returns wellFormed finite bounds readable accepted source sink

/-- One edge with a capacity of five. -/
def fiveLane : Network Number :=
  (Network.empty 2).attach 0 1 ⟨.int 5, zero, zero, zero⟩

/-- The tolerance of one millionth that is usual in validations. -/
def millionth : Number := .real (.ofDecimal false 1 (-6))

/-- An infinite flow is refused where one that is not a number is blamed for nothing. -/
theorem ofFlows_unbounded_lane :
    (∃ validation, ofFlows fiveLane (.ofList [(0, .real (.infinity false))]) none none none
      millionth = .ok validation ∧ validation.isValid = false) ∧
    ∃ validation, ofFlows fiveLane (.ofList [(0, .nan)]) none none none millionth =
      .ok validation ∧
        ∀ violation ∈ validation.violations,
          ¬violation.Blames ⟨⟨.int 5, zero, zero, zero⟩, 0, 1, 0⟩ := by
  have wellFormed : fiveLane.WellFormed :=
    (wellFormed_empty 2).attach (by decide) (by decide) _
  have member : ⟨⟨.int 5, zero, zero, zero⟩, 0, 1, 0⟩ ∈ fiveLane.edges := by
    exact Array.mem_push_self
  have bounds : ∀ other ∈ fiveLane.edges, other.FiniteUpTo millionth := by
    intro other listed
    rcases Array.mem_push.mp listed with none | rfl
    · cases Array.not_mem_empty _ none
    · constructor <;> decide +kernel
  have readable (flow : Binary64) : ∀ other ∈ fiveLane.edges,
      ∃ value, givenOn (.ofList [(0, .real flow)]) other = .ok value := by
    intro other listed
    rcases Array.mem_push.mp listed with none | rfl
    · cases Array.not_mem_empty _ none
    · exact ⟨.real flow, rfl⟩
  have given (flow : Binary64) :
      (Table.ofList [((0 : Int), Number.real flow)]).find? (0 : Nat) = some (.real flow) := rfl
  have finite : isFinite millionth = .ok true := by decide +kernel
  have infinite := ofFlows_unbounded wellFormed member (given (.infinity false)) rfl none none none
    millionth
  have nan := ofFlows_unbounded wellFormed member (given .nan) rfl none none none millionth
  refine ⟨?_, ?_⟩
  · obtain ⟨validation, ok⟩ := infinite.2 finite bounds (readable _) (by simp)
    exact ⟨validation, ok, (infinite.1 validation ok).1 nofun (bounds _ member)⟩
  · obtain ⟨validation, ok⟩ := nan.2 finite bounds (readable _) (by simp)
    exact ⟨validation, ok, (nan.1 validation ok).2 rfl⟩

/-- A flow that is not a number is valid. -/
theorem ofFlows_nan_valid :
    isFinite Number.nan = .ok false ∧
      (ofFlows fiveLane (.ofList [(0, .nan)]) none none none millionth).map isValid = .ok true := by
  decide +kernel

end Validation
end NetworkFlow
