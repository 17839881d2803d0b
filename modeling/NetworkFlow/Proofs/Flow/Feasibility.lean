import NetworkFlow.Proofs.Circulation.DemandVector
import NetworkFlow.Proofs.Flow.Validity

namespace NetworkFlow

open Quantity ExactQuantity Network

/-- Rational demands enter the vector as the amounts that they ask for. -/
theorem Demands.Ask.vector_eq {demands : Demands Rat} {count : Nat} {demand : Nat → Rat}
    (asks : demands.Ask count demand) :
    demands.vector count = .ok ((List.range count).map demand) := by
  obtain ⟨vector, accepted, stands⟩ := asks.exact_vector fun _ _ => trivial
  rwa [allStandFor_rat.mp stands] at accepted

/-- Optional demands ask for an amount at every vertex. When there are none, nothing is asked. -/
def Demands.AskIfGiven (demands : Option (Demands Rat)) (count : Nat) (demand : Nat → Rat) : Prop :=
  match demands with
  | none => ∀ vertex < count, demand vertex = 0
  | some demands => demands.Ask count demand

namespace Validation

variable {network : Network Rat} {flows : Table Int Rat} {demand : Nat → Rat}
  {source sink : Option Int} {tolerance : Rat}

/-- What a vertex receives beyond what it sends and what it asks for. -/
def surplus (network : Network Rat) (flows : Table Int Rat) (demand : Nat → Rat) (vertex : Nat) :
    Rat :=
  network.inflow (carried flows) vertex - network.outflow (carried flows) vertex - demand vertex

/-- A vertex needs no balance when it is the source or the sink. -/
def IsExempt (source sink : Option Int) (vertex : Nat) : Prop :=
  some (vertex : Int) = source ∨ some (vertex : Int) = sink

instance (source sink : Option Int) (vertex : Nat) : Decidable (IsExempt source sink vertex) :=
  inferInstanceAs (Decidable (_ ∨ _))

/-- Flows are feasible up to a tolerance when they are on existing edges only, no edge is beyond
its bounds and no vertex misses its demand by more than the tolerance. -/
structure Feasible (network : Network Rat) (flows : Table Int Rat) (demand : Nat → Rat)
    (source sink : Option Int) (tolerance : Rat) : Prop where
  known : ∀ key ∈ flows.keys, 0 ≤ key ∧ key < network.edgeCount
  bounded : ∀ edge ∈ network.edges,
    edge.lower + edge.offset - tolerance ≤ carried flows edge ∧
      carried flows edge ≤ edge.capacity + edge.offset + tolerance
  conserved : ∀ vertex < network.vertexCount, ¬IsExempt source sink vertex →
    |surplus network flows demand vertex| ≤ tolerance

/-- The balances are those of the vertices that are not exempt. -/
theorem mem_excesses {vertex : Nat} {amount : Rat} :
    (vertex, amount) ∈ excesses network (carried flows) demand source sink ↔
      vertex < network.vertexCount ∧ ¬IsExempt source sink vertex ∧
        amount = surplus network flows demand vertex := by
  rw [excesses, List.mem_filter, List.mem_map, decide_eq_true_iff, IsExempt, not_or]
  constructor
  · rintro ⟨⟨other, inside, same⟩, checked⟩
    obtain ⟨rfl, rfl⟩ := Prod.mk.inj same
    exact ⟨List.mem_range.mp inside, checked, rfl⟩
  · rintro ⟨inside, checked, rfl⟩
    exact ⟨⟨vertex, List.mem_range.mpr inside, rfl⟩, checked⟩

/-- Items that are numbered in turn stay in order when some of them are dropped. -/
theorem pairwise_filter {ι : Type} {items : List ι} {number : ι → Nat} {count : Nat}
    (numbered : items.map number = List.range count) (keeps : ι → Bool) :
    ((items.filter keeps).map number).Pairwise (· < ·) := by
  have ascending : (List.range count).Pairwise (· < ·) := List.pairwise_lt_range
  rw [← numbered] at ascending
  exact ascending.sublist (List.filter_sublist.map number)

theorem pairwise_excesses (network : Network Rat) (flow : Edge Rat → Rat) (demand : Nat → Rat)
    (source sink : Option Int) :
    ((excesses network flow demand source sink).map Prod.fst).Pairwise (· < ·) := by
  have numbered : ((List.range network.vertexCount).map fun vertex => (vertex,
      network.inflow flow vertex - network.outflow flow vertex - demand vertex)).map Prod.fst =
      List.range network.vertexCount := by
    rw [List.map_map]
    exact List.map_id _
  exact pairwise_filter numbered _

/-- A validation refuses nothing exactly when the flows are feasible. -/
theorem refusals_eq_nil_iff : refusals network flows demand source sink tolerance = [] ↔
    Feasible network flows demand source sink tolerance := by
  have unknown : (flows.keys.filter fun (edge : Int) => ¬(0 ≤ edge ∧ edge < network.edgeCount)) =
      [] ↔ ∀ key ∈ flows.keys, 0 ≤ key ∧ key < network.edgeCount := by
    rw [List.filter_eq_nil_iff]
    simp only [decide_eq_true_iff, not_not]
  have unbroken : (network.edges.toList.map fun edge =>
      breaches tolerance edge (carried flows edge)).flatten = [] ↔ ∀ edge ∈ network.edges,
        edge.lower + edge.offset - tolerance ≤ carried flows edge ∧
          carried flows edge ≤ edge.capacity + edge.offset + tolerance := by
    rw [List.flatten_eq_nil_iff, List.forall_mem_map]
    simp only [breaches_eq_nil_iff, Array.mem_toList_iff]
  have met : ((excesses network (carried flows) demand source sink).filter fun pair =>
      tolerance < |pair.2|) = [] ↔ ∀ vertex < network.vertexCount, ¬IsExempt source sink vertex →
        |surplus network flows demand vertex| ≤ tolerance := by
    rw [List.filter_eq_nil_iff, Prod.forall]
    simp only [mem_excesses, decide_eq_true_iff, not_lt]
    constructor
    · exact fun most vertex inside checked => most vertex _ ⟨inside, checked, rfl⟩
    · rintro most vertex amount ⟨inside, checked, rfl⟩
      exact most vertex inside checked
  rw [refusals, List.append_eq_nil_iff, List.append_eq_nil_iff, List.map_eq_nil_iff,
    List.map_eq_nil_iff, unknown, unbroken, met]
  constructor
  · rintro ⟨⟨known, bounded⟩, conserved⟩
    exact ⟨known, bounded, conserved⟩
  · rintro ⟨known, bounded, conserved⟩
    exact ⟨⟨known, bounded⟩, conserved⟩

/-- The refusals of one kind of bound come from the edges that break it. -/
theorem filterMap_refusals {pick : Violation Rat → Option Nat} {breaks : Edge Rat → Prop}
    [DecidablePred breaks] (unknown : ∀ key, pick (.unknownEdge key) = none)
    (imbalance : ∀ vertex amount, pick (.imbalance vertex amount) = none)
    (broken : ∀ edge, (breaches tolerance edge (carried flows edge)).filterMap pick =
      if breaks edge then [edge.index] else []) :
    (refusals network flows demand source sink tolerance).filterMap pick =
      (network.edges.toList.filter breaks).map Edge.index := by
  have edges : ((network.edges.toList.map fun edge =>
      breaches tolerance edge (carried flows edge)).flatten).filterMap pick =
      (network.edges.toList.filter breaks).map Edge.index := by
    induction network.edges.toList with
    | nil => rfl
    | cons edge rest inductionHypothesis =>
      rw [List.map_cons, List.flatten_cons, List.filterMap_append, broken, inductionHypothesis,
        List.filter_cons]
      by_cases breaking : breaks edge
      · simp [breaking]
      · simp [breaking]
  have noEntries (keys : List Int) : (keys.map Violation.unknownEdge).filterMap pick = [] := by
    rw [List.filterMap_map]
    exact List.filterMap_eq_nil_iff.mpr fun key _ => unknown key
  have noVertices (pairs : List (Nat × Rat)) :
      (pairs.map fun pair => Violation.imbalance pair.1 pair.2).filterMap pick = [] := by
    rw [List.filterMap_map]
    exact List.filterMap_eq_nil_iff.mpr fun pair _ => imbalance pair.1 pair.2
  rw [refusals, List.filterMap_append, List.filterMap_append, noEntries, edges, noVertices,
    List.nil_append, List.append_nil]

/-- The chosen edges of a network stand at the positions that their indices tell. -/
theorem mem_index_iff (wellFormed : network.WellFormed) {breaks : Edge Rat → Prop}
    [DecidablePred breaks] {position : Nat} :
    position ∈ (network.edges.toList.filter breaks).map Edge.index ↔
      ∃ edge, network.edges[position]? = some edge ∧ breaks edge := by
  rw [List.mem_map]
  constructor
  · rintro ⟨edge, chosen, rfl⟩
    obtain ⟨member, breaking⟩ := List.mem_filter.mp chosen
    exact ⟨edge, wellFormed.getElem?_index (Array.mem_toList_iff.mp member),
      of_decide_eq_true breaking⟩
  · rintro ⟨edge, stands, breaking⟩
    have member := Array.mem_toList_iff.mpr (Array.mem_of_getElem? stands)
    exact ⟨edge, List.mem_filter.mpr ⟨member, decide_eq_true breaking⟩,
      wellFormed.index_eq stands⟩

/-- A validation names the edges above their upper bound. -/
theorem capacityViolations_eq {balances : List (Nat × Rat)} :
    Validation.capacityViolations
        ⟨refusals network flows demand source sink tolerance, balances⟩ =
      (network.edges.toList.filter fun edge =>
        edge.capacity + edge.offset + tolerance < carried flows edge).map Edge.index := by
  refine filterMap_refusals (fun _ => rfl) (fun _ _ => rfl) fun edge => ?_
  rw [breaches, List.filterMap_append]
  by_cases above : edge.capacity + edge.offset + tolerance < carried flows edge <;>
    by_cases below : carried flows edge < edge.lower + edge.offset - tolerance <;>
    simp [above, below]

/-- A validation names the edges below their lower bound. -/
theorem lowerViolations_eq {balances : List (Nat × Rat)} :
    Validation.lowerViolations
        ⟨refusals network flows demand source sink tolerance, balances⟩ =
      (network.edges.toList.filter fun edge =>
        carried flows edge < edge.lower + edge.offset - tolerance).map Edge.index := by
  refine filterMap_refusals (fun _ => rfl) (fun _ _ => rfl) fun edge => ?_
  rw [breaches, List.filterMap_append]
  by_cases above : edge.capacity + edge.offset + tolerance < carried flows edge <;>
    by_cases below : carried flows edge < edge.lower + edge.offset - tolerance <;>
    simp [above, below]

/-- A validation of a network in rational arithmetic accepts exactly the feasible flows.
It names the edges that break a bound and the balances of the vertices that are not exempt,
all in increasing order. -/
theorem ofFlows_decides (network : Network Rat) (wellFormed : network.WellFormed)
    (flows : Table Int Rat) (demands : Option (Demands Rat)) (demand : Nat → Rat)
    (asks : Demands.AskIfGiven demands network.vertexCount demand) (source sink : Option Int)
    (tolerance : Rat) :
    ∃ validation, ofFlows network flows demands source sink tolerance = .ok validation ∧
      (validation.isValid = true ↔ Feasible network flows demand source sink tolerance) ∧
      validation.capacityViolations.Pairwise (· < ·) ∧
      (∀ position, position ∈ validation.capacityViolations ↔
        ∃ edge, network.edges[position]? = some edge ∧
          edge.capacity + edge.offset + tolerance < carried flows edge) ∧
      validation.lowerViolations.Pairwise (· < ·) ∧
      (∀ position, position ∈ validation.lowerViolations ↔
        ∃ edge, network.edges[position]? = some edge ∧
          carried flows edge < edge.lower + edge.offset - tolerance) ∧
      (validation.balances.map Prod.fst).Pairwise (· < ·) ∧
      ∀ vertex balance, (vertex, balance) ∈ validation.balances ↔
        vertex < network.vertexCount ∧ ¬IsExempt source sink vertex ∧
          balance = surplus network flows demand vertex := by
  have accepted : Accepted demands network.vertexCount demand := by
    cases demands with
    | none => exact asks
    | some demands => exact Demands.Ask.vector_eq asks
  refine ⟨_, ofFlows_eq wellFormed flows accepted source sink tolerance, ?_, ?_, ?_, ?_, ?_,
    pairwise_excesses network _ demand source sink, fun _ _ => mem_excesses⟩
  · rw [isValid, List.isEmpty_iff]
    exact refusals_eq_nil_iff
  · rw [capacityViolations_eq]
    exact pairwise_filter wellFormed.map_index _
  · intro position
    rw [capacityViolations_eq]
    exact mem_index_iff wellFormed
  · rw [lowerViolations_eq]
    exact pairwise_filter wellFormed.map_index _
  · intro position
    rw [lowerViolations_eq]
    exact mem_index_iff wellFormed

/-- This network has an edge with a folded lower bound, a loop and an edge to the last vertex. -/
def looped : Network Rat :=
  (((Network.empty 3).attach 0 1 ⟨3, 0, 0, 2⟩).attach 1 1 ⟨1, 0, 0, 0⟩).attach 1 2 ⟨4, 1, 0, 0⟩

/-- The loop carries too much, and the other edges are within their bounds. -/
theorem ofFlows_decides_looped :
    ∃ validation, ofFlows looped (.ofList [(0, 4), (1, 2), (2, 4)])
        (some (.sparse (.ofList [(2, 4)]))) (some 0) none (1 / 2) = .ok validation ∧
      validation.isValid = false ∧ 1 ∈ validation.capacityViolations ∧
      (1, 0) ∈ validation.balances := by
  have wellFormed : looped.WellFormed :=
    (((wellFormed_empty 3).attach (by simp) (by simp) _).attach (by simp) (by simp) _).attach
      (by simp) (by simp) _
  have asks : Demands.AskIfGiven (some (.sparse (.ofList [(2, 4)]))) looped.vertexCount
      fun vertex => if vertex = 2 then 4 else 0 := by
    refine ⟨by decide, fun vertex inside => ?_⟩
    have small : vertex < 3 := inside
    interval_cases vertex <;> rfl
  obtain ⟨validation, read, valid, -, above, -, -, -, balances⟩ := ofFlows_decides looped
    wellFormed (.ofList [(0, 4), (1, 2), (2, 4)]) _ _ asks (some 0) none (1 / 2)
  have loop : looped.edges[1]? = some ⟨⟨1, 0, 0, 0⟩, 1, 1, 1⟩ := rfl
  have beyond : (1 : Rat) + 0 + 1 / 2 <
      carried (.ofList [(0, 4), (1, 2), (2, 4)]) ⟨⟨1, 0, 0, 0⟩, 1, 1, 1⟩ := by decide +kernel
  refine ⟨validation, read, ?_, (above 1).mpr ⟨_, loop, beyond⟩, (balances 1 0).mpr ?_⟩
  · rw [Bool.eq_false_iff]
    intro accepted
    have most := ((valid.mp accepted).bounded _ (Array.mem_of_getElem? loop)).2
    exact absurd beyond (not_lt.mpr most)
  · exact ⟨by decide, by decide, by decide +kernel⟩

end Validation
end NetworkFlow
