import NetworkFlow.Proofs.Flow.Conservation
import NetworkFlow.Validation

namespace NetworkFlow

open Quantity ExactQuantity Network

namespace Validation

variable {network : Network Rat}

/-- The flow that a table gives for an edge. -/
def carried (flows : Table Int Rat) (edge : Edge Rat) : Rat :=
  (flows.find? edge.index).getD 0

/-- The flows of a table leave the vertices alike in networks of the same shape. -/
theorem netOutflow_carried {first second : Network Rat} (same : SameShape first second)
    (flows : Table Int Rat) (vertex : Nat) :
    first.netOutflow (carried flows) vertex = second.netOutflow (carried flows) vertex := by
  apply same.netOutflow_eq
  intro position edge twin stands standsTwin
  have place := same.place position
  rw [stands, standsTwin, Option.map_some, Option.map_some, Option.some.injEq] at place
  rw [carried, carried, ← Edge.place_index place]

/-- A validation reads the flow of every edge. -/
theorem given_eq (wellFormed : network.WellFormed) (flows : Table Int Rat) :
    given network flows = .ok (network.edges.toList.map (carried flows)) := by
  have read : given network flows = .ok ((List.range network.edgeCount).map fun (position : Nat) =>
      (flows.find? (position : Int)).getD 0) := by
    apply mapM_ok
    intro position _
    cases flows.find? (position : Int) <;> rfl
  rw [read, ← wellFormed.map_index, List.map_map]
  rfl

/-- The flows of some edges change a total one by one. -/
theorem foldlM_flows {change : Rat → Rat → Except (Fault Rat) Rat} {sign : Rat}
    (changes : ∀ total flow, change total flow = .ok (total + sign * flow))
    (flow : Edge Rat → Rat) (keeps : Edge Rat → Prop) [DecidablePred keeps]
    (edges : List (Edge Rat)) (start : Rat) :
    ((edges.map fun edge => (edge, flow edge)).filter fun pair => keeps pair.1).foldlM
        (fun total pair => change total pair.2) start =
      .ok (start + sign * (edges.map fun edge => if keeps edge then flow edge else 0).sum) := by
  induction edges generalizing start with
  | nil =>
    rw [List.map_nil, List.map_nil, List.sum_nil, mul_zero, add_zero]
    rfl
  | cons edge rest inductionHypothesis =>
    rw [List.map_cons, List.map_cons, List.sum_cons, List.filter_cons]
    by_cases kept : keeps edge
    · rw [if_pos (by simpa using kept), if_pos kept, List.foldlM_cons, changes, ok_bind,
        inductionHypothesis, mul_add, add_assoc]
    · rw [if_neg (by simpa using kept), if_neg kept, inductionHypothesis, zero_add]

/-- The net inflow of a vertex is its inflow less its outflow. -/
theorem netInflow_eq (network : Network Rat) (flow : Edge Rat → Rat) (vertex : Nat) :
    netInflow (network.edges.toList.map fun edge => (edge, flow edge)) vertex =
      .ok (network.inflow flow vertex - network.outflow flow vertex) := by
  have adds (total flow : Rat) : (add total flow : Except (Fault Rat) Rat) =
      .ok (total + 1 * flow) := by
    rw [one_mul]
    rfl
  have subtracts (total flow : Rat) : (sub total flow : Except (Fault Rat) Rat) =
      .ok (total + -1 * flow) := by
    rw [neg_one_mul, ← sub_eq_add_neg]
    rfl
  have received := foldlM_flows adds flow (fun edge => edge.head = vertex) network.edges.toList 0
  have sent := foldlM_flows subtracts flow (fun edge => edge.tail = vertex) network.edges.toList
    (0 + 1 * network.inflow flow vertex)
  have total : (0 + 1 * network.inflow flow vertex) + -1 * network.outflow flow vertex =
      network.inflow flow vertex - network.outflow flow vertex := by ring
  rw [← total]
  refine Eq.trans ?_ sent
  refine Eq.trans (congrArg (· >>= _) received) ?_
  rfl

/-- The demands of a caller ask for an amount at every vertex. Without demands none is asked. -/
def Accepted (demands : Option (Demands Rat)) (count : Nat) (demand : Nat → Rat) : Prop :=
  match demands with
  | none => ∀ vertex < count, demand vertex = 0
  | some demands => demands.vector count = .ok ((List.range count).map demand)

/-- The balance of a vertex is its net inflow less its demand. -/
theorem balancesOf_eq {demands : Option (Demands Rat)} {demand : Nat → Rat}
    (flow : Edge Rat → Rat) (accepted : Accepted demands network.vertexCount demand) :
    balancesOf network (network.edges.toList.map fun edge => (edge, flow edge)) demands =
      .ok ((List.range network.vertexCount).map fun vertex => (vertex,
        network.inflow flow vertex - network.outflow flow vertex - demand vertex)) := by
  obtain ⟨inflows, read⟩ : ∃ inflows, inflows = (List.range network.vertexCount).map fun vertex =>
      (vertex, network.inflow flow vertex - network.outflow flow vertex) := ⟨_, rfl⟩
  have measured : ((List.range network.vertexCount).mapM fun vertex => do
      return (vertex, ← netInflow (network.edges.toList.map fun edge => (edge, flow edge))
        vertex)) = .ok inflows := by
    rw [read]
    apply mapM_ok
    intro vertex _
    rw [netInflow_eq]
    rfl
  cases demands with
  | none =>
    simp only [balancesOf, measured, ok_bind, read]
    refine congrArg Except.ok (List.map_congr_left fun vertex member => ?_)
    rw [accepted vertex (List.mem_range.mp member), sub_zero]
  | some demands =>
    have listed : demands.vector network.vertexCount =
        .ok ((List.range network.vertexCount).map demand) := accepted
    have compared : (inflows.zip ((List.range network.vertexCount).map demand)).mapM
        (fun ((vertex, inflow), demand) => do return (vertex, ← sub inflow demand)) =
        .ok ((inflows.zip ((List.range network.vertexCount).map demand)).map fun pair =>
          (pair.1.1, pair.1.2 - pair.2)) :=
      mapM_ok fun _ _ => rfl
    have paired : (inflows.zip ((List.range network.vertexCount).map demand)).map
        (fun pair => (pair.1.1, pair.1.2 - pair.2)) =
        (List.range network.vertexCount).map fun vertex => (vertex,
          network.inflow flow vertex - network.outflow flow vertex - demand vertex) := by
      rw [read, List.zip_map', List.map_map]
      rfl
    simp only [balancesOf, measured, ok_bind, listed, compared, paired]

/-- The bounds of an edge that its flow breaks by more than the tolerance. -/
def breaches (tolerance : Rat) (edge : Edge Rat) (flow : Rat) : List (Violation Rat) :=
  (if edge.capacity + edge.offset + tolerance < flow then
    [.aboveCapacity edge.index edge.tail edge.head flow (edge.capacity + edge.offset)] else []) ++
  if flow < edge.lower + edge.offset - tolerance then
    [.belowLower edge.index edge.tail edge.head flow (edge.lower + edge.offset)] else []

theorem checkEdge_eq (tolerance : Rat) (edge : Edge Rat) (flow : Rat) :
    checkEdge tolerance edge flow = .ok (breaches tolerance edge flow) := by
  have computed : checkEdge tolerance edge flow = do
      let above : List (Violation Rat) ← if less (edge.capacity + edge.offset + tolerance) flow then
        pure [.aboveCapacity edge.index edge.tail edge.head flow (edge.capacity + edge.offset)]
        else pure []
      let below ← if less flow (edge.lower + edge.offset - tolerance) then
        pure [.belowLower edge.index edge.tail edge.head flow (edge.lower + edge.offset)]
        else pure []
      return above ++ below := rfl
  have above : less (edge.capacity + edge.offset + tolerance) flow =
      decide (edge.capacity + edge.offset + tolerance < flow) := rfl
  have below : less flow (edge.lower + edge.offset - tolerance) =
      decide (flow < edge.lower + edge.offset - tolerance) := rfl
  rw [computed, above, below, breaches]
  by_cases high : edge.capacity + edge.offset + tolerance < flow <;>
    by_cases low : flow < edge.lower + edge.offset - tolerance <;>
    simp only [high, low, decide_true, decide_false, if_true, if_false, Bool.false_eq_true] <;> rfl

theorem breaches_eq_nil_iff {tolerance : Rat} {edge : Edge Rat} {flow : Rat} :
    breaches tolerance edge flow = [] ↔ edge.lower + edge.offset - tolerance ≤ flow ∧
      flow ≤ edge.capacity + edge.offset + tolerance := by
  rw [breaches, List.append_eq_nil_iff, and_comm]
  refine and_congr ?_ ?_ <;> simp

/-- What every vertex that is not exempt receives beyond its demand. -/
def excesses (network : Network Rat) (flow : Edge Rat → Rat) (demand : Nat → Rat)
    (source sink : Option Int) : List (Nat × Rat) :=
  ((List.range network.vertexCount).map fun vertex => (vertex,
    network.inflow flow vertex - network.outflow flow vertex - demand vertex)).filter
    fun (vertex, _) => some (vertex : Int) ≠ source ∧ some (vertex : Int) ≠ sink

/-- What a validation refuses: first the entries without an edge, then the bounds that are broken
and last the vertices that miss their demand by more than the tolerance. -/
def refusals (network : Network Rat) (flows : Table Int Rat) (demand : Nat → Rat)
    (source sink : Option Int) (tolerance : Rat) : List (Violation Rat) :=
  (flows.keys.filter fun (edge : Int) => ¬(0 ≤ edge ∧ edge < network.edgeCount)).map .unknownEdge ++
    (network.edges.toList.map fun edge =>
      breaches tolerance edge (carried flows edge)).flatten ++
    ((excesses network (carried flows) demand source sink).filter fun pair =>
      tolerance < |pair.2|).map fun pair => .imbalance pair.1 pair.2

/-- A validation that accepts the demands computes all of its lists. -/
theorem ofFlows_eq {demands : Option (Demands Rat)} {demand : Nat → Rat}
    (wellFormed : network.WellFormed) (flows : Table Int Rat)
    (accepted : Accepted demands network.vertexCount demand) (source sink : Option Int)
    (tolerance : Rat) :
    ofFlows network flows demands source sink tolerance = .ok {
      violations := refusals network flows demand source sink tolerance
      balances := excesses network (carried flows) demand source sink } := by
  have zipped : network.edges.toList.zip (network.edges.toList.map (carried flows)) =
      network.edges.toList.map fun edge => (edge, carried flows edge) := by
    have both := List.zip_map' (f := id) (g := carried flows) (l := network.edges.toList)
    rwa [List.map_id] at both
  have checked : ((network.edges.toList.map fun edge => (edge, carried flows edge)).mapM
      fun (edge, flow) => checkEdge tolerance edge flow) =
      .ok (network.edges.toList.map fun edge => breaches tolerance edge (carried flows edge)) := by
    have each : ((network.edges.toList.map fun edge => (edge, carried flows edge)).mapM
        fun (edge, flow) => checkEdge tolerance edge flow) =
        .ok ((network.edges.toList.map fun edge => (edge, carried flows edge)).map
          fun pair => breaches tolerance pair.1 pair.2) :=
      mapM_ok fun pair _ => checkEdge_eq tolerance pair.1 pair.2
    rwa [List.map_map] at each
  have balances := balancesOf_eq (carried flows) accepted
  have missed : ((excesses network (carried flows) demand source sink).filter fun (_, balance) =>
        less tolerance (magnitude balance)) =
      (excesses network (carried flows) demand source sink).filter fun pair =>
        tolerance < |pair.2| := by
    apply List.filter_congr
    intro pair _
    exact less_eq_decide rfl (value?_magnitude rfl)
  have read : ((List.range network.vertexCount).map fun vertex => (vertex,
      network.inflow (carried flows) vertex - network.outflow (carried flows) vertex -
        demand vertex)).filter (fun (vertex, _) =>
          some (vertex : Int) ≠ source ∧ some (vertex : Int) ≠ sink) =
      excesses network (carried flows) demand source sink := rfl
  have exactly : (toReal tolerance : Except (Fault Rat) Rat) = .ok tolerance := rfl
  simp only [ofFlows, given_eq wellFormed, ok_bind, zipped, checked, balances, read, pure,
    Except.pure, exactly, missed, ite_self, refusals]

/-- Flows that respect all bounds are refused only where a vertex misses its demand
by more than the tolerance. -/
theorem ofFlows_of_bounded {flows : Table Int Rat} {demands : Demands Rat} {demand : Nat → Rat}
    {tolerance : Rat} (wellFormed : network.WellFormed) (nonneg : 0 ≤ tolerance)
    (accepted : demands.vector network.vertexCount =
      .ok ((List.range network.vertexCount).map demand))
    (known : ∀ key ∈ flows.keys, 0 ≤ key ∧ key < network.edgeCount)
    (bounded : ∀ edge ∈ network.edges, edge.lower + edge.offset ≤ carried flows edge ∧
      carried flows edge ≤ edge.capacity + edge.offset)
    (source sink : Option Int) :
    ofFlows network flows (some demands) source sink tolerance = .ok {
      violations := ((excesses network (carried flows) demand source sink).filter fun pair =>
        tolerance < |pair.2|).map fun pair => .imbalance pair.1 pair.2
      balances := excesses network (carried flows) demand source sink } := by
  have unknown : (flows.keys.filter fun (edge : Int) => ¬(0 ≤ edge ∧ edge < network.edgeCount)) =
      [] := by
    rw [List.filter_eq_nil_iff]
    intro key member
    simp [known key member]
  have unbroken : (network.edges.toList.map fun edge =>
      breaches tolerance edge (carried flows edge)).flatten = [] := by
    rw [List.flatten_eq_nil_iff, List.forall_mem_map]
    intro edge member
    obtain ⟨least, most⟩ := bounded edge (Array.mem_toList_iff.mp member)
    exact breaches_eq_nil_iff.mpr ⟨by linarith, by linarith⟩
  have listed : Accepted (some demands) network.vertexCount demand := accepted
  rw [ofFlows_eq wellFormed flows listed, refusals, unknown, unbroken]
  rfl

/-- At a tolerance of zero, flows that respect all bounds are refused at every vertex
that misses its demand, by the amount that it misses. -/
theorem ofFlows_of_missed {flows : Table Int Rat} {demands : Demands Rat}
    {demand missed : Nat → Rat} (wellFormed : network.WellFormed)
    (accepted : demands.vector network.vertexCount =
      .ok ((List.range network.vertexCount).map demand))
    (known : ∀ key ∈ flows.keys, 0 ≤ key ∧ key < network.edgeCount)
    (bounded : ∀ edge ∈ network.edges, edge.lower + edge.offset ≤ carried flows edge ∧
      carried flows edge ≤ edge.capacity + edge.offset)
    (misses : ∀ vertex < network.vertexCount, network.inflow (carried flows) vertex -
      network.outflow (carried flows) vertex - demand vertex = missed vertex) :
    ∃ validation, ofFlows network flows (some demands) none none 0 = .ok validation ∧
      validation.violations = ((List.range network.vertexCount).filter fun vertex =>
        missed vertex ≠ 0).map fun vertex => .imbalance vertex (missed vertex) := by
  have amounts : excesses network (carried flows) demand none none =
      (List.range network.vertexCount).map fun vertex => (vertex, missed vertex) := by
    rw [excesses, List.filter_eq_self.mpr (by simp)]
    apply List.map_congr_left
    intro vertex member
    rw [misses vertex (List.mem_range.mp member)]
  have refused : ((List.range network.vertexCount).map fun vertex =>
        (vertex, missed vertex)).filter (fun pair => 0 < |pair.2|) =
      ((List.range network.vertexCount).filter fun vertex => missed vertex ≠ 0).map
        fun vertex => (vertex, missed vertex) := by
    rw [List.filter_map]
    congr 1
    apply List.filter_congr
    intro vertex _
    simp [abs_pos]
  have read := ofFlows_of_bounded wellFormed le_rfl accepted known bounded none none
  rw [amounts, refused, List.map_map] at read
  exact ⟨_, read, rfl⟩

/-- Flows on the edges of a network are valid when they respect all bounds
and meet the demand of every vertex up to the tolerance. -/
theorem isValid_ofFlows {flows : Table Int Rat} {demands : Demands Rat} {demand : Nat → Rat}
    {tolerance : Rat} (wellFormed : network.WellFormed) (nonneg : 0 ≤ tolerance)
    (accepted : demands.vector network.vertexCount =
      .ok ((List.range network.vertexCount).map demand))
    (known : ∀ key ∈ flows.keys, 0 ≤ key ∧ key < network.edgeCount)
    (bounded : ∀ edge ∈ network.edges, edge.lower + edge.offset ≤ carried flows edge ∧
      carried flows edge ≤ edge.capacity + edge.offset)
    (meets : ∀ vertex < network.vertexCount, |network.inflow (carried flows) vertex -
      network.outflow (carried flows) vertex - demand vertex| ≤ tolerance)
    (source sink : Option Int) :
    ∃ validation, ofFlows network flows (some demands) source sink tolerance = .ok validation ∧
      validation.isValid = true := by
  have met : ((excesses network (carried flows) demand source sink).filter fun pair =>
      tolerance < |pair.2|) = [] := by
    rw [List.filter_eq_nil_iff]
    intro pair member
    obtain ⟨vertex, inside, rfl⟩ := List.mem_map.mp (List.mem_filter.mp member).1
    simpa using meets vertex (List.mem_range.mp inside)
  refine ⟨_, ofFlows_of_bounded wellFormed nonneg accepted known bounded source sink, ?_⟩
  rw [isValid, met]
  rfl

end Validation
end NetworkFlow
