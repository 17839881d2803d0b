import NetworkFlow.Proofs.Circulation.Completeness
import NetworkFlow.Proofs.Circulation.ReducedNetwork
import NetworkFlow.Proofs.MaxFlow.CanonicalCut

namespace NetworkFlow

open Quantity ExactQuantity Network

namespace Load

variable {load : Load Rat}

/-- A load is folded unless its lower bound is zero. -/
theorem reduced_eq (least : 0 ≤ load.lower) :
    load.reduced = if load.lower = 0 then load else load.folded := by
  unfold reduced
  by_cases none : load.lower = 0
  · have small : lessEq load.lower (ofInt 0) = true := decide_eq_true none.le
    rw [if_pos small, if_pos none]
  · have large : ¬lessEq load.lower (ofInt 0) = true := fun small =>
      none (le_antisymm (of_decide_eq_true small) least)
    rw [if_neg large, if_neg none]
    rfl

theorem reduced_lower (least : 0 ≤ load.lower) : load.reduced.lower = 0 := by
  rw [reduced_eq least]
  split
  · assumption
  · rfl

/-- A load loses its lower bound from its capacity. -/
theorem reduced_capacity (least : 0 ≤ load.lower) :
    load.reduced.capacity = load.capacity - load.lower := by
  rw [reduced_eq least]
  split
  · rw [‹load.lower = 0›, sub_zero]
  · rfl

/-- What the capacity loses is in the offset. -/
theorem reduced_offset (least : 0 ≤ load.lower) :
    load.reduced.offset = load.offset + load.lower := by
  rw [reduced_eq least]
  split
  · rw [‹load.lower = 0›, add_zero]
  · rfl

theorem reduced_upper (least : 0 ≤ load.lower) : load.reduced.upper = load.upper := by
  have sums : load.reduced.capacity + load.reduced.offset = load.capacity + load.offset := by
    rw [reduced_capacity least, reduced_offset least]
    ring
  exact congrArg Except.ok sums

theorem reduced_fullLower (least : 0 ≤ load.lower) : load.reduced.fullLower = load.fullLower := by
  have sums : load.reduced.lower + load.reduced.offset = load.lower + load.offset := by
    rw [reduced_lower least, reduced_offset least]
    ring
  exact congrArg Except.ok sums

end Load

namespace Folding

variable {deltas : Array Rat} {count : Nat} {values : Nat → Rat}

/-- One edge shifts the deltas at its ends by its lower bound. -/
theorem exact_shiftEdge (stand : StandFor deltas count values) {edge : Edge Rat}
    (tailInside : edge.tail < count) (headInside : edge.head < count) (least : 0 ≤ edge.lower) :
    ∃ next, shiftEdge deltas edge = .ok next ∧
      StandFor next count fun vertex => values vertex + shiftAt vertex edge := by
  by_cases small : lessEq edge.lower (ofInt 0) = true
  · have none : edge.lower = 0 := le_antisymm (of_decide_eq_true small) least
    have still : (fun vertex => values vertex + shiftAt vertex edge) = values := by
      funext vertex
      simp [shiftAt, none]
    rw [still]
    refine ⟨deltas, ?_, stand⟩
    rw [shiftEdge, if_pos small]
  · obtain ⟨middle, raised, standTail⟩ := stand.shift tailInside fun delta known =>
      exact_add known (rfl : value? edge.lower = some edge.lower) trivial trivial trivial
    obtain ⟨next, dropped, standHead⟩ := standTail.shift headInside fun delta known =>
      exact_sub known (rfl : value? edge.lower = some edge.lower) trivial trivial trivial
    rw [update_ends] at standHead
    refine ⟨next, ?_, standHead⟩
    rw [shiftEdge, if_neg small, raised, ok_bind, dropped]
    rfl

/-- The edges shift each delta by the sum of their shifts. -/
theorem exact_shifts {edges : List (Edge Rat)} (stand : StandFor deltas count values)
    (tails : ∀ edge ∈ edges, edge.tail < count) (heads : ∀ edge ∈ edges, edge.head < count)
    (least : ∀ edge ∈ edges, 0 ≤ edge.lower) :
    ∃ next, edges.foldlM shiftEdge deltas = .ok next ∧
      StandFor next count fun vertex => values vertex + (edges.map (shiftAt vertex)).sum := by
  induction edges generalizing deltas values with
  | nil => exact ⟨deltas, rfl, by simpa using stand⟩
  | cons edge rest inductionHypothesis =>
    obtain ⟨middle, first, standMiddle⟩ := exact_shiftEdge stand (tails edge (by simp))
      (heads edge (by simp)) (least edge (by simp))
    obtain ⟨next, others, standNext⟩ := inductionHypothesis standMiddle
      (fun other member => tails other (by simp [member]))
      (fun other member => heads other (by simp [member]))
      fun other member => least other (by simp [member])
    refine ⟨next, by rw [List.foldlM_cons, first, ok_bind, others], ?_⟩
    simpa only [List.map_cons, List.sum_cons, add_assoc] using standNext

end Folding

section Exact

variable {network : Network Rat} {demand : Nat → Rat} {tolerance : Rat}

/-- The totals of rational demands are computed. -/
theorem totals_rat (count : Nat) (values : Nat → Rat) :
    Demands.totals ((List.range count).map values) =
      .ok (demandTotal count values, supplyTotal count values) := by
  have stands : AllStandFor ((List.range count).map values) ((List.range count).map values) :=
    allStandFor_rat.mpr rfl
  obtain ⟨_, _, computed, demands, supplies⟩ := exact_totals stands (fun _ => trivial) trivial
    trivial
  rw [computed, Option.some.inj demands, Option.some.inj supplies]

theorem gap_rat (demand supply : Rat) : gap demand supply = .ok |demand - supply| := by
  obtain ⟨_, computed, known⟩ := exact_gap (rfl : value? demand = some demand)
    (rfl : value? supply = some supply) trivial trivial trivial
  rw [computed, Option.some.inj known]

/-- Demands whose totals are near each other are shifted, and they stay as near. -/
theorem exact_folds (wellFormed : network.WellFormed)
    (least : ∀ edge ∈ network.edges, 0 ≤ edge.lower)
    (near : |demandTotal network.vertexCount demand - supplyTotal network.vertexCount demand| ≤
      tolerance) :
    ∃ reduction : Reduction Rat,
      reduction.Folds network ((List.range network.vertexCount).map demand) tolerance ∧
      reduction.stage = none ∧
      reduction.adjustedDemands =
        (List.range network.vertexCount).map (network.shiftedDemand demand) ∧
      reduction.demand = demandTotal network.vertexCount (network.shiftedDemand demand) ∧
      reduction.supply = supplyTotal network.vertexCount (network.shiftedDemand demand) := by
  have blank : Folding.StandFor (Array.replicate network.vertexCount (zero : Rat))
      network.vertexCount fun _ => 0 := by
    refine ⟨Array.size_replicate, fun vertex inside => ⟨zero, ?_, rfl⟩⟩
    rw [Array.getElem?_replicate, if_pos inside]
  have inside {edge : Edge Rat} (member : edge ∈ network.edges.toList) : edge ∈ network.edges :=
    Array.mem_toList_iff.mp member
  obtain ⟨deltas, shifts, stand⟩ := Folding.exact_shifts blank
    (fun edge member => wellFormed.tail edge (inside member))
    (fun edge member => wellFormed.head edge (inside member))
    fun edge member => least edge (inside member)
  obtain ⟨adjusted, sums, known⟩ := exact_adjusted
    (allStandFor_rat.mpr (rfl : (List.range network.vertexCount).map demand = _)) stand.toList
    fun _ _ => ⟨trivial, trivial, trivial⟩
  have shifted : adjusted =
      (List.range network.vertexCount).map (network.shiftedDemand demand) := by
    rw [allStandFor_rat.mp known]
    apply List.map_congr_left
    intro vertex _
    rw [shiftedDemand, ← edgeSum_shiftAt, zero_add]
    rfl
  have nearToo : |demandTotal network.vertexCount (network.shiftedDemand demand) -
      supplyTotal network.vertexCount (network.shiftedDemand demand)| ≤ tolerance := by
    rwa [demandTotal_sub_supplyTotal, wellFormed.sum_shiftedDemand, ← demandTotal_sub_supplyTotal]
  refine ⟨⟨adjusted, deltas.toList, network.foldedEdges network.edgeCount,
    demandTotal network.vertexCount (network.shiftedDemand demand),
    supplyTotal network.vertexCount (network.shiftedDemand demand), none⟩, ?_, rfl, shifted, rfl,
    rfl⟩
  constructor
  · refine ⟨_, _, _, totals_rat _ _, gap_rat _ _, ?_⟩
    exact decide_eq_false (not_lt.mpr near)
  · simpa using shifts
  · exact sums
  · rfl
  · rw [shifted]
    exact totals_rat _ _
  · refine ⟨_, gap_rat _ _, ?_⟩
    have still : lessEq |demandTotal network.vertexCount (network.shiftedDemand demand) -
        supplyTotal network.vertexCount (network.shiftedDemand demand)| tolerance = true :=
      decide_eq_true nearToo
    exact (if_pos still).symm

/-- An edge of a network comes to the same position of what a reduction leaves. -/
theorem Network.getElem?_reduced {position : Nat} {edge other : Edge Rat}
    (stands : network.edges[position]? = some edge)
    (standsToo : network.reduced.edges[position]? = some other) :
    other = edge.withLoad edge.toLoad.reduced := by
  rw [reduced, getElem?_mapLoads, stands, Option.map_some, Option.some.injEq] at standsToo
  exact standsToo.symm

theorem Network.withLoad_mem_reduced {edge : Edge Rat} (member : edge ∈ network.edges) :
    edge.withLoad edge.toLoad.reduced ∈ network.reduced.edges :=
  mem_mapLoads.mpr ⟨edge, member, rfl⟩

/-- A rational flow leaves a vertex as the flow of the same real numbers does. -/
theorem Network.ratCast_netOutflow (network : Network Rat) (flow : Edge Rat → Rat)
    (vertex : Nat) : ((network.netOutflow flow vertex : Rat) : ℝ) =
      network.netOutflow (fun edge => (flow edge : ℝ)) vertex :=
  map_netOutflow network (Rat.castHom ℝ).toAddMonoidHom flow vertex

/-- Only the demands at the vertices of a network have to be met. -/
theorem Network.meets_congr {lower capacity assigned : Edge Rat → ℝ} {first second : Nat → ℝ}
    (equal : ∀ vertex < network.vertexCount, first vertex = second vertex) :
    network.Meets lower capacity first assigned ↔ network.Meets lower capacity second assigned := by
  constructor
  · intro meets
    refine ⟨meets.least, meets.most, fun vertex inside => ?_⟩
    rw [meets.balanced vertex inside, equal vertex inside]
  · intro meets
    refine ⟨meets.least, meets.most, fun vertex inside => ?_⟩
    rw [meets.balanced vertex inside, equal vertex inside]

/-- An assignment meets bounds and demands when what it adds to the lower bounds
meets what a reduction leaves. -/
theorem Network.meets_reduced_iff (least : ∀ edge ∈ network.edges, 0 ≤ edge.lower)
    {assigned shifted : Nat → ℝ}
    (differ : ∀ edge ∈ network.edges, shifted edge.index = assigned edge.index - edge.lower) :
    network.Meets (fun edge => (edge.lower : ℝ)) (fun edge => (edge.capacity : ℝ))
        (fun vertex => (demand vertex : ℝ)) (fun edge => assigned edge.index) ↔
      network.reduced.Meets (fun _ => 0) (fun edge => (edge.capacity : ℝ))
        (fun vertex => (network.shiftedDemand demand vertex : ℝ))
        (fun edge => shifted edge.index) := by
  have bounds : ∀ edge ∈ network.edges,
      ((edge.lower : ℝ) ≤ assigned edge.index ↔ 0 ≤ shifted edge.index) ∧
      (assigned edge.index ≤ edge.capacity ↔
        shifted edge.index ≤ (edge.toLoad.reduced.capacity : ℝ)) := by
    intro edge member
    rw [differ edge member, Load.reduced_capacity (least edge member), Rat.cast_sub]
    exact ⟨sub_nonneg.symm, (sub_le_sub_iff_right _).symm⟩
  have sends (vertex : Nat) : network.netOutflow (fun edge => assigned edge.index) vertex =
      network.reduced.netOutflow (fun edge => shifted edge.index) vertex +
        (network.netOutflow (fun edge => edge.lower) vertex : Rat) := by
    have same : network.netOutflow (fun edge => shifted edge.index) vertex =
        network.reduced.netOutflow (fun edge => shifted edge.index) vertex := by
      apply network.sameShape_reduced.netOutflow_eq
      intro position edge other stands standsToo
      rw [getElem?_reduced stands standsToo]
      rfl
    rw [← same, ratCast_netOutflow, ← netOutflow_add]
    apply netOutflow_congr
    intro edge member
    rw [differ edge member, sub_add_cancel]
  have balance (vertex : Nat) :
      (network.inflow (fun edge => assigned edge.index) vertex -
          network.outflow (fun edge => assigned edge.index) vertex = demand vertex ↔
        network.reduced.inflow (fun edge => shifted edge.index) vertex -
          network.reduced.outflow (fun edge => shifted edge.index) vertex =
            (network.shiftedDemand demand vertex : Rat)) := by
    have both := sends vertex
    rw [netOutflow, netOutflow] at both
    rw [shiftedDemand, Rat.cast_add]
    constructor <;> intro balanced <;> linarith
  constructor
  · intro meets
    refine ⟨?_, ?_, ?_⟩
    · intro edge member
      obtain ⟨old, inside, rfl⟩ := mem_mapLoads.mp member
      exact (bounds old inside).1.mp (meets.least old inside)
    · intro edge member
      obtain ⟨old, inside, rfl⟩ := mem_mapLoads.mp member
      exact (bounds old inside).2.mp (meets.most old inside)
    · exact fun vertex inside => (balance vertex).mp (meets.balanced vertex inside)
  · intro meets
    refine ⟨?_, ?_, ?_⟩
    · intro edge member
      have nonneg := meets.least _ (withLoad_mem_reduced member)
      exact (bounds edge member).1.mpr nonneg
    · intro edge member
      have atMost := meets.most _ (withLoad_mem_reduced member)
      exact (bounds edge member).2.mpr atMost
    · exact fun vertex inside => (balance vertex).mpr (meets.balanced vertex inside)

/-- What the caller says of an edge after a reduction follows from what was said before. -/
theorem Edge.given_reduced {edge : Edge Rat} (least : 0 ≤ edge.lower) :
    (edge.withLoad edge.toLoad.reduced).given =
      (edge.tail, edge.head, edge.capacity - edge.lower, 0) := by
  rw [← Load.reduced_capacity least, ← Load.reduced_lower least]
  rfl

/-- The same edges in another order are reduced to the same edges and the same demands. -/
theorem Network.reduced_of_perm {other : Network Rat} (demand : Nat → Rat)
    (least : ∀ edge ∈ network.edges, 0 ≤ edge.lower)
    (perm : (other.edges.toList.map Edge.given).Perm (network.edges.toList.map Edge.given)) :
    (∀ edge ∈ other.edges, 0 ≤ edge.lower) ∧
      other.shiftedDemand demand = network.shiftedDemand demand ∧
      (other.reduced.edges.toList.map Edge.given).Perm
        (network.reduced.edges.toList.map Edge.given) := by
  have leastToo : ∀ edge ∈ other.edges, 0 ≤ edge.lower := by
    intro edge member
    have inside := perm.mem_iff.mp (List.mem_map_of_mem (Array.mem_toList_iff.mpr member))
    obtain ⟨twin, present, same⟩ := List.mem_map.mp inside
    have equal : twin.lower = edge.lower := congrArg (fun given => given.2.2.2) same
    exact equal ▸ least twin (Array.mem_toList_iff.mp present)
  have givens (network : Network Rat) (least : ∀ edge ∈ network.edges, 0 ≤ edge.lower) :
      network.reduced.edges.toList.map Edge.given = (network.edges.toList.map Edge.given).map
        fun given => (given.1, given.2.1, given.2.2.1 - given.2.2.2, 0) := by
    rw [Network.reduced, mapLoads, Array.toList_map, List.map_map, List.map_map]
    apply List.map_congr_left
    intro edge member
    exact Edge.given_reduced (least edge (Array.mem_toList_iff.mp member))
  refine ⟨leastToo, ?_, ?_⟩
  · funext vertex
    have shifts := edgeSum_of_perm perm fun given : Nat × Nat × Rat × Rat =>
      (if given.1 = vertex then given.2.2.2 else 0) -
        (if given.2.1 = vertex then given.2.2.2 else 0)
    rw [shiftedDemand, shiftedDemand, netOutflow_eq, netOutflow_eq]
    exact congrArg (demand vertex + ·) shifts
  · rw [givens other leastToo, givens network least]
    exact perm.map _

/-- Demands whose totals differ by more than the tolerance leave the network as it is.
All others are reduced to a problem without lower bounds that an assignment solves when
what it adds to the lower bounds solves it, and that the order of the edges does not change. -/
theorem reduceLowerBounds_equivalent (network : Network Rat) (wellFormed : network.WellFormed)
    (least : ∀ edge ∈ network.edges, 0 ≤ edge.lower) (demand : Nat → Rat) (tolerance : Rat) :
    (tolerance <
        |demandTotal network.vertexCount demand - supplyTotal network.vertexCount demand| →
      ∃ reduction,
        network.reduceLowerBounds ((List.range network.vertexCount).map demand) tolerance =
          (network, .ok reduction) ∧ reduction.stage = some .before) ∧
    (|demandTotal network.vertexCount demand - supplyTotal network.vertexCount demand| ≤
        tolerance →
      ∃ working reduction,
        network.reduceLowerBounds ((List.range network.vertexCount).map demand) tolerance =
          (working, .ok reduction) ∧ reduction.balanced = true ∧ SameShape network working ∧
        (∀ (position : Nat) (edge other : Edge Rat), network.edges[position]? = some edge →
          working.edges[position]? = some other →
          other.upper = edge.upper ∧ other.fullLower = edge.fullLower ∧ other.lower = 0 ∧
          other.capacity = edge.capacity - edge.lower) ∧
        reduction.adjustedDemands = (List.range network.vertexCount).map (fun vertex =>
          demand vertex + network.outflow (fun edge => edge.lower) vertex -
            network.inflow (fun edge => edge.lower) vertex) ∧
        (∀ assigned shifted : Nat → ℝ,
          (∀ edge ∈ network.edges, shifted edge.index = assigned edge.index - edge.lower) →
          (network.Meets (fun edge => (edge.lower : ℝ)) (fun edge => (edge.capacity : ℝ))
              (fun vertex => (demand vertex : ℝ)) (fun edge => assigned edge.index) ↔
            working.Meets (fun _ => 0) (fun edge => (edge.capacity : ℝ))
              (fun vertex => (reduction.adjustedDemands.getD vertex 0 : ℝ))
              (fun edge => shifted edge.index))) ∧
        ∀ other : Network Rat, other.WellFormed → other.vertexCount = network.vertexCount →
          (other.edges.toList.map Edge.given).Perm (network.edges.toList.map Edge.given) →
          ∃ reordered twin,
            other.reduceLowerBounds ((List.range network.vertexCount).map demand) tolerance =
              (reordered, .ok twin) ∧ twin.balanced = true ∧
            twin.adjustedDemands = reduction.adjustedDemands ∧
            twin.demand = reduction.demand ∧ twin.supply = reduction.supply ∧
            (reordered.edges.toList.map Edge.given).Perm
              (working.edges.toList.map Edge.given)) := by
  refine ⟨?_, ?_⟩
  · intro apart
    exact ⟨_, reduceLowerBounds_of_far (totals_rat _ _) (gap_rat _ _) (decide_eq_true apart), rfl⟩
  · intro near
    obtain ⟨reduction, folds, stage, adjusted, demands, supplies⟩ :=
      exact_folds wellFormed least near
    refine ⟨network.reduced, reduction, folds.computed wellFormed, ?_, network.sameShape_reduced,
      ?_, ?_, ?_, ?_⟩
    · rw [Reduction.balanced, stage]
      rfl
    · intro position edge other stands standsToo
      have kept := least edge (Array.mem_of_getElem? stands)
      rw [getElem?_reduced stands standsToo]
      exact ⟨Load.reduced_upper kept, Load.reduced_fullLower kept, Load.reduced_lower kept,
        Load.reduced_capacity kept⟩
    · rw [adjusted]
      apply List.map_congr_left
      intro vertex _
      rw [shiftedDemand, netOutflow, add_sub_assoc]
    · intro assigned shifted differ
      rw [meets_reduced_iff least differ]
      apply meets_congr
      intro vertex inside
      rw [← network.sameShape_reduced.vertexCount] at inside
      simp [adjusted, inside]
    · intro other otherForm count perm
      obtain ⟨leastToo, shifts, perms⟩ := reduced_of_perm demand least perm
      obtain ⟨twin, twinFolds, twinStage, twinAdjusted, twinDemands, twinSupplies⟩ :=
        exact_folds otherForm leastToo (count ▸ near)
      rw [count] at twinFolds twinAdjusted twinDemands twinSupplies
      refine ⟨other.reduced, twin, twinFolds.computed otherForm, ?_, ?_, ?_, ?_, perms⟩
      · rw [Reduction.balanced, twinStage]
        rfl
      · rw [twinAdjusted, adjusted, shifts]
      · rw [twinDemands, demands, shifts]
      · rw [twinSupplies, supplies, shifts]

/-- A loop with a lower bound shifts no demand. -/
theorem reduceLowerBounds_equivalent_loop :
    ∃ working reduction, (((Network.empty 2).attach 0 1 ⟨3, 1, 0, 0⟩).attach 1 1
        ⟨2, 2, 0, 0⟩ : Network Rat).reduceLowerBounds [-2, 2] 0 = (working, .ok reduction) ∧
      reduction.balanced = true ∧ reduction.adjustedDemands = [-1, 1] := by
  have wellFormed : (((Network.empty 2).attach 0 1 ⟨3, 1, 0, 0⟩).attach 1 1
      ⟨2, 2, 0, 0⟩ : Network Rat).WellFormed :=
    ((wellFormed_empty 2).attach (by simp) (by simp) _).attach (by simp) (by simp) _
  obtain ⟨-, near⟩ := reduceLowerBounds_equivalent _ wellFormed (by decide)
    (fun vertex => if vertex = 0 then -2 else 2) 0
  obtain ⟨working, reduction, computed, balanced, -, -, adjusted, -⟩ := near (by
    simp [demandTotal, supplyTotal, Finset.sum_range_succ])
  refine ⟨working, reduction, computed, balanced, ?_⟩
  rw [adjusted, vertexCount_attach, vertexCount_attach, vertexCount_empty]
  norm_num [outflow, inflow, edgeSum, attach, empty, List.range_succ]

end Exact
end NetworkFlow
