/-
This file merges a network with a flow that fills a cut, as every maximum flow does.
The flow on a drawn edge is then the exact sum of the flows on its bundle, so that it is zero only
when the whole bundle is idle.
-/
import NetworkFlow.Proofs.Drawing.Merging
import NetworkFlow.Proofs.Drawing.Widths
import NetworkFlow.Proofs.MaxFlow.FlowsOnly
import NetworkFlow.Proofs.MaxFlow.WarmStart

namespace NetworkFlow

open Quantity ExactQuantity Network

namespace DrawnGraph

/-- The sum of exact amounts over edges is exact while it has at most 53 bits. -/
theorem exact_sumOver {amount : Edge Number → Except (Fault Number) Number}
    {exact : Edge Number → Int} {edges : List (Edge Number)}
    (each : ∀ edge ∈ edges, ∃ number, amount edge = .ok number ∧
      value? number = some (exact edge : Rat))
    (nonneg : ∀ edge ∈ edges, 0 ≤ exact edge) (small : (edges.map exact).sum ≤ 2 ^ 53) :
    ∃ sum, sumOver amount edges = .ok sum ∧ value? sum = some ((edges.map exact).sum : Rat) := by
  induction edges using List.reverseRecOn with
  | nil => exact ⟨zero, rfl, by simp [value?_zero]⟩
  | append_singleton done edge inductionHypothesis =>
    obtain ⟨more, computed, known⟩ := each edge (by simp)
    have least : 0 ≤ (done.map exact).sum :=
      List.sum_nonneg (List.forall_mem_map.mpr fun other listed => nonneg other (by simp [listed]))
    have leastToo := nonneg edge (by simp)
    rw [List.map_append, List.map_singleton, List.sum_append, List.sum_singleton] at small ⊢
    by_cases nonempty : done = []
    · subst nonempty
      exact ⟨more, by rw [List.nil_append, sumOver_singleton, computed], by simpa using known⟩
    · obtain ⟨sum, summed, stands⟩ := inductionHypothesis
        (fun other member => each other (by simp [member]))
        (fun other member => nonneg other (by simp [member])) (by omega)
      have fits {value : Int} (low : 0 ≤ value) (high : value ≤ 2 ^ 53) :
          Fits Number (value : Rat) := Number.fits_intCast (by omega)
      obtain ⟨total, added, stood⟩ := exact_add stands known (fits least (by omega))
        (fits leastToo (by omega)) (by exact_mod_cast fits (add_nonneg least leastToo) small)
      refine ⟨total, ?_, by rw [stood]; push_cast; rfl⟩
      rw [sumOver_snoc nonempty, summed, ok_bind, computed, ok_bind, added]

end DrawnGraph

/-- A table of flows fills a cut when its flows are within the capacities, and equal to them on
the edges that leave the cut. -/
structure Network.Fills (network : Network Number) (capacity : Nat → Nat) (flows : Table Int Number)
    (flow : Nat → Int) (cut : List Nat) : Prop where
  capacitated : network.Capacitated capacity
  given : ∀ edge ∈ network.edges, ∃ number, flows.find? edge.index = some number ∧
    value? number = some (flow edge.index : Rat)
  nonneg : ∀ edge ∈ network.edges, 0 ≤ flow edge.index
  atMost : ∀ edge ∈ network.edges, flow edge.index ≤ capacity edge.index
  full : ∀ edge ∈ network.edges, edge.tail ∈ cut → edge.head ∉ cut →
    flow edge.index = capacity edge.index

namespace Network.Fills

open DrawnGraph

variable {network : Network Number} {capacity : Nat → Nat} {flows : Table Int Number}
  {flow : Nat → Int} {cut : List Nat} {labels : Option (List Text)}

/-- The capacity of an edge fits. -/
theorem capacity_le (fills : network.Fills capacity flows flow cut) {edge : Edge Number}
    (member : edge ∈ network.edges) : (capacity edge.index : Int) ≤ 2 ^ 53 :=
  (le_edgeSum (fun other _ => Int.natCast_nonneg (capacity other.index)) member).trans
    fills.capacitated.small

/-- The upper bound of an edge is its capacity, and its lower bound is zero. -/
theorem exact_bounds (fills : network.Fills capacity flows flow cut) {edge : Edge Number}
    (member : edge ∈ network.edges) :
    (∃ upper, edge.upper = .ok upper ∧ value? upper = some ((capacity edge.index : Int) : Rat)) ∧
      ∃ lower, edge.fullLower = .ok lower ∧ value? lower = some ((0 : Int) : Rat) := by
  have offset := fills.capacitated.offsets edge member
  constructor
  · have small := fills.capacity_le member
    have fits : Fits Number (capacity edge.index : Rat) := Number.fits_natCast (by omega)
    obtain ⟨upper, added, known⟩ := exact_add (fills.capacitated.capacities edge member) offset fits
      fits_zero (by rwa [add_zero])
    exact ⟨upper, added, by rw [known, add_zero, Int.cast_natCast]⟩
  · have lowers := fills.capacitated.lowers edge member
    obtain ⟨lower, added, known⟩ := exact_add lowers offset fits_zero fits_zero
      (by rw [add_zero]; exact fits_zero)
    exact ⟨lower, added, by rw [known, add_zero, Int.cast_zero]⟩

/-- The capacities of a bundle total at most 2^53. -/
theorem bundle_small (fills : network.Fills capacity flows flow cut)
    (labels : Option (List Text)) (key : Text × Text) :
    ((bundle labels network.edges.toList key).map fun edge => (capacity edge.index : Int)).sum ≤
      2 ^ 53 := by
  refine le_trans ?_ fills.capacitated.small
  exact (List.filter_sublist.map _).sum_le_sum
    (List.forall_mem_map.mpr fun edge _ => Int.natCast_nonneg _)

/-- The flows of a bundle total at most 2^53 too. -/
theorem bundle_flow_small (fills : network.Fills capacity flows flow cut)
    (labels : Option (List Text)) (key : Text × Text) :
    ((bundle labels network.edges.toList key).map fun edge => flow edge.index).sum ≤ 2 ^ 53 :=
  (List.sum_le_sum fun edge member => fills.atMost edge (mem_of_bundle member)).trans
    (fills.bundle_small labels key)

theorem bundle_flow_nonneg (fills : network.Fills capacity flows flow cut)
    (labels : Option (List Text)) (key : Text × Text) :
    0 ≤ ((bundle labels network.edges.toList key).map fun edge => flow edge.index).sum :=
  List.sum_nonneg (List.forall_mem_map.mpr fun edge listed =>
    fills.nonneg edge (mem_of_bundle listed))

/-- The upper bounds of a bundle have a whole sum. -/
theorem exists_upper (fills : network.Fills capacity flows flow cut)
    (labels : Option (List Text)) (key : Text × Text) :
    ∃ upper, sumOver (fun edge => edge.upper) (bundle labels network.edges.toList key) =
      .ok upper ∧ upper.Whole := by
  have most := fills.bundle_small labels key
  have least : 0 ≤ ((bundle labels network.edges.toList key).map fun edge =>
      (capacity edge.index : Int)).sum :=
    List.sum_nonneg (List.forall_mem_map.mpr fun edge _ => Int.natCast_nonneg _)
  obtain ⟨upper, summed, known⟩ := exact_sumOver
    (fun edge member => (fills.exact_bounds (mem_of_bundle member)).1)
    (fun edge _ => Int.natCast_nonneg (capacity edge.index)) most
  exact ⟨upper, summed, _, known, by omega⟩

/-- The flows of a bundle have an exact sum. -/
theorem exists_flow (fills : network.Fills capacity flows flow cut)
    (labels : Option (List Text)) (key : Text × Text) :
    ∃ total, sumOver (drawnFlow (some flows)) (bundle labels network.edges.toList key) =
        .ok total ∧
      value? total = some ((((bundle labels network.edges.toList key).map fun edge =>
        flow edge.index).sum : Int) : Rat) := by
  refine exact_sumOver (fun edge member => ?_)
    (fun edge member => fills.nonneg edge (mem_of_bundle member))
    (fills.bundle_flow_small labels key)
  obtain ⟨number, found, known⟩ := fills.given edge (mem_of_bundle member)
  exact ⟨number, by rw [drawnFlow, found, Option.getD_some], known⟩

/-- The network can be merged for any labels. -/
theorem exists_merged (fills : network.Fills capacity flows flow cut)
    (labels : Option (List Text)) :
    ∃ merged, ofNetwork network labels (some flows) = .ok merged := by
  refine exists_ofNetwork_iff.mpr fun key => ?_
  obtain ⟨upper, uppers, -⟩ := fills.exists_upper labels key
  obtain ⟨total, totals, -⟩ := fills.exists_flow labels key
  obtain ⟨lower, lowers, -⟩ := exact_sumOver
    (fun edge member => (fills.exact_bounds (mem_of_bundle member)).2) (fun _ _ => le_rfl) (by simp)
  exact ⟨⟨upper, uppers⟩, ⟨lower, lowers⟩, ⟨total, totals⟩⟩

variable {merged : DrawnGraph Number} {key : Text × Text} {drawn : DrawnEdge Number}

theorem whole_upper (fills : network.Fills capacity flows flow cut)
    (computed : ofNetwork network labels (some flows) = .ok merged)
    (found : merged.edges.find? key = some drawn) : drawn.upper.Whole := by
  obtain ⟨upper, summed, whole⟩ := fills.exists_upper labels key
  rw [(standsFor_of_find? computed found).2.upper] at summed
  exact Except.ok.inj summed ▸ whole

/-- A drawn edge has the sum of the flows between its names. -/
theorem value?_flow (fills : network.Fills capacity flows flow cut)
    (computed : ofNetwork network labels (some flows) = .ok merged)
    (found : merged.edges.find? key = some drawn) :
    value? drawn.flow = some ((((bundle labels network.edges.toList key).map fun edge =>
      flow edge.index).sum : Int) : Rat) := by
  obtain ⟨total, summed, known⟩ := fills.exists_flow labels key
  rw [(standsFor_of_find? computed found).2.flow] at summed
  exact Except.ok.inj summed ▸ known

theorem whole_flow (fills : network.Fills capacity flows flow cut)
    (computed : ofNetwork network labels (some flows) = .ok merged)
    (found : merged.edges.find? key = some drawn) : drawn.flow.Whole := by
  have least := fills.bundle_flow_nonneg labels key
  have most := fills.bundle_flow_small labels key
  exact ⟨_, fills.value?_flow computed found, by omega⟩

/-- The flow on a drawn edge is zero exactly when all edges between its names are idle. -/
theorem flow_eq_zero_iff (fills : network.Fills capacity flows flow cut)
    (computed : ofNetwork network labels (some flows) = .ok merged)
    (found : merged.edges.find? key = some drawn) :
    value? drawn.flow = some 0 ↔
      ∀ edge ∈ network.edges, ends labels edge = key → flow edge.index = 0 := by
  rw [fills.value?_flow computed found, Option.some.injEq, Int.cast_eq_zero]
  constructor
  · intro idle edge member names
    have inside := mem_bundle.mpr ⟨Array.mem_toList_iff.mpr member, names⟩
    exact List.all_zero_of_le_zero_le_of_sum_eq_zero
      (List.forall_mem_map.mpr fun other listed => fills.nonneg other (mem_of_bundle listed)) idle
      (List.mem_map_of_mem inside)
  · intro idle
    exact List.sum_eq_zero (List.forall_mem_map.mpr fun edge listed =>
      idle edge (mem_of_bundle listed) (mem_bundle.mp listed).2)

/-- A drawing hides an edge exactly when its flow is zero. -/
theorem isZero_iff (fills : network.Fills capacity flows flow cut)
    (computed : ofNetwork network labels (some flows) = .ok merged)
    (found : merged.edges.find? key = some drawn) :
    Drawing.isZero drawn.flow ↔ value? drawn.flow = some 0 := by
  have stands := fills.value?_flow computed found
  rw [Drawing.isZero, Number.same_iff stands (Number.value?_int 0), stands, Option.some.injEq,
    Int.cast_zero]

end Network.Fills

/-- Networks that differ in their flows only have the same capacities. -/
theorem Network.Capacitated.of_resetFlows {first second : Network Number} {capacity : Nat → Nat}
    (capacitated : first.Capacitated capacity) (same : second.resetFlows = first.resetFlows) :
    second.Capacitated capacity := by
  have twin : ∀ edge ∈ second.edges, ∃ other ∈ first.edges, other.index = edge.index ∧
      other.capacity = edge.capacity ∧ other.lower = edge.lower ∧ other.offset = edge.offset := by
    intro edge member
    have cleared : { edge with flow := zero } ∈ second.resetFlows.edges :=
      Array.mem_map.mpr ⟨edge, member, rfl⟩
    rw [same] at cleared
    obtain ⟨other, listed, equal⟩ := Array.mem_map.mp cleared
    rw [Edge.mk.injEq, Load.mk.injEq] at equal
    obtain ⟨⟨capacities, lowers, -, offsets⟩, -, -, index⟩ := equal
    exact ⟨other, listed, index, capacities, lowers, offsets⟩
  have shape := Network.sameShape_of_resetFlows same
  have wellFormed := capacitated.wellFormed.ofSameShape shape.symm
  refine ⟨wellFormed, ?_, ?_, ?_, ?_⟩
  · intro edge member
    obtain ⟨other, listed, index, capacities, -⟩ := twin edge member
    exact capacities ▸ index ▸ capacitated.capacities other listed
  · intro edge member
    obtain ⟨other, listed, -, -, lowers, -⟩ := twin edge member
    exact lowers ▸ capacitated.lowers other listed
  · intro edge member
    obtain ⟨other, listed, -, -, -, offsets⟩ := twin edge member
    exact offsets ▸ capacitated.offsets other listed
  · refine le_of_eq_of_le (shape.edgeSum_eq ?_) capacitated.small
    intro position edge other stands standsToo
    rw [wellFormed.index_eq stands, capacitated.wellFormed.index_eq standsToo]

/-- No cut has a capacity above the total. -/
theorem Network.Capacitated.leaving_le {network : Network Number} {capacity : Nat → Nat}
    (capacitated : network.Capacitated capacity) (side : Finset Nat) :
    network.leaving (fun edge => (capacity edge.index : Int)) side ≤ 2 ^ 53 := by
  refine le_trans (edgeSum_le_edgeSum fun edge _ => ?_) capacitated.small
  split
  · exact le_rfl
  · exact Int.natCast_nonneg _

namespace MaxFlow

variable {network : Network Number} {capacity : Nat → Nat} {source sink : Nat}

/-- The value of a settled run is whole. -/
theorem Run.Settled.whole_value {run : Run Number} {last : Network Rat} {bound value : Rat}
    (settled : run.Settled bound source sink (network.integral capacity fun _ => 0) last value)
    (capacitated : network.Capacitated capacity) (differ : source ≠ sink) (below : bound < 1)
    {number : Number} (valued : value? number = some value) : number.Whole := by
  have least := leaving_nonneg (fun (edge : Edge Number) (_ : edge ∈ network.edges) =>
    Int.natCast_nonneg (capacity edge.index)) run.finder.side
  have most := capacitated.leaving_le run.finder.side
  refine ⟨network.leaving (fun edge => (capacity edge.index : Int)) run.finder.side, ?_, by omega⟩
  rw [valued, settled.total_eq differ (discrete_number below), settled.leaving_eq, intCast_leaving]
  simp only [Int.cast_natCast]

/-- A settled run fills its cut. -/
theorem Run.Settled.fills {run : Run Number} {last : Network Rat} {bound value : Rat}
    (settled : run.Settled bound source sink (network.integral capacity fun _ => 0) last value)
    (wellFormed : network.WellFormed) (left : run.network.Capacitated capacity)
    (differ : source ≠ sink) (below : bound < 1) {flows : Table Int Number}
    (gives : Gives flows run.network.edgeCount last.totalAt) :
    run.network.Fills capacity flows (fun position => ⌊last.flowAt position⌋)
      run.finder.reachable := by
  have isFlow := settled.isFlow wellFormed
  have leftFlow := settled.leftShape.isFlow wellFormed (fun position => (capacity position : Int))
    (fun position => ⌊last.flowAt position⌋) isFlow
  obtain ⟨full, -⟩ := isFlow.tight settled.source_mem settled.sink_not_mem
    (settled.netOutflow_eq wellFormed differ below)
  rw [← settled.leftShape.edgeCount] at gives
  refine ⟨left, ?_, leftFlow.nonneg, leftFlow.atMost, ?_⟩
  · intro edge member
    obtain ⟨other, listed, place⟩ := settled.leftShape.exists_place member
    have index : other.index = edge.index := congrArg Place.index place
    exact index ▸ settled.integer_flow wellFormed gives listed
  · intro edge member tail head
    obtain ⟨other, listed, place⟩ := settled.leftShape.exists_place member
    have index : other.index = edge.index := congrArg Place.index place
    rw [← Edge.place_tail place] at tail
    rw [← Edge.place_head place] at head
    exact index ▸ full other listed (List.mem_toFinset.mpr tail)
      fun member => head (List.mem_toFinset.mp member)

end MaxFlow
end NetworkFlow
