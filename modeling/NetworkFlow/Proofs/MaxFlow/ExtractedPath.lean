import NetworkFlow.Proofs.Flow.CarryingPath
import NetworkFlow.Proofs.MaxFlow.CanonicalCut

namespace NetworkFlow

open Quantity ExactQuantity Network

namespace Network

variable {α K : Type} [AddCommGroup K] [LinearOrder K] [IsOrderedAddMonoid K]

/-- A vertex supplies another when an edge from the one to the other has a positive flow. -/
def Supplies (network : Network α) (flow : Edge α → K) (origin target : Nat) : Prop :=
  ∃ edge ∈ network.edges, edge.tail = origin ∧ edge.head = target ∧ 0 < flow edge

/-- A flow of positive value reaches the sink along edges with a positive flow. -/
theorem IsFlow.exists_walk {network : Network α} (wellFormed : network.WellFormed)
    {source sink : Nat} {capacity flow : Edge α → K}
    (isFlow : network.IsFlow source sink capacity flow)
    (sourceInside : source < network.vertexCount)
    (positive : 0 < network.netOutflow flow source) :
    ∃ length, Walk (network.Supplies flow) source length sink := by
  classical
  by_contra unreached
  obtain ⟨side, reached⟩ : ∃ side : Finset Nat, ∀ vertex, vertex ∈ side ↔
      vertex < network.vertexCount ∧
        ∃ length, Walk (network.Supplies flow) source length vertex :=
    ⟨(Finset.range network.vertexCount).filter fun vertex =>
      ∃ length, Walk (network.Supplies flow) source length vertex, fun vertex => by
        rw [Finset.mem_filter, Finset.mem_range]⟩
  have inside : source ∈ side := (reached source).mpr ⟨sourceInside, 0, .start⟩
  have outside : sink ∉ side := fun member => unreached ((reached sink).mp member).2
  have dry : network.leaving flow side = 0 := by
    refine (edgeSum_congr fun edge member => ?_).trans (edgeSum_zero network)
    split
    case isFalse => rfl
    case isTrue leaves =>
      obtain ⟨-, length, walk⟩ := (reached edge.tail).mp leaves.1
      by_contra some
      have wide : 0 < flow edge := lt_of_le_of_ne (isFlow.nonneg edge member) (Ne.symm some)
      exact leaves.2 ((reached edge.head).mpr ⟨wellFormed.head edge member, length + 1,
        walk.extend ⟨edge, member, rfl, rfl, wide⟩⟩)
  rw [isFlow.netOutflow_eq inside outside, dry, zero_sub, neg_pos] at positive
  exact absurd positive (not_lt.mpr (entering_nonneg isFlow.nonneg side))

/-- A flow that fills a cut has a positive value when it reaches the sink
along edges with a positive flow. -/
theorem IsFlow.pos_of_walk {network : Network α} {source sink : Nat}
    {capacity flow : Edge α → K} (isFlow : network.IsFlow source sink capacity flow)
    {side : Finset Nat} (inside : source ∈ side) (outside : sink ∉ side)
    (whole : network.netOutflow flow source = network.leaving capacity side) {length : Nat}
    (walk : Walk (network.Supplies flow) source length sink) :
    0 < network.netOutflow flow source := by
  by_contra empty
  refine outside (walk.mem_of_closed inside ?_)
  rintro _ _ ⟨edge, member, rfl, rfl, wide⟩ tail
  by_contra head
  have nonneg : ∀ other ∈ network.edges,
      0 ≤ if other.tail ∈ side ∧ other.head ∉ side then capacity other else 0 := by
    intro other present
    split
    · exact (isFlow.nonneg other present).trans (isFlow.atMost other present)
    · exact le_rfl
  have crossing : capacity edge ≤ network.leaving capacity side := by
    have single := le_edgeSum nonneg member
    rwa [if_pos ⟨tail, head⟩] at single
  rw [← whole] at crossing
  exact empty (wide.trans_le ((isFlow.atMost edge member).trans crossing))

end Network

namespace MaxFlow

variable {network : Network Number} {capacity : Nat → Nat} {source sink : Nat}

/-- The loaded arcs of a settled run are its edges with a positive flow,
whatever tolerance below one sets them apart. -/
theorem Run.Settled.leads_loaded {run : Run Number} {last : Network Rat} {bound value : Rat}
    (settled : run.Settled bound source sink (network.integral capacity fun _ => 0) last value)
    (wellFormed : network.WellFormed) {flows : Table Int Number}
    (gives : Gives flows run.network.edgeCount last.totalAt) {level : Number} {least : Rat}
    (levels : value? level = some least) (nonneg : 0 ≤ least) (below : least < 1) :
    Leads (run.network.Loaded flows level) =
      network.Supplies fun edge => ⌊last.flowAt edge.index⌋ := by
  rw [← settled.leftShape.edgeCount] at gives
  funext origin target
  refine propext ⟨?_, ?_⟩
  · rintro ⟨position, edge, flow, stands, tail, head, found, wide⟩
    obtain ⟨twin, before, place⟩ := settled.leftShape.symm.getElem? stands
    have member := Array.mem_of_getElem? before
    obtain ⟨number, read, known⟩ := settled.integer_flow wellFormed gives member
    rw [wellFormed.index_eq before] at read
    obtain rfl := Option.some.inj (found.symm.trans read)
    rw [less_eq_decide levels known, decide_eq_true_eq] at wide
    refine ⟨twin, member, ?_, ?_, ?_⟩
    · rw [Edge.place_tail place]
      exact tail
    · rw [Edge.place_head place]
      exact head
    · exact_mod_cast nonneg.trans_lt wide
  · rintro ⟨twin, member, rfl, rfl, wide⟩
    have before := wellFormed.getElem?_index member
    obtain ⟨edge, stands, place⟩ := settled.leftShape.getElem? before
    obtain ⟨number, read, known⟩ := settled.integer_flow wellFormed gives member
    refine ⟨twin.index, edge, number, stands, Edge.place_tail place, Edge.place_head place, read,
      ?_⟩
    rw [less_eq_decide levels known, decide_eq_true_eq]
    exact below.trans_le (by exact_mod_cast wide)

/-- After a solve with integer capacities that total at most 2^53 a path can be extracted
exactly when the value of the flow is positive. -/
theorem solve_extractable (network : Network Number) (assembled : network.Assembled)
    (capacity : Nat → Nat)
    (capacities : ∀ edge ∈ network.edges,
      value? edge.capacity = some (capacity edge.index : Rat))
    (lowers : ∀ edge ∈ network.edges, value? edge.lower = some 0)
    (small : network.edgeSum (fun edge => (capacity edge.index : Int)) ≤ 2 ^ 53)
    (source sink : Nat) (sourceInside : source < network.vertexCount)
    (sinkInside : sink < network.vertexCount) (differ : source ≠ sink)
    (options : Options Number) (tolerance : Rat)
    (tolerances : value? options.tolerance = some tolerance) (nonneg : 0 ≤ tolerance)
    (below : tolerance < 1) (watch : Watch Number) (interval : 0 < watch.interval)
    (quiet : ∀ report, watch.halts report = false) (level : Number) (least : Rat)
    (levels : value? level = some least) (levelNonneg : 0 ≤ least) (levelBelow : least < 1) :
    ∃ (result : Result Number) (value : Rat) (answer : Option (FlowPath Number)),
      (solve network source sink options watch).outcome = .ok result ∧
      value? result.value = some value ∧
      (solve network source sink options watch).network.extractPath result.flows source sink
        level = .ok answer ∧ (answer ≠ none ↔ 0 < value) := by
  have capacitated := assembled.capacitated capacities lowers small
  have wellFormed := assembled.wellFormed
  obtain ⟨ran, last, value, result, settled, leaves, computed, valued, -, gives⟩ := solve_finished
    capacitated sourceInside sinkInside differ tolerances nonneg interval quiet
  have sends : value =
      (network.netOutflow (fun edge => ⌊last.flowAt edge.index⌋) source : Int) := by
    rw [settled.cast_netOutflow wellFormed, settled.carries.netOutflow_source differ]
  have isFlow := settled.isFlow wellFormed
  have loaded := settled.leads_loaded wellFormed gives levels levelNonneg levelBelow
  have count := settled.leftShape.vertexCount
  rcases extractPath_cases settled.leftForm result.flows (count ▸ sourceInside)
    (count ▸ sinkInside) differ ((lessEq_iff value?_zero levels).mpr levelNonneg) with
    ⟨path, extracted, ⟨length, walk⟩, -⟩ | ⟨extracted, unreached⟩
  · rw [loaded] at walk
    have positive := isFlow.pos_of_walk settled.source_mem settled.sink_not_mem
      (settled.netOutflow_eq wellFormed differ below) walk
    refine ⟨result, value, some path, computed, valued, leaves ▸ extracted, ?_⟩
    exact ⟨fun _ => sends ▸ Int.cast_pos.mpr positive, fun _ => nofun⟩
  · rw [loaded] at unreached
    refine ⟨result, value, none, computed, valued, leaves ▸ extracted, ?_⟩
    refine ⟨fun other => absurd rfl other, fun positive => ?_⟩
    rw [sends, Int.cast_pos] at positive
    exact absurd (isFlow.exists_walk wellFormed sourceInside positive) unreached

/-- The flow through a path of two edges can be extracted. -/
theorem solve_extractable_path :
    ∃ result path, (solve (((empty 3).attach 0 1 ⟨Number.int 2, .int 0, zero, zero⟩).attach 1 2
        ⟨.int 1, .int 0, zero, zero⟩) 0 2 ⟨.int 0, false⟩ .idle).outcome = .ok result ∧
      (solve (((empty 3).attach 0 1 ⟨Number.int 2, .int 0, zero, zero⟩).attach 1 2
        ⟨.int 1, .int 0, zero, zero⟩) 0 2 ⟨.int 0, false⟩ .idle).network.extractPath
          result.flows 0 2 (.int 0) = .ok (some path) := by
  have assembled : (((empty 3).attach 0 1 ⟨Number.int 2, .int 0, zero, zero⟩).attach 1 2
      ⟨.int 1, .int 0, zero, zero⟩).Assembled :=
    ((assembled_empty 3).attach_int (by simp) (by simp) le_rfl (by decide) (by decide)).attach_int
      (by simp) (by simp) le_rfl (by decide) (by decide)
  have known : (solve (((empty 3).attach 0 1 ⟨Number.int 2, .int 0, zero, zero⟩).attach 1 2
      ⟨.int 1, .int 0, zero, zero⟩) 0 2 ⟨.int 0, false⟩ .idle).outcome.toOption.map
        (fun result => less zero result.value) = some true := by decide +kernel
  obtain ⟨result, value, answer, computed, valued, extracted, decides⟩ := solve_extractable _
    assembled (fun index => 2 - index) (by simp [attach, empty, Number.value?_int])
    (by simp [attach, empty, Number.value?_int]) (by decide) 0 2 (by simp) (by simp) (by decide)
    ⟨.int 0, false⟩ 0 value?_ofInt_zero le_rfl one_pos .idle (by decide) (fun _ => rfl) (.int 0) 0
    value?_ofInt_zero le_rfl one_pos
  have computedHere : (solve (((empty 3).attach 0 1 ⟨Number.int 2, .int 0, zero, zero⟩).attach 1 2
      ⟨.int 1, .int 0, zero, zero⟩) 0 2 ⟨.int 0, false⟩ .idle).outcome = .ok result := computed
  rw [computedHere] at known
  have positive := (less_iff value?_zero valued).mp (Option.some.inj known)
  obtain ⟨path, rfl⟩ := Option.ne_none_iff_exists'.mp (decides.mpr positive)
  exact ⟨result, path, computedHere, extracted⟩

end MaxFlow
end NetworkFlow
