import NetworkFlow.Proofs.MaxFlow.Stages

namespace NetworkFlow

open Quantity ExactQuantity Network

namespace Network

section Boundary

variable {α : Type}

/-- The number of edges with exactly one end in a set of vertices. -/
def boundaryCount (network : Network α) (side : List Int) : Nat :=
  network.edges.toList.countP fun edge =>
    side.contains (edge.tail : Int) != side.contains (edge.head : Int)

/-- An amount on each of the edges that have a property adds up to their number of amounts. -/
theorem edgeSum_ite_const {K : Type} [Ring K] (network : Network α) (keeps : Edge α → Bool)
    (amount : K) : (network.edgeSum fun edge => if keeps edge then amount else 0) =
      amount * network.edges.toList.countP keeps := by
  rw [edgeSum]
  induction network.edges.toList with
  | nil => simp
  | cons edge rest inductionHypothesis =>
    rw [List.map_cons, List.sum_cons, inductionHypothesis, List.countP_cons]
    by_cases kept : keeps edge = true
    · rw [if_pos kept, if_pos kept, Nat.cast_add, Nat.cast_one, mul_add, mul_one, add_comm]
    · rw [if_neg kept, if_neg kept, zero_add, Nat.add_zero]

/-- An edge crosses the boundary of a set in one direction at most. -/
theorem leaving_add_entering_const (network : Network α) (amount : Rat) (side : List Nat) :
    network.leaving (fun _ => amount) side.toFinset +
        network.entering (fun _ => amount) side.toFinset =
      amount * network.boundaryCount (side.map Int.ofNat) := by
  rw [boundaryCount, ← edgeSum_ite_const, leaving, entering, ← edgeSum_add]
  apply edgeSum_congr
  intro edge _
  have listed (vertex : Nat) : (side.map Int.ofNat).contains (vertex : Int) =
      decide (vertex ∈ side.toFinset) := by
    simp [List.contains_eq_mem]
  rw [listed, listed]
  by_cases tail : edge.tail ∈ side.toFinset <;> by_cases head : edge.head ∈ side.toFinset <;>
    simp [tail, head]

/-- The boundary of a set depends on the ends of the edges only. -/
theorem SameShape.boundaryCount_eq {β : Type} {first : Network α} {second : Network β}
    (same : SameShape first second) (side : List Int) :
    first.boundaryCount side = second.boundaryCount side := by
  have counts := congrArg (List.countP fun place : Place =>
    side.contains (place.tail : Int) != side.contains (place.head : Int)) same.places
  rwa [List.countP_map, List.countP_map] at counts

end Boundary

/-- The capacity of a cut exceeds the value of a flow by the room that the flow leaves
on the edges out of the cut and by what it sends back into the cut. -/
theorem Carries.leaving_sub {network : Network Rat} {source sink : Nat} {total : Rat}
    (carries : network.Carries source sink total) (differ : source ≠ sink) {side : Finset Nat}
    (inside : source ∈ side) (outside : sink ∉ side) :
    network.leaving (fun edge => edge.capacity) side - total =
      network.leaving (fun edge => edge.capacity - edge.flow) side +
        network.entering (fun edge => edge.flow) side := by
  have sends := carries.isFlow.netOutflow_eq inside outside
  rw [carries.netOutflow_source differ] at sends
  rw [Network.leaving_sub, sends]
  ring

/-- A homomorphism of the rational numbers maps the capacity of a cut to that of the images. -/
theorem ratCast_leaving {α : Type} (network : Network α) (flow : Edge α → Rat)
    (side : Finset Nat) : ((network.leaving flow side : Rat) : ℝ) =
      network.leaving (fun edge => (flow edge : ℝ)) side :=
  map_leaving network (Rat.castHom ℝ).toAddMonoidHom flow side

end Network

namespace MaxFlow

/-- A solve that gives a result accepted its interval. -/
theorem interval_pos_of_ok {α : Type} [Quantity α] {network : Network α} {source sink : Nat}
    {options : Options α} {watch : Watch α} {result : Result α}
    (accepted : network.hasLowerBounds = false) (sourceInside : source < network.vertexCount)
    (sinkInside : sink < network.vertexCount) (differ : source ≠ sink)
    (ok : (solve network source sink options watch).outcome = .ok result) :
    0 < watch.interval := by
  by_contra refused
  simp only [solve, accepted, Bool.false_eq_true, if_false,
    checkTerminals_natCast sourceInside sinkInside differ, solveFrom,
    if_pos (not_lt.mp refused)] at ok
  cases ok

namespace Run.Settled

variable {α : Type} [Quantity α] [ExactQuantity α] {run : Run α} {exact last : Network Rat}
  {bound value : Rat} {source sink : Nat}

/-- The room left on the cut of a settled run is at most the tolerance for each edge that
crosses it. -/
theorem gap_le (settled : run.Settled bound source sink exact last value)
    (differ : source ≠ sink) :
    0 ≤ last.leaving (fun edge => edge.capacity) run.finder.side - value ∧
      last.leaving (fun edge => edge.capacity) run.finder.side - value ≤
        bound * last.boundaryCount (run.finder.reachable.map Int.ofNat) := by
  have found := settled.ended.found
  have most : last.leaving (fun edge => edge.capacity - edge.flow) run.finder.side ≤
      last.leaving (fun _ => bound) run.finder.side := by
    apply edgeSum_le_edgeSum
    intro edge member
    split
    · exact found.space_le member true (And.left ‹_›) (And.right ‹_›)
    · exact le_rfl
  have back : last.entering (fun edge => edge.flow) run.finder.side ≤
      last.entering (fun _ => bound) run.finder.side := by
    apply edgeSum_le_edgeSum
    intro edge member
    split
    · exact found.space_le member false (And.left ‹_›) (And.right ‹_›)
    · exact le_rfl
  have atMost := settled.carries.isFlow.netOutflow_le settled.source_mem settled.sink_not_mem
  rw [settled.carries.netOutflow_source differ] at atMost
  refine ⟨sub_nonneg.mpr atMost, ?_⟩
  rw [settled.carries.leaving_sub differ settled.source_mem settled.sink_not_mem,
    ← leaving_add_entering_const]
  exact add_le_add most back

end Run.Settled

section Exact

variable {network last : Network Rat} {ran : Run Rat} {source sink : Nat} {bound value : Rat}

/-- An edge of the network has its capacity, and the flow that a settled run from no flow left. -/
theorem Run.Settled.reset_edge
    (settled : ran.Settled bound source sink network.resetFlows last value)
    (wellFormed : network.WellFormed) (offsets : ∀ edge ∈ network.edges, edge.offset = 0)
    {edge : Edge Rat} (member : edge ∈ network.edges) :
    ∃ other ∈ last.edges, other.tail = edge.tail ∧ other.head = edge.head ∧
      other.capacity = edge.capacity ∧ last.totalAt edge.index = other.flow := by
  have stands : network.resetFlows.edges[edge.index]? = some { edge with flow := 0 } := by
    rw [resetFlows, Array.getElem?_map, wellFormed.getElem?_index member]
    rfl
  obtain ⟨other, found, place⟩ := settled.bounds.shape.getElem? stands
  obtain ⟨capacity, -, offset⟩ := settled.bounds.bounds stands found
  have none : other.offset = 0 := offset.trans (offsets edge member)
  exact ⟨other, Array.mem_of_getElem? found, congrArg Place.tail place, congrArg Place.head place,
    capacity, by rw [totalAt_eq found, none, add_zero]⟩

/-- The capacity of every cut is that of the network that a settled run from no flow left. -/
theorem Run.Settled.reset_leaving
    (settled : ran.Settled bound source sink network.resetFlows last value) (side : Finset Nat) :
    network.leaving (fun edge => edge.capacity) side =
      last.leaving (fun edge => edge.capacity) side := by
  apply ((sameShape_resetFlows network).trans settled.bounds.shape).leaving_eq
  intro position edge other stands standsToo
  have cleared : network.resetFlows.edges[position]? = some { edge with flow := 0 } := by
    rw [resetFlows, Array.getElem?_map, stands]
    rfl
  exact (settled.bounds.bounds cleared standsToo).1.symm

/-- The same edges cross a cut in the network that a settled run from no flow left. -/
theorem Run.Settled.reset_boundaryCount
    (settled : ran.Settled bound source sink network.resetFlows last value) (side : List Int) :
    last.boundaryCount side = network.boundaryCount side :=
  (((sameShape_resetFlows network).trans settled.bounds.shape).boundaryCount_eq side).symm

/-- In exact arithmetic a run from no flow is finished unless its watch halts it. -/
theorem run_finished_exact (wellFormed : network.WellFormed)
    (capacities : ∀ edge ∈ network.edges, 0 ≤ edge.capacity)
    (sourceInside : source < network.vertexCount) (sinkInside : sink < network.vertexCount)
    (differ : source ≠ sink) (nonneg : 0 ≤ bound) (watch : Watch Rat) :
    ((∀ report, watch.halts report = false) →
      (run network.resetFlows source sink bound watch).fault = none) ∧
    ((run network.resetFlows source sink bound watch).fault = none →
      ∃ last value, (run network.resetFlows source sink bound watch).Finished bound source sink
        network.resetFlows last value) := by
  have same := sameShape_resetFlows network
  have resetForm := wellFormed.ofSameShape same
  have carries : network.resetFlows.Carries source sink 0 :=
    (sound_start source sink bound capacities).carries
  have measured : network.resetFlows.Measured Rat :=
    ⟨⟨fun _ _ => trivial, fun _ _ => trivial⟩, trivial⟩
  refine ⟨?_, ?_⟩
  · intro quiet
    exact run_noFault quiet differ nonneg (standsFor_self _) resetForm rfl
      (same.vertexCount ▸ sourceInside) (same.vertexCount ▸ sinkInside) carries measured
  · intro noFault
    exact run_finished differ nonneg (standsFor_self _) resetForm rfl
      (same.vertexCount ▸ sourceInside) (same.vertexCount ▸ sinkInside) carries measured noFault

/-- A solve in exact arithmetic gives a result unless its watch halts it,
and every result is that of a settled run. -/
theorem solve_settled_exact (wellFormed : network.WellFormed)
    (capacities : ∀ edge ∈ network.edges, 0 ≤ edge.capacity)
    (accepted : network.hasLowerBounds = false) (sourceInside : source < network.vertexCount)
    (sinkInside : sink < network.vertexCount) (differ : source ≠ sink) {options : Options Rat}
    (nonneg : 0 ≤ options.tolerance) (watch : Watch Rat) :
    (0 < watch.interval → (∀ report, watch.halts report = false) →
      ∃ result, (solve network source sink options watch).outcome = .ok result) ∧
    ∀ result, (solve network source sink options watch).outcome = .ok result →
      ∃ (ran : Run Rat) (last : Network Rat), ran.Settled options.tolerance source sink
          network.resetFlows last result.value ∧
        result.minCut = ran.finder.reachable.map Int.ofNat ∧
        Gives result.flows network.edgeCount last.totalAt := by
  obtain ⟨succeeds, finishes⟩ := run_finished_exact wellFormed capacities sourceInside sinkInside
    differ nonneg watch
  refine ⟨?_, ?_⟩
  · intro interval quiet
    obtain ⟨last, value, finished⟩ := finishes (succeeds quiet)
    obtain ⟨result, computed, -⟩ := finished.exact_result (fun _ _ => ⟨trivial, trivial⟩)
      options.recordPaths
    rw [solve_eq options accepted sourceInside sinkInside differ interval]
    exact ⟨result, computed⟩
  · intro result ok
    have interval := interval_pos_of_ok accepted sourceInside sinkInside differ ok
    rw [solve_eq options accepted sourceInside sinkInside differ interval] at ok
    obtain ⟨last, value, finished⟩ := finishes (Run.result_eq_ok_iff.mp ok).1
    obtain ⟨other, computed, valued, cut, gives⟩ := finished.exact_result
      (fun _ _ => ⟨trivial, trivial⟩) options.recordPaths
    obtain rfl : other = result := Except.ok.inj (computed.symm.trans ok)
    have sameCount := ((sameShape_resetFlows network).trans
      (finished.bounds.shape.trans finished.network.shape.symm)).edgeCount
    have total : some other.value = some value := valued ▸ finished.total
    exact ⟨_, last, Option.some.inj total ▸ finished.toSettled, cut, sameCount ▸ gives⟩

end Exact

/-- In exact arithmetic a solve leaves at most the tolerance on each edge that crosses its cut,
so that the value of its flow is below a maximum by the tolerance for each of these edges
at most. -/
theorem solve_gap_le (network : Network Rat) (wellFormed : network.WellFormed)
    (capacities : ∀ edge ∈ network.edges, 0 ≤ edge.capacity)
    (lowers : ∀ edge ∈ network.edges, edge.lower = 0)
    (offsets : ∀ edge ∈ network.edges, edge.offset = 0) (source sink : Nat)
    (sourceInside : source < network.vertexCount) (sinkInside : sink < network.vertexCount)
    (differ : source ≠ sink) (options : Options Rat) (nonneg : 0 ≤ options.tolerance)
    (watch : Watch Rat) :
    (0 < watch.interval → (∀ report, watch.halts report = false) →
      ∃ result, (solve network source sink options watch).outcome = .ok result) ∧
    ∀ result, (solve network source sink options watch).outcome = .ok result →
      (∀ edge ∈ network.edges, ∃ flow, result.flows.find? edge.index = some flow ∧
        ((edge.tail : Int) ∈ result.minCut → (edge.head : Int) ∉ result.minCut →
          edge.capacity - flow ≤ options.tolerance) ∧
        ((edge.head : Int) ∈ result.minCut → (edge.tail : Int) ∉ result.minCut →
          flow ≤ options.tolerance)) ∧
      ∃ cut, network.cutCapacity result.minCut = .ok cut ∧ 0 ≤ cut - result.value ∧
        cut - result.value ≤ options.tolerance * network.boundaryCount result.minCut ∧
        ∀ other : Edge Rat → ℝ,
          network.IsFlow source sink (fun edge => (edge.capacity : ℝ)) other →
          network.netOutflow other source ≤
            result.value + options.tolerance * network.boundaryCount result.minCut := by
  have accepted : network.hasLowerBounds = false := hasLowerBounds_eq_false
    (fun edge member => congrArg some (lowers edge member))
    (fun edge member => congrArg some (offsets edge member))
  obtain ⟨succeeds, settles⟩ := solve_settled_exact wellFormed capacities accepted sourceInside
    sinkInside differ nonneg watch
  refine ⟨succeeds, ?_⟩
  intro result ok
  obtain ⟨ran, last, settled, minCut, gives⟩ := settles result ok
  have uppers : ∀ edge ∈ network.edges, ∃ bound, edge.upper = .ok bound ∧
      value? bound = some edge.capacity := by
    intro edge member
    refine ⟨edge.capacity + edge.offset, rfl, ?_⟩
    rw [offsets edge member, add_zero]
    rfl
  obtain ⟨cut, cuts, known⟩ := exact_cutCapacity wellFormed uppers (fun _ _ => trivial) capacities
    trivial ran.finder.reachable
  obtain rfl : cut = network.leaving (fun edge => edge.capacity) ran.finder.side :=
    Option.some.inj known
  obtain ⟨least, most⟩ := settled.gap_le differ
  rw [← settled.reset_leaving] at least most
  rw [settled.reset_boundaryCount, ← minCut] at most
  refine ⟨?_, _, minCut ▸ cuts, least, most, ?_⟩
  · intro edge member
    obtain ⟨other, inside, tail, head, capacity, total⟩ :=
      settled.reset_edge wellFormed offsets member
    obtain ⟨flow, read, stands⟩ := gives.value edge.index (wellFormed.index_lt member)
    obtain rfl : flow = other.flow := (Option.some.inj stands).trans total
    have found := settled.ended.found
    rw [minCut, Finder.natCast_mem_reachable_iff, Finder.natCast_mem_reachable_iff, ← tail,
      ← head, ← capacity]
    refine ⟨_, read, ?_, ?_⟩
    · exact fun leaves enters => found.space_le inside true leaves enters
    · exact fun enters leaves => found.space_le inside false enters leaves
  · intro other isFlow
    have below := isFlow.netOutflow_le settled.source_mem settled.sink_not_mem
    rw [← ratCast_leaving] at below
    have gap : ((network.leaving (fun edge => edge.capacity) ran.finder.side : Rat) : ℝ) ≤
        ((result.value + options.tolerance * network.boundaryCount result.minCut : Rat) : ℝ) :=
      Rat.cast_le.mpr (sub_le_iff_le_add'.mp most)
    push_cast at gap
    exact below.trans gap

/-- Half a unit of an edge may stay unused, and so may an edge back. -/
theorem solve_gap_le_halves :
    ∃ result cut, (solve (((Network.empty 2).attach 0 1 ⟨3 / 2, 0, 0, 0⟩).attach 1 0
        ⟨1, 0, 0, 0⟩ : Network Rat) 0 1 ⟨1 / 2, false⟩ .idle).outcome = .ok result ∧
      (((Network.empty 2).attach 0 1 ⟨3 / 2, 0, 0, 0⟩).attach 1 0
        ⟨1, 0, 0, 0⟩ : Network Rat).cutCapacity result.minCut = .ok cut ∧
      0 ≤ cut - result.value ∧
      cut - result.value ≤ 1 / 2 * (((Network.empty 2).attach 0 1 ⟨3 / 2, 0, 0, 0⟩).attach 1 0
        ⟨1, 0, 0, 0⟩ : Network Rat).boundaryCount result.minCut := by
  have wellFormed : (((Network.empty 2).attach 0 1 ⟨3 / 2, 0, 0, 0⟩).attach 1 0
      ⟨1, 0, 0, 0⟩ : Network Rat).WellFormed :=
    ((wellFormed_empty 2).attach (by simp) (by simp) _).attach (by simp) (by simp) _
  have capacities : ∀ edge ∈ (((Network.empty 2).attach 0 1 ⟨3 / 2, 0, 0, 0⟩).attach 1 0
      ⟨1, 0, 0, 0⟩ : Network Rat).edges, 0 ≤ edge.capacity := by
    simp only [attach, empty, Array.push_empty, Array.mem_push]
    norm_num
  obtain ⟨succeeds, bounds⟩ := solve_gap_le _ wellFormed capacities (by decide) (by decide) 0 1
    (by simp) (by simp) (by decide) ⟨1 / 2, false⟩ (by norm_num) .idle
  obtain ⟨result, computed⟩ := succeeds (by decide) fun _ => rfl
  obtain ⟨-, cut, cuts, least, most, -⟩ := bounds result computed
  exact ⟨result, cut, computed, cuts, least, most⟩

end MaxFlow
end NetworkFlow
