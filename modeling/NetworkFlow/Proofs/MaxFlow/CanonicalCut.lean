import NetworkFlow.Proofs.Flow.LeastCut
import NetworkFlow.Proofs.MaxFlow.Optimality

namespace NetworkFlow

open Quantity ExactQuantity Network

/-- What a caller says of an edge. The order of the edges and their flows are left out. -/
def Edge.given {α : Type} (edge : Edge α) : Nat × Nat × α × α :=
  (edge.tail, edge.head, edge.capacity, edge.lower)

/-- What an edge that the caller described adds to the capacity of a cut. -/
def cutShare (side : Finset Nat) (given : Nat × Nat × Number × Number) : Rat :=
  if given.1 ∈ side ∧ given.2.1 ∉ side then (value? given.2.2.1).getD 0 else 0

/-- A network is capacitated when its capacities are integers that total at most 2^53,
and it has no lower bounds. -/
structure Network.Capacitated (network : Network Number) (capacity : Nat → Nat) : Prop where
  wellFormed : network.WellFormed
  capacities : ∀ edge ∈ network.edges, value? edge.capacity = some (capacity edge.index : Rat)
  lowers : ∀ edge ∈ network.edges, value? edge.lower = some 0
  offsets : ∀ edge ∈ network.edges, value? edge.offset = some 0
  small : network.edgeSum (fun edge => (capacity edge.index : Int)) ≤ 2 ^ 53

/-- Choices for the edges of a network may be made by their indices. -/
theorem Network.WellFormed.exists_by_index {α : Type} {network : Network α}
    (wellFormed : network.WellFormed) {fits : Edge α → Nat → Prop}
    (each : ∀ edge ∈ network.edges, ∃ amount, fits edge amount) :
    ∃ amount : Nat → Nat, ∀ edge ∈ network.edges, fits edge (amount edge.index) := by
  have indexed (index : Nat) : ∃ amount, ∀ edge, network.edges[index]? = some edge →
      fits edge amount := by
    cases found : network.edges[index]? with
    | none => exact ⟨0, fun _ other => nomatch other⟩
    | some edge =>
      obtain ⟨amount, known⟩ := each edge (Array.mem_of_getElem? found)
      refine ⟨amount, ?_⟩
      rintro _ ⟨⟩
      exact known
  choose amount known using indexed
  exact ⟨amount, fun edge member => known edge.index edge (wellFormed.getElem?_index member)⟩

/-- A sum that depends on what the caller said does not depend on the order of the edges. -/
theorem Network.edgeSum_of_perm {α δ K : Type} [AddCommGroup K] {first second : Network α}
    {describe : Edge α → δ}
    (perm : (second.edges.toList.map describe).Perm (first.edges.toList.map describe))
    (amount : δ → K) : second.edgeSum (fun edge => amount (describe edge)) =
      first.edgeSum fun edge => amount (describe edge) := by
  have sums := (perm.map amount).sum_eq
  rwa [List.map_map, List.map_map] at sums

namespace Network.Capacitated

variable {network other : Network Number} {capacity capacity' : Nat → Nat}

/-- The capacity of an edge is the value of what the caller said. -/
theorem capacity_eq (capacitated : network.Capacitated capacity) {edge : Edge Number}
    (member : edge ∈ network.edges) :
    (capacity edge.index : Rat) = (value? edge.given.2.2.1).getD 0 := by
  rw [Edge.given, capacitated.capacities edge member]
  rfl

/-- The same edges in another order make a capacitated network. -/
theorem of_perm (capacitated : network.Capacitated capacity) (assembled : other.Assembled)
    (perm : (other.edges.toList.map Edge.given).Perm (network.edges.toList.map Edge.given)) :
    ∃ capacity', other.Capacitated capacity' := by
  have known : ∀ edge ∈ other.edges, ∃ twin ∈ network.edges, twin.given = edge.given := by
    intro edge member
    have inside := perm.mem_iff.mp (List.mem_map_of_mem (Array.mem_toList_iff.mpr member))
    obtain ⟨twin, present, same⟩ := List.mem_map.mp inside
    exact ⟨twin, Array.mem_toList_iff.mp present, same⟩
  have whole : ∀ edge ∈ other.edges, ∃ amount : Nat,
      value? edge.capacity = some (amount : Rat) := by
    intro edge member
    obtain ⟨twin, present, same⟩ := known edge member
    have equal : twin.capacity = edge.capacity := congrArg (fun given => given.2.2.1) same
    exact ⟨capacity twin.index, equal ▸ capacitated.capacities twin present⟩
  obtain ⟨capacity', capacities⟩ := assembled.wellFormed.exists_by_index whole
  refine ⟨capacity', assembled.wellFormed, capacities, ?_, ?_, ?_⟩
  · intro edge member
    obtain ⟨twin, present, same⟩ := known edge member
    have equal : twin.lower = edge.lower := congrArg (fun given => given.2.2.2) same
    exact equal ▸ capacitated.lowers twin present
  · intro edge member
    rw [(assembled.load edge member).2, value?_zero]
  · have total : (other.edgeSum fun edge => (capacity' edge.index : Rat)) =
        network.edgeSum fun edge => (capacity edge.index : Rat) := by
      rw [edgeSum_congr fun edge => capacitated.capacity_eq, ← edgeSum_of_perm perm
        fun given => (value? given.2.2.1).getD 0]
      apply edgeSum_congr
      intro edge member
      rw [Edge.given, capacities edge member]
      rfl
    have cast : ((other.edgeSum fun edge => (capacity' edge.index : Int) : Int) : Rat) =
        (network.edgeSum fun edge => (capacity edge.index : Int) : Int) := by
      rw [intCast_edgeSum, intCast_edgeSum]
      exact_mod_cast total
    rw [Int.cast_injective cast]
    exact capacitated.small

/-- What an edge adds to the capacity of a cut depends on what the caller said. -/
theorem leaving_eq (capacitated : network.Capacitated capacity) (side : Finset Nat) :
    network.leaving (fun edge => (capacity edge.index : Rat)) side =
      network.edgeSum fun edge => cutShare side edge.given := by
  apply edgeSum_congr
  intro edge member
  dsimp only
  rw [capacitated.capacity_eq member]
  rfl

/-- The same edges in another order have the same capacity on every cut. -/
theorem leaving_of_perm (capacitated : network.Capacitated capacity)
    (reordered : other.Capacitated capacity')
    (perm : (other.edges.toList.map Edge.given).Perm (network.edges.toList.map Edge.given))
    (side : Finset Nat) : other.leaving (fun edge => (capacity' edge.index : Rat)) side =
      network.leaving (fun edge => (capacity edge.index : Rat)) side := by
  rw [capacitated.leaving_eq, reordered.leaving_eq, edgeSum_of_perm perm (cutShare side)]

end Network.Capacitated

theorem Network.Assembled.capacitated {network : Network Number} (assembled : network.Assembled)
    {capacity : Nat → Nat}
    (capacities : ∀ edge ∈ network.edges, value? edge.capacity = some (capacity edge.index : Rat))
    (lowers : ∀ edge ∈ network.edges, value? edge.lower = some 0)
    (small : network.edgeSum (fun edge => (capacity edge.index : Int)) ≤ 2 ^ 53) :
    network.Capacitated capacity := by
  refine ⟨assembled.wellFormed, capacities, lowers, ?_, small⟩
  intro edge member
  rw [(assembled.load edge member).2, value?_zero]

namespace MaxFlow

variable {network : Network Number} {capacity : Nat → Nat} {source sink : Nat}
  {options : Options Number} {tolerance : Rat} {watch : Watch Number}

/-- A solve of a capacitated network leaves the network of a settled run
and reads its result from it. -/
theorem solve_finished (capacitated : network.Capacitated capacity)
    (sourceInside : source < network.vertexCount) (sinkInside : sink < network.vertexCount)
    (differ : source ≠ sink) (tolerances : value? options.tolerance = some tolerance)
    (nonneg : 0 ≤ tolerance) (interval : 0 < watch.interval)
    (quiet : ∀ report, watch.halts report = false) :
    ∃ (ran : Run Number) (last : Network Rat) (value : Rat) (result : Result Number),
      ran.Settled tolerance source sink (network.integral capacity fun _ => 0) last value ∧
      (solve network source sink options watch).network = ran.network ∧
      (solve network source sink options watch).outcome = .ok result ∧
      value? result.value = some value ∧ result.minCut = ran.finder.reachable.map Int.ofNat ∧
      Gives result.flows ran.network.edgeCount last.totalAt := by
  have resetForm := capacitated.wellFormed.ofSameShape (sameShape_resetFlows network)
  have clear : network.resetFlows.StandsFor (network.integral capacity fun _ => 0) :=
    standsFor_integral capacitated.capacities
      (fun edge member => by rw [capacitated.lowers edge member, Nat.cast_zero])
      capacitated.offsets
  have carries : (network.integral capacity fun _ => 0).Carries source sink 0 :=
    carries_integral source sink
  have measured := measured_integral capacitated.small
  obtain ⟨last, value, finished⟩ := run_finished differ nonneg clear resetForm tolerances
    sourceInside sinkInside carries measured
    (run_noFault quiet differ nonneg clear resetForm tolerances sourceInside sinkInside carries
      measured)
  obtain ⟨result, computed, valued, cut, gives⟩ := finished.exact_result finished.fits_integer
    options.recordPaths
  refine ⟨_, last, value, result, finished.toSettled, ?_, ?_, by rw [valued, finished.total], cut,
    gives⟩
  · rw [solve_eq options (hasLowerBounds_eq_false capacitated.lowers capacitated.offsets)
      sourceInside sinkInside differ interval]
  · rw [solve_eq options (hasLowerBounds_eq_false capacitated.lowers capacitated.offsets)
      sourceInside sinkInside differ interval]
    exact computed

/-- A solve of a capacitated network reads its result from a settled run. -/
theorem solve_settled (capacitated : network.Capacitated capacity)
    (sourceInside : source < network.vertexCount) (sinkInside : sink < network.vertexCount)
    (differ : source ≠ sink) (tolerances : value? options.tolerance = some tolerance)
    (nonneg : 0 ≤ tolerance) (interval : 0 < watch.interval)
    (quiet : ∀ report, watch.halts report = false) :
    ∃ (ran : Run Number) (last : Network Rat) (value : Rat) (result : Result Number),
      ran.Settled tolerance source sink (network.integral capacity fun _ => 0) last value ∧
      (solve network source sink options watch).outcome = .ok result ∧
      value? result.value = some value ∧ result.minCut = ran.finder.reachable.map Int.ofNat := by
  obtain ⟨ran, last, value, result, settled, -, computed, valued, cut, -⟩ := solve_finished
    capacitated sourceInside sinkInside differ tolerances nonneg interval quiet
  exact ⟨ran, last, value, result, settled, computed, valued, cut⟩

/-- The number of marks of a settled run is the number of the vertices. -/
theorem Run.Settled.size_eq {run : Run Number} {last : Network Rat} {bound value : Rat}
    (settled : run.Settled bound source sink (network.integral capacity fun _ => 0) last value) :
    run.finder.tree.marked.size = network.vertexCount := by
  rw [settled.ended.found.size, settled.sameShape.vertexCount]

/-- A solve with integer capacities that total at most 2^53 reports the least minimum cut.
Hence the same edges added in another order give the same value and the same cut. -/
theorem solve_minCut_least (network : Network Number) (assembled : network.Assembled)
    (capacity : Nat → Nat)
    (capacities : ∀ edge ∈ network.edges,
      value? edge.capacity = some (capacity edge.index : Rat))
    (lowers : ∀ edge ∈ network.edges, value? edge.lower = some 0)
    (small : network.edgeSum (fun edge => (capacity edge.index : Int)) ≤ 2 ^ 53)
    (source sink : Nat) (sourceInside : source < network.vertexCount)
    (sinkInside : sink < network.vertexCount) (differ : source ≠ sink)
    (options : Options Number) (tolerance : Rat)
    (tolerances : value? options.tolerance = some tolerance) (nonneg : 0 ≤ tolerance)
    (below : tolerance < 1) (watch : Watch Number) (interval : 0 < watch.interval)
    (quiet : ∀ report, watch.halts report = false) :
    ∃ (result : Result Number) (value : Int),
      (solve network source sink options watch).outcome = .ok result ∧
      value? result.value = some (value : Rat) ∧
      (source : Int) ∈ result.minCut ∧ (sink : Int) ∉ result.minCut ∧
      (∃ cut, network.cutCapacity result.minCut = .ok cut ∧ value? cut = some (value : Rat)) ∧
      (∀ (side : List Nat) (cut : Number), source ∈ side → sink ∉ side →
        network.cutCapacity (side.map Int.ofNat) = .ok cut → value? cut = some (value : Rat) →
        ∀ vertex ∈ result.minCut, vertex ∈ side.map Int.ofNat) ∧
      ∀ other : Network Number, other.Assembled → other.vertexCount = network.vertexCount →
        (other.edges.toList.map Edge.given).Perm (network.edges.toList.map Edge.given) →
        ∃ twin, (solve other source sink options watch).outcome = .ok twin ∧
          value? twin.value = some (value : Rat) ∧ twin.minCut = result.minCut := by
  have capacitated := assembled.capacitated capacities lowers small
  have wellFormed := assembled.wellFormed
  have discrete := discrete_number below
  obtain ⟨ran, last, value, result, settled, computed, valued, cut⟩ := solve_settled capacitated
    sourceInside sinkInside differ tolerances nonneg interval quiet
  have sends := settled.netOutflow_eq wellFormed differ below
  have whole : value = (network.leaving (fun edge => (capacity edge.index : Int))
      ran.finder.side : Int) := by
    rw [settled.total_eq differ discrete, settled.leaving_eq, intCast_leaving]
    simp only [Int.cast_natCast]
  refine ⟨result, network.leaving (fun edge => (capacity edge.index : Int)) ran.finder.side,
    computed, by rw [valued, whole], ?_, ?_, ?_, ?_, ?_⟩
  · rw [cut, Finder.natCast_mem_reachable_iff]
    exact settled.source_mem
  · rw [cut, Finder.natCast_mem_reachable_iff]
    exact settled.sink_not_mem
  · rw [cut]
    exact exact_cut wellFormed capacities capacitated.offsets small ran.finder.reachable
  · intro side size inside outside cutting known vertex member
    obtain ⟨exactSize, cuts, exactKnown⟩ := exact_cut wellFormed capacities capacitated.offsets
      small side
    rw [cuts, Except.ok.injEq] at cutting
    rw [cutting, known, ← whole, Option.some.injEq] at exactKnown
    have least : ran.finder.side ⊆ side.toFinset := by
      refine settled.side_subset nonneg differ (List.mem_toFinset.mpr inside)
        (fun member => outside (List.mem_toFinset.mp member)) ?_
      rw [exactKnown, settled.leaving_eq, intCast_leaving]
      simp only [Int.cast_natCast]
    rw [cut] at member
    obtain ⟨found, reached, rfl⟩ := List.mem_map.mp member
    exact List.mem_map_of_mem (List.mem_toFinset.mp (least (List.mem_toFinset.mpr reached)))
  · intro other otherAssembled count perm
    obtain ⟨capacity', reordered⟩ := capacitated.of_perm otherAssembled perm
    obtain ⟨ran', last', value', twin, settled', computed', valued', cut'⟩ := solve_settled
      reordered (count ▸ sourceInside) (count ▸ sinkInside) differ tolerances nonneg interval quiet
    obtain ⟨equal, sides⟩ := settled'.agree settled differ nonneg nonneg discrete discrete
      fun side => by
        rw [settled'.leaving_eq, settled.leaving_eq, capacitated.leaving_of_perm reordered perm]
    refine ⟨twin, computed', by rw [valued', equal, whole], ?_⟩
    rw [cut', cut, Finder.reachable_eq (by rw [settled'.size_eq, settled.size_eq, count]) sides]

/-- Both edges of a path are minimum cuts, and either order of them gives the same one. -/
theorem solve_minCut_least_path :
    ∃ result twin, (solve (((empty 3).attach 0 1 ⟨Number.int 1, .int 0, zero, zero⟩).attach 1 2
        ⟨.int 1, .int 0, zero, zero⟩) 0 2 ⟨.int 0, false⟩ .idle).outcome = .ok result ∧
      (solve (((empty 3).attach 1 2 ⟨Number.int 1, .int 0, zero, zero⟩).attach 0 1
        ⟨.int 1, .int 0, zero, zero⟩) 0 2 ⟨.int 0, false⟩ .idle).outcome = .ok twin ∧
      0 ∈ result.minCut ∧ twin.minCut = result.minCut := by
  have assembled : (((empty 3).attach 0 1 ⟨Number.int 1, .int 0, zero, zero⟩).attach 1 2
      ⟨.int 1, .int 0, zero, zero⟩).Assembled :=
    ((assembled_empty 3).attach_int (by simp) (by simp) le_rfl (by decide) (by decide)).attach_int
      (by simp) (by simp) le_rfl (by decide) (by decide)
  have reordered : (((empty 3).attach 1 2 ⟨Number.int 1, .int 0, zero, zero⟩).attach 0 1
      ⟨.int 1, .int 0, zero, zero⟩).Assembled :=
    ((assembled_empty 3).attach_int (by simp) (by simp) le_rfl (by decide) (by decide)).attach_int
      (by simp) (by simp) le_rfl (by decide) (by decide)
  obtain ⟨result, value, computed, -, inside, -, -, -, others⟩ := solve_minCut_least _ assembled
    (fun _ => 1) (by simp [attach, empty, Number.value?_int])
    (by simp [attach, empty, Number.value?_int]) (by decide) 0 2 (by simp) (by simp) (by decide)
    ⟨.int 0, false⟩ 0 value?_ofInt_zero le_rfl one_pos .idle (by decide) fun _ => rfl
  obtain ⟨twin, computedToo, -, same⟩ := others _ reordered (by simp) (List.Perm.swap _ _ _)
  exact ⟨result, twin, computed, computedToo, inside, same⟩

end MaxFlow
end NetworkFlow
