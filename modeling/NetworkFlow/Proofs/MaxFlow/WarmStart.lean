import NetworkFlow.Proofs.MaxFlow.CanonicalCut

namespace NetworkFlow

open Quantity ExactQuantity Network

/-- No augmentation leads to a vertex that a search did not reach. -/
theorem Finder.Found.not_augments {α : Type} {network : Network α} {last : Network Rat}
    {bound amount : Rat} {source sink : Nat} {finder : Finder α} {arcs : List Arc}
    (found : finder.Found network last bound source) (unreached : ¬finder.tree.isMarked sink)
    (differ : source ≠ sink) : ¬Augments bound source sink last arcs amount := by
  intro augments
  have shortest := augments.shortest
  cases shortest.path with
  | start => exact differ rfl
  | extend arc path => exact unreached ((found.marked _).mpr (shortest.near arc (by simp)))

/-- A flow on some edges is a flow on edges with the same ends. -/
theorem Network.SameShape.isFlow {α β K : Type} [AddCommGroup K] [LinearOrder K]
    [IsOrderedAddMonoid K] {first : Network α} {second : Network β} (same : SameShape first second)
    (wellFormed : first.WellFormed) {source sink : Nat} (capacity flow : Nat → K)
    (isFlow : first.IsFlow source sink (fun edge => capacity edge.index)
      fun edge => flow edge.index) :
    second.IsFlow source sink (fun edge => capacity edge.index) fun edge => flow edge.index := by
  have twin : ∀ edge ∈ second.edges, ∃ other ∈ first.edges, other.index = edge.index := by
    intro edge member
    obtain ⟨other, inside, place⟩ := same.exists_place member
    exact ⟨other, inside, congrArg Place.index place⟩
  refine ⟨?_, ?_, ?_⟩
  · intro edge member
    obtain ⟨other, inside, index⟩ := twin edge member
    exact index ▸ isFlow.nonneg other inside
  · intro edge member
    obtain ⟨other, inside, index⟩ := twin edge member
    exact index ▸ isFlow.atMost other inside
  · intro vertex notSource notSink
    rw [← isFlow.conserved vertex notSource notSink]
    apply same.symm.netOutflow_eq
    intro position edge other stands standsToo
    rw [wellFormed.index_eq standsToo, (wellFormed.ofSameShape same).index_eq stands]

/-- The sink receives what the source sends. -/
theorem Network.IsFlow.netOutflow_sink {α K : Type} [AddCommGroup K] [LinearOrder K]
    [IsOrderedAddMonoid K] {network : Network α} {source sink : Nat} {capacity flow : Edge α → K}
    (isFlow : network.IsFlow source sink capacity flow) (wellFormed : network.WellFormed)
    (sourceInside : source < network.vertexCount) (sinkInside : sink < network.vertexCount)
    (differ : source ≠ sink) :
    network.netOutflow flow sink = -network.netOutflow flow source := by
  have balanced := sum_netOutflow_eq_zero wellFormed flow
  rw [Finset.sum_eq_add source sink differ
    (fun vertex _ other => isFlow.conserved vertex other.1 other.2)
    (fun outside => absurd (Finset.mem_range.mpr sourceInside) outside)
    (fun outside => absurd (Finset.mem_range.mpr sinkInside) outside)] at balanced
  exact eq_neg_of_add_eq_zero_right balanced

/-- The rational network with integer capacities and integer flows. -/
def Network.loaded {α : Type} (network : Network α) (capacity : Nat → Nat) (flow : Nat → Int) :
    Network Rat :=
  network.valued fun edge => ⟨capacity edge.index, 0, flow edge.index, 0⟩

section Loaded

variable {network : Network Number} {capacity : Nat → Nat} {start : Nat → Int}
  {source sink : Nat}

/-- A capacitated network with integer flows stands for the loaded network. -/
theorem Network.Capacitated.standsFor_loaded (capacitated : network.Capacitated capacity)
    (flows : ∀ edge ∈ network.edges, value? edge.flow = some (start edge.index : Rat)) :
    network.StandsFor (network.loaded capacity start) := by
  refine ⟨sameShape_valued network _, ?_⟩
  intro position edge other stands standsToo
  rw [loaded, getElem?_valued, stands, Option.map_some, Option.some.injEq] at standsToo
  rw [← standsToo]
  have member := Array.mem_of_getElem? stands
  exact ⟨capacitated.capacities edge member, capacitated.lowers edge member, flows edge member,
    capacitated.offsets edge member⟩

theorem Network.sameBounds_loaded (network : Network Number) (capacity : Nat → Nat)
    (start : Nat → Int) :
    (network.integral capacity fun _ => 0).SameBounds (network.loaded capacity start) := by
  refine ⟨(sameShape_valued network _).symm.trans (sameShape_valued network _), ?_⟩
  intro position edge other stands standsToo
  simp only [integral, loaded, getElem?_valued, Option.map_eq_some_iff] at stands standsToo
  obtain ⟨old, found, rfl⟩ := stands
  obtain ⟨twin, foundToo, rfl⟩ := standsToo
  rw [found, Option.some.injEq] at foundToo
  rw [foundToo]
  exact ⟨rfl, Nat.cast_zero.symm, rfl⟩

/-- The loaded network carries what its source sends. -/
theorem Network.Capacitated.carries_loaded (capacitated : network.Capacitated capacity)
    (isFlow : network.IsFlow source sink (fun edge => (capacity edge.index : Int))
      fun edge => start edge.index)
    (sourceInside : source < network.vertexCount) (sinkInside : sink < network.vertexCount)
    (differ : source ≠ sink) :
    (network.loaded capacity start).Carries source sink
      (network.netOutflow (fun edge => start edge.index) source : Int) := by
  refine ⟨?_, ?_, ?_⟩
  · intro edge member
    obtain ⟨old, inside, rfl⟩ := mem_valued.mp member
    show (0 : Rat) ≤ start old.index
    exact_mod_cast isFlow.nonneg old inside
  · intro edge member
    obtain ⟨old, inside, rfl⟩ := mem_valued.mp member
    show (start old.index : Rat) ≤ capacity old.index
    exact_mod_cast isFlow.atMost old inside
  · intro vertex
    have casts : (network.loaded capacity start).netOutflow (fun edge => edge.flow) vertex =
        (network.netOutflow (fun edge => start edge.index) vertex : Int) := by
      rw [intCast_netOutflow]
      symm
      apply (sameShape_valued network _).netOutflow_eq
      intro position edge other stands standsToo
      rw [getElem?_valued, stands, Option.map_some, Option.some.injEq] at standsToo
      rw [← standsToo]
    rw [casts]
    by_cases first : source = vertex
    · rw [if_pos first, if_neg (first ▸ differ.symm), sub_zero, first]
    · by_cases second : sink = vertex
      · rw [if_neg first, if_pos second, zero_sub, ← second,
          isFlow.netOutflow_sink capacitated.wellFormed sourceInside sinkInside differ,
          Int.cast_neg]
      · rw [if_neg first, if_neg second, sub_zero,
          isFlow.conserved vertex (Ne.symm first) (Ne.symm second), Int.cast_zero]

theorem Network.Capacitated.measured_loaded (capacitated : network.Capacitated capacity)
    (start : Nat → Int) : (network.loaded capacity start).Measured Number := by
  refine ⟨⟨?_, ?_⟩, ?_⟩
  · intro edge member
    obtain ⟨old, -, rfl⟩ := mem_valued.mp member
    exact natCast_mem_lattice _
  · intro edge member
    obtain ⟨old, -, rfl⟩ := mem_valued.mp member
    exact intCast_mem_lattice _
  · have bounds := network.sameBounds_loaded capacity start
    rw [← bounds.shape.edgeSum_eq fun stands standsToo => (bounds.bounds stands standsToo).1.symm]
    exact (measured_integral capacitated.small).total

end Loaded

namespace MaxFlow

/-- A run from the network that a settled run left augments nothing. -/
theorem Run.Settled.run_again {α : Type} [Quantity α] [ExactQuantity α] {run : Run α}
    {exact last : Network Rat} {bound value : Rat} {source sink : Nat} {tolerance : α}
    (settled : run.Settled bound source sink exact last value) (differ : source ≠ sink)
    (sinkInside : sink < last.vertexCount) (tolerances : value? tolerance = some bound)
    (watch : Watch α) :
    ∃ next, MaxFlow.run run.network source sink tolerance watch = ⟨run.network, next, [], none⟩ ∧
      Settled ⟨run.network, next, [], none⟩ bound source sink exact last value := by
  have sourceInside := settled.ended.found.lt_vertexCount settled.source_mem
  rcases exact_attempt (.create run.network tolerance) settled.network settled.fits
    settled.leftForm tolerances sourceInside sinkInside differ zero with
    ⟨next, attempted, -, found, unreached⟩ | ⟨arcs, amount, -, augments, -⟩
  · refine ⟨next, ?_, { settled with ended := ⟨rfl, found, unreached⟩ }⟩
    simp only [MaxFlow.run, enoughFuel, augmentAll, attempted]
  · exact absurd augments (settled.ended.found.not_augments settled.ended.unreached differ)

variable {network : Network Number} {capacity : Nat → Nat} {start : Nat → Int} {source sink : Nat}
  {options : Options Number} {tolerance : Rat} {watch : Watch Number}

/-- A warm solve of a capacitated network reads its result from a settled run. -/
theorem solveWarm_settled (capacitated : network.Capacitated capacity)
    (flows : ∀ edge ∈ network.edges, value? edge.flow = some (start edge.index : Rat))
    (isFlow : network.IsFlow source sink (fun edge => (capacity edge.index : Int))
      fun edge => start edge.index)
    (sourceInside : source < network.vertexCount) (sinkInside : sink < network.vertexCount)
    (differ : source ≠ sink) (tolerances : value? options.tolerance = some tolerance)
    (nonneg : 0 ≤ tolerance) (interval : 0 < watch.interval)
    (quiet : ∀ report, watch.halts report = false) :
    ∃ (ran : Run Number) (last : Network Rat) (gain : Rat) (result : Result Number),
      ran.Settled tolerance source sink (network.integral capacity fun _ => 0) last
        (network.netOutflow (fun edge => start edge.index) source + gain) ∧
      (solveWarm network source sink options watch).network = ran.network ∧
      (solveWarm network source sink options watch).outcome = .ok result ∧
      value? result.value = some gain ∧ result.minCut = ran.finder.reachable.map Int.ofNat := by
  have standsFor := capacitated.standsFor_loaded flows
  have carries := capacitated.carries_loaded isFlow sourceInside sinkInside differ
  have measured := capacitated.measured_loaded start
  obtain ⟨last, gain, settled, -, total⟩ := run_settled differ nonneg standsFor
    capacitated.wellFormed tolerances sourceInside sinkInside carries measured
    (run_noFault quiet differ nonneg standsFor capacitated.wellFormed tolerances sourceInside
      sinkInside carries measured)
  -- A start differs from the empty network in flows only, and the cut depends on the bounds.
  have bounded := (network.sameBounds_loaded capacity start).trans settled.bounds
  have unloaded : (run network source sink options.tolerance watch).Settled tolerance source sink
      (network.integral capacity fun _ => 0) last
      ((network.netOutflow (fun edge => start edge.index) source : Int) + gain) :=
    { settled with bounds := bounded }
  obtain ⟨result, computed, valued, cut, -⟩ := unloaded.exact_result unloaded.fits_integer
    options.recordPaths
  refine ⟨_, last, gain, result, unloaded, ?_, ?_, by rw [valued, total], cut⟩
  · rw [solveWarm_eq options sourceInside sinkInside differ interval]
  · rw [solveWarm_eq options sourceInside sinkInside differ interval]
    exact computed

/-- A warm solve from an integer flow adds what the flow lacks of a maximum flow,
and reports the cut of a solve from no flow. A second warm solve augments nothing. -/
theorem solveWarm_optimal (network : Network Number) (assembled : network.Assembled)
    (capacity : Nat → Nat)
    (capacities : ∀ edge ∈ network.edges,
      value? edge.capacity = some (capacity edge.index : Rat))
    (lowers : ∀ edge ∈ network.edges, value? edge.lower = some 0)
    (small : network.edgeSum (fun edge => (capacity edge.index : Int)) ≤ 2 ^ 53)
    (start : Nat → Int)
    (flows : ∀ edge ∈ network.edges, value? edge.flow = some (start edge.index : Rat))
    (source sink : Nat) (sourceInside : source < network.vertexCount)
    (sinkInside : sink < network.vertexCount) (differ : source ≠ sink)
    (isFlow : network.IsFlow source sink (fun edge => (capacity edge.index : Int))
      fun edge => start edge.index)
    (options : Options Number) (tolerance : Rat)
    (tolerances : value? options.tolerance = some tolerance) (nonneg : 0 ≤ tolerance)
    (below : tolerance < 1) (watch : Watch Number) (interval : 0 < watch.interval)
    (quiet : ∀ report, watch.halts report = false) :
    ∃ (after : Network Number) (warm cold again : Result Number) (flow : Nat → Int) (gain : Int),
      (solveWarm network source sink options watch).network = after ∧
      (solveWarm network source sink options watch).outcome = .ok warm ∧
      SameShape network after ∧
      (∀ edge ∈ after.edges, value? edge.capacity = some (capacity edge.index : Rat) ∧
        value? edge.flow = some (flow edge.index : Rat)) ∧
      after.IsFlow source sink (fun edge => (capacity edge.index : Int))
        (fun edge => flow edge.index) ∧
      (solve network source sink options watch).outcome = .ok cold ∧
      value? warm.value = some (gain : Rat) ∧
      value? cold.value =
        some ((network.netOutflow (fun edge => start edge.index) source + gain : Int) : Rat) ∧
      after.netOutflow (fun edge => flow edge.index) source =
        network.netOutflow (fun edge => start edge.index) source + gain ∧
      warm.minCut = cold.minCut ∧
      (solveWarm after source sink options watch).network = after ∧
      (solveWarm after source sink options watch).outcome = .ok again ∧
      again.augmentations = 0 := by
  have capacitated := assembled.capacitated capacities lowers small
  have wellFormed := assembled.wellFormed
  have discrete := discrete_number below
  obtain ⟨ran, last, gain, warm, settled, left, computed, valued, cut⟩ := solveWarm_settled
    capacitated flows isFlow sourceInside sinkInside differ tolerances nonneg interval quiet
  obtain ⟨clear, last', value, cold, settled', computed', valued', cut'⟩ := solve_settled
    capacitated sourceInside sinkInside differ tolerances nonneg interval quiet
  obtain ⟨equal, sides⟩ := settled.agree settled' differ nonneg nonneg discrete discrete
    fun side => by rw [settled.leaving_eq, settled'.leaving_eq]
  have same := settled.leftShape
  have sends := settled.cast_netOutflow wellFormed source
  rw [settled.carries.netOutflow_source differ] at sends
  have whole : gain = ((network.netOutflow (fun edge => ⌊last.flowAt edge.index⌋) source -
      network.netOutflow (fun edge => start edge.index) source : Int) : Rat) := by
    rw [Int.cast_sub, sends, add_sub_cancel_left]
  have grows : ran.network.netOutflow (fun edge => ⌊last.flowAt edge.index⌋) source =
      network.netOutflow (fun edge => ⌊last.flowAt edge.index⌋) source := by
    apply same.symm.netOutflow_eq
    intro position edge other stands standsToo
    rw [settled.leftForm.index_eq stands, wellFormed.index_eq standsToo]
  have sinkLast : sink < last.vertexCount := settled.sameShape.vertexCount ▸ sinkInside
  have afterSource : source < ran.network.vertexCount := same.vertexCount ▸ sourceInside
  have afterSink : sink < ran.network.vertexCount := same.vertexCount ▸ sinkInside
  obtain ⟨next, stops, stopped⟩ := settled.run_again differ sinkLast tolerances watch
  obtain ⟨again, repeated, -⟩ := stopped.exact_result stopped.fits_integer options.recordPaths
  refine ⟨ran.network, warm, cold, again, fun position => ⌊last.flowAt position⌋,
    network.netOutflow (fun edge => ⌊last.flowAt edge.index⌋) source -
      network.netOutflow (fun edge => start edge.index) source, left, computed, same,
    settled.left_edge wellFormed, same.isFlow wellFormed (fun position => (capacity position : Int))
      (fun position => ⌊last.flowAt position⌋) (settled.isFlow wellFormed), computed',
    by rw [valued, whole], ?_, ?_, ?_, ?_, ?_, ?_⟩
  · rw [valued', ← equal, ← sends, add_sub_cancel]
  · rw [grows, add_sub_cancel]
  · rw [cut, cut', Finder.reachable_eq (by rw [settled.size_eq, settled'.size_eq]) sides]
  · rw [solveWarm_eq options afterSource afterSink differ interval, stops]
  · rw [solveWarm_eq options afterSource afterSink differ interval, stops]
    exact repeated
  · rw [(Run.result_eq_ok repeated).1]
    rfl

/-- Two vertices with an edge each way. The second edge carries one unit back. -/
def backflow : Network Number :=
  (((empty 2).attach 0 1 ⟨.int 3, .int 0, zero, zero⟩).attach 1 0
    ⟨.int 2, .int 0, zero, zero⟩).mapLoads fun edge => { edge.toLoad with flow := .int edge.index }

theorem assembled_backflow : backflow.Assembled := by
  exact .reflow (.attach_int (.attach_int (assembled_empty 2) (by simp) (by simp) le_rfl
    (by decide) (by decide)) (by simp) (by simp) le_rfl (by decide) (by decide)) _

theorem edges_backflow : backflow.edges = #[⟨⟨.int 3, .int 0, .int 0, zero⟩, 0, 1, 0⟩,
    ⟨⟨.int 2, .int 0, .int 1, zero⟩, 1, 0, 1⟩] := by
  simp [backflow, mapLoads, attach, empty, Edge.withLoad]

/-- The flow back from the sink to the source is undone, which adds to the value. -/
theorem solveWarm_optimal_backflow :
    ∃ warm cold, (solveWarm backflow 0 1 ⟨.int 0, false⟩ .idle).outcome = .ok warm ∧
      (solve backflow 0 1 ⟨.int 0, false⟩ .idle).outcome = .ok cold ∧
      warm.minCut = cold.minCut := by
  have isFlow : backflow.IsFlow 0 1 (fun edge => ((3 - edge.index : Nat) : Int))
      fun edge => (edge.index : Int) := by
    refine ⟨by simp [edges_backflow], by simp [edges_backflow], ?_⟩
    intro vertex notSource notSink
    simp [netOutflow, outflow, inflow, edgeSum, edges_backflow, Ne.symm notSource, Ne.symm notSink]
  obtain ⟨after, warm, cold, -, -, -, -, computed, -, -, -, computedToo, -, -, -, same, -⟩ :=
    solveWarm_optimal backflow assembled_backflow (fun position => 3 - position)
      (by simp [edges_backflow, Number.value?_int]) (by simp [edges_backflow, Number.value?_int])
      (by simp [edgeSum, edges_backflow]) (fun position => position)
      (by simp [edges_backflow, Number.value?_int]) 0 1 (by decide) (by decide) (by decide) isFlow
      ⟨.int 0, false⟩ 0 value?_ofInt_zero le_rfl one_pos .idle (by decide) fun _ => rfl
  exact ⟨warm, cold, computed, computedToo, same⟩

end MaxFlow
end NetworkFlow
