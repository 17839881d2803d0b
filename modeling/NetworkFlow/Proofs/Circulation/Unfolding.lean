import NetworkFlow.Proofs.Circulation.Equivalence
import NetworkFlow.Proofs.Circulation.Prepared
import NetworkFlow.Proofs.Circulation.Refolding
import NetworkFlow.Proofs.Circulation.Soundness

namespace NetworkFlow

open Quantity ExactQuantity Network

/-- Rational demands enter the vector as they are. -/
theorem Demands.vector_rat (count : Nat) (values : Nat → Rat) :
    (Demands.dense ((List.range count).map values)).vector count =
      .ok ((List.range count).map values) := by
  have stands : AllStandFor ((List.range count).map values) ((List.range count).map values) :=
    allStandFor_rat.mpr rfl
  obtain ⟨vector, accepted, standsToo⟩ := exact_dense stands fun _ _ => trivial
  rwa [allStandFor_rat.mp standsToo] at accepted

/-- A load without flow is folded by a reduction, also when it has no lower bound. -/
theorem Load.reduced_eq_folded {load : Load Rat} (least : 0 ≤ load.lower)
    (still : load.flow = 0) : load.reduced = load.folded := by
  rw [reduced_eq least]
  split
  · obtain ⟨capacity, lower, flow, offset⟩ := load
    simp only at still ‹lower = 0›
    subst still ‹lower = 0›
    simp [folded]
  · rfl

namespace Network

/-- What the folded lower bounds bring to a vertex beyond what they take from it. -/
def forced (network : Network Rat) (vertex : Nat) : Rat :=
  network.inflow (fun edge => edge.offset) vertex -
    network.outflow (fun edge => edge.offset) vertex

variable {network : Network Rat}

theorem netOutflow_offset (network : Network Rat) (vertex : Nat) :
    network.netOutflow (fun edge => edge.offset) vertex = -network.forced vertex :=
  (neg_sub _ _).symm

/-- The folded lower bounds take as much as they bring. -/
theorem WellFormed.sum_forced (wellFormed : network.WellFormed) :
    ∑ vertex ∈ Finset.range network.vertexCount, network.forced vertex = 0 := by
  have cancels := sum_netOutflow_eq_zero wellFormed fun edge => edge.offset
  simp only [netOutflow_offset, Finset.sum_neg_distrib] at cancels
  exact neg_eq_zero.mp cancels

/-- A reduction of a network without flows folds every edge. -/
theorem reduced_resetFlows_of_ordered (ordered : network.Ordered) :
    network.resetFlows.reduced = network.folded := by
  refine congrArg (Network.mk network.adjacency) ?_
  rw [resetFlows, Array.map_map]
  apply Array.map_congr_left
  intro edge member
  have folds : Load.reduced { edge.toLoad with flow := 0 } = edge.toLoad.folded :=
    Load.reduced_eq_folded (ordered edge member).1 rfl
  exact congrArg edge.withLoad folds

/-- The same edges are left when the folded lower bounds are folded once more. -/
theorem folded_unfolded (network : Network Rat) : network.unfolded.folded = network.folded := by
  refine congrArg (Network.mk network.adjacency) ?_
  rw [unfolded, mapLoads, Array.map_map]
  apply Array.map_congr_left
  intro edge _
  exact congrArg edge.withLoad edge.toLoad.folded_unfolded

/-- The demands of the caller are shifted to the same demands when they count
what the folded lower bounds bring. -/
theorem shiftedDemand_unfolded (network : Network Rat) (demand : Nat → Rat) :
    network.unfolded.shiftedDemand (fun vertex => demand vertex + network.forced vertex) =
      network.shiftedDemand demand := by
  funext vertex
  have sends : network.unfolded.netOutflow (fun edge => edge.lower) vertex =
      network.netOutflow (fun edge => edge.lower) vertex - network.forced vertex := by
    rw [sub_eq_add_neg, ← netOutflow_offset, ← netOutflow_add]
    symm
    apply network.sameShape_unfolded.netOutflow_eq
    intro position edge twin stands standsToo
    rw [unfolded, getElem?_mapLoads, stands] at standsToo
    rw [← Option.some.inj standsToo]
    rfl
  rw [shiftedDemand, shiftedDemand, sends]
  ring

end Network

namespace Circulation

variable {network : Network Rat} {demand : Nat → Rat} {demands given : Demands Rat}
  {options : Options Rat}

/-- Balanced demands are solved on the folded network, once they are shifted. -/
theorem solve_eq_folded (wellFormed : network.WellFormed) (ordered : network.Ordered)
    (accepted : demands.vector network.vertexCount =
      .ok ((List.range network.vertexCount).map demand))
    (near : |∑ vertex ∈ Finset.range network.vertexCount, demand vertex| ≤ options.tolerance)
    (watch : Watch Rat) :
    ∃ deltas reducedEdges, solve network demands options watch =
      solveReduced network.folded network.edgeCount
        ⟨(List.range network.vertexCount).map (network.shiftedDemand demand), deltas, reducedEdges,
          demandTotal network.vertexCount (network.shiftedDemand demand),
          supplyTotal network.vertexCount (network.shiftedDemand demand), none⟩
        options watch := by
  rw [← demandTotal_sub_supplyTotal] at near
  obtain ⟨⟨_, deltas, reducedEdges, _, _, _⟩, folds, rfl, rfl, rfl, rfl⟩ :=
    exact_folds (wellFormed.ofSameShape (sameShape_resetFlows network))
      (fun edge member => (ordered.resetFlows edge member).1) near
  rw [shiftedDemand_resetFlows] at folds
  refine ⟨deltas, reducedEdges, ?_⟩
  rw [← reduced_resetFlows_of_ordered ordered]
  exact solve_eq_solveReduced accepted (ordered.copied wellFormed) wellFormed folds rfl watch

/-- Balanced demands on a prepared network are solved as demands that count what the folded lower
bounds bring are solved in the units of the caller. -/
theorem solve_unfolded (prepared : network.Prepared)
    (accepted : demands.vector network.vertexCount =
      .ok ((List.range network.vertexCount).map demand))
    (acceptedToo : given.vector network.vertexCount =
      .ok ((List.range network.vertexCount).map fun vertex =>
        demand vertex + network.forced vertex))
    (near : |∑ vertex ∈ Finset.range network.vertexCount, demand vertex| ≤ options.tolerance)
    (watch : Watch Rat) :
    (solve network demands options watch).outcome =
      (solve network.unfolded given options watch).outcome := by
  have nearToo : |∑ vertex ∈ Finset.range network.unfolded.vertexCount,
      (demand vertex + network.forced vertex)| ≤ options.tolerance := by
    rwa [← network.sameShape_unfolded.vertexCount, Finset.sum_add_distrib,
      prepared.wellFormed.sum_forced, add_zero]
  obtain ⟨deltas, reducedEdges, first⟩ :=
    solve_eq_folded prepared.wellFormed prepared.ordered accepted near watch
  obtain ⟨deltasToo, reducedEdgesToo, second⟩ :=
    solve_eq_folded prepared.assembled.wellFormed prepared.assembled.ordered acceptedToo nearToo
      watch
  rw [shiftedDemand_unfolded, folded_unfolded, ← network.sameShape_unfolded.vertexCount,
    ← network.sameShape_unfolded.edgeCount] at second
  rw [first, second]
  exact (solveReduced_congr _ _ ⟨_, deltasToo, reducedEdgesToo, _, _, _⟩ deltas reducedEdges options
    watch).1

/-- Demands that do not cancel are refused on every network whose bounds are in order. -/
theorem solve_far (wellFormed : network.WellFormed) (ordered : network.Ordered)
    (accepted : demands.vector network.vertexCount =
      .ok ((List.range network.vertexCount).map demand))
    (far : options.tolerance < |∑ vertex ∈ Finset.range network.vertexCount, demand vertex|)
    (watch : Watch Rat) :
    ∃ result, (solve network demands options watch).outcome = .ok result ∧
      result.feasible = false := by
  rw [← demandTotal_sub_supplyTotal] at far
  obtain ⟨reduction, refused, stage⟩ : ∃ reduction, network.resetFlows.reduceLowerBounds
      ((List.range network.vertexCount).map demand) options.tolerance =
        (network.resetFlows, .ok reduction) ∧ reduction.stage = some .before :=
    ⟨_, reduceLowerBounds_of_far (totals_rat _ _) (gap_rat _ _) (decide_eq_true far), rfl⟩
  refine ⟨unbalanced network.resetFlows reduction, ?_, rfl⟩
  simp only [solve, accepted, ordered.copied wellFormed, ok_bind, pure, Except.pure, refused,
    Reduction.balanced, stage, Option.isNone_some, Bool.not_false, if_true]

/-- A feasible result on a prepared network gives every edge a flow within the bounds of the caller.
At every vertex the flows meet the demand and what the folded lower bounds bring. -/
theorem feasible_flows {result : Result Rat} {watch : Watch Rat} (prepared : network.Prepared)
    (accepted : demands.vector network.vertexCount =
      .ok ((List.range network.vertexCount).map demand))
    (nonneg : 0 ≤ options.tolerance)
    (ok : (solve network demands options watch).outcome = .ok result)
    (feasible : result.feasible = true) :
    (∀ key ∈ result.flows.keys, 0 ≤ key ∧ key < network.edgeCount) ∧
    (∀ edge ∈ network.edges, edge.lower + edge.offset ≤ Validation.carried result.flows edge ∧
      Validation.carried result.flows edge ≤ edge.capacity + edge.offset) ∧
    ∀ vertex < network.vertexCount,
      |network.inflow (Validation.carried result.flows) vertex -
        network.outflow (Validation.carried result.flows) vertex -
          (demand vertex + network.forced vertex)| ≤ 2 * options.tolerance := by
  have near : |∑ vertex ∈ Finset.range network.vertexCount, demand vertex| ≤
      options.tolerance := by
    by_contra far
    obtain ⟨refusal, refused, infeasible⟩ :=
      solve_far prepared.wellFormed prepared.ordered accepted (not_le.mp far) watch
    rw [ok] at refused
    rw [Except.ok.inj refused, infeasible] at feasible
    cases feasible
  have assembled := prepared.assembled
  have shape := network.sameShape_unfolded
  rw [solve_unfolded prepared accepted (Demands.vector_rat _ _) near] at ok
  rcases solve_settles (assembled.posed _) network.unfolded.resetFlows.standsFor_self
      assembled.copied (Demands.vector_rat _ _) (allStandFor_rat.mpr rfl) rfl nonneg ok with
    ⟨-, -, infeasible⟩ | ⟨balanced, run, last, total, settles⟩
  · rw [infeasible] at feasible
    cases feasible
  · refine ⟨?_, ?_, ?_⟩
    · rw [shape.edgeCount]
      exact settles.known
    · intro edge member
      obtain ⟨flow, found, between⟩ := settles.within assembled
        (mem_mapLoads.mpr ⟨edge, member, rfl⟩)
      have carries : Validation.carried result.flows edge = flow :=
        congrArg (·.getD 0) found
      rw [carries]
      exact between
    · intro vertex inside
      have equal := Validation.netOutflow_carried shape result.flows vertex
      have meets := settles.meets assembled balanced feasible inside
      rw [netOutflow, netOutflow] at equal
      rwa [← neg_sub (network.outflow _ vertex), equal, neg_sub]

/-- A solve on a prepared network gives a result when its watch is quiet. -/
theorem solve_returns {watch : Watch Rat} (prepared : network.Prepared)
    (accepted : demands.vector network.vertexCount =
      .ok ((List.range network.vertexCount).map demand))
    (nonneg : 0 ≤ options.tolerance) (interval : 0 < watch.interval)
    (quiet : ∀ report, watch.halts report = false) :
    ∃ result, (solve network demands options watch).outcome = .ok result := by
  by_cases near : |∑ vertex ∈ Finset.range network.vertexCount, demand vertex| ≤
      options.tolerance
  · rw [solve_unfolded prepared accepted (Demands.vector_rat _ _) near]
    exact solve_ok (prepared.assembled.posed _) network.unfolded.resetFlows.standsFor_self
      prepared.assembled.copied (Demands.vector_rat _ _) (allStandFor_rat.mpr rfl) rfl nonneg
      interval quiet fun total _ => ⟨total - options.tolerance, rfl⟩
  · obtain ⟨result, refused, -⟩ :=
      solve_far prepared.wellFormed prepared.ordered accepted (not_le.mp near) watch
    exact ⟨result, refused⟩

/-- A network whose lower bounds were reduced in place gives the demands another meaning.
In rational arithmetic with a tolerance of zero, the flows of a feasible circulation are valid for
the demands that count what the folded lower bounds bring. For the demands that were solved they
are within all bounds, but each vertex where the folded lower bounds do not cancel misses its
demand by what they bring. -/
theorem solve_prepared (network : Network Rat) (prepared : network.Prepared)
    (demands : Demands Rat) (demand : Nat → Rat) (asks : demands.Ask network.vertexCount demand)
    (options : Options Rat) (exactly : options.tolerance = 0) (watch : Watch Rat) :
    (0 < watch.interval → (∀ report, watch.halts report = false) →
      ∃ result, (solve network demands options watch).outcome = .ok result) ∧
    ∀ result, (solve network demands options watch).outcome = .ok result →
      result.feasible = true →
      (∃ validation, Validation.ofFlows network result.flows
          (some (.dense ((List.range network.vertexCount).map fun vertex =>
            demand vertex + network.forced vertex))) none none 0 = .ok validation ∧
        validation.isValid = true) ∧
      ∃ validation,
        Validation.ofFlows network result.flows (some demands) none none 0 = .ok validation ∧
        validation.violations = ((List.range network.vertexCount).filter fun vertex =>
          network.forced vertex ≠ 0).map (fun vertex =>
            .imbalance vertex (network.forced vertex)) ∧
        (validation.isValid = true ↔
          ∀ vertex < network.vertexCount, network.forced vertex = 0) := by
  obtain ⟨vector, accepted, stands⟩ := asks.exact_vector fun _ _ => trivial
  rw [allStandFor_rat.mp stands] at accepted
  refine ⟨solve_returns prepared accepted exactly.ge, ?_⟩
  intro result ok feasible
  obtain ⟨known, bounded, meets⟩ := feasible_flows prepared accepted exactly.ge ok feasible
  rw [exactly, mul_zero] at meets
  have misses : ∀ vertex < network.vertexCount,
      network.inflow (Validation.carried result.flows) vertex -
        network.outflow (Validation.carried result.flows) vertex - demand vertex =
          network.forced vertex := by
    intro vertex inside
    have met := abs_nonpos_iff.mp (meets vertex inside)
    linarith
  obtain ⟨validation, read, violations⟩ :=
    Validation.ofFlows_of_missed prepared.wellFormed accepted known bounded misses
  refine ⟨Validation.isValid_ofFlows prepared.wellFormed le_rfl (Demands.vector_rat _ _) known
    bounded meets none none, validation, read, violations, ?_⟩
  simp [Validation.isValid, violations, List.filter_eq_nil_iff]

/-- An edge that has to carry two units at least, after its lower bound was reduced. -/
def reducedLane : Network Rat :=
  ((single 5 2).reduceLowerBounds [-3, 3] 0).1

theorem prepared_reducedLane : reducedLane.Prepared :=
  .reduce (assembled_single ((exact_check rfl rfl trivial trivial 0 1).mpr (by norm_num))).prepared
    [-3, 3] 0

theorem asks_reducedLane : (Demands.dense [(-3 : Rat), 3]).Ask reducedLane.vertexCount
    fun vertex => if vertex = 0 then -3 else 3 := by
  have count : reducedLane.vertexCount = 2 := by decide +kernel
  rw [count]
  exact allStandFor_rat.mpr rfl

/-- Three units are sent over the edge, in addition to the two. Both ends miss the two. -/
theorem solve_prepared_lane :
    ∃ result validation,
      (solve reducedLane (.dense [-3, 3]) ⟨0, false⟩ .idle).outcome = .ok result ∧
      result.feasible = true ∧
      Validation.ofFlows reducedLane result.flows (some (.dense [-3, 3])) none none 0 =
        .ok validation ∧
      validation.violations = [.imbalance 0 (-2), .imbalance 1 2] := by
  obtain ⟨returns, valid⟩ := solve_prepared reducedLane prepared_reducedLane _ _ asks_reducedLane
    ⟨0, false⟩ rfl .idle
  obtain ⟨result, ok⟩ := returns (by decide) fun _ => rfl
  have feasible : (solve reducedLane (.dense [-3, 3]) ⟨0, false⟩
      .idle).outcome.toOption.map Result.feasible = some true := by decide +kernel
  rw [ok] at feasible
  obtain ⟨-, validation, read, violations, -⟩ := valid result ok (Option.some.inj feasible)
  refine ⟨result, validation, ok, Option.some.inj feasible, read, ?_⟩
  rw [violations]
  decide +kernel

/-- The circulation is feasible, and its flows are not valid for the demands that were solved. -/
theorem solve_prepared_invalid :
    reducedLane.Prepared ∧
    (solve reducedLane (.dense [-3, 3]) ⟨0, false⟩ .idle).outcome.toOption.map (fun result =>
      (result.feasible, (Validation.ofFlows reducedLane result.flows (some (.dense [-3, 3])) none
        none 0).toOption.map Validation.isValid)) = some (true, some false) :=
  ⟨prepared_reducedLane, by decide +kernel⟩

end Circulation
end NetworkFlow
