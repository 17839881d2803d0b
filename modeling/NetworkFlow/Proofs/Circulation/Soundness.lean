import NetworkFlow.Proofs.Circulation.DemandVector
import NetworkFlow.Proofs.Circulation.Solve
import NetworkFlow.Proofs.Flow.Validity
import NetworkFlow.Proofs.Network.Assembled

namespace NetworkFlow

open Quantity ExactQuantity Network

/-- An assembled network poses a circulation in rational arithmetic for any demands. -/
theorem Network.Assembled.posed {network : Network Rat} (assembled : network.Assembled)
    (demand : Nat → Rat) : Posed Rat network.resetFlows demand := by
  have cleared : ∀ edge ∈ network.resetFlows.edges, 0 ≤ edge.lower ∧ edge.lower ≤ edge.capacity ∧
      edge.flow = 0 ∧ edge.offset = 0 := by
    intro edge member
    obtain ⟨old, inside, rfl⟩ := Array.mem_map.mp member
    obtain ⟨checked, offset⟩ := assembled.load old inside
    obtain ⟨least, most⟩ := (exact_check rfl rfl trivial trivial _ _).mp checked
    exact ⟨least, most, rfl, offset⟩
  refine ⟨assembled.wellFormed.ofSameShape (sameShape_resetFlows network),
    fun edge member => (cleared edge member).1, fun edge member => (cleared edge member).2.1,
    fun edge member => (cleared edge member).2.2.1, fun edge member => (cleared edge member).2.2.2,
    ?_, ?_, ?_, trivial⟩
  · exact fun _ _ => AddSubgroup.mem_top _
  · exact fun _ _ => AddSubgroup.mem_top _
  · exact fun _ => AddSubgroup.mem_top _

namespace Circulation

section Settled

variable {result : Result Rat} {run : MaxFlow.Run Rat} {exact last : Network Rat}
  {demand : Nat → Rat} {bound total : Rat}

/-- Every edge of the caller is given the flow that the run left on it and its lower bound. -/
theorem Settles.flow_eq
    (settles : Settles result run bound exact demand bound last total)
    (posed : Posed Rat exact demand) {edge : Edge Rat} (member : edge ∈ exact.edges) :
    result.flows.find? edge.index = some (last.flowAt edge.index + edge.lower) := by
  obtain ⟨flow, found, known⟩ := settles.flows.value edge.index (posed.wellFormed.index_lt member)
  obtain ⟨twin, stands, -, -, offset⟩ := own_edge settles.finished.bounds posed.offset
    (posed.wellFormed.getElem?_index member)
  have equal : flow = last.totalAt edge.index := Option.some.inj known
  rw [found, equal, totalAt_eq stands, flowAt_eq stands, offset]

/-- The flow on every edge of the caller is within its bounds. -/
theorem Settles.bounded (settles : Settles result run bound exact demand bound last total)
    (posed : Posed Rat exact demand) {edge : Edge Rat} (member : edge ∈ exact.edges) :
    edge.lower ≤ last.flowAt edge.index + edge.lower ∧
      last.flowAt edge.index + edge.lower ≤ edge.capacity := by
  obtain ⟨twin, stands, -, capacity, -⟩ := own_edge settles.finished.bounds posed.offset
    (posed.wellFormed.getElem?_index member)
  have inside := Array.mem_of_getElem? stands
  have least := settles.finished.carries.nonneg twin inside
  have most := settles.finished.carries.atMost twin inside
  rw [flowAt_eq stands]
  exact ⟨by linarith, by linarith⟩

/-- A feasible result falls short of the shifted demand by no more than the tolerance. -/
theorem Settles.met (settles : Settles result run bound exact demand bound last total)
    (feasible : result.feasible = true) :
    demandTotal exact.vertexCount (exact.shiftedDemand demand) - bound ≤ total := by
  have spared : (sub result.demand bound : Except (Fault Rat) Rat) = .ok (result.demand - bound) :=
    rfl
  have judged := settles.verdict
  rw [verdict_eq spared, feasible] at judged
  have reached : result.demand - bound ≤ result.value :=
    (lessEq_iff rfl rfl).mp (Except.ok.inj judged)
  rwa [Option.some.inj settles.demand, Option.some.inj settles.value] at reached

/-- A feasible result misses no demand by more than twice the tolerance. -/
theorem Settles.abs_imbalance_le
    (settles : Settles result run bound exact demand bound last total)
    (posed : Posed Rat exact demand)
    (balanced : |∑ vertex ∈ Finset.range exact.vertexCount, demand vertex| ≤ bound)
    (feasible : result.feasible = true) {vertex : Nat} (inside : vertex < exact.vertexCount) :
    |exact.netOutflow (Validation.carried result.flows) vertex + demand vertex| ≤ 2 * bound := by
  have carried : exact.netOutflow (Validation.carried result.flows) vertex =
      exact.netOutflow (fun edge => last.flowAt edge.index) vertex +
        exact.netOutflow (fun edge => edge.lower) vertex := by
    rw [← netOutflow_add]
    apply netOutflow_congr
    intro edge member
    rw [Validation.carried, settles.flow_eq posed member, Option.getD_some]
  have missed := abs_missed_le posed.wellFormed settles.finished.bounds settles.finished.carries
    (by rwa [demandTotal_sub_supplyTotal, posed.wellFormed.sum_shiftedDemand])
    (settles.met feasible) inside
  rw [carried, own_netOutflow posed.wellFormed settles.finished.wellFormed settles.finished.bounds
    posed.offset settles.finished.carries inside]
  rw [← abs_neg]
  convert missed using 2
  rw [shiftedDemand]
  ring

end Settled

section Caller

variable {network : Network Rat} {result : Result Rat} {run : MaxFlow.Run Rat}
  {last : Network Rat} {demands : Demands Rat} {demand : Nat → Rat} {bound total : Rat}

/-- The table of a settled circulation has the edges of the caller as its keys. -/
theorem Settles.keys_eq
    (settles : Settles result run bound network.resetFlows demand bound last total) :
    result.flows.keys = (List.range network.edgeCount).map Int.ofNat := by
  rw [settles.flows.keys, (sameShape_resetFlows network).edgeCount]

theorem Settles.known
    (settles : Settles result run bound network.resetFlows demand bound last total) :
    ∀ key ∈ result.flows.keys, 0 ≤ key ∧ key < network.edgeCount := by
  intro key member
  rw [settles.keys_eq] at member
  obtain ⟨position, inside, rfl⟩ := List.mem_map.mp member
  exact ⟨Int.natCast_nonneg position, Int.ofNat_lt.mpr (List.mem_range.mp inside)⟩

/-- Every edge of the caller is given a flow within its bounds. -/
theorem Settles.within
    (settles : Settles result run bound network.resetFlows demand bound last total)
    (assembled : network.Assembled) {edge : Edge Rat} (member : edge ∈ network.edges) :
    ∃ flow, result.flows.find? edge.index = some flow ∧ edge.lower ≤ flow ∧
      flow ≤ edge.capacity := by
  have inside : { edge with flow := 0 } ∈ network.resetFlows.edges :=
    Array.mem_map.mpr ⟨edge, member, rfl⟩
  have found := settles.flow_eq (assembled.posed demand) inside
  have between := settles.bounded (assembled.posed demand) inside
  exact ⟨_, found, between⟩

/-- A feasible circulation meets the demand of every vertex up to twice the tolerance. -/
theorem Settles.meets
    (settles : Settles result run bound network.resetFlows demand bound last total)
    (assembled : network.Assembled)
    (balanced : |∑ vertex ∈ Finset.range network.vertexCount, demand vertex| ≤ bound)
    (feasible : result.feasible = true) {vertex : Nat} (inside : vertex < network.vertexCount) :
    |network.inflow (Validation.carried result.flows) vertex -
      network.outflow (Validation.carried result.flows) vertex - demand vertex| ≤ 2 * bound := by
  have posed := assembled.posed demand
  have same := Validation.netOutflow_carried (sameShape_resetFlows network) result.flows vertex
  have imbalance := settles.abs_imbalance_le posed balanced feasible inside
  rw [← same, netOutflow, ← abs_neg] at imbalance
  convert imbalance using 2
  ring

/-- A feasible circulation is valid at twice the tolerance. -/
theorem Settles.valid
    (settles : Settles result run bound network.resetFlows demand bound last total)
    (assembled : network.Assembled) (nonneg : 0 ≤ bound)
    (accepted : demands.vector network.vertexCount =
      .ok ((List.range network.vertexCount).map demand))
    (balanced : |∑ vertex ∈ Finset.range network.vertexCount, demand vertex| ≤ bound)
    (feasible : result.feasible = true) :
    ∃ validation, Validation.ofFlows network result.flows (some demands) none none (2 * bound) =
      .ok validation ∧ validation.isValid = true := by
  have bounded : ∀ edge ∈ network.edges,
      edge.lower + edge.offset ≤ Validation.carried result.flows edge ∧
        Validation.carried result.flows edge ≤ edge.capacity + edge.offset := by
    intro edge member
    have offset : edge.offset = 0 := (assembled.load edge member).2
    obtain ⟨flow, found, between⟩ := settles.within assembled member
    rw [offset, add_zero, add_zero, Validation.carried, found]
    exact between
  exact Validation.isValid_ofFlows assembled.wellFormed (by linarith) accepted settles.known bounded
    (fun _ => settles.meets assembled balanced feasible) none none

end Caller

/-- In rational arithmetic a circulation that is not refused keeps within the bounds of the caller.
When it is feasible, no vertex misses its demand by more than twice the tolerance. -/
theorem solve_sound (network : Network Rat) (assembled : network.Assembled)
    (demands : Demands Rat) (demand : Nat → Rat) (asks : demands.Ask network.vertexCount demand)
    (options : Options Rat) (nonneg : 0 ≤ options.tolerance) (watch : Watch Rat) :
    (0 < watch.interval → (∀ report, watch.halts report = false) →
      ∃ result, (solve network demands options watch).outcome = .ok result) ∧
    ∀ result, (solve network demands options watch).outcome = .ok result →
      (result.status ≠ .unbalanced →
        result.flows.keys = (List.range network.edgeCount).map Int.ofNat ∧
        ∀ edge ∈ network.edges, ∃ flow, result.flows.find? edge.index = some flow ∧
          edge.lower ≤ flow ∧ flow ≤ edge.capacity) ∧
      (result.feasible = true →
        (∀ vertex < network.vertexCount,
          |network.inflow (Validation.carried result.flows) vertex -
            network.outflow (Validation.carried result.flows) vertex - demand vertex| ≤
              2 * options.tolerance) ∧
        (options.tolerance = 0 → ∀ vertex < network.vertexCount,
          network.inflow (Validation.carried result.flows) vertex -
            network.outflow (Validation.carried result.flows) vertex = demand vertex) ∧
        ∃ validation, Validation.ofFlows network result.flows (some demands) none none
            (2 * options.tolerance) = .ok validation ∧ validation.isValid = true) := by
  have posed := assembled.posed demand
  have copied := assembled.copied
  obtain ⟨vector, accepted, stands⟩ := asks.exact_vector fun _ _ => trivial
  refine ⟨?_, ?_⟩
  · intro interval quiet
    exact solve_ok posed network.resetFlows.standsFor_self copied accepted stands rfl nonneg
      interval quiet fun total _ => ⟨total - options.tolerance, rfl⟩
  · intro result ok
    rcases solve_settles posed network.resetFlows.standsFor_self copied accepted stands rfl nonneg
      ok with ⟨-, unbalanced, infeasible⟩ | ⟨balanced, run, last, total, settles⟩
    · refine ⟨fun status => absurd unbalanced status, ?_⟩
      rw [infeasible]
      simp
    · refine ⟨fun _ => ⟨settles.keys_eq, fun _ => settles.within assembled⟩, ?_⟩
      intro feasible
      have meets := fun vertex (inside : vertex < network.vertexCount) =>
        settles.meets assembled balanced feasible inside
      rw [allStandFor_rat.mp stands] at accepted
      refine ⟨meets, ?_, settles.valid assembled nonneg accepted balanced feasible⟩
      intro exactly vertex inside
      have none := meets vertex inside
      rw [exactly, mul_zero, abs_nonpos_iff, sub_eq_zero] at none
      exact none

theorem solve_sound_single :
    ∃ result, (solve (single (5 : Rat) 2) (.dense [-3, 3]) ⟨0, false⟩ .idle).outcome =
        .ok result ∧ result.feasible = true ∧ ∀ vertex < 2,
      (single (5 : Rat) 2).inflow (Validation.carried result.flows) vertex -
        (single (5 : Rat) 2).outflow (Validation.carried result.flows) vertex =
        if vertex = 0 then -3 else 3 := by
  have assembled : (single (5 : Rat) 2).Assembled :=
    assembled_single ((exact_check rfl rfl trivial trivial 0 1).mpr (by norm_num))
  obtain ⟨exists_result, sound⟩ := solve_sound (single 5 2) assembled (.dense [-3, 3])
    (fun vertex => if vertex = 0 then -3 else 3) (allStandFor_rat.mpr rfl) ⟨0, false⟩ le_rfl .idle
  obtain ⟨result, ok⟩ := exists_result (by decide) fun _ => rfl
  have feasible : (solve (single (5 : Rat) 2) (.dense [-3, 3]) ⟨0, false⟩
      .idle).outcome.toOption.map Result.feasible = some true := by decide +kernel
  rw [ok] at feasible
  have judged : result.feasible = true := Option.some.inj feasible
  exact ⟨result, ok, judged, ((sound result ok).2 judged).2.1 rfl⟩

end Circulation
end NetworkFlow
