import NetworkFlow.Proofs.Circulation.Equivalence
import NetworkFlow.Proofs.Circulation.Prepared

namespace NetworkFlow

open Quantity ExactQuantity Network

/-- Every list of demands gives each vertex its demand. -/
theorem Demands.exists_demand (demands : List Rat) :
    ∃ demand : Nat → Rat, demands = (List.range demands.length).map demand := by
  refine ⟨fun vertex => demands.getD vertex 0, List.ext_getElem (by simp) ?_⟩
  intro vertex inside _
  simp [inside]

/-- Demands on a network whose lower bounds are not negative are reduced without a fault.
The sum of the demands stays, and their totals are compared once only. -/
theorem reduceLowerBounds_keeps_sum {network : Network Rat} (wellFormed : network.WellFormed)
    (least : ∀ edge ∈ network.edges, 0 ≤ edge.lower) {demands : List Rat}
    (length : demands.length = network.vertexCount) (tolerance : Rat) :
    ∃ working reduction,
      network.reduceLowerBounds demands tolerance = (working, .ok reduction) ∧
      reduction.adjustedDemands.sum = demands.sum ∧
      (reduction.balanced = true ↔
        |(demands.filter (0 < ·)).sum - -(demands.filter (· < 0)).sum| ≤ tolerance) ∧
      reduction.stage ≠ some .after := by
  obtain ⟨demand, each⟩ := Demands.exists_demand demands
  rw [length] at each
  rw [each, sum_filter_positive, sum_filter_negative, neg_neg]
  by_cases near : |demandTotal network.vertexCount demand - supplyTotal network.vertexCount demand|
      ≤ tolerance
  · obtain ⟨reduction, folds, stage, adjusted, -⟩ := exact_folds wellFormed least near
    refine ⟨network.reduced, reduction, folds.computed wellFormed, ?_, ?_, ?_⟩
    · rw [adjusted, sum_map_range, sum_map_range, wellFormed.sum_shiftedDemand]
    · simp only [Reduction.balanced, stage, Option.isNone_none, near]
    · simp only [stage, ne_eq, reduceCtorEq, not_false_iff]
  · refine ⟨network, _, reduceLowerBounds_of_far (totals_rat _ _) (gap_rat _ _)
      (decide_eq_true (not_le.mp near)), rfl, ?_, ?_⟩
    · simp only [Reduction.balanced, Option.isNone_some, near, Bool.false_eq_true]
    · simp only [ne_eq, Option.some.injEq, reduceCtorEq, not_false_iff]

namespace Circulation

variable {α : Type} [Quantity α]

/-- A solve that came to its run has no stage. -/
theorem solveWired_stage {working : Network α} {edgeCount : Nat} {reduction : Reduction α}
    {wiring : Wiring α} {options : Options α} {watch : Watch α} {result : Result α}
    (ok : (solveWired working edgeCount reduction wiring options watch).outcome = .ok result) :
    result.stage = none := by
  simp only [solveWired] at ok
  split at ok
  · cases ok
  · obtain ⟨flows, -, ok⟩ := ok_of_bind ok
    rw [← Except.ok.inj ok]

/-- The stage of a solve is the stage of its reduction. -/
theorem stage_of_reduction {network clone working : Network α} {demands : Demands α}
    {vector : List α} {reduction : Reduction α} {options : Options α} {watch : Watch α}
    {result : Result α} (accepted : demands.vector network.vertexCount = .ok vector)
    (copied : network.copy = .ok clone)
    (reduced : clone.resetFlows.reduceLowerBounds vector options.tolerance =
      (working, .ok reduction))
    (ok : (solve network demands options watch).outcome = .ok result) :
    result.stage = reduction.stage := by
  simp only [solve, accepted, copied, ok_bind, pure, Except.pure, reduced] at ok
  cases stage : reduction.stage with
  | some early =>
    simp only [Reduction.balanced, stage, Option.isNone_some, Bool.not_false, if_true] at ok
    rw [← Except.ok.inj ok]
    exact stage
  | none =>
    simp only [Reduction.balanced, stage, Option.isNone_none, Bool.not_true, Bool.false_eq_true,
      if_false] at ok
    split at ok
    · cases ok
    · exact solveWired_stage ok

/-- In rational arithmetic a reduction keeps the sum of the demands. It is balanced exactly when
the total demand and the total supply of the caller are within the tolerance of each other,
so neither a reduction nor a solve ever finds them apart after the folding. -/
theorem reduction_keeps_balance (network : Network Rat) (wellFormed : network.WellFormed)
    (ordered : network.Ordered) :
    (∀ demands : List Rat, demands.length = network.vertexCount →
      ∀ tolerance : Rat, ∃ working reduction,
        network.reduceLowerBounds demands tolerance = (working, .ok reduction) ∧
        reduction.adjustedDemands.sum = demands.sum ∧
        (reduction.balanced = true ↔
          |(demands.filter (0 < ·)).sum - -(demands.filter (· < 0)).sum| ≤ tolerance) ∧
        reduction.stage ≠ some .after) ∧
    ∀ (demands : Demands Rat) (options : Options Rat) (watch : Watch Rat) (result : Result Rat),
      (solve network demands options watch).outcome = .ok result → result.stage ≠ some .after := by
  refine ⟨?_, ?_⟩
  · intro demands length tolerance
    exact reduceLowerBounds_keeps_sum wellFormed (fun edge member => (ordered edge member).1) length
      tolerance
  · intro demands options watch result ok
    cases accepted : demands.vector network.vertexCount with
    | error fault =>
      simp only [solve, accepted, error_bind] at ok
      cases ok
    | ok vector =>
      have shape := sameShape_resetFlows network
      obtain ⟨working, reduction, reduced, -, -, never⟩ := reduceLowerBounds_keeps_sum
        (wellFormed.ofSameShape shape) (fun edge member => (ordered.resetFlows edge member).1)
        ((Demands.length_vector accepted).trans shape.vertexCount) options.tolerance
      rwa [stage_of_reduction accepted (ordered.copied wellFormed) reduced ok]

/-- A lower bound of two turns a supply of one into a demand and a demand of one into a supply. -/
theorem reduction_keeps_balance_swap :
    ∃ working reduction,
      (single (5 : Rat) 2).reduceLowerBounds [-1, 1] 0 = (working, .ok reduction) ∧
      reduction.adjustedDemands = [1, -1] ∧ reduction.adjustedDemands.sum = 0 ∧
      reduction.balanced = true ∧ reduction.stage ≠ some .after := by
  have assembled : (single (5 : Rat) 2).Assembled :=
    assembled_single ((exact_check rfl rfl trivial trivial 0 1).mpr (by norm_num))
  obtain ⟨reduces, -⟩ := reduction_keeps_balance (single 5 2) assembled.wellFormed assembled.ordered
  obtain ⟨working, reduction, computed, kept, balanced, never⟩ := reduces [-1, 1] rfl 0
  have known : ((single (5 : Rat) 2).reduceLowerBounds [-1, 1] 0).2.toOption.map
      Reduction.adjustedDemands = some [1, -1] := by decide +kernel
  rw [computed] at known
  refine ⟨working, reduction, computed, Option.some.inj known, ?_, balanced.mpr ?_, never⟩
  · rw [kept]
    norm_num
  · decide +kernel

end Circulation
end NetworkFlow
