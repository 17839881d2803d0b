import NetworkFlow.Proofs.Arithmetic.Tolerance
import NetworkFlow.Proofs.Circulation.DemandVector
import NetworkFlow.Proofs.Circulation.Violation
import NetworkFlow.Proofs.Network.Assembled
import NetworkFlow.Proofs.Network.Integral
import Mathlib.Data.Real.Basic

namespace NetworkFlow

open Quantity ExactQuantity Network

section Assignments

variable {α K : Type} [AddCommGroup K] [LinearOrder K] [IsOrderedAddMonoid K]

/-- An assignment meets the demands when every edge respects its bounds
and every vertex keeps what it demands. -/
structure Network.Meets (network : Network α) (lower capacity : Edge α → K) (demand : Nat → K)
    (assigned : Edge α → K) : Prop where
  least : ∀ edge ∈ network.edges, lower edge ≤ assigned edge
  most : ∀ edge ∈ network.edges, assigned edge ≤ capacity edge
  balanced : ∀ vertex < network.vertexCount,
    network.inflow assigned vertex - network.outflow assigned vertex = demand vertex

variable {network : Network α} {lower capacity assigned : Edge α → K} {demand : Nat → K}

omit [IsOrderedAddMonoid K] in
/-- What the vertices of a set demand enters it across its boundary. -/
theorem Network.Meets.sum_eq (meets : network.Meets lower capacity demand assigned)
    {side : Finset Nat} (own : ∀ vertex ∈ side, vertex < network.vertexCount) :
    -∑ vertex ∈ side, demand vertex =
      network.leaving assigned side - network.entering assigned side := by
  rw [← sum_netOutflow, ← Finset.sum_neg_distrib]
  apply Finset.sum_congr rfl
  intro vertex member
  rw [← meets.balanced vertex (own vertex member), neg_sub]
  rfl

/-- No set of vertices sends more than what its edges may carry away
beyond what they must carry in. -/
theorem Network.Meets.le (meets : network.Meets lower capacity demand assigned)
    {side : Finset Nat} (own : ∀ vertex ∈ side, vertex < network.vertexCount) :
    -∑ vertex ∈ side, demand vertex ≤
      network.leaving capacity side - network.entering lower side := by
  rw [meets.sum_eq own]
  exact sub_le_sub (leaving_le_leaving meets.most side) (entering_le_entering meets.least side)

omit [IsOrderedAddMonoid K] in
/-- Demands that are met cancel. -/
theorem Network.Meets.sum_eq_zero (meets : network.Meets lower capacity demand assigned)
    (wellFormed : network.WellFormed) :
    ∑ vertex ∈ Finset.range network.vertexCount, demand vertex = 0 := by
  rw [← neg_eq_zero, meets.sum_eq fun _ => Finset.mem_range.mp, ← sum_netOutflow,
    sum_netOutflow_eq_zero wellFormed]

end Assignments

/-- A set of vertices that sends more than its edges may carry away leaves no assignment
of real numbers. -/
theorem Network.Meets.not_violated {α : Type} {network : Network α} {lower capacity : Nat → Nat}
    {demand : Nat → Int} {assigned : Edge α → ℝ}
    (meets : network.Meets (fun edge => (lower edge.index : ℝ))
      (fun edge => (capacity edge.index : ℝ)) (fun vertex => (demand vertex : ℝ)) assigned)
    {side : List Nat} (own : ∀ vertex ∈ side, vertex < network.vertexCount) :
    ¬network.leaving (fun edge => (capacity edge.index : Int)) side.toFinset -
        network.entering (fun edge => (lower edge.index : Int)) side.toFinset <
      -∑ vertex ∈ side.toFinset, demand vertex := by
  intro violates
  have most := meets.le fun vertex (member : vertex ∈ side.toFinset) =>
    own vertex (List.mem_toFinset.mp member)
  have more : ((network.leaving (fun edge => (capacity edge.index : Int)) side.toFinset -
      network.entering (fun edge => (lower edge.index : Int)) side.toFinset : Int) : ℝ) <
      ((-∑ vertex ∈ side.toFinset, demand vertex : Int) : ℝ) := Int.cast_lt.mpr violates
  rw [Int.cast_sub, intCast_leaving, intCast_entering, Int.cast_neg, Int.cast_sum] at more
  simp only [Int.cast_natCast] at more
  exact absurd most (not_le.mpr more)

/-- An integer whose magnitude is below one is zero. -/
theorem eq_zero_of_abs_le {value : Int} {bound : Rat} (small : |(value : Rat)| ≤ bound)
    (below : bound < 1) : value = 0 := by
  rw [← Int.abs_lt_one_iff]
  exact_mod_cast small.trans_lt below

section Integers

variable {network : Network Number} {capacity lower : Nat → Nat} {demand : Nat → Int}

/-- An assembled network with integer bounds and integer demands poses a circulation
when all data total at most 2^53. -/
theorem Network.Assembled.posed_integral (assembled : network.Assembled)
    (capacities : ∀ edge ∈ network.edges,
      value? edge.capacity = some (capacity edge.index : Rat))
    (lowers : ∀ edge ∈ network.edges, value? edge.lower = some (lower edge.index : Rat))
    (small : network.edgeSum (fun edge => (capacity edge.index : Int)) +
      network.edgeSum (fun edge => (lower edge.index : Int)) +
      ∑ vertex ∈ Finset.range network.vertexCount, |demand vertex| ≤ 2 ^ 53) :
    Posed Number (network.integral capacity lower) fun vertex => demand vertex := by
  have capacitiesLeast : ∀ edge ∈ network.edges, (0 : Int) ≤ capacity edge.index :=
    fun _ _ => Int.natCast_nonneg _
  have lowersLeast : ∀ edge ∈ network.edges, (0 : Int) ≤ lower edge.index :=
    fun _ _ => Int.natCast_nonneg _
  have capacitySum := edgeSum_nonneg capacitiesLeast
  have lowerSum := edgeSum_nonneg lowersLeast
  have demandSum : 0 ≤ ∑ vertex ∈ Finset.range network.vertexCount, |demand vertex| :=
    Finset.sum_nonneg fun _ _ => abs_nonneg _
  have ordered : ∀ edge ∈ network.edges, lower edge.index ≤ capacity edge.index := by
    intro edge member
    have one := le_edgeSum capacitiesLeast member
    have other := le_edgeSum lowersLeast member
    have checked := (exact_check (capacities edge member) (lowers edge member)
      (Number.fits_natCast (by omega)) (Number.fits_natCast (by omega)) edge.tail edge.head).mp
      (assembled.load edge member).1
    exact_mod_cast checked.2
  refine ⟨assembled.wellFormed.ofSameShape (sameShape_valued network _), ?_, ?_, ?_, ?_, ?_, ?_,
    fun _ => intCast_mem_lattice _, ?_⟩
  · intro edge member
    obtain ⟨old, -, rfl⟩ := mem_valued.mp member
    exact Nat.cast_nonneg _
  · intro edge member
    obtain ⟨old, inside, rfl⟩ := mem_valued.mp member
    exact Nat.cast_le.mpr (ordered old inside)
  · intro edge member
    obtain ⟨old, -, rfl⟩ := mem_valued.mp member
    rfl
  · intro edge member
    obtain ⟨old, -, rfl⟩ := mem_valued.mp member
    rfl
  · intro edge member
    obtain ⟨old, -, rfl⟩ := mem_valued.mp member
    exact natCast_mem_lattice _
  · intro edge member
    obtain ⟨old, -, rfl⟩ := mem_valued.mp member
    exact natCast_mem_lattice _
  · rw [capacitySum_integral, lowerSum_integral]
    have total : ∑ vertex ∈ Finset.range (network.integral capacity lower).vertexCount,
        |((demand vertex : Int) : Rat)| =
        ((∑ vertex ∈ Finset.range network.vertexCount, |demand vertex| : Int) : Rat) := by
      push_cast
      rfl
    rw [total, ← Int.cast_add, ← Int.cast_add]
    exact Number.fits_intCast (by omega)

namespace Circulation

section Settled

variable {result : Result Number} {run : MaxFlow.Run Number} {tolerance : Number}
  {last : Network Rat} {bound total : Rat}

/-- The value of an infeasible result falls short of the demand. -/
theorem Settles.short {exact : Network Rat} {demand : Nat → Rat}
    (settles : Settles result run tolerance exact demand bound last total)
    (posed : Posed Number exact demand) (tolerances : value? tolerance = some bound)
    (nonneg : 0 ≤ bound) (below : bound < 1) (infeasible : result.feasible = false) :
    total < demandTotal exact.vertexCount (exact.shiftedDemand demand) := by
  have fits := (posed.fits_totals posed.shiftedDemand_mem posed.demandTotal_shifted_le
    posed.supplyTotal_shifted_le).1
  obtain ⟨room, left, spared, known, most⟩ := Number.exact_sub_le settles.demand fits
    (demandTotal_nonneg _ _) tolerances nonneg below
  have judged := settles.verdict
  rw [verdict_eq spared, infeasible] at judged
  have missed : ¬left ≤ total := by
    rw [← lessEq_iff known settles.value, Except.ok.inj judged]
    exact Bool.false_ne_true
  exact (not_le.mp missed).trans_le most

/-- The vertices of the caller on the cut of an infeasible result violate the condition
that every assignment satisfies. -/
theorem Settles.certificate
    (settles : Settles result run tolerance (network.integral capacity lower)
      (fun vertex => demand vertex) bound last total)
    (posed : Posed Number (network.integral capacity lower) fun vertex => demand vertex)
    (tolerances : value? tolerance = some bound) (nonneg : 0 ≤ bound) (below : bound < 1)
    (cancels : ∑ vertex ∈ Finset.range network.vertexCount, demand vertex = 0)
    (infeasible : result.feasible = false) :
    ∃ side : List Nat,
      result.minCut.filter (fun vertex => some vertex ≠ result.source) = side.map Int.ofNat ∧
      (∀ vertex ∈ side, vertex < network.vertexCount) ∧
      network.leaving (fun edge => (capacity edge.index : Int)) side.toFinset -
          network.entering (fun edge => (lower edge.index : Int)) side.toFinset <
        -∑ vertex ∈ side.toFinset, demand vertex := by
  have cancelsToo : ∑ vertex ∈ Finset.range (network.integral capacity lower).vertexCount,
      (demand vertex : Rat) = 0 := by
    rw [← Int.cast_sum]
    exact_mod_cast cancels
  have violates := settles.violates posed (discrete_number below) nonneg cancelsToo
    (settles.short posed tolerances nonneg below infeasible)
  obtain ⟨side, known⟩ : ∃ side, side = run.finder.reachable.filter fun vertex =>
    vertex ≠ network.vertexCount := ⟨_, rfl⟩
  have same : side.toFinset = run.finder.side.erase network.vertexCount := by
    ext vertex
    rw [known, List.mem_toFinset, List.mem_filter, Finset.mem_erase, Finder.side,
      List.mem_toFinset, decide_eq_true_iff, and_comm]
  refine ⟨side, ?_, ?_, ?_⟩
  · rw [settles.minCut, settles.source, known, List.filter_map]
    apply congrArg (List.map Int.ofNat)
    apply List.filter_congr
    intro vertex _
    rw [Function.comp_apply, decide_eq_decide, ne_eq, Option.some.injEq]
    exact not_congr Int.ofNat_inj
  · intro vertex member
    have inside : vertex ∈ run.finder.side.erase network.vertexCount := by
      rwa [← same, List.mem_toFinset]
    exact settles.lt_vertexCount inside
  · rw [same]
    have cast : (network.integral capacity lower).vertexCount = network.vertexCount := rfl
    rw [cast, leaving_integral, entering_integral, ← Int.cast_sum, ← Int.cast_sub,
      ← Int.cast_neg] at violates
    exact_mod_cast violates

end Settled

/-- A circulation with integer data that total at most 2^53 and a tolerance below one is unbalanced
exactly when its demands do not cancel. When its edges are too small, the cut without the new
source is a set of vertices that sends more than its edges may carry away.
Either way no assignment of real numbers meets the demands. -/
theorem solve_complete (network : Network Number) (assembled : network.Assembled)
    (capacity lower : Nat → Nat)
    (capacities : ∀ edge ∈ network.edges,
      value? edge.capacity = some (capacity edge.index : Rat))
    (lowers : ∀ edge ∈ network.edges, value? edge.lower = some (lower edge.index : Rat))
    (demands : Demands Number) (demand : Nat → Int)
    (asks : demands.Ask network.vertexCount fun vertex => demand vertex)
    (small : network.edgeSum (fun edge => (capacity edge.index : Int)) +
      network.edgeSum (fun edge => (lower edge.index : Int)) +
      ∑ vertex ∈ Finset.range network.vertexCount, |demand vertex| ≤ 2 ^ 53)
    (options : Options Number) (tolerance : Rat)
    (tolerances : value? options.tolerance = some tolerance) (nonneg : 0 ≤ tolerance)
    (below : tolerance < 1) (watch : Watch Number) :
    (0 < watch.interval → (∀ report, watch.halts report = false) →
      ∃ result, (solve network demands options watch).outcome = .ok result) ∧
    ∀ result, (solve network demands options watch).outcome = .ok result →
      (result.status = .unbalanced ↔
        ∑ vertex ∈ Finset.range network.vertexCount, demand vertex ≠ 0) ∧
      (result.status = .insufficientCapacity → ∃ side : List Nat,
        result.minCut.filter (fun vertex => some vertex ≠ result.source) = side.map Int.ofNat ∧
        (∀ vertex ∈ side, vertex < network.vertexCount) ∧
        network.leaving (fun edge => (capacity edge.index : Int)) side.toFinset -
            network.entering (fun edge => (lower edge.index : Int)) side.toFinset <
          -∑ vertex ∈ side.toFinset, demand vertex) ∧
      (result.feasible = false → ¬∃ assigned : Edge Number → ℝ,
        network.Meets (fun edge => (lower edge.index : ℝ)) (fun edge => (capacity edge.index : ℝ))
          (fun vertex => (demand vertex : ℝ)) assigned) := by
  have posed := assembled.posed_integral capacities lowers small
  have copied := assembled.copied
  have standsFor := standsFor_integral capacities lowers fun edge member => by
    rw [(assembled.load edge member).2, value?_zero]
  obtain ⟨vector, accepted, stands⟩ := asks.exact_vector fun _ inside => posed.fits_demand inside
  refine ⟨?_, ?_⟩
  · intro interval quiet
    refine solve_ok posed standsFor copied accepted stands tolerances nonneg interval quiet ?_
    intro total known
    have fits := (posed.fits_totals posed.shiftedDemand_mem posed.demandTotal_shifted_le
      posed.supplyTotal_shifted_le).1
    obtain ⟨room, -, spared, -⟩ := Number.exact_sub_le known fits (demandTotal_nonneg _ _)
      tolerances nonneg below
    exact ⟨room, spared⟩
  · intro result ok
    have cast : ∑ vertex ∈ Finset.range (network.integral capacity lower).vertexCount,
        (demand vertex : Rat) =
        ((∑ vertex ∈ Finset.range network.vertexCount, demand vertex : Int) : Rat) := by
      push_cast
      rfl
    rcases solve_settles posed standsFor copied accepted stands tolerances nonneg ok with
      ⟨wide, status, -⟩ | ⟨balanced, run, last, total, settles⟩
    · have differs : ∑ vertex ∈ Finset.range network.vertexCount, demand vertex ≠ 0 := by
        intro zero
        rw [cast, zero, Int.cast_zero, abs_zero] at wide
        exact absurd nonneg (not_le.mpr wide)
      refine ⟨iff_of_true status differs, ?_, ?_⟩
      · rw [status]
        exact fun other => nomatch other
      · rintro - ⟨assigned, meets⟩
        have zero := meets.sum_eq_zero assembled.wellFormed
        exact differs (by exact_mod_cast zero)
    · rw [cast] at balanced
      have cancels := eq_zero_of_abs_le balanced below
      refine ⟨iff_of_false settles.status_ne (not_not.mpr cancels), ?_, ?_⟩
      · exact fun status => settles.certificate posed tolerances nonneg below cancels
          (settles.infeasible status)
      · rintro infeasible ⟨assigned, meets⟩
        obtain ⟨side, -, own, violates⟩ := settles.certificate posed tolerances nonneg below
          cancels infeasible
        exact meets.not_violated own violates

theorem solve_complete_single :
    ∃ result, (solve (single (Number.int 2) (Number.int 1)) (.dense [.int (-3), .int 3])
        ⟨.int 0, false⟩ .idle).outcome = .ok result ∧
      result.feasible = false ∧ ¬∃ assigned : Edge Number → ℝ,
        (single (Number.int 2) (Number.int 1)).Meets (fun _ => ((1 : Nat) : ℝ))
          (fun _ => ((2 : Nat) : ℝ)) (fun vertex => ((if vertex = 0 then -3 else 3 : Int) : ℝ))
          assigned := by
  have capacities : ∀ edge ∈ (single (Number.int 2) (Number.int 1)).edges,
      value? edge.capacity = some ((2 : Nat) : Rat) := by
    intro edge member
    rw [mem_single member]
    exact Number.value?_int 2
  have lowers : ∀ edge ∈ (single (Number.int 2) (Number.int 1)).edges,
      value? edge.lower = some ((1 : Nat) : Rat) := by
    intro edge member
    rw [mem_single member]
    exact Number.value?_int 1
  have asks : (Demands.dense [Number.int (-3), .int 3]).Ask 2
      fun vertex => ((if vertex = 0 then -3 else 3 : Int) : Rat) :=
    .cons (Number.value?_int (-3)) (.cons (Number.value?_int 3) .nil)
  obtain ⟨gives, complete⟩ := solve_complete (single (.int 2) (.int 1))
    (assembled_single_int (by decide) (by decide) (by decide)) (fun _ => 2) (fun _ => 1)
    capacities lowers _ _ asks (by decide) ⟨.int 0, false⟩ 0 value?_ofInt_zero le_rfl one_pos .idle
  obtain ⟨result, ok⟩ := gives (by decide) fun _ => rfl
  have refused : (solve (single (Number.int 2) (Number.int 1)) (.dense [.int (-3), .int 3])
      ⟨.int 0, false⟩ .idle).outcome.toOption.map Result.feasible = some false := by
    decide +kernel
  rw [ok] at refused
  have infeasible : result.feasible = false := Option.some.inj refused
  exact ⟨result, ok, infeasible, (complete result ok).2.2 infeasible⟩

end Circulation

end Integers

end NetworkFlow
