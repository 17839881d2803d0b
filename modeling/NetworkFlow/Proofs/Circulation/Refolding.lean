import NetworkFlow.Circulation
import NetworkFlow.Proofs.Circulation.ReducedNetwork

namespace NetworkFlow

open Quantity Network

variable {α : Type} [Quantity α] {network : Network α} {demands : List α} {tolerance : α}
  {reduction : Reduction α}

/-- Folding a load without its flow leaves what folding the load does, without the flow. -/
theorem Folding.foldLoad_reset (load : Load α) :
    foldLoad { load with flow := zero } =
      ({ (foldLoad load).1 with flow := zero }, (foldLoad load).2) := by
  simp only [foldLoad]
  cases sub load.capacity load.lower with
  | error fault => rfl
  | ok capacity =>
    dsimp only
    cases add load.offset load.lower with
    | error fault => rfl
    | ok offset => rfl

/-- The flow on an edge plays no part in its shifts. -/
theorem Folding.shiftEdge_reset (deltas : Array α) (edge : Edge α) :
    shiftEdge deltas { edge with flow := zero } = shiftEdge deltas edge := by
  simp only [shiftEdge, foldLoad_reset]

theorem Load.reduced_reset (load : Load α) :
    Load.reduced { load with flow := zero } = { load.reduced with flow := zero } := by
  unfold reduced
  simp only [Folding.foldLoad_reset]
  split <;> rfl

/-- The flows may be cleared before a reduction or after it. -/
theorem Network.reduced_resetFlows (network : Network α) :
    network.resetFlows.reduced = network.reduced.resetFlows := by
  refine congrArg (Network.mk network.adjacency) ?_
  simp only [resetFlows, Network.reduced, mapLoads, Array.map_map]
  apply Array.map_congr_left
  intro edge _
  exact congrArg edge.withLoad (Load.reduced_reset edge.toLoad)

/-- A reduction is the same without the flows. -/
theorem Reduction.Folds.resetFlows (folds : reduction.Folds network demands tolerance) :
    reduction.Folds network.resetFlows demands tolerance := by
  refine { folds with shifts := ?_, reducedEdges := ?_ }
  · rw [← folds.shifts, Network.resetFlows, Array.toList_map, List.foldlM_map]
    simp only [Folding.shiftEdge_reset]
  · rw [folds.reducedEdges]
    simp only [foldedEdges, Network.resetFlows, edgeCount, Array.toList_map, Array.size_map,
      ← List.map_take, List.filter_map, List.map_map]
    rfl

/-- A network has no lower bound when a reduction folds none of its edges. -/
def Network.HasNoLower (network : Network α) : Prop :=
  ∀ edge ∈ network.edges, lessEq edge.lower (ofInt 0) = true

theorem Network.HasNoLower.resetFlows (none : network.HasNoLower) :
    network.resetFlows.HasNoLower := by
  intro edge member
  obtain ⟨old, inside, rfl⟩ := Array.mem_map.mp member
  exact none old inside

/-- Only lower bounds are reduced. -/
theorem Network.HasNoLower.reduced_eq (none : network.HasNoLower) :
    network.reduced = network := by
  refine congrArg (Network.mk network.adjacency) ?_
  apply Array.ext_getElem?
  intro position
  rw [Array.getElem?_map]
  cases stands : network.edges[position]? with
  | none => rfl
  | some edge =>
    have small := none edge (Array.mem_of_getElem? stands)
    have kept : edge.toLoad.reduced = edge.toLoad := if_pos small
    exact congrArg (fun load => some (edge.withLoad load)) kept

theorem Network.HasNoLower.foldedEdges (none : network.HasNoLower) (count : Nat) :
    network.foldedEdges count = [] := by
  have kept : (network.edges.toList.take count).filter
      (fun edge => !lessEq edge.lower (ofInt 0)) = [] := by
    rw [List.filter_eq_nil_iff]
    intro edge member
    rw [none edge (Array.mem_toList_iff.mp (List.mem_of_mem_take member))]
    decide
  rw [Network.foldedEdges, kept, List.map_nil]

/-- Edges without a lower bound shift nothing. -/
theorem Network.HasNoLower.shifts (none : network.HasNoLower) (deltas : Array α) :
    network.edges.toList.foldlM Folding.shiftEdge deltas = .ok deltas := by
  obtain ⟨adjacency, ⟨edges⟩⟩ := network
  change edges.foldlM Folding.shiftEdge deltas = .ok deltas
  have each : ∀ edge ∈ edges, lessEq edge.lower (ofInt 0) = true :=
    fun edge member => none edge (List.mem_toArray.mpr member)
  clear none
  induction edges with
  | nil => rfl
  | cons edge rest inductionHypothesis =>
    rw [List.foldlM_cons, Folding.shiftEdge, if_pos (each edge (by simp)), ok_bind]
    exact inductionHypothesis fun other member => each other (by simp [member])

/-- Every edge whose shifts were computed was folded without a fault. -/
theorem Folding.foldLoad_of_shifts {edges : List (Edge α)} {before after : Array α}
    (shifts : edges.foldlM shiftEdge before = .ok after) {edge : Edge α} (member : edge ∈ edges)
    (large : ¬lessEq edge.lower (ofInt 0) = true) : (foldLoad edge.toLoad).2 = none := by
  induction edges generalizing before with
  | nil => cases member
  | cons first rest inductionHypothesis =>
    rw [List.foldlM_cons] at shifts
    obtain ⟨middle, shifted, shifts⟩ := ok_of_bind shifts
    rcases List.mem_cons.mp member with rfl | later
    · rw [shiftEdge, if_neg large] at shifted
      obtain ⟨_, -, shifted⟩ := ok_of_bind shifted
      obtain ⟨_, -, shifted⟩ := ok_of_bind shifted
      cases failed : (foldLoad edge.toLoad).2 with
      | none => rfl
      | some fault =>
        rw [failed] at shifted
        cases shifted
    · exact inductionHypothesis shifts later

/-- A load that is folded without a fault has lost its lower bound and its flow. -/
theorem Folding.foldLoad_eq {load : Load α} (noFault : (foldLoad load).2 = none) :
    ∃ capacity offset, sub load.capacity load.lower = .ok capacity ∧
      add load.offset load.lower = .ok offset ∧
      (foldLoad load).1 = ⟨capacity, zero, zero, offset⟩ := by
  simp only [foldLoad] at noFault ⊢
  cases taken : sub load.capacity load.lower with
  | error fault =>
    rw [taken] at noFault
    cases noFault
  | ok capacity =>
    rw [taken] at noFault
    cases added : add load.offset load.lower with
    | error fault =>
      rw [added] at noFault
      cases noFault
    | ok offset => exact ⟨capacity, offset, rfl, rfl, rfl⟩

/-- A reduction leaves no lower bound, when the lower bound that it leaves counts as none. -/
theorem Reduction.Folds.hasNoLower (folds : reduction.Folds network demands tolerance)
    (none : lessEq (zero : α) (ofInt 0) = true) : network.reduced.HasNoLower := by
  intro edge member
  obtain ⟨old, inside, rfl⟩ := mem_mapLoads.mp member
  change lessEq old.toLoad.reduced.lower (ofInt 0) = true
  rw [Load.reduced]
  split
  · assumption
  · obtain ⟨capacity, offset, -, -, left⟩ := Folding.foldLoad_eq
      (Folding.foldLoad_of_shifts folds.shifts (Array.mem_toList_iff.mpr inside) ‹_›)
    rw [left]
    exact none

/-- What a balanced reduction leaves is reduced to itself when adding nothing to its demands
leaves them as they are. -/
theorem Reduction.Folds.again (folds : reduction.Folds network demands tolerance)
    (none : lessEq (zero : α) (ofInt 0) = true)
    (still : Network.adjusted reduction.adjustedDemands
        (List.replicate reduction.adjustedDemands.length zero) = .ok reduction.adjustedDemands)
    (near : ∀ gap, lessEq gap tolerance = true → less tolerance gap = false)
    (balanced : reduction.balanced = true) :
    Reduction.Folds { reduction with
        deltas := List.replicate reduction.adjustedDemands.length zero, reducedEdges := [] }
      network.reduced reduction.adjustedDemands tolerance := by
  have hasNone := folds.hasNoLower none
  obtain ⟨gap, apart, stage⟩ := folds.after
  have small : lessEq gap tolerance = true := by
    by_contra large
    rw [if_neg large] at stage
    rw [Reduction.balanced, stage] at balanced
    cases balanced
  constructor
  · exact ⟨_, _, gap, folds.totals, apart, near gap small⟩
  · rw [hasNone.shifts]
    simp
  · exact still
  · exact (hasNone.foldedEdges _).symm
  · exact folds.totals
  · exact ⟨gap, apart, stage⟩

namespace Circulation

/-- A solve after its reduction wires the network and reads the verdict from the flow. -/
def solveReduced (working : Network α) (edgeCount : Nat) (reduction : Reduction α)
    (options : Options α) (watch : Watch α) : Solve α :=
  match working.buildCirculation (.dense reduction.adjustedDemands) options.tolerance with
  | (_, .error fault) => refused reduction.events fault
  | (working, .ok wiring) => solveWired working edgeCount reduction wiring options watch

/-- A solve whose reduction is balanced goes on with what it leaves. -/
theorem solve_eq_solveReduced {clone : Network α} {demands : Demands α} {vector : List α}
    {options : Options α} (given : demands.vector network.vertexCount = .ok vector)
    (copies : network.copy = .ok clone) (wellFormed : clone.WellFormed)
    (folds : reduction.Folds clone.resetFlows vector options.tolerance)
    (balanced : reduction.balanced = true) (watch : Watch α) :
    solve network demands options watch =
      solveReduced clone.resetFlows.reduced network.edgeCount reduction options watch := by
  have computed := folds.computed (wellFormed.ofSameShape (sameShape_resetFlows clone))
  simp only [solve, given, copies, ok_bind, computed, pure, Except.pure, balanced, Bool.not_true,
    Bool.false_eq_true, if_false]
  rfl

/-- The deltas of a reduction and the edges that it folded do not change what is solved. -/
theorem solveReduced_congr (working : Network α) (edgeCount : Nat) (reduction : Reduction α)
    (deltas : List α) (reducedEdges : List Nat) (options : Options α) (watch : Watch α) :
    (solveReduced working edgeCount { reduction with deltas, reducedEdges } options
        watch).outcome = (solveReduced working edgeCount reduction options watch).outcome ∧
      (solveReduced working edgeCount { reduction with deltas, reducedEdges } options
        watch).reports = (solveReduced working edgeCount reduction options watch).reports := by
  simp only [solveReduced]
  cases working.buildCirculation (.dense reduction.adjustedDemands) options.tolerance with
  | mk wired built =>
    cases built with
    | error fault => exact ⟨rfl, rfl⟩
    | ok wiring =>
      simp only [solveWired]
      split
      · exact ⟨rfl, rfl⟩
      · exact ⟨rfl, rfl⟩

end Circulation
end NetworkFlow
