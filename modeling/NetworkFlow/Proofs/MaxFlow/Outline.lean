import NetworkFlow.Proofs.Flow.MinCut
import NetworkFlow.Proofs.MaxFlow.Resume
import NetworkFlow.Proofs.Residual.Reachability

namespace NetworkFlow

open Quantity Network

variable {α : Type} [Quantity α]

/-- The total flows have the indices of the edges as keys. -/
theorem Network.keys_totalFlows {network : Network α} (wellFormed : network.WellFormed)
    {flows : Table Int α} (read : network.totalFlows = .ok flows) :
    flows.keys = (List.range network.edgeCount).map Int.ofNat := by
  obtain ⟨pairs, computed, made⟩ := ok_of_bind read
  have keys : pairs.map Prod.fst = (network.edges.toList.map Edge.index).map Int.ofNat := by
    rw [List.map_map]
    refine map_of_mapM ?_ computed
    intro edge pair paired
    obtain ⟨flow, -, paired⟩ := ok_of_bind paired
    rw [← Except.ok.inj paired]
    rfl
  rw [wellFormed.map_index] at keys
  have distinct : (pairs.map Prod.fst).Nodup := by
    rw [keys]
    exact List.nodup_range.map Int.ofNat_injective
  rw [← Except.ok.inj made, Table.keys, Table.entries_ofList distinct, keys]

namespace MaxFlow

/-- An attempt that finds no path searched everything and did not reach the sink. -/
theorem search_of_saturated {network : Network α} {finder next : Finder α} {source sink : Nat}
    {total : α} (saturated : attempt network finder source sink total = .saturated next) :
    finder.search network source sink = (.ok false, next) := by
  simp only [attempt] at saturated
  split at saturated
  · cases saturated
  · next searched =>
    cases saturated
    exact searched
  · split at saturated
    · cases saturated
    · split at saturated
      · cases saturated
      · split at saturated <;> cases saturated

/-- A result outlines a network when its terminals are the source and the sink, its cut lists
vertices in increasing order, the source among them and not the sink,
and it has a flow for each edge. -/
structure Result.Outlines (result : Result α) (network : Network α) (source sink : Nat)
    (cut : List Nat) : Prop where
  sourceNamed : result.source = source
  sinkNamed : result.sink = sink
  sourceInside : source < network.vertexCount
  sinkInside : sink < network.vertexCount
  minCut : result.minCut = cut.map Int.ofNat
  increasing : cut.Pairwise (· < ·)
  inside : ∀ vertex ∈ cut, vertex < network.vertexCount
  holdsSource : source ∈ cut
  lacksSink : sink ∉ cut
  keys : result.flows.keys = (List.range network.edgeCount).map Int.ofNat

/-- Every result of a solve outlines its network, whatever fuel the solve gets. -/
theorem outlines_of_solveWithin {network : Network α} (wellFormed : network.WellFormed)
    {fuel : Nat} {source sink : Int} {options : Options α} {watch : Watch α} {result : Result α}
    (ok : (solveWithin fuel network source sink options watch).outcome = .ok result) :
    ∃ (first last : Nat) (cut : List Nat), source = first ∧ sink = last ∧
      result.Outlines network first last cut := by
  obtain ⟨interval, first, last, terminals⟩ := terminals_of_ok ok
  obtain ⟨sources, sinks, sourceInside, sinkInside, differ⟩ := checkTerminals_eq_ok terminals
  rw [solveWithin_eq terminals interval] at ok
  generalize ran : augmentAll watch first last fuel 0 zero network
    (.create network options.tolerance) = run at ok
  obtain ⟨noFault, flows, read, rfl⟩ := Run.result_eq_ok_iff.mp ok
  obtain ⟨final, passes, -, left, saturated⟩ :=
    Passes.of_augmentAll (.start network options.tolerance) ran noFault
  have shape : SameShape network final.network := passes.keeps.1
  have stays := wellFormed.ofSameShape shape
  obtain ⟨explored, unreached⟩ := Finder.explored_of_search stays
    (shape.vertexCount ▸ sourceInside) (search_of_saturated saturated)
  have size : run.finder.tree.marked.size = network.vertexCount :=
    explored.size.trans shape.vertexCount.symm
  refine ⟨first, last, run.finder.reachable, sources, sinks, ?_⟩
  constructor
  case sourceNamed => rfl
  case sinkNamed => rfl
  case sourceInside => exact sourceInside
  case sinkInside => exact sinkInside
  case minCut => rfl
  case increasing => exact List.pairwise_lt_range.filter _
  case inside =>
    intro vertex member
    rw [← size]
    exact SearchTree.lt_size_of_isMarked (Finder.mem_reachable_iff.mp member)
  case holdsSource =>
    exact Finder.mem_reachable_iff.mpr ((explored.isMarked_iff stays first).mpr ⟨0, .start⟩)
  case lacksSink =>
    intro member
    have reached := (Finder.hasPathTo_natCast run.finder last).mpr
      (Finder.mem_reachable_iff.mp member)
    cases reached.symm.trans unreached
  case keys =>
    rw [left] at read
    rw [keys_totalFlows stays read, shape.edgeCount]

/-- A solve that gives a result is a warm solve from cleared flows. -/
theorem solveWithin_of_solve {network : Network α} {source sink : Int} {options : Options α}
    {watch : Watch α} {result : Result α}
    (ok : (solve network source sink options watch).outcome = .ok result) :
    (solveWithin (enoughFuel network.resetFlows) network.resetFlows source sink options
      watch).outcome = .ok result := by
  rw [← solveWarm_eq_solveWithin, solveWarm,
    checkTerminals_congr (sameShape_resetFlows network).vertexCount.symm]
  unfold solve at ok
  split at ok
  · cases ok
  · split at ok
    · cases ok
    · exact ok

end MaxFlow
end NetworkFlow
