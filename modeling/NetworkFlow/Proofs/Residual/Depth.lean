import NetworkFlow.Proofs.Residual.Bound
import NetworkFlow.Proofs.Residual.ShortestPaths
import Mathlib.Data.ENat.Lattice

namespace NetworkFlow

open Quantity ExactQuantity Network

/-- The length of a shortest walk to a vertex, infinite where no walk leads. -/
noncomputable def reachLength (step : Nat → Nat → Prop) (source vertex : Nat) : ℕ∞ :=
  ⨅ (length : Nat) (_ : Walk step source length vertex), (length : ℕ∞)

theorem reachLength_le {step : Nat → Nat → Prop} {source length vertex : Nat}
    (walk : Walk step source length vertex) : reachLength step source vertex ≤ length :=
  iInf₂_le length walk

/-- A finished tree puts a vertex on the level of a shortest walk, and leaves it without a mark
where no walk leads. -/
theorem SearchTree.Spans.reachLength_eq {α : Type} {rule : Crossing α} {network : Network α}
    {source : Nat} {level : Nat → Nat} {tree : SearchTree}
    (spans : tree.Spans rule network source level) (vertex : Nat) :
    reachLength (Leads (rule.Crosses network)) source vertex =
      if tree.isMarked vertex then (level vertex : ℕ∞) else ⊤ := by
  split
  · next marked =>
    apply le_antisymm (reachLength_le (spans.walk marked))
    refine le_iInf₂ fun length walk => ?_
    exact Nat.cast_le.mpr (spans.of_walk walk).2
  · next unmarked =>
    refine iInf₂_eq_top.mpr fun length walk => ?_
    exact absurd (spans.of_walk walk).1 unmarked

namespace Finder

variable {α : Type} {network : Network α} {next : Finder α} {source : Nat}

/-- The number of edges on the tree path to a vertex, infinite where there is no mark. -/
def depth (finder : Finder α) (network : Network α) (vertex : Nat) : ℕ∞ :=
  match finder.hasPathTo vertex, finder.pathEdges network vertex with
  | .ok true, .ok edges => edges.length
  | _, _ => ⊤

/-- A search finds every vertex at the length of a shortest walk. -/
theorem Explored.depth_eq [Quantity α] {tolerance : α}
    (explored : next.Explored network tolerance source) (wellFormed : network.WellFormed)
    (vertex : Nat) : next.depth network vertex =
      reachLength (Leads (network.Passable tolerance)) source vertex := by
  obtain ⟨level, spans⟩ := explored.spans
  have length := spans.reachLength_eq vertex
  rw [crosses_residual wellFormed] at length
  rw [length, depth]
  by_cases marked : next.tree.isMarked vertex = true
  · obtain ⟨arcs, found, shortest⟩ := explored.pathArcs wellFormed marked
    have height := spans.distance_eq marked
    rw [crosses_residual wellFormed, ← shortest.length_eq] at height
    have listed : next.pathEdges network vertex = .ok (arcs.map Arc.edge) := by
      rw [pathEdges, found]
      rfl
    rw [(hasPathTo_natCast next vertex).mpr marked, listed, if_pos marked, ← height]
    simp
  · have unanswered := mt (hasPathTo_natCast next vertex).mp marked
    rw [if_neg marked]
    split
    · next answer _ => exact absurd answer unanswered
    · rfl

end Finder

section Exact

variable {network : Network Rat} {bound amount : Rat} {source sink : Nat} {arcs : List Arc}

/-- In exact arithmetic the passable arcs are the residual ones. -/
theorem Network.passable_eq_residual (wellFormed : network.WellFormed) (bound : Rat) :
    network.Passable bound = network.Residual bound := by
  rw [← crosses_residual wellFormed bound]
  funext arc
  exact propext (crosses_residual_iff (standsFor_self network) (roomFits_rat network) wellFormed
    rfl arc)

/-- The residual distance is the length of a shortest walk unless it is the number of vertices. -/
theorem Network.reachLength_eq (wellFormed : network.WellFormed)
    (sourceInside : source < network.vertexCount) (bound : Rat) (vertex : Nat) :
    reachLength (Leads (network.Passable bound)) source vertex =
      if network.residualDistance bound source vertex < network.vertexCount then
        (network.residualDistance bound source vertex : ℕ∞) else ⊤ := by
  have decides := residual_decides (standsFor_self network) (roomFits_rat network) wellFormed
    (show value? bound = some bound from rfl)
  obtain ⟨-, level, spans⟩ := Search.run_spans decides sourceInside
  have marks := spans.isMarked_iff vertex
  have length := spans.reachLength_eq vertex
  have height (marked : (Search.run network (.residual bound) none source).tree.isMarked vertex) :=
    spans.distance_eq marked
  rw [crosses_residual wellFormed] at length marks height
  rw [length, residualDistance, ← passable_eq_residual wellFormed]
  by_cases marked : (Search.run network (.residual bound) none source).tree.isMarked vertex = true
  · rw [if_pos marked, if_pos (marks.mp marked), height marked]
  · rw [if_neg marked, if_neg (mt marks.mpr marked)]

/-- No augmentation shortens the walks to a vertex. -/
theorem Augments.reachLength_le_shifted (wellFormed : network.WellFormed)
    (sourceInside : source < network.vertexCount)
    (augments : Augments bound source sink network arcs amount) (vertex : Nat) :
    reachLength (Leads (network.Passable bound)) source vertex ≤
      reachLength (Leads ((network.shifted amount arcs).Passable bound)) source vertex := by
  have later := augments.distance_le_shifted wellFormed vertex
  rw [reachLength_eq wellFormed sourceInside,
    reachLength_eq (wellFormed.ofSameShape (sameShape_shifted network amount arcs)) sourceInside,
    vertexCount_shifted]
  split
  · split
    · exact Nat.cast_le.mpr later
    · exact le_top
  · next far =>
    rw [if_neg (by omega)]

/-- The path of an augmentation is as long as a shortest walk to the sink. -/
theorem Augments.length_eq (wellFormed : network.WellFormed)
    (sourceInside : source < network.vertexCount)
    (augments : Augments bound source sink network arcs amount) :
    (arcs.length : ℕ∞) = reachLength (Leads (network.Passable bound)) source sink := by
  have near : network.residualDistance bound source sink < network.vertexCount :=
    augments.shortest.target_near (Nat.zero_lt_of_lt sourceInside)
  rw [reachLength_eq wellFormed sourceInside, if_pos near]
  exact congrArg Nat.cast augments.shortest.length_eq

end Exact
end NetworkFlow
