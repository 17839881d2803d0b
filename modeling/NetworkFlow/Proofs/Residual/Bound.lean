/-
This file bounds the number of augmentations by the vertices times the edges.
Distances in the residual network never fall, and each augmentation uses up a part of a potential
that the distances limit.
-/
import NetworkFlow.Proofs.Residual.Augmentation

namespace NetworkFlow

open Network

/-- A chain takes one augmentation after the other, each with its path and its amount. -/
inductive Chain (bound : Rat) (source sink : Nat) :
    Network Rat → List (List Arc × Rat) → Network Rat → Prop where
  | stop (network : Network Rat) : Chain bound source sink network [] network
  | step {network last : Network Rat} {arcs : List Arc} {amount : Rat}
      {rest : List (List Arc × Rat)} (augments : Augments bound source sink network arcs amount)
      (chain : Chain bound source sink (network.shifted amount arcs) rest last) :
      Chain bound source sink network ((arcs, amount) :: rest) last

/-- The distances of a residual network count residual arcs from the source. -/
noncomputable def Network.residualDistance (network : Network Rat) (bound : Rat)
    (source vertex : Nat) : Nat :=
  distance (Leads (network.Residual bound)) source network.vertexCount vertex

/-- How often a direction of an edge may still be saturated.
It is at most half of the distance that is left to the origin,
or to the target first when the direction is saturated now. -/
def charge (bound : Rat) (vertexCount : Nat) (distances : Nat → Nat) (edge : Edge Rat)
    (forward : Bool) : Nat :=
  if bound < edge.space forward then (vertexCount - distances (edge.origin forward)) / 2
  else (vertexCount - (distances (edge.target forward) + 1)) / 2

/-- The charges of both directions of all edges. -/
noncomputable def Network.potential (network : Network Rat) (bound : Rat) (source : Nat) : Nat :=
  (network.edges.toList.map fun edge =>
    charge bound network.vertexCount (network.residualDistance bound source) edge true +
      charge bound network.vertexCount (network.residualDistance bound source) edge false).sum

theorem Edge.origin_not {α : Type} (edge : Edge α) (forward : Bool) :
    edge.origin (!forward) = edge.target forward := by
  cases forward <;> rfl

theorem Edge.target_not {α : Type} (edge : Edge α) (forward : Bool) :
    edge.target (!forward) = edge.origin forward := by
  cases forward <;> rfl

/-- The edge after a push of an amount along arcs. -/
def Edge.shifted (edge : Edge Rat) (amount : Rat) (arcs : List Arc) : Edge Rat :=
  edge.withLoad { edge.toLoad with flow := edge.flow + amount * crossings arcs edge }

theorem edges_shifted (network : Network Rat) (amount : Rat) (arcs : List Arc) :
    (network.shifted amount arcs).edges.toList =
      network.edges.toList.map fun edge => edge.shifted amount arcs := by
  rw [Network.shifted, mapLoads, Array.toList_map]
  rfl

/-- A push in a direction takes room there and gives it to the other direction. -/
theorem space_shifted (edge : Edge Rat) (amount : Rat) (arcs : List Arc) (forward : Bool) :
    (edge.shifted amount arcs).space forward =
      edge.space forward - (if forward then 1 else -1) * (amount * crossings arcs edge) := by
  cases forward <;> simp only [Edge.shifted, Edge.withLoad, Load.space, if_true, if_false,
    Bool.false_eq_true] <;> ring

namespace Augments

variable {bound amount : Rat} {source sink : Nat} {network : Network Rat} {arcs : List Arc}

/-- An arc that is residual after a push was residual before,
or it goes back along an arc of the path. -/
theorem residual_shifted (wellFormed : network.WellFormed)
    (augments : Augments bound source sink network arcs amount) {arc : Arc}
    (residual : (network.shifted amount arcs).Residual bound arc)
    (differ : arc.origin ≠ arc.target) :
    network.Residual bound arc ∨
      ∃ other ∈ arcs, other.origin = arc.target ∧ other.target = arc.origin := by
  obtain ⟨edge, forward, stands, ends, origin, target, wide⟩ := residual.direction differ
  rw [getElem?_shifted] at stands
  obtain ⟨old, found, rfl⟩ := Option.map_eq_some_iff.mp stands
  change arc.origin = old.origin forward at origin
  change arc.target = old.target forward at target
  change bound < (old.shifted amount arcs).space forward at wide
  have stays (before : bound < old.space forward) : network.Residual bound arc := by
    have known := residual_of_direction found ends before
    rwa [← origin, ← target] at known
  rcases augments.edge_cases wellFormed (Array.mem_of_getElem? found) with
    ⟨unchanged, -⟩ | ⟨other, member, way, -, -, otherOrigin, otherTarget, before, -⟩
  · left
    rw [space_shifted, unchanged, mul_zero, mul_zero, sub_zero] at wide
    exact stays wide
  · by_cases same : forward = way
    · exact Or.inl (stays (same ▸ before))
    · obtain rfl : forward = !way := by cases forward <;> cases way <;> simp_all
      refine Or.inr ⟨other, member, ?_, ?_⟩
      · rw [otherOrigin, target, Edge.target_not]
      · rw [otherTarget, origin, Edge.origin_not]

/-- No augmentation brings a vertex nearer to the source. -/
theorem distance_le_shifted (wellFormed : network.WellFormed)
    (augments : Augments bound source sink network arcs amount) (vertex : Nat) :
    network.residualDistance bound source vertex ≤
      (network.shifted amount arcs).residualDistance bound source vertex := by
  apply le_distance vertex (distance_le_bound vertex)
  intro length walk
  induction walk with
  | start => exact distance_le_length .start
  | @extend length origin target walk leads inductionHypothesis =>
    obtain ⟨position, residual⟩ := leads
    change network.residualDistance bound source origin ≤ length at inductionHypothesis
    change network.residualDistance bound source target ≤ length + 1
    by_cases same : origin = target
    · rw [← same]
      exact inductionHypothesis.trans (Nat.le_succ _)
    · rcases augments.residual_shifted wellFormed residual same with
        before | ⟨other, member, otherOrigin, otherTarget⟩
      · have step : network.residualDistance bound source target ≤
            network.residualDistance bound source origin + 1 :=
          distance_step (leads_of_crosses before)
        omega
      · have rise : network.residualDistance bound source other.target =
            network.residualDistance bound source other.origin + 1 :=
          augments.shortest.rises other member
        rw [otherOrigin, otherTarget] at rise
        dsimp only at rise
        omega

/-- No charge grows, and the charge of a saturated direction of the path falls. -/
theorem charge_shifted (wellFormed : network.WellFormed)
    (augments : Augments bound source sink network arcs amount) {edge : Edge Rat}
    (member : edge ∈ network.edges) (forward : Bool) :
    charge bound network.vertexCount ((network.shifted amount arcs).residualDistance bound source)
        (edge.shifted amount arcs) forward ≤
      charge bound network.vertexCount (network.residualDistance bound source) edge forward := by
  have originLater := augments.distance_le_shifted wellFormed (edge.origin forward)
  have targetLater := augments.distance_le_shifted wellFormed (edge.target forward)
  simp only [charge, show (edge.shifted amount arcs).origin forward = edge.origin forward from rfl,
    show (edge.shifted amount arcs).target forward = edge.target forward from rfl]
  rcases augments.edge_cases wellFormed member with
    ⟨unchanged, -⟩ | ⟨arc, path, way, -, -, origin, target, before, -⟩
  · rw [space_shifted, unchanged, mul_zero, mul_zero, sub_zero]
    split <;> omega
  · have rise : network.residualDistance bound source arc.target =
        network.residualDistance bound source arc.origin + 1 := augments.shortest.rises arc path
    rw [origin, target] at rise
    by_cases same : forward = way
    · subst same
      rw [if_pos before]
      split <;> omega
    · obtain rfl : forward = !way := by cases forward <;> cases way <;> simp_all
      rw [← Edge.origin_not edge way, ← Edge.target_not edge way] at rise
      split <;> split <;> omega

/-- The narrowest arc of the path is saturated and gives up a part of its charge. -/
theorem charge_lt (wellFormed : network.WellFormed) (nonneg : 0 ≤ bound)
    (augments : Augments bound source sink network arcs amount) :
    ∃ edge ∈ network.edges, ∃ forward, charge bound network.vertexCount
        ((network.shifted amount arcs).residualDistance bound source)
        (edge.shifted amount arcs) forward <
      charge bound network.vertexCount (network.residualDistance bound source) edge forward := by
  obtain ⟨arc, path, equal⟩ := augments.tight
  obtain ⟨edge, -, stands, -⟩ :=
    (augments.shortest.crossed arc path).direction (augments.shortest.origin_ne_target path)
  have member := Array.mem_of_getElem? stands
  have index := wellFormed.index_eq stands
  rcases augments.edge_cases wellFormed member with
    ⟨-, absent⟩ | ⟨other, path', way, same, -, origin, target, before, -, space, sign⟩
  · exact absurd index.symm (absent arc path)
  · obtain rfl : arc = other := by
      refine List.inj_on_of_nodup_map augments.shortest.distinct path path' ?_
      rw [same, index]
    refine ⟨edge, member, way, ?_⟩
    have rise : network.residualDistance bound source arc.target =
        network.residualDistance bound source arc.origin + 1 := augments.shortest.rises arc path
    have near : network.residualDistance bound source arc.target < network.vertexCount :=
      augments.shortest.near arc path
    have targetLater := augments.distance_le_shifted wellFormed (edge.target way)
    rw [origin, target] at rise
    rw [target] at near
    have empty : (edge.shifted amount arcs).space way = 0 := by
      rw [space_shifted, sign, equal, space]
      cases way <;> simp
    have saturated : ¬bound < (edge.shifted amount arcs).space way := by
      rw [empty]
      exact not_lt.mpr nonneg
    rw [charge, if_neg saturated, charge, if_pos before,
      show (edge.shifted amount arcs).target way = edge.target way from rfl]
    omega

/-- Each augmentation takes something from the potential. -/
theorem potential_lt (wellFormed : network.WellFormed) (nonneg : 0 ≤ bound)
    (augments : Augments bound source sink network arcs amount) :
    (network.shifted amount arcs).potential bound source < network.potential bound source := by
  rw [potential, potential, edges_shifted, List.map_map, vertexCount_shifted]
  apply List.sum_lt_sum
  · intro edge member
    have inside := Array.mem_toList_iff.mp member
    exact Nat.add_le_add (augments.charge_shifted wellFormed inside true)
      (augments.charge_shifted wellFormed inside false)
  · obtain ⟨edge, member, way, less⟩ := augments.charge_lt wellFormed nonneg
    refine ⟨edge, Array.mem_toList_iff.mpr member, ?_⟩
    have other := augments.charge_shifted wellFormed member (!way)
    simp only [Function.comp_apply]
    cases way <;> simp only [Bool.not_true, Bool.not_false] at other <;> omega

end Augments

/-- The potential is at most the vertices times the edges. -/
theorem potential_le (network : Network Rat) (bound : Rat) (source : Nat) :
    network.potential bound source ≤ network.vertexCount * network.edgeCount := by
  have each : ∀ charges ∈ network.edges.toList.map fun edge =>
      charge bound network.vertexCount (network.residualDistance bound source) edge true +
        charge bound network.vertexCount (network.residualDistance bound source) edge false,
      charges ≤ network.vertexCount := by
    intro charges member
    obtain ⟨edge, -, rfl⟩ := List.mem_map.mp member
    have half (forward : Bool) : charge bound network.vertexCount
        (network.residualDistance bound source) edge forward ≤ network.vertexCount / 2 := by
      rw [charge]
      split <;> omega
    have first := half true
    have second := half false
    omega
  have total := List.sum_le_card_nsmul _ _ each
  rw [List.length_map, Array.length_toList, smul_eq_mul, Nat.mul_comm] at total
  exact total

/-- A chain of augmentations is no longer than the vertices times the edges. -/
theorem Chain.length_le {bound : Rat} {source sink : Nat} {network last : Network Rat}
    {steps : List (List Arc × Rat)} (nonneg : 0 ≤ bound) (wellFormed : network.WellFormed)
    (chain : Chain bound source sink network steps last) :
    steps.length ≤ network.vertexCount * network.edgeCount := by
  have spent : steps.length + last.potential bound source ≤ network.potential bound source := by
    induction chain with
    | stop network => simp
    | step augments chain inductionHypothesis =>
      have less := augments.potential_lt wellFormed nonneg
      have rest := inductionHypothesis (wellFormed.ofSameShape (sameShape_shifted _ _ _))
      rw [List.length_cons]
      omega
  have limit := potential_le network bound source
  omega

end NetworkFlow
