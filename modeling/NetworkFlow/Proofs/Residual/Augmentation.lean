import NetworkFlow.Proofs.Residual.Push

namespace NetworkFlow

open Quantity ExactQuantity Network

/-- The exact room of an arc. -/
def Network.arcSpace (network : Network Rat) (arc : Arc) : Rat :=
  match network.edges[arc.edge]? with
  | some edge => edge.space (arc.target = edge.head)
  | none => 0

/-- An amount augments a network along a shortest residual path when it is the smallest room
on the path. -/
structure Augments (bound : Rat) (source sink : Nat) (network : Network Rat) (arcs : List Arc)
    (amount : Rat) : Prop where
  shortest : ShortestPath (network.Residual bound) network.vertexCount source sink arcs
  tight : ∃ arc ∈ arcs, amount = network.arcSpace arc
  wide : ∀ arc ∈ arcs, amount ≤ network.arcSpace arc

theorem arcSpace_eq {network : Network Rat} {arc : Arc} {edge : Edge Rat}
    (stands : network.edges[arc.edge]? = some edge) :
    network.arcSpace arc = edge.space (arc.target = edge.head) := by
  simp only [arcSpace, stands]

theorem Network.Residual.lt_arcSpace {network : Network Rat} {bound : Rat} {arc : Arc}
    (residual : network.Residual bound arc) : bound < network.arcSpace arc := by
  obtain ⟨edge, stands, -, -, wide⟩ := residual
  rwa [arcSpace_eq stands]

theorem ShortestPath.origin_ne_target {crosses : Arc → Prop} {bound source target : Nat}
    {arcs : List Arc} (shortest : ShortestPath crosses bound source target arcs) {arc : Arc}
    (member : arc ∈ arcs) : arc.origin ≠ arc.target := by
  intro same
  have rise := shortest.rises arc member
  rw [same] at rise
  omega

/-- A shortest residual path crosses no edge twice. -/
theorem ShortestPath.distinct {network : Network Rat} {bound : Rat} {source target : Nat}
    {arcs : List Arc}
    (shortest : ShortestPath (network.Residual bound) network.vertexCount source target arcs) :
    (arcs.map Arc.edge).Nodup := by
  induction arcs generalizing target with
  | nil => exact List.nodup_nil
  | cons first rest inductionHypothesis =>
    rw [List.map_cons, List.nodup_cons]
    refine ⟨?_, inductionHypothesis shortest.tail⟩
    intro repeated
    obtain ⟨other, later, same⟩ := List.mem_map.mp repeated
    have member : other ∈ first :: rest := List.mem_cons_of_mem _ later
    have nearer := shortest.distance_lt later
    have rise := shortest.rises other member
    obtain ⟨edge, forward, stands, -, firstOrigin, firstTarget, -⟩ :=
      (shortest.crossed first (by simp)).direction (shortest.origin_ne_target (by simp))
    obtain ⟨edge', forward', stands', -, otherOrigin, otherTarget, -⟩ :=
      (shortest.crossed other member).direction (shortest.origin_ne_target member)
    rw [same, stands] at stands'
    obtain rfl := Option.some.inj stands'
    -- The other arc goes the same way or back, and neither end of it is far enough.
    by_cases way : forward = forward'
    · rw [firstTarget, otherTarget, way] at nearer
      exact lt_irrefl _ nearer
    · have back : other.origin = first.target := by
        rw [otherOrigin, firstTarget]
        cases forward <;> cases forward' <;> simp_all [Edge.origin, Edge.target]
      rw [back] at rise
      omega

namespace Augments

variable {bound amount : Rat} {source sink : Nat} {network : Network Rat} {arcs : List Arc}

/-- The amount exceeds the tolerance. -/
theorem above (augments : Augments bound source sink network arcs amount) : bound < amount := by
  obtain ⟨arc, member, equal⟩ := augments.tight
  rw [equal]
  exact (augments.shortest.crossed arc member).lt_arcSpace

theorem inRange (augments : Augments bound source sink network arcs amount) {arc : Arc}
    (member : arc ∈ arcs) : arc.edge < network.edgeCount := by
  obtain ⟨edge, stands, -⟩ := augments.shortest.crossed arc member
  exact (Array.getElem?_eq_some_iff.mp stands).1

/-- An edge is off the path, or one arc of the path crosses it in a direction whose room
is at least the amount. -/
theorem edge_cases (wellFormed : network.WellFormed)
    (augments : Augments bound source sink network arcs amount) {edge : Edge Rat}
    (member : edge ∈ network.edges) :
    (crossings arcs edge = 0 ∧ ∀ arc ∈ arcs, arc.edge ≠ edge.index) ∨
      ∃ arc ∈ arcs, ∃ forward, arc.edge = edge.index ∧ edge.tail ≠ edge.head ∧
        arc.origin = edge.origin forward ∧ arc.target = edge.target forward ∧
        bound < edge.space forward ∧ amount ≤ edge.space forward ∧
        network.arcSpace arc = edge.space forward ∧
        crossings arcs edge = if forward then 1 else -1 := by
  by_cases crossed : ∃ arc ∈ arcs, arc.edge = edge.index
  · right
    obtain ⟨arc, path, same⟩ := crossed
    obtain ⟨other, forward, stands, differ, origin, target, wide⟩ :=
      (augments.shortest.crossed arc path).direction (augments.shortest.origin_ne_target path)
    have known := wellFormed.getElem?_index member
    rw [same, known] at stands
    obtain rfl := Option.some.inj stands
    have way : decide (arc.target = edge.head) = forward := by
      rw [target]
      cases forward <;> simp [Edge.target, differ]
    have space : network.arcSpace arc = edge.space forward := by
      rw [arcSpace_eq (same ▸ known), way]
    refine ⟨arc, path, forward, same, differ, origin, target, wide, ?_, space, ?_⟩
    · rw [← space]
      exact augments.wide arc path
    · rw [crossings_of_mem augments.shortest.distinct path same]
      cases forward <;> simp_all
  · left
    push Not at crossed
    exact ⟨crossings_eq_zero crossed, crossed⟩

end Augments

section Attempt

variable {α : Type} [Quantity α] [ExactQuantity α] {network : Network α} {exact : Network Rat}
  {bound : Rat} {source sink : Nat}

/-- The room of an arc is computed exactly. -/
theorem exact_room (standsFor : network.StandsFor exact) (fits : exact.RoomFits α) {arc : Arc}
    (inRange : arc.edge < exact.edgeCount) :
    ∃ room, network.room arc = .ok room ∧ value? room = some (exact.arcSpace arc) := by
  obtain ⟨other, found⟩ : ∃ other, exact.edges[arc.edge]? = some other :=
    ⟨_, Array.getElem?_eq_getElem inRange⟩
  obtain ⟨edge, stands, place, loads⟩ := standsFor.exactEdge found
  have way : decide (arc.target = edge.head) = decide (arc.target = other.head) := by
    rw [Edge.place_head place]
  obtain ⟨room, computed, known⟩ := loads.room (fits other (Array.mem_of_getElem? found))
    (decide (arc.target = other.head))
  refine ⟨room, ?_, ?_⟩
  · simp only [Network.room, stands, way]
    exact computed
  · rw [arcSpace_eq found, known]

/-- The bottleneck of a shortest residual path is computed exactly. -/
theorem exact_bottleneck (standsFor : network.StandsFor exact) (fits : exact.RoomFits α)
    {arcs : List Arc} (nonempty : arcs ≠ [])
    (shortest : ShortestPath (exact.Residual bound) exact.vertexCount source sink arcs) :
    ∃ amount value, MaxFlow.bottleneck network arcs = .ok amount ∧ value? amount = some value ∧
      Augments bound source sink exact arcs value := by
  have each : ∀ arc ∈ arcs, ∃ room, network.room arc = .ok room ∧
      value? room = some (exact.arcSpace arc) := by
    intro arc member
    obtain ⟨edge, stands, -⟩ := shortest.crossed arc member
    exact exact_room standsFor fits (Array.getElem?_eq_some_iff.mp stands).1
  obtain ⟨rooms, computed, stands⟩ := exact_mapM each
  have present : rooms ≠ [] := by
    rintro rfl
    exact nonempty (List.map_eq_nil_iff.mp (List.forall₂_nil_left_iff.mp stands))
  obtain ⟨amount, value, least, known, occurs, smallest⟩ := value?_least stands present
  refine ⟨amount, value, ?_, known, shortest, ?_, ?_⟩
  · simp only [MaxFlow.bottleneck, computed, ok_bind, least]
    rfl
  · obtain ⟨arc, member, equal⟩ := List.mem_map.mp occurs
    exact ⟨arc, member, equal.symm⟩
  · intro arc member
    exact smallest _ (List.mem_map_of_mem member)

/-- An attempt is saturated when no residual path leads to the sink. Otherwise it pushes exactly
while the flows fit, and it augments when its amount can be added to the total. -/
theorem exact_attempt (finder : Finder α) (standsFor : network.StandsFor exact)
    (fits : exact.RoomFits α) (wellFormed : network.WellFormed)
    (tolerances : value? finder.tolerance = some bound) (sourceInside : source < exact.vertexCount)
    (sinkInside : sink < exact.vertexCount) (differ : source ≠ sink) (total : α) :
    (∃ next, MaxFlow.attempt network finder source sink total = .saturated next ∧
      next.tolerance = finder.tolerance ∧ next.Found network exact bound source ∧
      ¬next.tree.isMarked sink) ∨
    ∃ arcs value amount, Augments bound source sink exact arcs value ∧
      value? amount = some value ∧
      (Fits α value → (∀ edge ∈ (exact.shifted value arcs).edges, Fits α edge.flow) →
        ∃ after next, after.StandsFor (exact.shifted value arcs) ∧
          next.tolerance = finder.tolerance ∧
          ∀ totalAfter, add total amount = .ok totalAfter →
            MaxFlow.attempt network finder source sink total =
              .augmented after next ⟨arcs, amount, totalAfter⟩) := by
  obtain ⟨next, searched, tolerance, found⟩ := finder.search_found standsFor fits wellFormed
    tolerances sourceInside sinkInside
  unfold MaxFlow.attempt
  rw [searched]
  cases marked : next.tree.isMarked sink with
  | false => exact Or.inl ⟨next, rfl, tolerance, found, by simp [marked]⟩
  | true =>
    right
    obtain ⟨arcs, walked, shortest⟩ := found.paths sink differ.symm marked
    obtain ⟨amount, value, least, known, augments⟩ :=
      exact_bottleneck standsFor fits (shortest.path.ne_nil differ) shortest
    refine ⟨arcs, value, amount, augments, known, ?_⟩
    intro fitsAmount fitsAfter
    obtain ⟨after, pushed, afterStands⟩ := exact_pushAlong known fitsAmount standsFor
      (standsFor.wellFormed wellFormed) (fun arc => augments.inRange) shortest.distinct
      (fun edge member => (fits edge member).flow) fitsAfter
    refine ⟨after, next, afterStands, tolerance, ?_⟩
    intro totalAfter added
    simp only [walked, ok_bind, least, pure, Except.pure, pushed, added]

end Attempt
end NetworkFlow
