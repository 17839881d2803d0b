import NetworkFlow.Finder
import NetworkFlow.Proofs.Network.StandsFor
import NetworkFlow.Proofs.Search.TreePath

namespace NetworkFlow

open Quantity ExactQuantity Network

/-- A residual arc goes from an end of its edge to the other one. -/
def Network.Residual (network : Network Rat) (tolerance : Rat) (arc : Arc) : Prop :=
  ∃ edge, network.edges[arc.edge]? = some edge ∧
    (edge.tail = arc.origin ∨ edge.head = arc.origin) ∧
    arc.target = edge.otherEnd arc.origin ∧ tolerance < edge.space (arc.target = edge.head)

theorem Edge.place_tail {α β : Type} {first : Edge α} {second : Edge β}
    (same : first.place = second.place) : first.tail = second.tail :=
  congrArg Place.tail same

theorem Edge.place_head {α β : Type} {first : Edge α} {second : Edge β}
    (same : first.place = second.place) : first.head = second.head :=
  congrArg Place.head same

theorem Edge.place_index {α β : Type} {first : Edge α} {second : Edge β}
    (same : first.place = second.place) : first.index = second.index :=
  congrArg Place.index same

theorem Edge.otherEnd_eq {α β : Type} {first : Edge α} {second : Edge β}
    (same : first.place = second.place) (vertex : Nat) :
    first.otherEnd vertex = second.otherEnd vertex := by
  rw [Edge.otherEnd, Edge.otherEnd, Edge.place_tail same, Edge.place_head same]

/-- The other end of the other end is where the arc started. -/
theorem Edge.otherEnd_otherEnd {α : Type} {edge : Edge α} {vertex : Nat}
    (ends : edge.tail = vertex ∨ edge.head = vertex) :
    edge.otherEnd (edge.otherEnd vertex) = vertex := by
  unfold Edge.otherEnd
  rcases ends with rfl | rfl
  · by_cases loop : edge.head = edge.tail <;> simp [loop]
  · by_cases loop : edge.head = edge.tail <;> simp [loop]

/-- A residual arc between two vertices crosses its edge in a direction whose room exceeds
the tolerance. -/
theorem Network.Residual.direction {network : Network Rat} {tolerance : Rat} {arc : Arc}
    (residual : network.Residual tolerance arc) (differ : arc.origin ≠ arc.target) :
    ∃ edge forward, network.edges[arc.edge]? = some edge ∧ edge.tail ≠ edge.head ∧
      arc.origin = edge.origin forward ∧ arc.target = edge.target forward ∧
      tolerance < edge.space forward := by
  obtain ⟨edge, stands, ends, target, wide⟩ := residual
  rw [Edge.otherEnd] at target
  rcases ends with tail | head
  · rw [tail, if_pos rfl] at target
    refine ⟨edge, true, stands, ?_, tail.symm, target, ?_⟩
    · rwa [tail, ← target]
    · rwa [decide_eq_true target] at wide
  · by_cases loop : edge.tail = edge.head
    · rw [← head, if_pos loop.symm] at target
      exact absurd (head.symm.trans target.symm) differ
    · rw [← head, if_neg (Ne.symm loop)] at target
      refine ⟨edge, false, stands, loop, head.symm, target, ?_⟩
      rwa [target, decide_eq_false loop] at wide

/-- A direction whose room exceeds the tolerance gives a residual arc. -/
theorem residual_of_direction {network : Network Rat} {tolerance : Rat} {edge : Edge Rat}
    {position : Nat} (stands : network.edges[position]? = some edge)
    (differ : edge.tail ≠ edge.head) {forward : Bool} (wide : tolerance < edge.space forward) :
    network.Residual tolerance ⟨position, edge.origin forward, edge.target forward⟩ := by
  refine ⟨edge, stands, ?_, ?_, ?_⟩
  · cases forward <;> simp [Edge.origin]
  · cases forward <;> simp [Edge.origin, Edge.target, Edge.otherEnd, differ.symm]
  · cases forward
    · simpa [Edge.target, differ] using wide
    · simpa [Edge.target] using wide

section

variable {α : Type} [Quantity α] [ExactQuantity α] {network : Network α} {exact : Network Rat}
  {tolerance : α} {bound : Rat}

/-- The verdict of the residual rule compares the exact room with the tolerance. -/
theorem admits_residual (standsFor : network.StandsFor exact) (fits : exact.RoomFits α)
    (tolerances : value? tolerance = some bound) {position : Nat} {edge : Edge α}
    (stands : network.edges[position]? = some edge) (vertex : Nat) :
    ∃ other, exact.edges[position]? = some other ∧ other.place = edge.place ∧
      (Crossing.residual tolerance).admits vertex edge =
        .ok (decide (bound < other.space (other.otherEnd vertex = other.head))) := by
  obtain ⟨other, found, place, loads⟩ := standsFor.edge stands
  refine ⟨other, found, place, ?_⟩
  have forward : decide (edge.otherEnd vertex = edge.head) =
      decide (other.otherEnd vertex = other.head) := by
    rw [Edge.otherEnd_eq place, Edge.place_head place]
  obtain ⟨room, computed, known⟩ := loads.room (fits other (Array.mem_of_getElem? found))
    (decide (other.otherEnd vertex = other.head))
  simp only [Crossing.residual, forward, computed]
  exact congrArg Except.ok (less_eq_decide tolerances known)

/-- The residual rule crosses exactly the residual arcs. -/
theorem crosses_residual_iff (standsFor : network.StandsFor exact) (fits : exact.RoomFits α)
    (wellFormed : network.WellFormed) (tolerances : value? tolerance = some bound) (arc : Arc) :
    (Crossing.residual tolerance).Crosses network arc ↔ exact.Residual bound arc := by
  constructor
  · rintro ⟨incident, edge, stands, leads, admits⟩
    obtain ⟨first, standsFirst, ends⟩ := wellFormed.mem_incident_iff.mp incident
    rw [stands] at standsFirst
    obtain rfl := Option.some.inj standsFirst
    obtain ⟨other, found, place, verdict⟩ := admits_residual standsFor fits tolerances stands
      arc.origin
    have target : other.otherEnd arc.origin = arc.target := by
      rw [Edge.otherEnd_eq place]
      exact Option.some.inj leads
    refine ⟨other, found, ?_, target.symm, ?_⟩
    · rwa [Edge.place_tail place, Edge.place_head place]
    · rw [verdict, target] at admits
      exact of_decide_eq_true (Except.ok.inj admits)
  · rintro ⟨other, found, ends, target, wide⟩
    obtain ⟨edge, stands, place, -⟩ := standsFor.exactEdge found
    obtain ⟨same, foundSame, -, verdict⟩ := admits_residual standsFor fits tolerances stands
      arc.origin
    rw [found] at foundSame
    obtain rfl := Option.some.inj foundSame
    refine ⟨wellFormed.mem_incident_iff.mpr ⟨edge, stands, ?_⟩, edge, stands, ?_, ?_⟩
    · rwa [Edge.place_tail place, Edge.place_head place]
    · rw [target, ← Edge.otherEnd_eq place]
      rfl
    · rw [verdict, ← target, decide_eq_true wide]

theorem residual_decides (standsFor : network.StandsFor exact) (fits : exact.RoomFits α)
    (wellFormed : network.WellFormed) (tolerances : value? tolerance = some bound) :
    (Crossing.residual tolerance).Decides network := by
  intro vertex inside position incident
  obtain ⟨edge, stands, ends⟩ := wellFormed.mem_incident_iff.mp incident
  refine ⟨edge, stands, ?_⟩
  intro next leads
  have member := Array.mem_of_getElem? stands
  obtain ⟨other, -, -, verdict⟩ := admits_residual standsFor fits tolerances stands vertex
  refine ⟨?_, _, verdict⟩
  rw [← Option.some.inj leads, Edge.otherEnd]
  split
  · exact wellFormed.head edge member
  · exact wellFormed.tail edge member

omit [ExactQuantity α] in
theorem residual_returns (tolerance : α) (wellFormed : network.WellFormed) :
    (Crossing.residual tolerance).Returns network := by
  rintro arc edge ⟨incident, other, stands, leads, -⟩ standsToo -
  obtain ⟨first, standsFirst, ends⟩ := wellFormed.mem_incident_iff.mp incident
  rw [standsToo] at stands standsFirst
  obtain rfl := Option.some.inj stands
  obtain rfl := Option.some.inj standsFirst
  rw [← Option.some.inj leads]
  exact Edge.otherEnd_otherEnd ends

end

namespace Finder

variable {α : Type}

/-- The path to a vertex in the range of the tree is the walk back from it. -/
theorem pathArcs_eq (finder : Finder α) (network : Network α) {target : Nat}
    (inside : target < finder.tree.edgeTo.size) :
    finder.pathArcs network target = finder.tree.arcsTo network finder.source target := by
  rw [pathArcs, SearchTree.arcsTo, SearchTree.walk]
  by_cases here : finder.source = some (target : Int)
  · rw [if_pos here, if_pos here, List.reverse_nil]
  · simp only [if_neg here, position?_natCast inside,
      if_neg (not_lt.mpr (Int.natCast_nonneg target))]
    cases into : finder.tree.edgeInto network target with
    | none => rfl
    | some entered => simp only [SearchTree.arcsTo, SearchTree.walk, if_neg here, into]

variable [Quantity α] [ExactQuantity α] {network : Network α} {exact : Network Rat}
  {bound : Rat} {source sink : Nat}

/-- A tree from a source marks exactly the vertices that residual arcs lead to,
and its paths are shortest. -/
structure Found (network : Network α) (exact : Network Rat) (bound : Rat) (source : Nat)
    (finder : Finder α) : Prop where
  size : finder.tree.marked.size = exact.vertexCount
  marked : ∀ vertex, finder.tree.isMarked vertex ↔
    distance (Leads (exact.Residual bound)) source exact.vertexCount vertex < exact.vertexCount
  root : finder.tree.isMarked source
  closed : ∀ arc, exact.Residual bound arc → finder.tree.isMarked arc.origin →
    finder.tree.isMarked arc.target
  paths : ∀ target : Nat, target ≠ source → finder.tree.isMarked target →
    ∃ arcs, finder.pathArcs network target = .ok arcs ∧
      ShortestPath (exact.Residual bound) exact.vertexCount source target arcs

/-- A search from a vertex of the network ends without a fault and finds shortest paths. -/
theorem search_found (finder : Finder α) (standsFor : network.StandsFor exact)
    (fits : exact.RoomFits α) (wellFormed : network.WellFormed)
    (tolerances : value? finder.tolerance = some bound) (sourceInside : source < exact.vertexCount)
    (sinkInside : sink < exact.vertexCount) :
    ∃ next : Finder α, finder.search network source sink = (.ok (next.tree.isMarked sink), next) ∧
      next.tolerance = finder.tolerance ∧ next.Found network exact bound source := by
  have count := standsFor.shape.vertexCount
  have decides := residual_decides standsFor fits wellFormed tolerances
  have returns := residual_returns finder.tolerance wellFormed
  have same : (Crossing.residual finder.tolerance).Crosses network = exact.Residual bound :=
    funext fun arc => propext (crosses_residual_iff standsFor fits wellFormed tolerances arc)
  obtain ⟨noFault, level, spans⟩ := Search.run_spans decides (count ▸ sourceInside)
  have size := spans.markedSize
  refine ⟨{ finder with
    source := some source
    tree := (Search.run network (.residual finder.tolerance) none source).tree }, ?_, rfl, ?_⟩
  · rw [← count] at sourceInside sinkInside
    simp only [search, treeFrom, position?_natCast sourceInside,
      if_neg (not_lt.mpr (Int.natCast_nonneg source)), noFault, hasPathTo, size,
      position?_natCast sinkInside]
  · constructor
    case size => rw [← count, size]
    case marked =>
      intro vertex
      rw [← same, ← count]
      exact spans.isMarked_iff vertex
    case root => exact spans.rootMarked
    case closed =>
      intro arc residual origin
      rw [← same] at residual
      exact (spans.closed arc.origin origin arc.target (leads_of_crosses residual)).1
    case paths =>
      intro target _ marked
      obtain ⟨arcs, found, shortest⟩ := spans.arcsTo returns marked
      rw [same, count] at shortest
      refine ⟨arcs, ?_, shortest⟩
      have inside : target < (Search.run network (.residual finder.tolerance) none
          source).tree.edgeTo.size := by
        rw [spans.edgeToSize, ← size]
        exact SearchTree.lt_size_of_isMarked marked
      rw [pathArcs_eq _ _ inside]
      exact found

end Finder
end NetworkFlow
