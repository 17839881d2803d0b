import NetworkFlow.Network

namespace NetworkFlow.Network

variable {α β γ : Type}

/-- The positions of the edges that have a vertex as an end, in increasing order. -/
def edgesAt (edges : List (Edge α)) (vertex : Nat) : List Nat :=
  (edges.filter fun edge => edge.tail = vertex ∨ edge.head = vertex).map Edge.index

/-- The edges and the lists of the vertices agree. -/
structure WellFormed (network : Network α) : Prop where
  index : ∀ position (inRange : position < network.edges.size),
    network.edges[position].index = position
  tail : ∀ edge ∈ network.edges, edge.tail < network.vertexCount
  head : ∀ edge ∈ network.edges, edge.head < network.vertexCount
  incident : ∀ vertex < network.vertexCount,
    network.incident vertex = edgesAt network.edges.toList vertex

@[simp] theorem vertexCount_empty (count : Nat) :
    (empty count : Network α).vertexCount = count := by
  simp [empty, vertexCount]

@[simp] theorem vertexCount_addVertex (network : Network α) :
    network.addVertex.vertexCount = network.vertexCount + 1 := by
  simp [addVertex, vertexCount]

@[simp] theorem vertexCount_attach (network : Network α) (tail head : Nat) (load : Load α) :
    (network.attach tail head load).vertexCount = network.vertexCount := by
  unfold attach vertexCount
  split <;> simp

@[simp] theorem edgeCount_attach (network : Network α) (tail head : Nat) (load : Load α) :
    (network.attach tail head load).edgeCount = network.edgeCount + 1 := by
  simp [attach, edgeCount]

@[simp] theorem edgeCount_modifyLoad (network : Network α) (position : Nat)
    (change : Load α → Load α) :
    (network.modifyLoad position change).edgeCount = network.edgeCount := by
  simp [modifyLoad, edgeCount]

theorem incident_addVertex (network : Network α) (vertex : Nat) :
    network.addVertex.incident vertex = network.incident vertex := by
  unfold addVertex incident
  by_cases inRange : vertex < network.adjacency.size
  · simp [Array.getElem?_push, Nat.ne_of_lt inRange]
  · by_cases last : vertex = network.adjacency.size
    · simp [last]
    · simp [Array.getElem?_push, last]

/-- The new edge is listed last at each of its ends. -/
theorem incident_attach (network : Network α) (tail head : Nat) (load : Load α)
    {vertex : Nat} (inRange : vertex < network.vertexCount) :
    (network.attach tail head load).incident vertex =
      if tail = vertex ∨ head = vertex then network.incident vertex ++ [network.edgeCount]
      else network.incident vertex := by
  unfold vertexCount at inRange
  unfold attach incident edgeCount
  split <;> simp [Array.getElem?_modify] <;> grind

theorem wellFormed_empty (count : Nat) : (empty count : Network α).WellFormed := by
  constructor
  · intro position inRange
    simp [empty] at inRange
  · intro edge member
    simp [empty] at member
  · intro edge member
    simp [empty] at member
  · intro vertex inRange
    have inside : vertex < count := by simpa using inRange
    simp [incident, empty, edgesAt, inside]

theorem incident_of_le (network : Network α) {vertex : Nat}
    (outside : network.vertexCount ≤ vertex) : network.incident vertex = [] := by
  simp only [vertexCount] at outside
  simp [incident, outside]

theorem WellFormed.addVertex {network : Network α} (wellFormed : network.WellFormed) :
    network.addVertex.WellFormed := by
  constructor
  · exact wellFormed.index
  · intro edge member
    exact Nat.lt_of_lt_of_le (wellFormed.tail edge member) (by simp)
  · intro edge member
    exact Nat.lt_of_lt_of_le (wellFormed.head edge member) (by simp)
  · intro vertex inRange
    rw [incident_addVertex]
    by_cases old : vertex < network.vertexCount
    · exact wellFormed.incident vertex old
    · have new : vertex = network.vertexCount := by
        rw [vertexCount_addVertex] at inRange
        omega
      have none : edgesAt network.edges.toList vertex = [] := by
        simp only [edgesAt, List.map_eq_nil_iff, List.filter_eq_nil_iff]
        intro edge member
        have tail := wellFormed.tail edge (Array.mem_toList_iff.mp member)
        have head := wellFormed.head edge (Array.mem_toList_iff.mp member)
        simp
        omega
      rw [show network.addVertex.edges = network.edges from rfl, none]
      exact incident_of_le network (Nat.le_of_not_lt old)

theorem WellFormed.attach {network : Network α} (wellFormed : network.WellFormed)
    {tail head : Nat} (tailInRange : tail < network.vertexCount)
    (headInRange : head < network.vertexCount) (load : Load α) :
    (network.attach tail head load).WellFormed := by
  constructor
  · intro position inRange
    have before := wellFormed.index position
    simp only [Network.attach, Array.getElem_push]
    split
    · exact before ‹_›
    · simp only [Network.attach, Array.size_push] at inRange
      show network.edges.size = position
      omega
  · intro edge member
    rw [vertexCount_attach]
    rcases Array.mem_push.mp member with old | rfl
    · exact wellFormed.tail edge old
    · exact tailInRange
  · intro edge member
    rw [vertexCount_attach]
    rcases Array.mem_push.mp member with old | rfl
    · exact wellFormed.head edge old
    · exact headInRange
  · intro vertex inRange
    rw [vertexCount_attach] at inRange
    rw [incident_attach network tail head load inRange, wellFormed.incident vertex inRange]
    simp only [edgesAt, Network.attach, Array.toList_push, List.filter_append, List.map_append]
    split <;> simp_all [edgeCount]

/-- Two networks have the same shape when they differ in the loads of their edges only.
The loads may be of two kinds of quantities. -/
structure SameShape (first : Network α) (second : Network β) : Prop where
  adjacency : first.adjacency = second.adjacency
  places : first.edges.toList.map Edge.place = second.edges.toList.map Edge.place

theorem SameShape.refl (network : Network α) : SameShape network network := ⟨rfl, rfl⟩

theorem SameShape.symm {first : Network α} {second : Network β} (same : SameShape first second) :
    SameShape second first := ⟨same.adjacency.symm, same.places.symm⟩

theorem SameShape.trans {first : Network α} {second : Network β} {third : Network γ}
    (left : SameShape first second) (right : SameShape second third) : SameShape first third :=
  ⟨left.adjacency.trans right.adjacency, left.places.trans right.places⟩

theorem SameShape.vertexCount {first : Network α} {second : Network β}
    (same : SameShape first second) :
    first.vertexCount = second.vertexCount := by
  simp only [Network.vertexCount, same.adjacency]

theorem SameShape.edgeCount {first : Network α} {second : Network β}
    (same : SameShape first second) :
    first.edgeCount = second.edgeCount := by
  have lengths := congrArg List.length same.places
  simpa [Network.edgeCount] using lengths

/-- Edges at the same position of networks with the same shape have the same place. -/
theorem SameShape.place {first : Network α} {second : Network β}
    (same : SameShape first second) (position : Nat) : (first.edges[position]?).map Edge.place =
      (second.edges[position]?).map Edge.place := by
  have places := congrArg (fun places => places[position]?) same.places
  simpa using places

theorem edgesAt_of_places {first : List (Edge α)} {second : List (Edge β)}
    (places : first.map Edge.place = second.map Edge.place) (vertex : Nat) :
    edgesAt first vertex = edgesAt second vertex := by
  have rewritten {δ : Type} (edges : List (Edge δ)) : edgesAt edges vertex =
      ((edges.map Edge.place).filter fun place =>
        place.tail = vertex ∨ place.head = vertex).map Place.index := by
    simp only [edgesAt, List.filter_map, List.map_map]
    rfl
  rw [rewritten, rewritten, places]

/-- An edge has the place of an edge of any network with the same shape. -/
theorem SameShape.exists_place {first : Network α} {second : Network β}
    (same : SameShape first second) {edge : Edge β} (member : edge ∈ second.edges) :
    ∃ other ∈ first.edges, other.place = edge.place := by
  have place : edge.place ∈ first.edges.toList.map Edge.place := by
    rw [same.places]
    exact List.mem_map_of_mem (Array.mem_toList_iff.mpr member)
  obtain ⟨other, inside, equal⟩ := List.mem_map.mp place
  exact ⟨other, Array.mem_toList_iff.mp inside, equal⟩

/-- The agreement of the parts depends on the shape only. -/
theorem WellFormed.ofSameShape {first : Network α} {second : Network β}
    (wellFormed : first.WellFormed) (same : SameShape first second) : second.WellFormed := by
  constructor
  · intro position inRange
    have size : position < first.edges.size := by
      rw [show first.edges.size = second.edges.size from same.edgeCount]
      exact inRange
    have place := same.place position
    rw [Array.getElem?_eq_getElem size, Array.getElem?_eq_getElem inRange] at place
    have index := congrArg Place.index (Option.some.inj place)
    exact index.symm.trans (wellFormed.index position size)
  · intro edge member
    obtain ⟨other, inside, place⟩ := same.exists_place member
    rw [← same.vertexCount, ← show other.tail = edge.tail from congrArg Place.tail place]
    exact wellFormed.tail other inside
  · intro edge member
    obtain ⟨other, inside, place⟩ := same.exists_place member
    rw [← same.vertexCount, ← show other.head = edge.head from congrArg Place.head place]
    exact wellFormed.head other inside
  · intro vertex inRange
    rw [← same.vertexCount] at inRange
    rw [← edgesAt_of_places same.places, ← wellFormed.incident vertex inRange]
    simp only [Network.incident, same.adjacency]

/-- A change of a load moves no edge. -/
theorem sameShape_modifyLoad (network : Network α) (position : Nat)
    (change : Load α → Load α) : SameShape network (network.modifyLoad position change) := by
  constructor
  · rfl
  · apply List.ext_getElem?
    intro other
    simp only [modifyLoad, List.getElem?_map, Array.getElem?_toList, Array.getElem?_modify]
    split
    · cases network.edges[other]? <;> rfl
    · rfl

theorem sameShape_resetFlows [Quantity α] (network : Network α) :
    SameShape network network.resetFlows := by
  constructor
  · rfl
  · simp only [resetFlows, Array.toList_map, List.map_map]
    rfl

end NetworkFlow.Network
