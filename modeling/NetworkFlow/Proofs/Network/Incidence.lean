import NetworkFlow.Network.WellFormed
import Mathlib.Tactic

namespace NetworkFlow.Network

variable {α β : Type}

theorem WellFormed.index_eq {network : Network α} (wellFormed : network.WellFormed)
    {position : Nat} {edge : Edge α} (stands : network.edges[position]? = some edge) :
    edge.index = position := by
  obtain ⟨inRange, rfl⟩ := Array.getElem?_eq_some_iff.mp stands
  exact wellFormed.index position inRange

/-- An edge of a well-formed network stands at its index. -/
theorem WellFormed.getElem?_index {network : Network α} (wellFormed : network.WellFormed)
    {edge : Edge α} (member : edge ∈ network.edges) : network.edges[edge.index]? = some edge := by
  obtain ⟨position, inRange, rfl⟩ := Array.mem_iff_getElem.mp member
  rw [wellFormed.index position inRange, Array.getElem?_eq_getElem inRange]

/-- An edge is known by its index. -/
theorem WellFormed.eq_of_index {network : Network α} (wellFormed : network.WellFormed)
    {edge other : Edge α} (member : edge ∈ network.edges) (memberToo : other ∈ network.edges)
    (same : edge.index = other.index) : edge = other := by
  have stands := wellFormed.getElem?_index member
  rw [same, wellFormed.getElem?_index memberToo] at stands
  exact (Option.some.inj stands).symm

theorem WellFormed.index_lt {network : Network α} (wellFormed : network.WellFormed)
    {edge : Edge α} (member : edge ∈ network.edges) : edge.index < network.edgeCount :=
  (Array.getElem?_eq_some_iff.mp (wellFormed.getElem?_index member)).1

/-- The indices of the edges count up from zero. -/
theorem WellFormed.map_index {network : Network α} (wellFormed : network.WellFormed) :
    network.edges.toList.map Edge.index = List.range network.edgeCount := by
  apply List.ext_getElem
  · simp [edgeCount]
  · intro position inside _
    rw [List.getElem_map, List.getElem_range, Array.getElem_toList]
    exact wellFormed.index position (by simpa using inside)

/-- The positions at a vertex are those of the edges that have it as an end. -/
theorem WellFormed.mem_incident_iff {network : Network α} (wellFormed : network.WellFormed)
    {position vertex : Nat} : position ∈ network.incident vertex ↔
      ∃ edge, network.edges[position]? = some edge ∧ (edge.tail = vertex ∨ edge.head = vertex) := by
  by_cases inside : vertex < network.vertexCount
  · rw [wellFormed.incident vertex inside, edgesAt]
    simp only [List.mem_map, List.mem_filter, decide_eq_true_eq]
    constructor
    · rintro ⟨edge, ⟨member, ends⟩, rfl⟩
      exact ⟨edge, wellFormed.getElem?_index (Array.mem_toList_iff.mp member), ends⟩
    · rintro ⟨edge, stands, ends⟩
      refine ⟨edge, ⟨?_, ends⟩, wellFormed.index_eq stands⟩
      exact Array.mem_toList_iff.mpr (Array.mem_of_getElem? stands)
  · rw [incident_of_le network (not_lt.mp inside)]
    refine ⟨fun member => absurd member List.not_mem_nil, ?_⟩
    rintro ⟨edge, stands, rfl | rfl⟩
    · exact absurd (wellFormed.tail edge (Array.mem_of_getElem? stands)) inside
    · exact absurd (wellFormed.head edge (Array.mem_of_getElem? stands)) inside

/-- Edges of networks with the same shape come in pairs with the same place. -/
theorem SameShape.getElem? {first : Network α} {second : Network β}
    (same : SameShape first second) {position : Nat} {edge : Edge α}
    (stands : first.edges[position]? = some edge) :
    ∃ other, second.edges[position]? = some other ∧ other.place = edge.place := by
  have place := same.place position
  rw [stands, Option.map_some] at place
  obtain ⟨other, found, equal⟩ := Option.map_eq_some_iff.mp place.symm
  exact ⟨other, found, equal⟩

/-- Only a vertex of the network is accepted. -/
theorem checkVertex_eq_ok {network : Network α} {role : Text} {vertex : Int} {found : Nat}
    (checked : network.checkVertex role vertex = .ok found) :
    vertex = found ∧ found < network.vertexCount := by
  unfold checkVertex at checked
  split at checked
  · have equal := Except.ok.inj checked
    omega
  · cases checked

theorem checkVertex_natCast {network : Network α} (role : Text) {vertex : Nat}
    (inside : vertex < network.vertexCount) :
    network.checkVertex role (vertex : Int) = .ok vertex := by
  rw [checkVertex, if_pos ⟨Int.natCast_nonneg vertex, by exact_mod_cast inside⟩,
    Int.toNat_natCast]

/-- A change of every load moves no edge. -/
def mapLoads (network : Network α) (change : Edge α → Load α) : Network α :=
  { network with edges := network.edges.map fun edge => edge.withLoad (change edge) }

theorem sameShape_mapLoads (network : Network α) (change : Edge α → Load α) :
    SameShape network (network.mapLoads change) := by
  constructor
  · rfl
  · simp only [mapLoads, Array.toList_map, List.map_map]
    rfl

theorem getElem?_mapLoads (network : Network α) (change : Edge α → Load α) (position : Nat) :
    (network.mapLoads change).edges[position]? =
      (network.edges[position]?).map fun edge => edge.withLoad (change edge) := by
  simp [mapLoads]

theorem mapLoads_congr {network : Network α} {first second : Edge α → Load α}
    (equal : ∀ edge ∈ network.edges, first edge = second edge) :
    network.mapLoads first = network.mapLoads second := by
  refine congrArg (Network.mk network.adjacency) (Array.map_congr_left fun edge member => ?_)
  rw [equal edge member]

theorem mem_mapLoads {network : Network α} {change : Edge α → Load α} {edge : Edge α} :
    edge ∈ (network.mapLoads change).edges ↔
      ∃ old ∈ network.edges, old.withLoad (change old) = edge := by
  simp [mapLoads]

/-- An edge of a network with one changed load is an old one or the changed one. -/
theorem mem_modifyLoad {network : Network α} {position : Nat} {change : Load α → Load α}
    {edge : Edge α} (member : edge ∈ (network.modifyLoad position change).edges) :
    edge ∈ network.edges ∨ ∃ old, network.edges[position]? = some old ∧
      old.withLoad (change old.toLoad) = edge := by
  obtain ⟨place, found⟩ := Array.mem_iff_getElem?.mp member
  rw [modifyLoad, Array.getElem?_modify] at found
  split at found
  · next here =>
    obtain ⟨old, stands, same⟩ := Option.map_eq_some_iff.mp found
    exact .inr ⟨old, here ▸ stands, same⟩
  · exact .inl (Array.mem_of_getElem? found)

/-- One more edge changes its load when the loads below a position are changed. -/
theorem mapLoads_succ {network : Network α} (wellFormed : network.WellFormed)
    {count : Nat} {edge : Edge α} (stands : network.edges[count]? = some edge)
    (change : Load α → Load α) :
    (network.mapLoads fun other =>
        if other.index < count + 1 then change other.toLoad else other.toLoad) =
      (network.mapLoads fun other =>
        if other.index < count then change other.toLoad else other.toLoad).modifyLoad count
          fun _ => change edge.toLoad := by
  refine congrArg (Network.mk network.adjacency) ?_
  apply Array.ext_getElem?
  intro position
  simp only [mapLoads, Array.getElem?_modify, Array.getElem?_map]
  by_cases here : count = position
  · subst here
    have index := wellFormed.index_eq stands
    simp only [stands, Option.map_some, if_true, index, Nat.lt_succ_self]
    rfl
  · rw [if_neg here]
    cases found : network.edges[position]? with
    | none => rfl
    | some other =>
      have index := wellFormed.index_eq found
      have same : other.index < count + 1 ↔ other.index < count := by omega
      simp only [Option.map_some, same]

/-- An edge may be given its own load again. -/
theorem modifyLoad_self {network : Network α} {position : Nat} {edge : Edge α}
    (stands : network.edges[position]? = some edge) :
    network.modifyLoad position (fun _ => edge.toLoad) = network := by
  refine congrArg (Network.mk network.adjacency) ?_
  apply Array.ext_getElem?
  intro other
  rw [Array.getElem?_modify]
  by_cases here : position = other
  · rw [if_pos here, ← here, stands]
    rfl
  · rw [if_neg here]

end NetworkFlow.Network
