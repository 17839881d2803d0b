import NetworkFlow.Proofs.Arithmetic.ExactQuantity
import NetworkFlow.Proofs.Network.Incidence

namespace NetworkFlow

open Quantity ExactQuantity Network

namespace Load

/-- The exact room of a load in a direction. -/
def space (load : Load Rat) (forward : Bool) : Rat :=
  if forward then load.capacity - load.flow else load.flow

/-- The load after a push. -/
def pushed (load : Load Rat) (forward : Bool) (amount : Rat) : Load Rat :=
  { load with flow := load.flow + if forward then amount else -amount }

end Load

variable {α : Type} [Quantity α] [ExactQuantity α]

/-- A load stands for an exact one when each of its quantities does. -/
structure Load.StandsFor (load : Load α) (exact : Load Rat) : Prop where
  capacity : value? load.capacity = some exact.capacity
  lower : value? load.lower = some exact.lower
  flow : value? load.flow = some exact.flow
  offset : value? load.offset = some exact.offset

/-- The rooms of a load fit when its capacity, its flow and their difference do. -/
structure Load.RoomFits (α : Type) [Quantity α] [ExactQuantity α] (exact : Load Rat) : Prop where
  capacity : Fits α exact.capacity
  flow : Fits α exact.flow
  rest : Fits α (exact.capacity - exact.flow)

/-- A network stands for an exact one of the same shape. -/
structure Network.StandsFor (network : Network α) (exact : Network Rat) : Prop where
  shape : SameShape network exact
  loads : ∀ {position : Nat} {edge : Edge α} {other : Edge Rat},
    network.edges[position]? = some edge → exact.edges[position]? = some other →
    edge.toLoad.StandsFor other.toLoad

/-- The rooms of a network fit when those of all its edges do. -/
def Network.RoomFits (α : Type) [Quantity α] [ExactQuantity α] (exact : Network Rat) : Prop :=
  ∀ edge ∈ exact.edges, edge.toLoad.RoomFits α

theorem Load.standsFor_self (load : Load Rat) : load.StandsFor load :=
  ⟨rfl, rfl, rfl, rfl⟩

theorem Network.standsFor_self (network : Network Rat) : network.StandsFor network := by
  refine ⟨.refl network, ?_⟩
  intro position edge other stands standsToo
  rw [stands] at standsToo
  rw [← Option.some.inj standsToo]
  exact edge.toLoad.standsFor_self

/-- The rational network with given loads on the edges of a network. -/
def Network.valued (network : Network α) (load : Edge α → Load Rat) : Network Rat :=
  ⟨network.adjacency,
    network.edges.map fun edge => ⟨load edge, edge.tail, edge.head, edge.index⟩⟩

omit [Quantity α] [ExactQuantity α] in
theorem Network.sameShape_valued (network : Network α) (load : Edge α → Load Rat) :
    SameShape network (network.valued load) := by
  constructor
  · rfl
  · simp only [valued, Array.toList_map, List.map_map]
    rfl

omit [Quantity α] [ExactQuantity α] in
theorem Network.getElem?_valued (network : Network α) (load : Edge α → Load Rat)
    (position : Nat) : (network.valued load).edges[position]? =
      (network.edges[position]?).map fun edge =>
        ⟨load edge, edge.tail, edge.head, edge.index⟩ := by
  simp [valued]

omit [Quantity α] [ExactQuantity α] in
theorem Network.mem_valued {network : Network α} {load : Edge α → Load Rat} {edge : Edge Rat} :
    edge ∈ (network.valued load).edges ↔ ∃ old ∈ network.edges,
      (⟨load old, old.tail, old.head, old.index⟩ : Edge Rat) = edge := by
  simp [valued]

/-- Every room of a rational network fits. -/
theorem Network.roomFits_rat (network : Network Rat) : network.RoomFits Rat :=
  fun _ _ => ⟨trivial, trivial, trivial⟩

namespace Load.StandsFor

variable {load : Load α} {exact : Load Rat}

/-- The room is computed exactly. -/
theorem room (standsFor : load.StandsFor exact) (fits : exact.RoomFits α) (forward : Bool) :
    ∃ room, load.room forward = .ok room ∧ value? room = some (exact.space forward) := by
  cases forward with
  | true => exact exact_sub standsFor.capacity standsFor.flow fits.capacity fits.flow fits.rest
  | false => exact ⟨load.flow, rfl, standsFor.flow⟩

/-- A push is computed exactly while the flow fits. -/
theorem push (standsFor : load.StandsFor exact) {amount : α} {value : Rat}
    (amounts : value? amount = some value) (fits : Fits α exact.flow) (fitsAmount : Fits α value)
    (forward : Bool) (fitsAfter : Fits α (exact.pushed forward value).flow) :
    ∃ after, load.push forward amount = .ok after ∧
      after.StandsFor (exact.pushed forward value) := by
  cases forward with
  | true =>
    obtain ⟨flow, added, known⟩ := exact_add standsFor.flow amounts fits fitsAmount fitsAfter
    refine ⟨{ load with flow }, ?_, standsFor.capacity, standsFor.lower, known, standsFor.offset⟩
    simp only [Load.push, if_true, added]
    rfl
  | false =>
    have fitsBelow : Fits α (exact.flow - value) := by
      simpa [pushed, sub_eq_add_neg] using fitsAfter
    obtain ⟨flow, taken, known⟩ := exact_sub standsFor.flow amounts fits fitsAmount fitsBelow
    refine ⟨{ load with flow }, ?_, standsFor.capacity, standsFor.lower, ?_, standsFor.offset⟩
    · simp only [Load.push, Bool.false_eq_true, if_false, taken]
      rfl
    · simpa [pushed, sub_eq_add_neg] using known

/-- Rational edges in the same place whose loads stand for each other are the same. -/
theorem edge_eq {edge other : Edge Rat} (standsFor : edge.toLoad.StandsFor other.toLoad)
    (place : edge.place = other.place) : edge = other := by
  obtain ⟨⟨capacity, lower, flow, offset⟩, tail, head, index⟩ := edge
  obtain ⟨⟨capacity', lower', flow', offset'⟩, tail', head', index'⟩ := other
  obtain ⟨rfl, rfl, rfl⟩ := Place.mk.inj place
  obtain ⟨⟨⟩, ⟨⟩, ⟨⟩, ⟨⟩⟩ := standsFor
  rfl

end Load.StandsFor

namespace Network.StandsFor

variable {network : Network α} {exact : Network Rat}

theorem edge (standsFor : network.StandsFor exact) {position : Nat} {edge : Edge α}
    (stands : network.edges[position]? = some edge) :
    ∃ other, exact.edges[position]? = some other ∧ other.place = edge.place ∧
      edge.toLoad.StandsFor other.toLoad := by
  obtain ⟨other, found, place⟩ := standsFor.shape.getElem? stands
  exact ⟨other, found, place, standsFor.loads stands found⟩

theorem exactEdge (standsFor : network.StandsFor exact) {position : Nat} {other : Edge Rat}
    (stands : exact.edges[position]? = some other) :
    ∃ edge, network.edges[position]? = some edge ∧ edge.place = other.place ∧
      edge.toLoad.StandsFor other.toLoad := by
  obtain ⟨edge, found, place⟩ := standsFor.shape.symm.getElem? stands
  exact ⟨edge, found, place, standsFor.loads found stands⟩

theorem wellFormed (standsFor : network.StandsFor exact) (wellFormed : network.WellFormed) :
    exact.WellFormed :=
  wellFormed.ofSameShape standsFor.shape

/-- A change of one load that is exact keeps what the network stands for. -/
theorem modifyLoad (standsFor : network.StandsFor exact) (position : Nat)
    {change : Load α → Load α} {exactChange : Load Rat → Load Rat}
    (changed : ∀ {edge : Edge α} {other : Edge Rat}, network.edges[position]? = some edge →
      exact.edges[position]? = some other →
      (change edge.toLoad).StandsFor (exactChange other.toLoad)) :
    (network.modifyLoad position change).StandsFor (exact.modifyLoad position exactChange) := by
  constructor
  · exact (sameShape_modifyLoad network position change).symm.trans
      (standsFor.shape.trans (sameShape_modifyLoad exact position exactChange))
  · intro place edge other stands standsToo
    simp only [Network.modifyLoad, Array.getElem?_modify] at stands standsToo
    by_cases same : position = place
    · subst same
      simp only [if_true, Option.map_eq_some_iff] at stands standsToo
      obtain ⟨old, found, rfl⟩ := stands
      obtain ⟨oldExact, foundExact, rfl⟩ := standsToo
      exact changed found foundExact
    · simp only [same, if_false] at stands standsToo
      exact standsFor.loads stands standsToo

/-- A rational network stands for no other than itself. -/
theorem eq {network exact : Network Rat} (standsFor : network.StandsFor exact) :
    network = exact := by
  have edges : network.edges = exact.edges := by
    apply Array.ext_getElem?
    intro position
    cases found : exact.edges[position]? with
    | none =>
      rw [Array.getElem?_eq_none_iff] at found ⊢
      rwa [show network.edges.size = exact.edges.size from standsFor.shape.edgeCount]
    | some other =>
      obtain ⟨edge, stands, place, loads⟩ := standsFor.exactEdge found
      rw [stands, loads.edge_eq place]
  cases network
  cases exact
  exact congrArg₂ Network.mk standsFor.shape.adjacency edges

end Network.StandsFor
end NetworkFlow
