import NetworkFlow.Network

namespace NetworkFlow.Network

open Quantity

variable {α : Type}

/-- The positions of the edges that leave a set of vertices. -/
def cutEdges (network : Network α) (side : List Int) : List Nat :=
  (network.edges.toList.filter fun edge =>
    side.contains (edge.tail : Int) && !side.contains (edge.head : Int)).map Edge.index

variable [Quantity α]

/-- The sum of the upper bounds of the edges that leave a set of vertices. -/
def cutCapacity (network : Network α) (side : List Int) : Except (Fault α) α := do
  let edges ← (network.cutEdges side).mapM fun (position : Nat) => network.edgeAt position
  sum (← edges.mapM fun edge => edge.upper)

end NetworkFlow.Network
