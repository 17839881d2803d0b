import NetworkFlow.Network

namespace NetworkFlow

/-- The text of a number that has one. -/
def Number.written (number : Number) : Except (Fault Number) String :=
  if number.hasText then .ok number.text else throw .longNumber

/-- The description of an edge shows its flow and its capacity. -/
def LooseEdge.describe (edge : LooseEdge Number) : Except (Fault Number) String := do
  let tail ← (Number.int edge.tail).written
  let head ← (Number.int edge.head).written
  let flow ← edge.flow.written
  let capacity ← edge.capacity.written
  return s!"FlowEdge({tail} -> {head}, flow={flow}/{capacity})"

/-- The description of a network counts its vertices and its edges. -/
def Network.describe {α : Type} (network : Network α) : String :=
  s!"FlowNetwork(vertices={network.vertexCount}, edges={network.edgeCount})"

end NetworkFlow
