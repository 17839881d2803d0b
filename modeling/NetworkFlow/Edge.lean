import NetworkFlow.Quantity

namespace NetworkFlow

open Quantity

/-- The load of an edge is its bounds, its flow and the flow that a folded lower bound forces. -/
structure Load (α : Type) where
  capacity : α
  lower : α
  flow : α
  offset : α
  deriving DecidableEq

/-- A loose edge is in no network yet. Its index is negative unless a caller chose another. -/
structure LooseEdge (α : Type) extends Load α where
  tail : Int
  head : Int
  index : Int
  deriving DecidableEq

/-- An edge of a network joins two of its vertices and knows its position. -/
structure Edge (α : Type) extends Load α where
  tail : Nat
  head : Nat
  index : Nat
  deriving DecidableEq

/-- The place of an edge is what its load does not change. -/
structure Place where
  tail : Nat
  head : Nat
  index : Nat
  deriving DecidableEq

variable {α : Type}

namespace Edge

def place (edge : Edge α) : Place :=
  ⟨edge.tail, edge.head, edge.index⟩

/-- The end of an edge that a path comes to from a vertex. -/
def otherEnd (edge : Edge α) (vertex : Nat) : Nat :=
  if vertex = edge.tail then edge.head else edge.tail

/-- The vertex that a direction leads to. -/
def target (edge : Edge α) (forward : Bool) : Nat :=
  if forward then edge.head else edge.tail

/-- The vertex that a direction leads from. -/
def origin (edge : Edge α) (forward : Bool) : Nat :=
  if forward then edge.tail else edge.head

/-- This function refuses an integer that names neither end. -/
def endpoint (edge : Edge α) (vertex : Int) : Except (Fault α) Nat :=
  if vertex = edge.tail then .ok edge.tail
  else if vertex = edge.head then .ok edge.head
  else throw (.structural (.notEndpoint vertex edge.tail edge.head))

/-- This function changes the load and keeps the place in the network. -/
def withLoad (edge : Edge α) (load : Load α) : Edge α :=
  { edge with toLoad := load }

/-- The same edge outside its network. -/
def loose (edge : Edge α) : LooseEdge α :=
  { edge.toLoad with tail := edge.tail, head := edge.head, index := edge.index }

end Edge

variable [Quantity α]

namespace Load

/-- The bounds must be finite with 0 ≤ lower ≤ capacity. -/
def check (load : Load α) (tail head : Int) : Except (Fault α) Unit := do
  if !(← isFinite load.capacity) || isNegative load.capacity then
    throw (.structural (.capacityRange tail head load.capacity))
  if !(← isFinite load.lower) || isNegative load.lower then
    throw (.structural (.lowerRange tail head load.lower))
  if less load.capacity load.lower then
    throw (.structural (.lowerAboveCapacity tail head load.capacity load.lower))

/-- The upper bound before any lower bound was folded. -/
def upper (load : Load α) : Except (Fault α) α :=
  add load.capacity load.offset

/-- The lower bound before it was folded. -/
def fullLower (load : Load α) : Except (Fault α) α :=
  add load.lower load.offset

/-- The flow with what a folded lower bound forces. -/
def totalFlow (load : Load α) : Except (Fault α) α :=
  add load.flow load.offset

/-- The flow that one more path may carry in a direction. -/
def room (load : Load α) (forward : Bool) : Except (Fault α) α :=
  if forward then sub load.capacity load.flow else .ok load.flow

/-- More flow in a direction. The bounds are not checked. -/
def push (load : Load α) (forward : Bool) (amount : α) : Except (Fault α) (Load α) := do
  let flow ← if forward then add load.flow amount else sub load.flow amount
  return { load with flow }

end Load

namespace LooseEdge

/-- This function makes a loose edge whose bounds are checked. -/
def create (tail head : Int) (load : Load α) (index : Int) : Except (Fault α) (LooseEdge α) := do
  load.check tail head
  return { load with tail, head, index }

end LooseEdge

namespace Edge

/-- The room toward an end. A loop has the room toward its head. -/
def roomToward (edge : Edge α) (vertex : Int) : Except (Fault α) α := do
  let vertex ← edge.endpoint vertex
  edge.room (vertex = edge.head)

end Edge
end NetworkFlow
