import NetworkFlow.Demand
import NetworkFlow.Network

namespace NetworkFlow

open Quantity

/-- A violation is an entry without an edge, a flow beyond a bound, or an imbalance. -/
inductive Violation (α : Type) where
  | unknownEdge (edge : Int)
  | aboveCapacity (edge tail head : Nat) (flow capacity : α)
  | belowLower (edge tail head : Nat) (flow lower : α)
  | imbalance (vertex : Nat) (amount : α)
  deriving DecidableEq

namespace Violation

/-- The text with six places. -/
def places (number : Number) : String :=
  match number.value with
  | .inl value => (Binary64.ofInt value).fixed
  | .inr value => value.fixed

def message : Violation Number → String
  | .unknownEdge edge => s!"Edge id {edge} does not exist in the network"
  | .aboveCapacity edge tail head flow capacity =>
    s!"Edge {edge} ({tail}, {head}): flow {places flow} exceeds capacity {places capacity}"
  | .belowLower edge tail head flow lower =>
    s!"Edge {edge} ({tail}, {head}): flow {places flow} below lower bound {places lower}"
  | .imbalance vertex amount =>
    s!"Vertex {vertex}: flow imbalance {places amount} (should be zero)"

end Violation

/-- A validation lists the violations, and the balance of every vertex that is not exempt. -/
structure Validation (α : Type) where
  violations : List (Violation α)
  balances : List (Nat × α)

namespace Validation

variable {α : Type}

def isValid (validation : Validation α) : Bool :=
  validation.violations.isEmpty

def capacityViolations (validation : Validation α) : List Nat :=
  validation.violations.filterMap fun
    | .aboveCapacity edge .. => some edge
    | _ => none

def lowerViolations (validation : Validation α) : List Nat :=
  validation.violations.filterMap fun
    | .belowLower edge .. => some edge
    | _ => none

variable [Quantity α]

/-- The flow given for every edge of a network. An edge without an entry carries no flow. -/
def given (network : Network α) (flows : Table Int α) : Except (Fault α) (List α) :=
  (List.range network.edgeCount).mapM fun (edge : Nat) =>
    match flows.find? edge with
    | some flow => toReal flow
    | none => .ok zero

/-- This function compares the flow on an edge with both bounds. -/
def checkEdge (tolerance : α) (edge : Edge α) (flow : α) :
    Except (Fault α) (List (Violation α)) := do
  let upper ← edge.upper
  let highest ← toReal (← add upper tolerance)
  let above ←
    if less highest flow then do
      pure [.aboveCapacity edge.index edge.tail edge.head flow (← toReal upper)]
    else pure []
  let lower ← edge.fullLower
  let lowest ← toReal (← sub lower tolerance)
  let below ←
    if less flow lowest then do
      pure [.belowLower edge.index edge.tail edge.head flow (← toReal lower)]
    else pure []
  return above ++ below

/-- The inflow of a vertex is added in the order of the edges, and then the outflow subtracted. -/
def netInflow (flows : List (Edge α × α)) (vertex : Nat) : Except (Fault α) α := do
  let inflow ← (flows.filter fun (edge, _) => edge.head = vertex).foldlM
    (fun total (_, flow) => add total flow) zero
  (flows.filter fun (edge, _) => edge.tail = vertex).foldlM
    (fun total (_, flow) => sub total flow) inflow

/-- The balance of every vertex is its net inflow less its demand. -/
def balancesOf (network : Network α) (flows : List (Edge α × α))
    (demands : Option (Demands α)) : Except (Fault α) (List (Nat × α)) := do
  let inflows ← (List.range network.vertexCount).mapM fun vertex => do
    return (vertex, ← netInflow flows vertex)
  match demands with
  | none => return inflows
  | some demands =>
    let expected ← demands.vector network.vertexCount
    (inflows.zip expected).mapM fun ((vertex, inflow), demand) => do
      return (vertex, ← sub inflow demand)

/-- This function validates the flow of a network against the bounds before any folding.
The source and the sink need no balance. -/
def ofFlows (network : Network α) (flows : Table Int α) (demands : Option (Demands α))
    (source sink : Option Int) (tolerance : α) : Except (Fault α) (Validation α) := do
  let unknown := flows.keys.filter fun (edge : Int) => ¬(0 ≤ edge ∧ edge < network.edgeCount)
  let carried := network.edges.toList.zip (← given network flows)
  let bounds ← carried.mapM fun (edge, flow) => checkEdge tolerance edge flow
  let balances ← balancesOf network carried demands
  let checked := balances.filter fun (vertex, _) =>
    some (vertex : Int) ≠ source ∧ some (vertex : Int) ≠ sink
  let bound ← if checked.isEmpty then pure tolerance else toReal tolerance
  let unbalanced := checked.filter fun (_, balance) => less bound (magnitude balance)
  return {
    violations := unknown.map .unknownEdge ++ bounds.flatten ++
      unbalanced.map fun (vertex, balance) => .imbalance vertex balance
    balances := checked }

end Validation
end NetworkFlow
