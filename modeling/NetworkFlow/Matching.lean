import NetworkFlow.Event

namespace NetworkFlow

open Quantity

/-- A matching network has the left vertices first, then the right ones, the source and the sink. -/
structure MatchingNetwork (α : Type) where
  network : Network α
  leftCount : Nat
  rightCount : Nat
  pairEdges : List (Nat × Nat × Nat)

/-- A matching is a set of pairs in which no vertex occurs twice. -/
structure Matching (α : Type) where
  pairs : List (Nat × Nat)
  matchedLeft : List Nat
  flow : MaxFlow.Result α

namespace MatchingNetwork

variable {α : Type}

def source (matching : MatchingNetwork α) : Nat :=
  matching.leftCount + matching.rightCount

def sink (matching : MatchingNetwork α) : Nat :=
  matching.leftCount + matching.rightCount + 1

variable [Quantity α]

/-- The load of an edge that carries at most one unit. -/
def unitLoad : Load α := { capacity := ofInt 1, lower := zero, flow := zero, offset := zero }

/-- The network without pairs. -/
def sides (leftCount rightCount : Nat) : Network α :=
  let source := leftCount + rightCount
  let sink := source + 1
  let left := (List.range leftCount).foldl
    (fun network vertex => network.attach source vertex unitLoad)
    (Network.empty (leftCount + rightCount + 2))
  (List.range rightCount).foldl
    (fun network vertex => network.attach (leftCount + vertex) sink unitLoad) left

/-- A pair becomes an edge. -/
def addPair (matching : MatchingNetwork α) (pair : Int × Int) :
    Except (Fault α) (MatchingNetwork α) := do
  let (left, right) := pair
  if ¬(0 ≤ left ∧ left < matching.leftCount) then
    throw (.structural (.leftOutside left matching.leftCount))
  if ¬(0 ≤ right ∧ right < matching.rightCount) then
    throw (.structural (.rightOutside right matching.rightCount))
  let left := left.toNat
  let right := right.toNat
  let network := matching.network.attach left (matching.leftCount + right) unitLoad
  let entry := (matching.network.edgeCount, left, right)
  return { matching with network, pairEdges := matching.pairEdges ++ [entry] }

/-- The pairs are added in order, and repeated pairs give parallel edges. -/
def build (leftCount rightCount : Int) (pairs : List (Int × Int)) :
    Except (Fault α) (MatchingNetwork α) := do
  if leftCount < 0 ∨ rightCount < 0 then
    throw (.structural (.partitionSizes leftCount rightCount))
  let left := leftCount.toNat
  let right := rightCount.toNat
  pairs.foldlM addPair ⟨sides left right, left, right, []⟩

end MatchingNetwork

/-- A solve of a matching has the events of its flow. -/
structure MatchingSolve (α : Type) where
  events : List (Event α)
  outcome : Except (Fault α) (Matching α)

namespace Matching

variable {α : Type}

def size (matching : Matching α) : Nat := matching.pairs.length

/-- Pairs are ordered by their left vertex and then by their right vertex. -/
def pairOrder (first second : Nat × Nat) : Bool :=
  first.1 < second.1 || (first.1 == second.1 && first.2 ≤ second.2)

variable [Quantity α]

/-- This function reads the pairs whose edge carries more than the tolerance. -/
def ofFlow (matching : MatchingNetwork α) (network : Network α)
    (result : MaxFlow.Result α) (tolerance : α) : Matching α :=
  let chosen := matching.pairEdges.filter fun (edge, _) =>
    match result.flows.find? edge with
    | some flow => less tolerance flow
    | none => false
  let fed := (network.incident matching.source).filterMap fun position => do
    let edge ← network.edges[position]?
    if edge.tail = matching.source ∧ less tolerance edge.flow then some edge.head else none
  { pairs := (chosen.map Prod.snd).mergeSort pairOrder
    matchedLeft := fed.mergeSort
    flow := result }

/-- A maximum matching is read off a maximum flow. -/
def solve (leftCount rightCount : Int) (pairs : List (Int × Int)) (options : Options α) :
    MatchingSolve α :=
  match MatchingNetwork.build leftCount rightCount pairs with
  | .error fault => ⟨[], throw fault⟩
  | .ok matching =>
    let flow := MaxFlow.solveWarm matching.network matching.source matching.sink options .idle
    ⟨flow.events matching.source matching.sink, do
      return ofFlow matching flow.network (← flow.outcome) options.tolerance⟩

end Matching
end NetworkFlow
