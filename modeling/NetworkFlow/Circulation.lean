/-
This file decides whether a circulation meets every demand within the bounds of the edges.
A new source feeds the vertices with supply, a new sink drains the vertices with demand,
and one maximum flow tells whether the demand can be met.
-/
import NetworkFlow.LowerBound

namespace NetworkFlow

open Quantity

/-- The wiring tells the vertices and the edges that were added. -/
structure Wiring (α : Type) where
  source : Nat
  sink : Nat
  supplyVertices : List Nat
  demandVertices : List Nat
  totalDemand : α
  totalSupply : α
  syntheticEdges : List Nat

namespace Network

variable {α : Type} [Quantity α]

/-- This function adds edges in turn and sums up their capacities. -/
def addWires : List (Nat × Nat × α) → Network α → α →
    Network α × Except (Fault α) (α × List Nat)
  | [], network, total => (network, .ok (total, []))
  | (tail, head, capacity) :: rest, network, total =>
    match network.addEdge tail head capacity zero with
    | .error fault => (network, throw fault)
    | .ok extended =>
      match add total capacity with
      | .error fault => (extended, throw fault)
      | .ok total =>
        match addWires rest extended total with
        | (finished, .error fault) => (finished, throw fault)
        | (finished, .ok (total, edges)) => (finished, .ok (total, network.edgeCount :: edges))

/-- This function wires a new source and a new sink to the vertices with supply and with demand.
A fault leaves the vertices and the edges that were added. -/
def buildCirculation (network : Network α) (demands : Demands α) (tolerance : α) :
    Network α × Except (Fault α) (Wiring α) :=
  let count := network.vertexCount
  match (List.range count).mapM fun vertex => do return (vertex, ← demands.at? vertex) with
  | .error fault => (network, throw fault)
  | .ok entries =>
    let supplies := entries.filter fun (_, demand) => less demand (neg tolerance)
    let wanting := entries.filter fun (_, demand) => less tolerance demand
    let source := count
    let sink := count + 1
    let feeds := supplies.map fun (vertex, demand) => (source, vertex, neg demand)
    let drains := wanting.map fun (vertex, demand) => (vertex, sink, demand)
    match addWires feeds network.addVertex.addVertex zero with
    | (network, .error fault) => (network, throw fault)
    | (network, .ok (totalSupply, feedEdges)) =>
      match addWires drains network zero with
      | (network, .error fault) => (network, throw fault)
      | (network, .ok (totalDemand, drainEdges)) =>
        (network, .ok {
          source, sink, supplyVertices := supplies.map Prod.fst
          demandVertices := wanting.map Prod.fst, totalDemand, totalSupply
          syntheticEdges := feedEdges ++ drainEdges })

end Network

namespace Circulation

/-- A status tells why a circulation is feasible or not. -/
inductive Status where
  | feasible
  | unbalanced
  | insufficientCapacity
  | other (name : Text)
  deriving DecidableEq

namespace Status

def name : Status → Text
  | .feasible => "feasible"
  | .unbalanced => "unbalanced"
  | .insufficientCapacity => "insufficient_capacity"
  | .other name => name

def ofName (name : Text) : Status :=
  if name = "feasible" then .feasible
  else if name = "unbalanced" then .unbalanced
  else if name = "insufficient_capacity" then .insufficientCapacity
  else .other name

end Status

/-- The result of a circulation. The flows are on the edges of the caller,
and the network is the one that was solved. -/
structure Result (α : Type) where
  feasible : Bool
  value : α
  demand : α
  supply : α
  status : Status
  stage : Option Stage
  minCut : List Int
  flows : Table Int α
  adjustedDemands : List α
  source : Option Int
  sink : Option Int
  augmentations : Int
  network : Option (Network α)

/-- A solve leaves the network of the caller as it is. -/
structure Solve (α : Type) where
  events : List (Event α)
  reports : List (Report α)
  outcome : Except (Fault α) (Result α)

variable {α : Type}

/-- A solve that ended before its run. -/
def refused (events : List (Event α)) (fault : Fault α) : Solve α :=
  ⟨events, [], throw fault⟩

variable [Quantity α]

/-- The result when the totals of supply and demand differ. -/
def unbalanced (working : Network α) (reduction : Reduction α) : Result α where
  feasible := false
  value := zero
  demand := reduction.demand
  supply := reduction.supply
  status := .unbalanced
  stage := reduction.stage
  minCut := []
  flows := .empty
  adjustedDemands := reduction.adjustedDemands
  source := none
  sink := none
  augmentations := 0
  network := if reduction.stage = some .after then some working else none

/-- The demand is met when the flow falls short of it by no more than the tolerance. -/
def verdict (tolerance demand value : α) : Except (Fault α) Bool := do
  return lessEq (← sub demand tolerance) value

/-- The total flows on the first edges of a network. -/
def flowsBelow (network : Network α) (edgeCount : Nat) :
    Except (Fault α) (Table Int α) := do
  let own := network.edges.toList.filter fun edge => edge.index < edgeCount
  let flows ← own.mapM fun edge => do return ((edge.index : Int), ← edge.totalFlow)
  return .ofList flows

/-- This function solves the wired network and reads the verdict from the flow. -/
def solveWired (working : Network α) (edgeCount : Nat) (reduction : Reduction α)
    (wiring : Wiring α) (options : Options α) (watch : Watch α) : Solve α :=
  let flow := MaxFlow.solveWarm working wiring.source wiring.sink options watch
  let wired : Event α :=
    .wired wiring.supplyVertices.length wiring.demandVertices.length wiring.totalDemand
  let events := reduction.events ++ wired :: flow.events wiring.source wiring.sink
  let judged : Except (Fault α) (MaxFlow.Result α × Bool) := do
    let result ← flow.outcome
    return (result, ← verdict options.tolerance reduction.demand result.value)
  match judged with
  | .error fault => ⟨events, flow.reports watch, throw fault⟩
  | .ok (result, feasible) =>
    let failure : List (Event α) :=
      if feasible then [] else [.infeasible result.value reduction.demand]
    ⟨events ++ failure, flow.reports watch, do
      let flows ← flowsBelow flow.network edgeCount
      return {
        feasible
        value := result.value
        demand := reduction.demand
        supply := reduction.supply
        status := if feasible then .feasible else .insufficientCapacity
        stage := none
        minCut := result.minCut
        flows
        adjustedDemands := reduction.adjustedDemands
        source := some wiring.source
        sink := some wiring.sink
        augmentations := result.augmentations
        network := some flow.network }⟩

/-- The lower bounds are folded on a copy of the network, which is then wired and solved. -/
def solve (network : Network α) (demands : Demands α) (options : Options α)
    (watch : Watch α) : Solve α :=
  let prepared : Except (Fault α) (List α × Network α) := do
    return (← demands.vector network.vertexCount, ← network.copy)
  match prepared with
  | .error fault => refused [] fault
  | .ok (vector, clone) =>
    match clone.resetFlows.reduceLowerBounds vector options.tolerance with
    | (_, .error fault) => refused [] fault
    | (working, .ok reduction) =>
      if !reduction.balanced then ⟨reduction.events, [], .ok (unbalanced working reduction)⟩
      else
        let adjusted := Demands.dense reduction.adjustedDemands
        match working.buildCirculation adjusted options.tolerance with
        | (_, .error fault) => refused reduction.events fault
        | (working, .ok wiring) =>
          solveWired working network.edgeCount reduction wiring options watch

end Circulation
end NetworkFlow
