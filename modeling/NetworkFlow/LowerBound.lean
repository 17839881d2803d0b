/-
This file folds the lower bounds of edges into the demands at their ends.
An edge with the bounds l and c becomes an edge with the bounds 0 and c - l,
its tail has to send l more, and its head has received l already.
-/
import NetworkFlow.Demand
import NetworkFlow.Event

namespace NetworkFlow

open Quantity

/-- Supply and demand may differ before or after the lower bounds are folded. -/
inductive Stage where
  | before
  | after
  | other (name : Text)
  deriving DecidableEq

namespace Stage

def name : Stage → Text
  | .before => "before"
  | .after => "after"
  | .other name => name

def ofName (name : Text) : Stage :=
  if name = "before" then .before else if name = "after" then .after else .other name

end Stage

/-- A reduction tells the shifted demands. Its stage is where the totals differ. -/
structure Reduction (α : Type) where
  adjustedDemands : List α
  deltas : List α
  reducedEdges : List Nat
  demand : α
  supply : α
  stage : Option Stage

namespace Reduction

variable {α : Type}

def balanced (reduction : Reduction α) : Bool :=
  reduction.stage.isNone

def events (reduction : Reduction α) : List (Event α) :=
  let { reducedEdges, demand, supply, stage, .. } := reduction
  if stage = some .before then [.unbalancedBefore demand supply]
  else
    (if reducedEdges.isEmpty then [] else [.folded reducedEdges.length demand supply]) ++
      (if stage.isSome then [.unbalancedAfter demand supply] else [])

end Reduction

/-- A folding is the state between two edges. -/
structure Folding (α : Type) where
  network : Network α
  deltas : Array α
  reduced : List Nat
  fault : Option (Fault α)

namespace Folding

variable {α : Type} [Quantity α]

/-- This function changes one delta of a list that may be too short. -/
def shift (deltas : Array α) (vertex : Nat) (change : α → Except (Fault α) α) :
    Except (Fault α) (Array α) :=
  match deltas[vertex]? with
  | none => throw .noPosition
  | some delta => do return deltas.setIfInBounds vertex (← change delta)

/-- The load without its lower bound. The capacity changes before the offset. -/
def foldLoad (load : Load α) : Load α × Option (Fault α) :=
  match sub load.capacity load.lower with
  | .error fault => (load, some fault)
  | .ok capacity =>
    match add load.offset load.lower with
    | .error fault => ({ load with capacity }, some fault)
    | .ok offset => ({ capacity, lower := zero, flow := zero, offset }, none)

/-- An edge is folded unless its lower bound is at most zero. -/
def foldEdge (folding : Folding α) (position : Nat) : Folding α :=
  match folding.fault, folding.network.edges[position]? with
  | none, some edge =>
    if lessEq edge.lower (ofInt 0) then folding
    else
      let shifted : Except (Fault α) (Array α) := do
        let deltas ← shift folding.deltas edge.tail (add · edge.lower)
        shift deltas edge.head (sub · edge.lower)
      match shifted with
      | .error fault => { folding with fault := some fault }
      | .ok deltas =>
        let (load, fault) := foldLoad edge.toLoad
        let network := folding.network.modifyLoad position fun _ => load
        let reduced := if fault.isNone then folding.reduced ++ [edge.index] else folding.reduced
        { network, deltas, reduced, fault }
  | _, _ => folding

end Folding

namespace Network

variable {α : Type} [Quantity α]

/-- The difference of two totals, without its sign. -/
def gap (demand supply : α) : Except (Fault α) α := do
  return magnitude (← sub demand supply)

/-- The demands after the shifts. -/
def adjusted (demands deltas : List α) : Except (Fault α) (List α) :=
  (demands.zip deltas).mapM fun (demand, delta) => add demand delta

/-- The edges are folded in order, each of them once. -/
def foldAll (network : Network α) (vertexCount : Nat) : Folding α :=
  (List.range network.edgeCount).foldl Folding.foldEdge
    ⟨network, Array.replicate vertexCount zero, [], none⟩

/-- A network is left as it is when the totals differ by more than the tolerance.
A fault leaves the edges folded so far. -/
def reduceLowerBounds (network : Network α) (demands : List α) (tolerance : α) :
    Network α × Except (Fault α) (Reduction α) :=
  let before : Except (Fault α) (α × α × Bool) := do
    let (demand, supply) ← Demands.totals demands
    return (demand, supply, less tolerance (← gap demand supply))
  match before with
  | .error fault => (network, throw fault)
  | .ok (demand, supply, true) =>
    (network, .ok {
      adjustedDemands := demands, deltas := List.replicate demands.length zero,
      reducedEdges := [], demand, supply, stage := some .before })
  | .ok (_, _, false) =>
    let folding := network.foldAll demands.length
    match folding.fault with
    | some fault => (folding.network, throw fault)
    | none => (folding.network, do
      let deltas := folding.deltas.toList
      let adjustedDemands ← adjusted demands deltas
      let (demand, supply) ← Demands.totals adjustedDemands
      let balanced := lessEq (← gap demand supply) tolerance
      return {
        adjustedDemands, deltas, reducedEdges := folding.reduced, demand, supply,
        stage := if balanced then none else some .after })

end Network
end NetworkFlow
