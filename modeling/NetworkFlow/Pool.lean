/-
This file keeps edges as objects that are changed in place.
A network lists references to the objects, at its vertices and in the order of the edges,
so the same edge is met on every way to it.
-/
import NetworkFlow.Circulation
import NetworkFlow.Matching

namespace NetworkFlow

/-- A frame has references where a network has edges. -/
structure Frame where
  adjacency : Array (List Nat)
  edges : Array Nat

/-- A pool holds the edges that were made and the networks that were created.
A reference is the number of an edge in the order in which they were made. -/
structure Pool (α : Type) where
  objects : Array (LooseEdge α)
  frames : Array Frame

/-- An action on a pool gives a value or a fault. What it changed before a fault stays changed. -/
abbrev Pooled (α : Type) := ExceptT (Fault α) (StateM (Pool α))

/-- An edge of a network seen from inside. -/
def LooseEdge.placed {α : Type} (object : LooseEdge α) : Edge α :=
  { object.toLoad with
    tail := object.tail.toNat, head := object.head.toNat, index := object.index.toNat }

namespace Frame

variable {α : Type}

def blank (vertexCount : Nat) : Frame :=
  ⟨Array.replicate vertexCount [], #[]⟩

def vertexCount (frame : Frame) : Nat := frame.adjacency.size

/-- The references at a vertex. -/
def incident (frame : Frame) (vertex : Nat) : List Nat :=
  frame.adjacency.getD vertex []

/-- The network that is read through the references. -/
def network (frame : Frame) (objects : Array (LooseEdge α)) : Network α where
  adjacency := frame.adjacency.map fun incident => incident.filterMap fun reference =>
    objects[reference]?.map fun object => object.index.toNat
  edges := frame.edges.filterMap fun reference => objects[reference]?.map LooseEdge.placed

def addVertex (frame : Frame) : Frame :=
  { frame with adjacency := frame.adjacency.push [] }

/-- A new edge comes last in the order of the edges and in the lists of its ends. -/
def attach (frame : Frame) (tail head reference : Nat) : Frame :=
  let atTail := frame.adjacency.modify tail (· ++ [reference])
  { adjacency := if head = tail then atTail else atTail.modify head (· ++ [reference])
    edges := frame.edges.push reference }

end Frame

namespace Pool

variable {α β : Type}

def empty : Pool α := ⟨#[], #[]⟩

/-- Every edge is written to the object of its reference. -/
def write (objects : Array (LooseEdge α)) (edges : List (Nat × Edge α)) : Array (LooseEdge α) :=
  edges.foldl (fun objects (reference, edge) => objects.setIfInBounds reference edge.loose) objects

/-- A network is written over a frame. Old edges keep their objects and new ones get their own. -/
def replace (pool : Pool α) (number : Nat) (frame : Frame) (network : Network α) : Pool α :=
  let fresh := network.edges.toList.drop frame.edges.size
  let references := frame.edges ++ (List.range' pool.objects.size fresh.length).toArray
  { objects := write pool.objects (frame.edges.toList.zip network.edges.toList) ++
      (fresh.map Edge.loose).toArray
    frames := pool.frames.setIfInBounds number
      ⟨network.adjacency.map fun incident => incident.filterMap (references[·]?), references⟩ }

def frameAt (number : Nat) : Pooled α Frame := do
  match (← get).frames[number]? with
  | some frame => return frame
  | none => throw .noPosition

def networkAt (number : Nat) : Pooled α (Network α) := do
  return (← frameAt number).network (← get).objects

def objectAt (reference : Nat) : Pooled α (LooseEdge α) := do
  match (← get).objects[reference]? with
  | some object => return object
  | none => throw .noPosition

/-- The reference of a network at a position that a caller gives. -/
def referenceAt (number : Nat) (position : Int) : Pooled α Nat := do
  let frame ← frameAt number
  match position? frame.edges.size position >>= (frame.edges[·]?) with
  | some reference => return reference
  | none => throw .noPosition

/-- This action keeps an edge outside every network and gives its reference. -/
def addObject (object : LooseEdge α) : Pooled α Nat := do
  let reference := (← get).objects.size
  modify fun pool => { pool with objects := pool.objects.push object }
  return reference

/-- This action creates a network without edges and gives its number. -/
def addFrame (vertexCount : Nat) : Pooled α Nat := do
  let number := (← get).frames.size
  modify fun pool => { pool with frames := pool.frames.push (.blank vertexCount) }
  return number

def setFrame (number : Nat) (frame : Frame) : Pooled α Unit :=
  modify fun pool => { pool with frames := pool.frames.setIfInBounds number frame }

def setObject (reference : Nat) (object : LooseEdge α) : Pooled α Unit :=
  modify fun pool => { pool with objects := pool.objects.setIfInBounds reference object }

/-- This action applies an operation to a network in place, and keeps what a failure left. -/
def revise (number : Nat) (operation : Network α → Network α × Except (Fault α) β) :
    Pooled α β := do
  let frame ← frameAt number
  let (changed, outcome) := operation (frame.network (← get).objects)
  modify fun pool => pool.replace number frame changed
  outcome

/-- This action takes a network that was built apart and gives its number. -/
def addNetwork (network : Network α) : Pooled α Nat := do
  let number ← addFrame 0
  revise number fun _ => (network, .ok ())
  return number

def create (vertexCount : Int) : Pooled α Nat := do
  let blank ← (Network.create vertexCount : Except (Fault α) (Network α))
  addFrame blank.vertexCount

def addVertex (number : Nat) : Pooled α Unit := do
  setFrame number (← frameAt number).addVertex

/-- An edge that is in a network already, or does not fit into this one, is refused. -/
def insertEdge (number reference : Nat) : Pooled α Unit := do
  let network ← networkAt number
  let object ← objectAt reference
  if 0 ≤ object.index then
    throw (.structural (.alreadyInserted object.tail object.head object.index))
  let tail ← (network.checkVertex "Edge tail" object.tail : Except (Fault α) Nat)
  let head ← (network.checkVertex "Edge head" object.head : Except (Fault α) Nat)
  let frame ← frameAt number
  setObject reference { object with index := frame.edges.size }
  setFrame number (frame.attach tail head reference)

/-- This action solves in place and gives all that the solve left. -/
def runMaxFlow (number : Nat) (solver : Network α → MaxFlow.Solve α) :
    Pooled α (MaxFlow.Solve α) :=
  revise number fun network =>
    let solve := solver network
    (solve.network, .ok solve)

variable [Quantity α]

/-- This action makes an edge outside every network and gives its reference. -/
def makeEdge (tail head : Int) (load : Load α) (index : Int) : Pooled α Nat := do
  let object ← (LooseEdge.create tail head load index : Except (Fault α) (LooseEdge α))
  addObject object

/-- This action makes an edge inside a network and gives its reference. -/
def addEdge (number : Nat) (tail head : Int) (capacity lower : α) : Pooled α Nat := do
  let network ← networkAt number
  let _ ← (network.checkVertex "Edge tail" tail : Except (Fault α) Nat)
  let _ ← (network.checkVertex "Edge head" head : Except (Fault α) Nat)
  let load : Load α := { capacity, lower, flow := Quantity.zero, offset := Quantity.zero }
  let reference ← makeEdge tail head load (-1)
  insertEdge number reference
  return reference

/-- More flow toward the head of an edge, and less flow toward any other vertex. -/
def push (reference : Nat) (vertex : Int) (amount : α) : Pooled α Unit := do
  let object ← objectAt reference
  let load ← (object.toLoad.push (vertex = object.head) amount : Except (Fault α) (Load α))
  setObject reference { object with toLoad := load }

/-- A copy of an edge is a new object in another network. -/
def copyEdge (clone reference : Nat) : Pooled α Unit := do
  let object ← objectAt reference
  insertEdge clone (← makeEdge object.tail object.head object.toLoad (-1))

/-- This action copies a network edge by edge and gives the number of the copy. -/
def copy (number : Nat) : Pooled α Nat := do
  let frame ← frameAt number
  let clone ← addFrame frame.vertexCount
  frame.edges.toList.forM (copyEdge clone)
  return clone

def resetFlows (number : Nat) : Pooled α Unit :=
  revise number fun network => (network.resetFlows, .ok ())

def reduceLowerBounds (number : Nat) (demands : List α) (tolerance : α) :
    Pooled α (Reduction α) :=
  revise number fun network => network.reduceLowerBounds demands tolerance

def buildCirculation (number : Nat) (demands : Demands α) (tolerance : α) :
    Pooled α (Wiring α) :=
  revise number fun network => network.buildCirculation demands tolerance

def maxFlow (number : Nat) (source sink : Int) (options : Options α) (watch : Watch α) :
    Pooled α (MaxFlow.Result α) := do
  let solve ← runMaxFlow number (MaxFlow.solve · source sink options watch)
  solve.outcome

def warmMaxFlow (number : Nat) (source sink : Int) (options : Options α) (watch : Watch α) :
    Pooled α (MaxFlow.Result α) := do
  let solve ← runMaxFlow number (MaxFlow.solveWarm · source sink options watch)
  solve.outcome

/-- This action solves a wired network and reads the verdict from the flow. -/
def solveWired (working edgeCount : Nat) (reduction : Reduction α) (wiring : Wiring α)
    (options : Options α) (watch : Watch α) : Pooled α (Circulation.Result α) := do
  let flow ← warmMaxFlow working wiring.source wiring.sink options watch
  let feasible ← (Circulation.verdict options.tolerance reduction.demand flow.value :
    Except (Fault α) Bool)
  let solved ← networkAt working
  let flows ← (Circulation.flowsBelow solved edgeCount : Except (Fault α) (Table Int α))
  return {
    feasible
    value := flow.value
    demand := reduction.demand
    supply := reduction.supply
    status := if feasible then .feasible else .insufficientCapacity
    stage := none
    minCut := flow.minCut
    flows
    adjustedDemands := reduction.adjustedDemands
    source := some wiring.source
    sink := some wiring.sink
    augmentations := flow.augmentations
    network := some solved }

/-- This action folds the lower bounds of a network in place, wires it and solves it. -/
def solveWorking (working edgeCount : Nat) (vector : List α) (options : Options α)
    (watch : Watch α) : Pooled α (Circulation.Result α) := do
  resetFlows working
  let reduction ← reduceLowerBounds working vector options.tolerance
  if reduction.balanced then
    let adjusted := Demands.dense reduction.adjustedDemands
    let wiring ← buildCirculation working adjusted options.tolerance
    solveWired working edgeCount reduction wiring options watch
  else return Circulation.unbalanced (← networkAt working) reduction

/-- A circulation is solved on a copy. -/
def circulation (number : Nat) (demands : Demands α) (options : Options α) (watch : Watch α) :
    Pooled α (Circulation.Result α) := do
  let network ← networkAt number
  let vector ← (demands.vector network.vertexCount : Except (Fault α) (List α))
  solveWorking (← copy number) network.edgeCount vector options watch

/-- A matching is read off a maximum flow through a network of its own. -/
def matching (left right : Int) (pairs : List (Int × Int)) (options : Options α) :
    Pooled α (Matching α) := do
  let built ← (MatchingNetwork.build left right pairs : Except (Fault α) (MatchingNetwork α))
  let number ← addNetwork built.network
  let flow ← warmMaxFlow number built.source built.sink options .idle
  return Matching.ofFlow built (← networkAt number) flow options.tolerance

end Pool

/-- The public operations on edges and networks. -/
inductive Operation (α : Type) where
  | create (vertexCount : Int)
  | addVertex (number : Nat)
  | makeEdge (tail head : Int) (load : Load α) (index : Int)
  | addEdge (number : Nat) (tail head : Int) (capacity lower : α)
  | insertEdge (number reference : Nat)
  | push (reference : Nat) (vertex : Int) (amount : α)
  | copy (number : Nat)
  | resetFlows (number : Nat)
  | reduceLowerBounds (number : Nat) (demands : List α) (tolerance : α)
  | buildCirculation (number : Nat) (demands : Demands α) (tolerance : α)
  | maxFlow (number : Nat) (source sink : Int) (options : Options α) (watch : Watch α)
  | warmMaxFlow (number : Nat) (source sink : Int) (options : Options α) (watch : Watch α)
  | circulation (number : Nat) (demands : Demands α) (options : Options α) (watch : Watch α)
  | matching (left right : Int) (pairs : List (Int × Int)) (options : Options α)

section Operation

variable {α β : Type}

/-- An action gives its outcome and leaves a pool. -/
def Pooled.perform (action : Pooled α β) (pool : Pool α) : Except (Fault α) β × Pool α :=
  action.run.run pool

def Pooled.outcome (action : Pooled α β) (pool : Pool α) : Except (Fault α) β :=
  (action.perform pool).1

/-- The pool that an action leaves, also when it fails. -/
def Pooled.after (action : Pooled α β) (pool : Pool α) : Pool α :=
  (action.perform pool).2

variable [Quantity α]

def Operation.after (pool : Pool α) : Operation α → Pool α
  | .create vertexCount => (Pool.create vertexCount).after pool
  | .addVertex number => (Pool.addVertex number).after pool
  | .makeEdge tail head load index => (Pool.makeEdge tail head load index).after pool
  | .addEdge number tail head capacity lower =>
    (Pool.addEdge number tail head capacity lower).after pool
  | .insertEdge number reference => (Pool.insertEdge number reference).after pool
  | .push reference vertex amount => (Pool.push reference vertex amount).after pool
  | .copy number => (Pool.copy number).after pool
  | .resetFlows number => (Pool.resetFlows number).after pool
  | .reduceLowerBounds number demands tolerance =>
    (Pool.reduceLowerBounds number demands tolerance).after pool
  | .buildCirculation number demands tolerance =>
    (Pool.buildCirculation number demands tolerance).after pool
  | .maxFlow number source sink options watch =>
    (Pool.maxFlow number source sink options watch).after pool
  | .warmMaxFlow number source sink options watch =>
    (Pool.warmMaxFlow number source sink options watch).after pool
  | .circulation number demands options watch =>
    (Pool.circulation number demands options watch).after pool
  | .matching left right pairs options => (Pool.matching left right pairs options).after pool

/-- The pool after a sequence of operations, each of which may have failed. -/
def Pool.run (operations : List (Operation α)) : Pool α :=
  operations.foldl Operation.after Pool.empty

end Operation
end NetworkFlow
