import NetworkFlow.Edge
import NetworkFlow.Position

namespace NetworkFlow

open Quantity

/-- A network has one list of edge positions for each vertex. -/
structure Network (α : Type) where
  adjacency : Array (List Nat)
  edges : Array (Edge α)
  deriving DecidableEq

namespace Network

variable {α : Type}

def empty (vertexCount : Nat) : Network α :=
  ⟨Array.replicate vertexCount [], #[]⟩

def vertexCount (network : Network α) : Nat := network.adjacency.size

def edgeCount (network : Network α) : Nat := network.edges.size

/-- The positions of the edges at a vertex, in increasing order. -/
def incident (network : Network α) (vertex : Nat) : List Nat :=
  network.adjacency.getD vertex []

def create (vertexCount : Int) : Except (Fault α) (Network α) :=
  if vertexCount < 0 then throw (.structural (.vertexCount vertexCount))
  else .ok (empty vertexCount.toNat)

/-- This function refuses an integer that is no vertex, and names its role. -/
def checkVertex (network : Network α) (role : Text) (vertex : Int) :
    Except (Fault α) Nat :=
  if 0 ≤ vertex ∧ vertex < network.vertexCount then .ok vertex.toNat
  else throw (.structural (.outsideRange role vertex network.vertexCount))

/-- The new vertex has no edge and comes last. -/
def addVertex (network : Network α) : Network α :=
  { network with adjacency := network.adjacency.push [] }

/-- A new edge comes last in the lists of its ends. A loop is listed once. -/
def attach (network : Network α) (tail head : Nat) (load : Load α) : Network α :=
  let index := network.edges.size
  let atTail := network.adjacency.modify tail (· ++ [index])
  { adjacency := if head = tail then atTail else atTail.modify head (· ++ [index])
    edges := network.edges.push { load with tail, head, index } }

/-- A loose edge enters a network once. -/
def insert (network : Network α) (edge : LooseEdge α) : Except (Fault α) (Network α) := do
  if 0 ≤ edge.index then
    throw (.structural (.alreadyInserted edge.tail edge.head edge.index))
  let tail ← network.checkVertex "Edge tail" edge.tail
  let head ← network.checkVertex "Edge head" edge.head
  return network.attach tail head edge.toLoad

/-- The edge at a position that a caller gives. -/
def edgeAt (network : Network α) (position : Int) : Except (Fault α) (Edge α) :=
  match position? network.edges.size position >>= (network.edges[·]?) with
  | some edge => .ok edge
  | none => throw .noPosition

/-- The edges at a vertex that a caller gives. -/
def incidentAt (network : Network α) (vertex : Int) : Except (Fault α) (List Nat) :=
  match position? network.vertexCount vertex with
  | some vertex => .ok (network.incident vertex)
  | none => throw .noPosition

/-- This function changes the load of the edge at a position. -/
def modifyLoad (network : Network α) (position : Nat) (change : Load α → Load α) :
    Network α :=
  { network with
    edges := network.edges.modify position fun edge => edge.withLoad (change edge.toLoad) }

variable [Quantity α]

def addEdge (network : Network α) (tail head : Int) (capacity lower : α) :
    Except (Fault α) (Network α) := do
  let tailVertex ← network.checkVertex "Edge tail" tail
  let headVertex ← network.checkVertex "Edge head" head
  let load : Load α := { capacity, lower, flow := zero, offset := zero }
  load.check tail head
  return network.attach tailVertex headVertex load

/-- A lower bound counts also after it was folded. -/
def hasLowerBounds (network : Network α) : Bool :=
  network.edges.any fun edge => isPositive edge.lower || isPositive edge.offset

def resetFlows (network : Network α) : Network α :=
  { network with edges := network.edges.map fun edge => { edge with flow := zero } }

/-- A copy inserts every edge anew, so its bounds are checked again. -/
def copy (network : Network α) : Except (Fault α) (Network α) :=
  network.edges.foldlM
    (fun clone edge => do clone.insert (← LooseEdge.create edge.tail edge.head edge.toLoad (-1)))
    (empty network.vertexCount)

end Network
end NetworkFlow
