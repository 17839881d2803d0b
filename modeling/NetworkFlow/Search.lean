import NetworkFlow.Network

namespace NetworkFlow

open Quantity

/-- An arc crosses the edge at a position from one of its ends to the other. -/
structure Arc where
  edge : Nat
  origin : Nat
  target : Nat
  deriving DecidableEq

/-- A search tree knows which vertices were reached, and the edge that reached each. -/
structure SearchTree where
  marked : Array Bool
  edgeTo : Array (Option Nat)
  deriving DecidableEq

namespace SearchTree

/-- Nothing is reached in the blank tree. -/
def blank (vertexCount : Nat) : SearchTree :=
  ⟨Array.replicate vertexCount false, Array.replicate vertexCount none⟩

/-- The root is reached by no edge. -/
def markRoot (tree : SearchTree) (vertex : Nat) : SearchTree :=
  { tree with marked := tree.marked.setIfInBounds vertex true }

def reach (tree : SearchTree) (vertex edge : Nat) : SearchTree :=
  { marked := tree.marked.setIfInBounds vertex true
    edgeTo := tree.edgeTo.setIfInBounds vertex (some edge) }

def isMarked (tree : SearchTree) (vertex : Nat) : Bool :=
  tree.marked.getD vertex false

/-- The reached vertices in increasing order. -/
def reachable (tree : SearchTree) : List Nat :=
  (List.range tree.marked.size).filter tree.isMarked

variable {α : Type}

/-- The edge that leads to a vertex in the tree. -/
def edgeInto (tree : SearchTree) (network : Network α) (vertex : Nat) :
    Option (Nat × Edge α) := do
  let position ← tree.edgeTo.getD vertex none
  let edge ← network.edges[position]?
  return (position, edge)

/-- This walk follows the tree back to the source, and gives up where the tree ends elsewhere. -/
def walk (tree : SearchTree) (network : Network α) (source : Option Int) :
    Nat → Nat → List Arc → Except (Fault α) (List Arc)
  | 0, _, _ => throw .unfinished
  | fuel + 1, vertex, found =>
    if source = some (vertex : Int) then .ok found.reverse
    else
      match tree.edgeInto network vertex with
      | none => .ok []
      | some (position, edge) =>
        let arc : Arc := ⟨position, edge.otherEnd vertex, vertex⟩
        walk tree network source fuel arc.origin (arc :: found)

/-- The arcs of the tree path to a vertex, with the last arc first.
A tree path has fewer arcs than the tree has vertices. -/
def arcsTo (tree : SearchTree) (network : Network α) (source : Option Int) (vertex : Nat) :
    Except (Fault α) (List Arc) :=
  tree.walk network source (tree.edgeTo.size + 1) vertex []

end SearchTree

/-- A crossing rule gives the vertex that an edge leads to from a vertex, when it leads anywhere,
and says whether the edge may be crossed from there. -/
structure Crossing (α : Type) where
  next : Nat → Edge α → Option Nat
  admits : Nat → Edge α → Except (Fault α) Bool

/-- A search explores the queued vertices in turn until the rule fails. -/
structure Search (α : Type) where
  tree : SearchTree
  queue : List Nat
  fault : Option (Fault α)

namespace Search

variable {α : Type}

def start (vertexCount source : Nat) : Search α :=
  ⟨(SearchTree.blank vertexCount).markRoot source, [source], none⟩

/-- An edge leads to a vertex that is not reached yet when the rule admits it. -/
def cross (network : Network α) (rule : Crossing α) (vertex : Nat) (search : Search α)
    (position : Nat) : Search α :=
  match search.fault, network.edges[position]? with
  | none, some edge =>
    match rule.next vertex edge with
    | some next =>
      if search.tree.marked[next]? = some false then
        match rule.admits vertex edge with
        | .error fault => { search with fault := some fault }
        | .ok true =>
          { search with tree := search.tree.reach next position, queue := search.queue ++ [next] }
        | .ok false => search
      else search
    | none => search
  | _, _ => search

/-- This function crosses every edge at a vertex, in their order. -/
def scan (network : Network α) (rule : Crossing α) (search : Search α) (vertex : Nat) :
    Search α :=
  (network.incident vertex).foldl (cross network rule vertex) search

/-- A search has ended when it failed or its goal is reached. -/
def hasEnded (search : Search α) (goal : Option Nat) : Bool :=
  search.fault.isSome || goal.any search.tree.isMarked

/-- Each unit of fuel takes one vertex from the queue. -/
def explore (network : Network α) (rule : Crossing α) (goal : Option Nat) :
    Nat → Search α → Search α
  | 0, search => search
  | fuel + 1, search =>
    if search.hasEnded goal then search
    else
      match search.queue with
      | [] => search
      | vertex :: rest =>
        explore network rule goal fuel (scan network rule { search with queue := rest } vertex)

/-- A vertex enters the queue only once, so the number of vertices is enough fuel. -/
def run (network : Network α) (rule : Crossing α) (goal : Option Nat) (source : Nat) :
    Search α :=
  explore network rule goal network.vertexCount (start network.vertexCount source)

end Search

variable {α : Type} [Quantity α]

/-- The room of an arc. -/
def Network.room (network : Network α) (arc : Arc) : Except (Fault α) α :=
  match network.edges[arc.edge]? with
  | some edge => edge.room (arc.target = edge.head)
  | none => throw .noPosition

/-- A residual edge leads from both of its ends while its room exceeds the tolerance. -/
def Crossing.residual (tolerance : α) : Crossing α where
  next vertex edge := some (edge.otherEnd vertex)
  admits vertex edge := do
    return less tolerance (← edge.room (edge.otherEnd vertex = edge.head))

end NetworkFlow
