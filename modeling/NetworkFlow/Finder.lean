import NetworkFlow.Search

namespace NetworkFlow

/-- A finder has no source before its first search. -/
structure Finder (α : Type) where
  tolerance : α
  source : Option Int
  tree : SearchTree

namespace Finder

variable {α : Type}

def create (network : Network α) (tolerance : α) : Finder α :=
  ⟨tolerance, none, .blank network.vertexCount⟩

/-- The cause for which an integer has no mark. One that fills a word of 64 bits is too wide for
a position, because a position has a sign. -/
def noMark (vertex : Int) : Fault α :=
  if wordLimit ≤ vertex ∧ vertex < 2 * wordLimit then .overflow .position else .noPosition

/-- This function says whether the last search reached a vertex. -/
def hasPathTo (finder : Finder α) (vertex : Int) : Except (Fault α) Bool :=
  match position? finder.tree.marked.size vertex with
  | some vertex => .ok (finder.tree.isMarked vertex)
  | none => throw (noMark vertex)

def reachable (finder : Finder α) : List Nat :=
  finder.tree.reachable

/-- The arcs of the tree path to a vertex, with the last arc first. -/
def pathArcs (finder : Finder α) (network : Network α) (target : Int) :
    Except (Fault α) (List Arc) :=
  if finder.source = some target then .ok []
  else
    match position? finder.tree.edgeTo.size target with
    | none => throw .noPosition
    | some vertex =>
      match finder.tree.edgeInto network vertex with
      | none => .ok []
      | some (_, edge) =>
        if target < 0 then throw (.structural (.notEndpoint target edge.tail edge.head))
        else finder.tree.arcsTo network finder.source vertex

/-- The positions of the edges on the tree path to a vertex, with the last one first. -/
def pathEdges (finder : Finder α) (network : Network α) (target : Int) :
    Except (Fault α) (List Nat) := do
  return (← finder.pathArcs network target).map Arc.edge

/-- The vertices of the tree path from the source to a reached vertex. -/
def pathVertices (finder : Finder α) (network : Network α) (target : Int) :
    Except (Fault α) (List Int) := do
  if finder.source.isNone then return []
  if !(← finder.hasPathTo target) then return []
  let arcs ← finder.pathArcs network target
  return (target :: arcs.map fun arc => (arc.origin : Int)).reverse

variable [Quantity α]

/-- The tree of a search from a position that counts from the end.
The position names a vertex, but no edge has it as an end. -/
def searchFromEnd (network : Network α) (source : Int) (vertex : Nat) :
    Option (Fault α) × SearchTree :=
  let tree := (SearchTree.blank network.vertexCount).markRoot vertex
  match (network.incident vertex).head? >>= (network.edges[·]?) with
  | some edge => (some (.structural (.notEndpoint source edge.tail edge.head)), tree)
  | none => (none, tree)

/-- The tree of a search from any integer, and the fault that ended it early. -/
def treeFrom (finder : Finder α) (network : Network α) (source : Int) :
    Option (Fault α) × SearchTree :=
  match position? network.vertexCount source with
  | none => (some (noMark source), .blank network.vertexCount)
  | some vertex =>
    if source < 0 then searchFromEnd network source vertex
    else
      let search := Search.run network (.residual finder.tolerance) none vertex
      (search.fault, search.tree)

/-- A search explores everything that the source reaches, and says whether the sink is reached. -/
def search (finder : Finder α) (network : Network α) (source sink : Int) :
    Except (Fault α) Bool × Finder α :=
  let (fault, tree) := finder.treeFrom network source
  let finder := { finder with source := some source, tree }
  match fault with
  | some fault => (throw fault, finder)
  | none => (finder.hasPathTo sink, finder)

end Finder
end NetworkFlow
