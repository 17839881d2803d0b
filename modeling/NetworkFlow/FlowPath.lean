import NetworkFlow.Search
import NetworkFlow.Table

namespace NetworkFlow

open Quantity

/-- A flow path carries the least flow of its edges. -/
structure FlowPath (α : Type) where
  vertices : List Nat
  edges : List Nat
  flow : α
  deriving DecidableEq

variable {α : Type} [Quantity α]

/-- An edge leads to its head while its flow exceeds the tolerance. An edge without an entry
carries no flow. -/
def Crossing.carrying (flows : Table Int α) (tolerance : α) : Crossing α where
  next vertex edge := if edge.tail = vertex then some edge.head else none
  admits _ edge := .ok (less tolerance ((flows.find? edge.index).getD zero))

namespace Network

/-- The entry of an edge, which must be present. -/
def entryOf (flows : Table Int α) (position : Nat) : Except (Fault α) α :=
  match flows.find? position with
  | some flow => .ok flow
  | none => throw (.missingEntry position)

/-- The path with the given arcs, the last of them first. -/
def flowPath (flows : Table Int α) (target : Nat) (arcs : List Arc) :
    Except (Fault α) (FlowPath α) := do
  let edges := (arcs.map Arc.edge).reverse
  let carried ← edges.mapM (entryOf flows)
  match least? carried with
  | some flow => return ⟨(target :: arcs.map Arc.origin).reverse, edges, flow⟩
  | none => throw .unfinished

/-- A path with the fewest edges that carry more than the tolerance. -/
def extractPath (network : Network α) (flows : Table Int α) (source target : Int)
    (tolerance : α) : Except (Fault α) (Option (FlowPath α)) := do
  let sourceVertex ← network.checkVertex "Source" source
  let targetVertex ← network.checkVertex "Target" target
  if sourceVertex = targetVertex then return some ⟨[sourceVertex], [], zero⟩
  let rule := Crossing.carrying flows tolerance
  let search := Search.run network rule (some targetVertex) sourceVertex
  if search.tree.isMarked targetVertex then
    let arcs ← search.tree.arcsTo network (some (sourceVertex : Int)) targetVertex
    return some (← flowPath flows targetVertex arcs)
  else return none

end Network
end NetworkFlow
