import NetworkFlow.Labels
import NetworkFlow.Network
import NetworkFlow.Table

namespace NetworkFlow

open Quantity

/-- A drawn edge has the sums of the edges that it stands for, and lists them in order. -/
structure DrawnEdge (α : Type) where
  upper : α
  lower : α
  flow : α
  ids : List Nat
  deriving DecidableEq

/-- A graph has one node for each name and one edge for each pair of names. -/
structure DrawnGraph (α : Type) where
  nodes : Table Text Nat
  edges : Table (Text × Text) (DrawnEdge α)

namespace DrawnGraph

variable {α : Type}

/-- The edges are grouped by their tail, in the order of the nodes. -/
def edgeList (graph : DrawnGraph α) : List ((Text × Text) × DrawnEdge α) :=
  graph.nodes.keys.flatMap fun tail => graph.edges.entries.filter fun entry => entry.1.1 = tail

/-- This function keeps the edges that pass a test. -/
def keepEdges (graph : DrawnGraph α) (keep : DrawnEdge α → Bool) : DrawnGraph α :=
  { graph with edges := .ofList (graph.edges.entries.filter fun entry => keep entry.2) }

variable [Quantity α]

/-- The flow that is drawn on an edge. -/
def drawnFlow (flows : Option (Table Int α)) (edge : Edge α) : Except (Fault α) α :=
  match flows with
  | some flows => .ok ((flows.find? edge.index).getD zero)
  | none => edge.totalFlow

/-- This function merges an edge into the drawn edge between the same names. -/
def addEdge (labels : Option (List Text)) (flows : Option (Table Int α))
    (graph : DrawnGraph α) (edge : Edge α) : Except (Fault α) (DrawnGraph α) := do
  let key := (vertexName labels edge.tail, vertexName labels edge.head)
  let flow ← drawnFlow flows edge
  let upper ← edge.upper
  let lower ← edge.fullLower
  let drawn ←
    match graph.edges.find? key with
    | none => pure ⟨upper, lower, flow, [edge.index]⟩
    | some known => do
      pure ⟨← add known.upper upper, ← add known.lower lower, ← add known.flow flow,
        known.ids ++ [edge.index]⟩
  return { graph with edges := graph.edges.insert key drawn }

/-- The graph of a network. Vertices with the same name become one node. -/
def ofNetwork (network : Network α) (labels : Option (List Text))
    (flows : Option (Table Int α)) : Except (Fault α) (DrawnGraph α) :=
  let nodes := (List.range network.vertexCount).map fun vertex => (vertexName labels vertex, vertex)
  network.edges.foldlM (addEdge labels flows) ⟨.ofList nodes, .empty⟩

end DrawnGraph
end NetworkFlow
