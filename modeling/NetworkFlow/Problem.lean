import NetworkFlow.Json.Shape
import NetworkFlow.Network

namespace NetworkFlow

/-- A query is a question about a network whose vertices have labels. -/
structure Query (α : Type) where
  labels : List Text
  demands : List α
  source : Option Int
  sink : Option Int

namespace Query

variable {α : Type}

def isMaxFlow (query : Query α) : Bool := query.source.isSome

/-- The first vertex with a label. -/
def indexOf (query : Query α) (label : Text) : Except (Fault α) Nat :=
  match query.labels.idxOf? label with
  | some vertex => .ok vertex
  | none => throw (.problem (.unknownVertex label))

end Query

/-- A problem is a query with its network. -/
structure Problem (α : Type) extends Query α where
  network : Network α

namespace Problem

/-- The labels and the demands of the vertices that were read. -/
structure Vertices where
  labels : List Text
  demands : List Number

def zero : Json := .number (.real .zero)

/-- The label of a vertex is the text of its id, and no two vertices share it. -/
def readVertex (vertices : Vertices) (vertex : Json) :
    Except (Fault Number) Vertices := do
  let label := (← vertex.item "id").display
  if vertices.labels.contains label then throw (.problem (.repeatedVertex label))
  let demand ← ((← vertex.optionalItem "demand").getD zero).toReal
  return ⟨vertices.labels ++ [label], vertices.demands ++ [demand]⟩

/-- The position of an end of an edge among the labels. -/
def endpoint (labels : List Text) (role : String) (name : Text) : Except (Fault Number) Nat :=
  match labels.idxOf? name with
  | some vertex => .ok vertex
  | none => throw (.problem (.unknownEndpoint role name))

/-- The capacity of an edge must be given. -/
def capacityOf (edge : Json) (tail head : Text) : Except (Fault Number) Json := do
  match ← edge.optionalItem "capacity" with
  | none | some .null => throw (.problem (.noCapacity tail head))
  | some capacity => return capacity

def readEdge (labels : List Text) (network : Network Number) (edge : Json) :
    Except (Fault Number) (Network Number) := do
  let tail := (← edge.item "tail").display
  let head := (← edge.item "head").display
  let tailVertex ← endpoint labels "tail" tail
  let headVertex ← endpoint labels "head" head
  let capacity ← (← capacityOf edge tail head).toReal
  let lower ← ((← edge.optionalItem "lower").getD zero).toReal
  network.addEdge tailVertex headVertex capacity lower

def terminal (labels : List Text) (role : String) (value : Json) :
    Except (Fault Number) Int :=
  match labels.idxOf? value.display with
  | some vertex => .ok vertex
  | none => throw (.problem (.unknownTerminal role value.display))

/-- Either both terminals are given or none of them. -/
def terminals (labels : List Text) (source sink : Json) :
    Except (Fault Number) (Option Int × Option Int) := do
  match source, sink with
  | .null, .null => return (none, none)
  | .null, _ | _, .null => throw (.problem .oneTerminal)
  | source, sink =>
    let sourceVertex ← terminal labels "Source" source
    let sinkVertex ← terminal labels "Sink" sink
    return (some sourceVertex, some sinkVertex)

/-- This function builds a problem from its vertices, its edges and its terminals. -/
def build (vertices edges source sink : Json) : Except (Fault Number) (Problem Number) := do
  let read ← (← vertices.elements).foldlM readVertex ⟨[], []⟩
  let network ← (← edges.elements).foldlM (readEdge read.labels) (.empty read.labels.length)
  let (source, sink) ← terminals read.labels source sink
  return { labels := read.labels, demands := read.demands, source, sink, network }

/-- A field of a problem may have a second name. -/
def part (payload : Json) (name second : String) : Except (Fault Number) Json := do
  if ← payload.holds name then payload.item name
  else return (← payload.optionalItem second).getD .null

/-- An edge must have both ends. Its other fields are optional. -/
def normalize (edge : Json) : Except (Fault Number) Json := do
  let refusal : Fault Number := .problem (.edgeShape edge.display)
  if !(← edge.holds "tail") then throw refusal
  if !(← edge.holds "head") then throw refusal
  return .object [
    ("tail", ← edge.item "tail"), ("head", ← edge.item "head"),
    ("capacity", (← edge.optionalItem "capacity").getD .null),
    ("lower", (← edge.optionalItem "lower").getD zero)]

/-- This function builds a problem from one JSON value. -/
def ofJson (payload : Json) : Except (Fault Number) (Problem Number) := do
  let vertices ← part payload "vertices" "nodes"
  let edges ← part payload "edges" "arcs"
  match vertices, edges with
  | .list vertices, .list edges =>
    let edges ← edges.mapM normalize
    let source := (← payload.optionalItem "source").getD .null
    let sink := (← payload.optionalItem "sink").getD .null
    build (.list vertices) (.list edges) source sink
  | vertices, edges => throw (.problem (.problemShape vertices.kind edges.kind))

/-- The values of a file of its own may enclose one another this often. -/
def fileRoom : Nat := 988

/-- This function reads a problem from the bytes of a file, when there is one. -/
def load (room : Nat) (bytes : Option ByteArray) : Except (Fault Number) (Problem Number) := do
  match bytes with
  | none => throw .noFile
  | some bytes =>
    match String.fromUTF8? bytes with
    | none => throw .notUnicode
    | some text => ofJson (← (Json.read room text).mapError .reading)

end Problem
end NetworkFlow
