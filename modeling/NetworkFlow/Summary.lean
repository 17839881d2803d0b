import NetworkFlow.Circulation
import NetworkFlow.Json.Writer
import NetworkFlow.Labels
import NetworkFlow.Problem

namespace NetworkFlow

/-- A solution is the result of either kind of question. -/
inductive Solution (α : Type) where
  | maxFlow (result : MaxFlow.Result α)
  | circulation (result : Circulation.Result α)

namespace Solution

variable {α : Type}

def value : Solution α → α
  | .maxFlow result => result.value
  | .circulation result => result.value

def minCut : Solution α → List Int
  | .maxFlow result => result.minCut
  | .circulation result => result.minCut

def flows : Solution α → Table Int α
  | .maxFlow result => result.flows
  | .circulation result => result.flows

def augmentations : Solution α → Int
  | .maxFlow result => result.augmentations
  | .circulation result => result.augmentations

end Solution

/-- The flow on an edge, with the names of its ends when the edge is known. -/
structure FlowEntry (α : Type) where
  edge : Int
  flow : α
  ends : Option (Text × Text)

/-- The part of a summary that depends on the question. -/
inductive Summary.Kind (α : Type) where
  | maxFlow (source sink : Text)
  | circulation (feasible : Bool) (status : Circulation.Status) (stage : Option Stage)
      (demand supply : α)

/-- A summary tells a result by the names of the vertices. -/
structure Summary (α : Type) where
  value : α
  kind : Summary.Kind α
  augmentations : Int
  minCut : List Text
  flows : List (FlowEntry α)

namespace Summary

variable {α : Type}

def sourceLabel : Text := "__source__"

def sinkLabel : Text := "__sink__"

/-- The name of a vertex beyond the labels. -/
def plainName (solution : Solution α) (vertex : Int) : Text :=
  match solution with
  | .maxFlow _ => numeral vertex
  | .circulation result =>
    if result.source = some vertex then sourceLabel
    else if result.sink = some vertex then sinkLabel
    else numeral vertex

/-- A vertex below the number of labels has a label, and the added terminals have names. -/
def nameOf (solution : Solution α) (labels : List Text) (vertex : Int) :
    Except (Fault α) Text :=
  labelOr (plainName solution) labels vertex

/-- The flow on one edge. The ends are known from the network of the problem. -/
def flowEntry (solution : Solution α) (labels : List Text)
    (network : Option (Network α)) (entry : Int × α) : Except (Fault α) (FlowEntry α) := do
  let (edge, flow) := entry
  match network >>= fun network => network.edges.find? fun known => (known.index : Int) = edge with
  | none => return ⟨edge, flow, none⟩
  | some known =>
    let tail ← nameOf solution labels known.tail
    let head ← nameOf solution labels known.head
    return ⟨edge, flow, some (tail, head)⟩

def kindOf (solution : Solution α) (labels : List Text) :
    Except (Fault α) (Kind α) := do
  match solution with
  | .maxFlow result =>
    let source ← nameOf solution labels result.source
    let sink ← nameOf solution labels result.sink
    return .maxFlow source sink
  | .circulation result =>
    return .circulation result.feasible result.status result.stage result.demand result.supply

/-- The summary of a result. The flows are ordered by edge and the cut by vertex. -/
def ofSolution (solution : Solution α) (problem : Option (List Text × Network α)) :
    Except (Fault α) (Summary α) := do
  let labels := (problem.map Prod.fst).getD []
  let entries := solution.flows.entries.mergeSort fun first second => first.1 ≤ second.1
  let flows ← entries.mapM (flowEntry solution labels (problem.map Prod.snd))
  let kind ← kindOf solution labels
  let minCut ← solution.minCut.mergeSort.mapM (nameOf solution labels)
  return { value := solution.value, kind, augmentations := solution.augmentations, minCut, flows }

def kindFields : Kind Number → List (Text × Json)
  | .maxFlow source sink =>
    [("kind", .text "max_flow"), ("source", .text source), ("sink", .text sink)]
  | .circulation feasible status stage demand supply =>
    [("kind", .text "circulation"), ("feasible", .bool feasible), ("status", .text status.name),
      ("stage", (stage.map fun stage => Json.text stage.name).getD .null),
      ("sum_of_demands", .number demand), ("sum_of_supplies", .number supply)]

def entryJson (entry : FlowEntry Number) : Json :=
  let ends : List (Text × Json) :=
    match entry.ends with
    | some (tail, head) => [("tail", .text tail), ("head", .text head)]
    | none => []
  .object (("id", .ofInt entry.edge) :: ("flow", .number entry.flow) :: ends)

/-- The summary as an object. -/
def json (summary : Summary Number) : Json :=
  let rest : List (Text × Json) := [
    ("augmentations", .ofInt summary.augmentations),
    ("min_cut", .list (summary.minCut.map .text)),
    ("flows", .list (summary.flows.map entryJson))]
  .object (("max_flow_value", .number summary.value) :: (kindFields summary.kind ++ rest))

/-- The text in which a summary is saved. -/
def saved (summary : Summary Number) : Except (Fault Number) String :=
  if summary.json.isWritable then .ok summary.json.lines else throw .longNumber

end Summary
end NetworkFlow
