import NetworkFlow.Drawing
import NetworkFlow.Cut
import NetworkFlow.Description
import NetworkFlow.FlowPath
import NetworkFlow.Pool
import NetworkFlow.Solving
import NetworkFlow.Validation

namespace NetworkFlow

/-- The networks are in a pool, and a name stands for the number of one.
A finder and a problem keep the network they were made with when its name is bound anew. -/
structure Workspace where
  pool : Pool Number
  names : Table Text Nat
  finder : Option (Nat × Finder Number)
  solution : Option (Solution Number)
  problem : Option (Nat × Query Number)
  events : List (Event Number)
  reports : Option (List (Report Number))

/-- An action on a workspace gives a value or a fault.
One that fails keeps what it changed before it failed. -/
abbrev Action := ExceptT (Fault Number) (StateM Workspace)

/-- The parts of a load that can be assigned. -/
inductive LoadField where
  | capacity
  | lower
  | flow
  | offset

def LoadField.assign (field : LoadField) (value : Number) (load : Load Number) : Load Number :=
  match field with
  | .capacity => { load with capacity := value }
  | .lower => { load with lower := value }
  | .flow => { load with flow := value }
  | .offset => { load with offset := value }

/-- The problem whose labels name the vertices of a solution. -/
inductive Labelling where
  | problem
  | plain
  | labels (network : Text) (labels : List Text)

namespace Workspace

def empty : Workspace := ⟨.empty, .empty, none, none, none, [], none⟩

/-- The workspace without the events and the reports of earlier actions. -/
def quiet (workspace : Workspace) : Workspace :=
  { workspace with events := [], reports := none }

/-- The number of the network with a name. -/
def number (name : Text) : Action Nat := do
  match (← get).names.find? name with
  | some number => return number
  | none => throw (.unknownNetwork name)

/-- An action on the pool changes nothing else. -/
def pooled {β : Type} (action : Pooled Number β) : Action β := do
  let (outcome, pool) := action.perform (← get).pool
  modify fun workspace => { workspace with pool }
  outcome

def networkAt (number : Nat) : Action (Network Number) :=
  pooled (Pool.networkAt number)

def network (name : Text) : Action (Network Number) := do
  networkAt (← number name)

/-- This action lets a name stand for a network that is there already. -/
def bindTo (name : Text) (number : Nat) : Action Unit :=
  modify fun workspace => { workspace with names := workspace.names.insert name number }

/-- This action binds a name to a new network. -/
def bind (name : Text) (network : Network Number) : Action Nat := do
  let number ← pooled (Pool.addNetwork network)
  bindTo name number
  return number

def announce (events : List (Event Number)) : Action Unit :=
  modify fun workspace => { workspace with events := workspace.events ++ events }

/-- The reports are kept only when they were asked for. -/
def keepReports (asked : Bool) (reports : List (Report Number)) : Action Unit := do
  if asked then modify fun workspace => { workspace with reports := some reports }

def keepSolution (solution : Solution Number) : Action Unit :=
  modify fun workspace => { workspace with solution := some solution }

def lastSolution : Action (Solution Number) := do
  match (← get).solution with
  | some solution => return solution
  | none => throw .noResult

/-! ## Networks and edges -/

def create (name : Text) (vertexCount : Int) : Action (Network Number) := do
  let number ← pooled (Pool.create vertexCount)
  bindTo name number
  networkAt number

def addVertex (name : Text) : Action Nat := do
  let number ← number name
  let vertex := (← networkAt number).vertexCount
  pooled (Pool.addVertex number)
  return vertex

/-- The reference of the edge at a position. -/
def reference (name : Text) (position : Int) : Action Nat := do
  pooled (Pool.referenceAt (← number name) position)

def edgeOf (reference : Nat) : Action (Edge Number) := do
  return (← pooled (Pool.objectAt reference)).placed

def edge (name : Text) (position : Int) : Action (Edge Number) := do
  edgeOf (← reference name position)

/-- This action adds an edge and gives it back. -/
def addEdge (name : Text) (tail head : Int) (capacity lower : Number) :
    Action (Edge Number) := do
  edgeOf (← pooled (Pool.addEdge (← number name) tail head capacity lower))

/-- This action inserts the edge of a reference and gives it back. -/
def insertReference (number reference : Nat) : Action (Edge Number) := do
  pooled (Pool.insertEdge number reference)
  edgeOf reference

/-- This action inserts a loose edge and gives it back. -/
def insertEdge (name : Text) (edge : LooseEdge Number) : Action (Edge Number) := do
  insertReference (← number name) (← pooled (Pool.addObject edge))

/-- An edge of one network does not enter another one, which is looked up first. -/
def reinsert (name : Text) (position : Int) (into : Text) : Action (Edge Number) := do
  insertReference (← number into) (← reference name position)

def push (name : Text) (position vertex : Int) (amount : Number) : Action (Edge Number) := do
  let reference ← reference name position
  pooled (Pool.push reference vertex amount)
  edgeOf reference

/-- An assignment is not checked. -/
def assign (name : Text) (position : Int) (field : LoadField) (value : Number) :
    Action (Edge Number) := do
  let reference ← reference name position
  let object ← pooled (Pool.objectAt reference)
  pooled (Pool.setObject reference { object with toLoad := field.assign value object.toLoad })
  edgeOf reference

def resetFlows (name : Text) : Action Unit := do
  pooled (Pool.resetFlows (← number name))

def copy (name second : Text) : Action (Network Number) := do
  let clone ← pooled (Pool.copy (← number name))
  bindTo second clone
  networkAt clone

/-! ## Search -/

def createFinder (name : Text) (tolerance : Number) : Action Unit := do
  let number ← number name
  let finder := Finder.create (← networkAt number) tolerance
  modify fun workspace => { workspace with finder := some (number, finder) }

/-- The finder with its network. -/
def lastFinder : Action (Nat × Finder Number × Network Number) := do
  match (← get).finder with
  | some (number, finder) => return (number, finder, ← networkAt number)
  | none => throw .noFinder

def search (source sink : Int) : Action (Bool × SearchTree) := do
  let (number, finder, network) ← lastFinder
  let (found, finder) := finder.search network source sink
  modify fun workspace => { workspace with finder := some (number, finder) }
  return (← found, finder.tree)

/-! ## Solvers -/

/-- The watch that was asked for. -/
def watching (watch : Option (Watch Number)) : Watch Number :=
  watch.getD .idle

/-- This action keeps what a maximum flow leaves behind. -/
def keepMaxFlow (source sink : Int) (watch : Option (Watch Number))
    (solve : MaxFlow.Solve Number) : Action (MaxFlow.Result Number) := do
  announce (solve.events source sink)
  keepReports watch.isSome (solve.reports (watching watch))
  let result ← solve.outcome
  keepSolution (.maxFlow result)
  return result

def maxFlow (name : Text) (source sink : Int) (options : Options Number)
    (watch : Option (Watch Number)) : Action (MaxFlow.Result Number) := do
  let solve ← pooled (Pool.runMaxFlow (← number name)
    (MaxFlow.solve · source sink options (watching watch)))
  keepMaxFlow source sink watch solve

/-- A warm solve is watched once its terminals are accepted,
and leaves its finder in the workspace when it succeeds. -/
def warmMaxFlow (name : Text) (source sink : Int) (options : Options Number)
    (watch : Option (Watch Number)) : Action (MaxFlow.Result Number) := do
  let number ← number name
  let solve ← pooled (Pool.runMaxFlow number
    (MaxFlow.solveWarm · source sink options (watching watch)))
  let watch := if solve.finder.isSome then watch else none
  let result ← keepMaxFlow source sink watch solve
  if let some finder := solve.finder then
    modify fun workspace => { workspace with finder := some (number, finder) }
  return result

/-- The solved network may be bound to a name. -/
def circulation (name : Text) (demands : Demands Number) (options : Options Number)
    (watch : Option (Watch Number)) (target : Option Text) :
    Action (Circulation.Result Number) := do
  let solve := Circulation.solve (← network name) demands options (watching watch)
  announce solve.events
  keepReports watch.isSome solve.reports
  let result ← solve.outcome
  if let (some target, some solved) := (target, result.network) then
    let _ ← bind target solved
  keepSolution (.circulation result)
  return result

def reduce (name : Text) (demands : Demands Number) (tolerance : Number) :
    Action (Reduction Number) := do
  let reduction ← pooled
    (Pool.reduceLowerBounds (← number name) demands.sequence tolerance)
  announce reduction.events
  return reduction

def buildCirculation (name : Text) (demands : Demands Number) (tolerance : Number) :
    Action (Wiring Number) := do
  pooled (Pool.buildCirculation (← number name) demands tolerance)

def matching (left right : Int) (pairs : List (Int × Int)) (options : Options Number) :
    Action (Matching Number) := do
  let solve := Matching.solve left right pairs options
  announce solve.events
  let matching ← solve.outcome
  keepSolution (.maxFlow matching.flow)
  return matching

def matchingNetwork (name : Text) (left right : Int) (pairs : List (Int × Int)) :
    Action (MatchingNetwork Number) := do
  let matching ← (MatchingNetwork.build left right pairs :
    Except (Fault Number) (MatchingNetwork Number))
  let _ ← bind name matching.network
  return matching

/-! ## Problems -/

/-- The problem becomes the last one. -/
def keepProblem (number : Nat) (query : Query Number) : Action Unit :=
  modify fun workspace => { workspace with problem := some (number, query) }

/-- The network of a new problem is bound to a name. -/
def adopt (name : Text) (problem : Problem Number) : Action (Problem Number) := do
  let number ← bind name problem.network
  keepProblem number problem.toQuery
  return problem

/-- A query may be asked about a network that is there already, which takes a second name. -/
def pose (name second : Text) (query : Query Number) : Action (Problem Number) := do
  let number ← number name
  bindTo second number
  keepProblem number query
  return { query with network := ← networkAt number }

/-- The last query with its network. -/
def lastProblem : Action (Nat × Query Number × Network Number) := do
  match (← get).problem with
  | some (number, query) => return (number, query, ← networkAt number)
  | none => throw .noProblem

def solveProblem (options : Options Number) (watch : Option (Watch Number)) :
    Action (Solution Number) := do
  let (number, query, _) ← lastProblem
  let solve ← pooled (Pool.revise number fun network =>
    let solve := query.solve network options (watching watch)
    (solve.network, .ok solve))
  announce solve.events
  keepReports watch.isSome solve.reports
  let solution ← solve.outcome
  keepSolution solution
  return solution

/-- The labels and the network that name the vertices. -/
def labelsOf : Labelling → Action (Option (List Text × Network Number))
  | .plain => return none
  | .labels name labels => return some (labels, ← network name)
  | .problem => do
    match (← get).problem with
    | none => return none
    | some (number, query) => return some (query.labels, ← networkAt number)

def summary (labelling : Labelling) : Action (Summary Number) := do
  let solution ← lastSolution
  Summary.ofSolution solution (← labelsOf labelling)

/-! ## Drawings -/

/-- This action draws and gives back the sketch, also when the drawing failed. -/
def sketch (drawing : Drawing Unit) : Action (Except (Fault Number) Unit × Sketch) := do
  let (outcome, sketch) := drawing.sketch
  announce sketch.events
  return (outcome, sketch)

end Workspace
end NetworkFlow
