import NetworkFlow.Finder
import NetworkFlow.Options
import NetworkFlow.Table

namespace NetworkFlow

open Quantity

namespace Network

variable {α : Type} [Quantity α]

/-- This function pushes an amount along arcs in turn, and stops where a flow cannot be computed. -/
def pushAlong (amount : α) : List Arc → Network α → Network α × Option (Fault α)
  | [], network => (network, none)
  | arc :: rest, network =>
    match network.edges[arc.edge]? with
    | none => (network, some .noPosition)
    | some edge =>
      match edge.push (arc.target = edge.head) amount with
      | .error fault => (network, some fault)
      | .ok load => pushAlong amount rest (network.modifyLoad arc.edge fun _ => load)

/-- The total flow on each edge. -/
def totalFlows (network : Network α) : Except (Fault α) (Table Int α) := do
  let flows ← network.edges.toList.mapM fun edge => do
    return ((edge.index : Int), ← edge.totalFlow)
  return .ofList flows

end Network

namespace MaxFlow

variable {α : Type}

/-- An augmentation knows its path from the last arc to the first. -/
structure Augmentation (α : Type) where
  arcs : List Arc
  bottleneck : α
  total : α

namespace Augmentation

/-- The vertices of the path, from the source to the sink. -/
def vertices (augmentation : Augmentation α) (sink : Nat) : List Nat :=
  (sink :: augmentation.arcs.map Arc.origin).reverse

def report (augmentation : Augmentation α) (number : Nat) : Report α :=
  ⟨number, augmentation.bottleneck, augmentation.total, augmentation.arcs.length⟩

end Augmentation

/-- An attempt finds no path, fails on the way, or augments the flow. -/
inductive Attempt (α : Type) where
  | saturated (finder : Finder α)
  | failed (network : Network α) (finder : Finder α) (fault : Fault α)
  | augmented (network : Network α) (finder : Finder α) (augmentation : Augmentation α)

/-- A run is its augmentations in order and the state in which it ended. -/
structure Run (α : Type) where
  network : Network α
  finder : Finder α
  augmentations : List (Augmentation α)
  fault : Option (Fault α)

/-- The result of a maximum-flow computation. The cut is the side of the source. -/
structure Result (α : Type) where
  value : α
  source : Int
  sink : Int
  minCut : List Int
  flows : Table Int α
  augmentations : Int
  bottlenecks : List α
  paths : List (List Int)

/-- A solve leaves a network behind. It has a finder once its terminals are accepted,
and a run once its interval is accepted. -/
structure Solve (α : Type) where
  network : Network α
  finder : Option (Finder α)
  run : Option (Run α)
  outcome : Except (Fault α) (Result α)

/-- The watch receives the reports whose number is a multiple of its interval. -/
def isReported (watch : Watch α) (number : Nat) : Bool :=
  (number : Int) % watch.interval = 0

/-- The reports that a run gave to its watch. -/
def Run.reports (run : Run α) (watch : Watch α) : List (Report α) :=
  (run.augmentations.zipIdx 1).filterMap fun (augmentation, number) =>
    if isReported watch number then some (augmentation.report number) else none

/-- The reports of the run, when there was one. -/
def Solve.reports (solve : Solve α) (watch : Watch α) : List (Report α) :=
  (solve.run.map (·.reports watch)).getD []

/-- Exact arithmetic needs at most one augmentation for each pair of a vertex and an edge,
and rounding may repeat one a few times. -/
def enoughFuel (network : Network α) : Nat :=
  64 * (network.vertexCount * network.edgeCount) + 64

/-- The source and the sink must be different vertices. -/
def checkTerminals (network : Network α) (source sink : Int) : Except (Fault α) (Nat × Nat) := do
  let sourceVertex ← network.checkVertex "Source" source
  let sinkVertex ← network.checkVertex "Sink" sink
  if source = sink then throw (.structural (.sourceIsSink source))
  return (sourceVertex, sinkVertex)

variable [Quantity α]

/-- The smallest room on a path. -/
def bottleneck (network : Network α) (arcs : List Arc) : Except (Fault α) α := do
  match least? (← arcs.mapM network.room) with
  | some room => return room
  | none => throw .unfinished

/-- This function searches once and pushes along the path that it finds. -/
def attempt (network : Network α) (finder : Finder α) (source sink : Nat) (total : α) :
    Attempt α :=
  match finder.search network source sink with
  | (.error fault, finder) => .failed network finder fault
  | (.ok false, finder) => .saturated finder
  | (.ok true, finder) =>
    let path : Except (Fault α) (List Arc × α) := do
      let arcs ← finder.pathArcs network sink
      return (arcs, ← bottleneck network arcs)
    match path with
    | .error fault => .failed network finder fault
    | .ok (arcs, amount) =>
      match network.pushAlong amount arcs with
      | (network, some fault) => .failed network finder fault
      | (network, none) =>
        match add total amount with
        | .error fault => .failed network finder fault
        | .ok total => .augmented network finder ⟨arcs, amount, total⟩

/-- This loop augments until there is no path, something fails or the watch halts it. -/
def augmentAll (watch : Watch α) (source sink : Nat) :
    Nat → Nat → α → Network α → Finder α → Run α
  | 0, _, _, network, finder => ⟨network, finder, [], some .unfinished⟩
  | fuel + 1, count, total, network, finder =>
    match attempt network finder source sink total with
    | .saturated finder => ⟨network, finder, [], none⟩
    | .failed network finder fault => ⟨network, finder, [], some fault⟩
    | .augmented network finder augmentation =>
      let number := count + 1
      if isReported watch number && watch.halts (augmentation.report number) then
        ⟨network, finder, [augmentation], some (.halted number)⟩
      else
        let rest := augmentAll watch source sink fuel number augmentation.total network finder
        { rest with augmentations := augmentation :: rest.augmentations }

/-- The run from the flows that are already on the edges. -/
def run (network : Network α) (source sink : Nat) (tolerance : α) (watch : Watch α) : Run α :=
  augmentAll watch source sink (enoughFuel network) 0 zero network (.create network tolerance)

/-- The total of the last augmentation is the value of the flow. -/
def Run.total (run : Run α) : α :=
  (run.augmentations.getLast?.map Augmentation.total).getD zero

/-- The result of a run that ended by itself. -/
def Run.result (run : Run α) (source sink : Nat) (recordPaths : Bool) :
    Except (Fault α) (Result α) := do
  if let some fault := run.fault then throw fault
  let flows ← run.network.totalFlows
  let paths := run.augmentations.map fun augmentation =>
    (augmentation.vertices sink).map Int.ofNat
  return {
    value := run.total
    source := source
    sink := sink
    minCut := run.finder.reachable.map Int.ofNat
    flows := flows
    augmentations := run.augmentations.length
    bottlenecks := run.augmentations.map Augmentation.bottleneck
    paths := if recordPaths then paths else [] }

/-- This function runs from a network whose terminals are accepted. -/
def solveFrom (network : Network α) (source sink : Nat) (options : Options α)
    (watch : Watch α) : Solve α :=
  let finder := Finder.create network options.tolerance
  if watch.interval ≤ 0 then
    ⟨network, some finder, none, throw (.configuration (.interval watch.interval))⟩
  else
    let run := run network source sink options.tolerance watch
    ⟨run.network, some run.finder, some run, run.result source sink options.recordPaths⟩

/-- A warm solve keeps the flows that are already on the edges. -/
def solveWarm (network : Network α) (source sink : Int) (options : Options α)
    (watch : Watch α) : Solve α :=
  match checkTerminals network source sink with
  | .error fault => ⟨network, none, none, throw fault⟩
  | .ok (source, sink) => solveFrom network source sink options watch

/-- A solve clears the flows once its terminals are accepted. It refuses lower bounds. -/
def solve (network : Network α) (source sink : Int) (options : Options α)
    (watch : Watch α) : Solve α :=
  if network.hasLowerBounds then ⟨network, none, none, throw (.structural .lowerBounds)⟩
  else
    match checkTerminals network source sink with
    | .error fault => ⟨network, none, none, throw fault⟩
    | .ok (source, sink) => solveFrom network.resetFlows source sink options watch

end MaxFlow
end NetworkFlow
