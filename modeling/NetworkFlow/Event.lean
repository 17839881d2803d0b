import NetworkFlow.Json.Basic
import NetworkFlow.MaxFlow
import NetworkFlow.Message

namespace NetworkFlow

/-- An event has a level of importance. -/
inductive Level where
  | debug
  | info
  | warning
  deriving DecidableEq

namespace Level

def name : Level → String
  | .debug => "DEBUG"
  | .info => "INFO"
  | .warning => "WARNING"

def rank : Level → Nat
  | .debug => 0
  | .info => 1
  | .warning => 2

end Level

inductive Event (α : Type) where
  | started (vertices edges : Nat) (source sink : Int)
  | augmented (vertices : List Nat) (bottleneck : α) (augmentation : Nat) (total : α)
  | finished (value : α) (augmentations cutSize : Nat)
  | unbalancedBefore (demand supply : α)
  | folded (edges : Nat) (demand supply : α)
  | unbalancedAfter (demand supply : α)
  | wired (supplyVertices demandVertices : Nat) (demand : α)
  | infeasible (value demand : α)
  | unknownLayout (layout : Text)
  | failedLayout (layout : String)

namespace Event

/-- The part of the program that announces an event. -/
def component {α : Type} : Event α → String
  | .started .. | .augmented .. | .finished .. => "flow_solver.maxflow"
  | .unbalancedBefore .. | .folded .. | .unbalancedAfter .. => "flow_solver.reduction"
  | .wired .. | .infeasible .. => "flow_solver.circulation"
  | .unknownLayout .. | .failedLayout .. => "flow_solver.visualization"

def level {α : Type} : Event α → Level
  | .augmented .. => .debug
  | .unknownLayout .. | .failedLayout .. => .warning
  | _ => .info

private def verticesText (vertices : List Nat) : String :=
  "[" ++ ", ".intercalate (vertices.map toString) ++ "]"

def message : Event Number → Text
  | .started .. => "Starting max-flow solve"
  | .augmented vertices bottleneck _ _ =>
    s!"Augmenting path {verticesText vertices} bottleneck={bottleneck.text}"
  | .finished value augmentations _ =>
    s!"Max-flow solve finished: value={value.text} after {augmentations} augmentations"
  | .unbalancedBefore .. => "Supply and demand are unbalanced before lower-bound reduction"
  | .folded edges _ _ => s!"Folded lower bounds of {edges} edges into vertex demands"
  | .unbalancedAfter .. => "Supply and demand are unbalanced after lower-bound reduction"
  | .wired .. => "Built circulation network"
  | .infeasible value demand =>
    s!"Circulation infeasible: flow {value.text} cannot meet demand {demand.text}"
  | .unknownLayout layout => "Unknown layout '" ++ layout ++ "', using 'spring'"
  | .failedLayout layout =>
    s!"Layout '{layout}' failed: {layoutFailure layout}, using 'spring'"

/-- The named values that come with an event. -/
def details : Event Number → List (Text × Json)
  | .started vertices edges source sink =>
    [("vertices", .ofNat vertices), ("edges", .ofNat edges), ("source", .ofInt source),
      ("sink", .ofInt sink)]
  | .augmented _ _ augmentation total =>
    [("augmentation", .ofNat augmentation), ("total_flow", .number total)]
  | .finished value augmentations cutSize =>
    [("max_flow_value", .number value), ("augmentations", .ofNat augmentations),
      ("min_cut_size", .ofNat cutSize)]
  | .unbalancedBefore demand supply | .unbalancedAfter demand supply =>
    [("sum_of_demands", .number demand), ("sum_of_supplies", .number supply)]
  | .folded edges demand supply =>
    [("reduced_edges", .ofNat edges), ("sum_of_demands", .number demand),
      ("sum_of_supplies", .number supply)]
  | .wired supplyVertices demandVertices demand =>
    [("supply_vertices", .ofNat supplyVertices), ("demand_vertices", .ofNat demandVertices),
      ("total_demand", .number demand)]
  | .infeasible value demand =>
    [("max_flow_value", .number value), ("sum_of_demands", .number demand)]
  | .unknownLayout _ | .failedLayout _ => []

end Event

variable {α : Type} [Quantity α]

/-- A run announces its start, each augmentation, and its end unless it failed. -/
def MaxFlow.Run.events (run : MaxFlow.Run α) (source sink : Nat) : List (Event α) :=
  let start := .started run.network.vertexCount run.network.edgeCount source sink
  let middle := (run.augmentations.zipIdx 1).map fun (augmentation, number) =>
    .augmented (augmentation.vertices sink) augmentation.bottleneck number augmentation.total
  let finish :=
    if run.fault.isSome then []
    else
      [.finished run.total run.augmentations.length run.finder.reachable.length]
  start :: middle ++ finish

/-- The events of the run, when there was one. -/
def MaxFlow.Solve.events (solve : MaxFlow.Solve α) (source sink : Int) : List (Event α) :=
  (solve.run.map (·.events source.toNat sink.toNat)).getD []

end NetworkFlow
