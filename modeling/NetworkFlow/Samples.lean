import NetworkFlow.Drawing
import NetworkFlow.Solving

namespace NetworkFlow.Samples

/-- The names of the problems, in the order in which they are solved. -/
def names : List String := ["sample_max_flow", "sample_circulation"]

/-- The file of a problem. -/
def problemFile (name : String) : String := name ++ ".json"

/-- The file of a solution. -/
def solutionFile (name : String) : String := name ++ "_solution.json"

/-- A sample is read two levels below the run that solves it, so its values have that much less
room than those of a file of its own. -/
def fileRoom : Nat := Problem.fileRoom - 2

/-- What was printed, saved and announced so far. -/
structure Output where
  printed : Text
  files : List (String × String)
  events : List (Event Number)

/-- A step that fails leaves the output as it is then. -/
abbrev Account := ExceptT (Fault Number) (StateM Output)

def printLine (line : Text) : Account Unit :=
  modify fun output => { output with printed := output.printed ++ line ++ "\n" }

def saveFile (name text : String) : Account Unit :=
  modify fun output => { output with files := output.files ++ [(name, text)] }

def announce (events : List (Event Number)) : Account Unit :=
  modify fun output => { output with events := output.events ++ events }

/-- The lines on a result. The cut is named in the order of the labels. -/
def printResult (labels : List Text) : Solution Number → Account Unit
  | .circulation result => do
    let demand ← Drawing.general result.demand
    let supply ← Drawing.general result.supply
    let feasible := (Number.truth result.feasible).text
    printLine (s!"  feasible={feasible} status=" ++ result.status.name ++
      s!" demand={demand} supply={supply}")
  | .maxFlow result => do
    let side : List Text ← (result.minCut.mapM (labelAt labels) : Except (Fault Number) _)
    printLine ("  min cut source side: " ++ Text.intercalate ", " (side.mergeSort Text.atMost))

/-- The line on an edge. -/
def printEdge (labels : List Text) (flows : Table Int Number) (edge : Edge Number) :
    Account Unit := do
  let tail : Text ← (labelAt labels edge.tail : Except (Fault Number) _)
  let head : Text ← (labelAt labels edge.head : Except (Fault Number) _)
  let flow ← Drawing.general ((flows.find? edge.index).getD (.real .zero))
  let upper ← Drawing.general (← edge.upper)
  printLine ("  " ++ tail ++ " -> " ++ head ++ s!": {flow}/{upper}")

/-- This function solves one problem. -/
def solveSample (name : String) (bytes : Option ByteArray) : Account Unit := do
  let problem ← Problem.load fileRoom bytes
  let solve := problem.toQuery.solve problem.network .usual .idle
  announce solve.events
  let solution ← solve.outcome
  let summary ← Summary.ofSolution solution (some (problem.labels, problem.network))
  saveFile (solutionFile name) (← summary.saved)
  let value ← Drawing.general solution.value
  printLine s!"Solved {problemFile name}: max_flow_value={value}"
  printResult problem.labels solution
  for edge in solve.network.edges do
    printEdge problem.labels solution.flows edge

/-- This function solves the problems in turn until one fails. -/
def run (fileAt : String → Option ByteArray) : Except (Fault Number) Unit × Output :=
  let account : Account Unit := for name in names do solveSample name (fileAt (problemFile name))
  (ExceptT.run account).run ⟨"", [], []⟩

end NetworkFlow.Samples
