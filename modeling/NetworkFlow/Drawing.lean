import NetworkFlow.DrawnGraph
import NetworkFlow.Summary

namespace NetworkFlow

/-- A drawing call is one thing that is put on the canvas. -/
inductive DrawingCall where
  | canvas (size : List Number)
  | layout (name : String)
  | nodes (names : List Text) (color label : String) (size : Number)
  | edges (pairs : List (Text × Text)) (color : String) (widths : Option (List Number))
      (opacity : Option Number) (label : Option String)
  | nodeLabels (labels : Option (List (Text × Text))) (fontSize : Number)
  | edgeLabels (labels : List ((Text × Text) × String)) (fontSize : Number)
  | title (text : Text)
  | legend (fontSize : Number)
  | hideAxes
  | tighten

/-- A canvas may be missing, and some of its layouts may fail. -/
structure Canvas where
  available : Bool
  failing : List String

/-- The choices for a drawing. -/
structure DrawingStyle where
  layout : Text
  size : List Number
  nodeSize : Number
  fontSize : Number
  title : Option Text

/-- A sketch is what was drawn and announced so far. -/
structure Sketch where
  calls : List DrawingCall
  events : List (Event Number)

/-- A drawing step that fails leaves the sketch as it is then. -/
abbrev Drawing := ExceptT (Fault Number) (StateM Sketch)

namespace Drawing

def draw (call : DrawingCall) : Drawing Unit :=
  modify fun sketch => { sketch with calls := sketch.calls ++ [call] }

def announce (event : Event Number) : Drawing Unit :=
  modify fun sketch => { sketch with events := sketch.events ++ [event] }

def layouts : List String := ["spring", "circular", "kamada_kawai", "planar"]

/-- An unknown layout and a failing layout are replaced by the first one. -/
def arrange (canvas : Canvas) (layout : Text) : Drawing Unit := do
  let known := layouts.find? fun known => Text.ofString known = layout
  if known.isNone then announce (.unknownLayout layout)
  let layout := known.getD "spring"
  draw (.layout layout)
  if canvas.failing.contains layout then
    announce (.failedLayout layout)
    draw (.layout "spring")
    if canvas.failing.contains "spring" then throw (.layoutFailed "spring")

def drawGroups (groups : List (List Text × String × String)) (size : Number) :
    Drawing Unit :=
  for (names, color, label) in groups do
    if !names.isEmpty then draw (.nodes names color label size)

def checked {β : Type} (result : Except Overflow β) : Except (Fault Number) β :=
  result.mapError .overflow

/-- The text of a number with six significant digits. -/
def general (value : Number) : Except (Fault Number) String :=
  checked (value.toBinary.map Binary64.general)

def finish (style : DrawingStyle) (title : Text) : Drawing Unit := do
  let chosen := match style.title with
    | some chosen => if chosen.isEmpty then title else chosen
    | none => title
  draw (.title chosen)
  draw (.legend style.fontSize)
  draw .hideAxes
  draw .tighten

/-- The labels of edges are two points smaller than those of nodes. -/
def drawEdgeLabels (style : DrawingStyle) (labels : List ((Text × Text) × String)) :
    Drawing Unit := do
  let size ← checked (style.fontSize.sub (.int 2))
  draw (.edgeLabels labels size)

def isZero (value : Number) : Bool :=
  value.same (.int 0)

/-- A vertex with a demand shows it with its sign below its name. -/
def nodeLabel (name : Text) : Number → Text × Text
  | .real demand =>
    if demand.sameInt 0 then (name, name) else (name, name ++ "\n(" ++ demand.generalSigned ++ ")")
  | _ => (name, name)

def boundsLabel (edge : DrawnEdge Number) : Except (Fault Number) String := do
  let lower ← general edge.lower
  let upper ← general edge.upper
  return s!"[{lower}, {upper}]"

def flowLabel (edge : DrawnEdge Number) : Except (Fault Number) String := do
  let flow ← general edge.flow
  let upper ← general edge.upper
  return s!"{flow}/{upper}"

def names (network : Network Number) (labels : Option (List Text)) : List Text :=
  (List.range network.vertexCount).map (vertexName labels)

/-- This function draws a network with its demands and bounds. -/
def network (canvas : Canvas) (network : Network Number) (labels : Option (List Text))
    (demands : Option (Demands Number)) (style : DrawingStyle) (showBounds : Bool) :
    Drawing Unit := do
  if !canvas.available then throw .noDrawing
  let graph ← DrawnGraph.ofNetwork network labels none
  let vector ← match demands with
    | some demands => demands.vector network.vertexCount
    | none => pure (List.replicate network.vertexCount (.real .zero))
  draw (.canvas style.size)
  arrange canvas style.layout
  let named := (names network labels).zip vector
  let group (test : Number → Bool) := (named.filter fun entry => test entry.2).map Prod.fst
  drawGroups [
    (group Quantity.isNegative, "lightgreen", "Supply"),
    (group Quantity.isPositive, "lightcoral", "Demand"),
    (group isZero, "lightblue", "Transshipment")] style.nodeSize
  draw (.edges (graph.edgeList.map Prod.fst) "gray" none none none)
  let nodeLabels : Table Text Text :=
    .ofList (named.map fun (name, demand) => nodeLabel name demand)
  draw (.nodeLabels (some nodeLabels.entries) style.fontSize)
  if showBounds then
    let texts ← graph.edgeList.mapM fun (key, edge) => do return (key, ← boundsLabel edge)
    drawEdgeLabels style texts
  finish style "Network Structure"

/-- The largest magnitude of the drawn flows. It is one when nothing is drawn. -/
def largest (edges : List ((Text × Text) × DrawnEdge Number)) : Number :=
  match edges.map fun entry => entry.2.flow.magnitude with
  | [] => .real (.ofInt 1)
  | first :: rest =>
    rest.foldl (fun largest flow => if largest.less flow then flow else largest) first

/-- The width of an edge grows from one to six with its share of the largest flow. -/
def width (largest flow : Number) : Except Overflow Number := do
  let one := Number.real (.ofInt 1)
  if (Number.int 0).less largest then
    one.add (← (Number.real (.ofInt 5)).mul (← flow.magnitude.div largest))
  else return one

/-- The edges that cross the cut and the other edges, in their order. -/
def splitEdges {β : Type} (highlight : Bool) (cutSide : List Text)
    (edges : List ((Text × Text) × β)) :
    List ((Text × Text) × β) × List ((Text × Text) × β) :=
  edges.partition fun ((tail, head), _) =>
    highlight && cutSide.contains tail && !cutSide.contains head

def drawFlowEdges (edges : List ((Text × Text) × Number)) (color : String)
    (opacityTenths : Nat) (label : Option String) : Drawing Unit := do
  if !edges.isEmpty then
    let opacity := Number.real (.ofDecimal false opacityTenths (-1))
    draw (.edges (edges.map Prod.fst) color (some (edges.map Prod.snd)) (some opacity) label)

/-- The names of the vertices in the cut. -/
def cutNames (network : Network Number) (labels : Option (List Text)) (cut : List Int) :
    Except (Fault Number) (List Text) :=
  (cut.filter fun (vertex : Int) => vertex < network.vertexCount).mapM (nameAt labels)

/-- This function draws a solution with the vertices and the edges of its cut. -/
def flows (canvas : Canvas) (network : Network Number) (solution : Solution Number)
    (labels : Option (List Text)) (style : DrawingStyle) (highlight showZero : Bool) :
    Drawing Unit := do
  if !canvas.available then throw .noDrawing
  let merged ← DrawnGraph.ofNetwork network labels (some solution.flows)
  let graph := if showZero then merged else merged.keepEdges fun edge => !isZero edge.flow
  draw (.canvas style.size)
  arrange canvas style.layout
  let names := names network labels
  let cutSide ← cutNames network labels solution.minCut
  let groups :=
    if highlight then
      [(names.filter cutSide.contains, "lightgreen", "Source side"),
        (names.filter fun name => !cutSide.contains name, "lightblue", "Sink side")]
    else [(names, "lightblue", "Vertices")]
  drawGroups groups style.nodeSize
  let largest := largest graph.edgeList
  let widths ← graph.edgeList.mapM fun (key, edge) => do
    return (key, ← checked (width largest edge.flow))
  let (cutEdges, otherEdges) := splitEdges highlight cutSide widths
  drawFlowEdges otherEdges "gray" 6 none
  drawFlowEdges cutEdges "red" 8 (some "Min-cut edges")
  draw (.nodeLabels none style.fontSize)
  let texts ← graph.edgeList.mapM fun (key, edge) => do return (key, ← flowLabel edge)
  drawEdgeLabels style texts
  let value ← general solution.value
  finish style s!"Flow Solution (value {value})"

/-- The sketch that a drawing leaves, and the fault that ended it. -/
def sketch (drawing : Drawing Unit) : Except (Fault Number) Unit × Sketch :=
  (ExceptT.run drawing).run ⟨[], []⟩

end Drawing
end NetworkFlow
