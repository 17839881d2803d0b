import NetworkFlow.Proofs.MaxFlow.FlowsOnly
import NetworkFlow.Proofs.MaxFlow.Outline
import NetworkFlow.Proofs.Problem.Build
import NetworkFlow.Proofs.Summary.Naming

namespace NetworkFlow

open Quantity Network

namespace Json

/-- The number in a field of an object. -/
def numberIn (value : Json) (name : String) : Except (Fault Number) Number := do
  match ← value.item name with
  | .number found => return found
  | _ => refuse .wrongKind

/-- The integer in a field of an object. -/
def integerIn (value : Json) (name : String) : Except (Fault Number) Int := do
  match ← value.item name with
  | .number (.int found) => return found
  | _ => refuse .wrongKind

/-- The values of the list in a field of an object. -/
def listIn (value : Json) (name : String) : Except (Fault Number) (List Json) := do
  (← value.item name).elements

end Json

/-- The flow on an edge as it is read, with the vertices that are named as its ends. -/
structure ReadFlow where
  edge : Int
  flow : Number
  tail : Nat
  head : Nat

/-- What is read from the summary of a maximum flow. -/
structure Reading where
  value : Number
  source : Nat
  sink : Nat
  augmentations : Int
  minCut : List Nat
  flows : List ReadFlow

namespace Query

/-- The vertex that a value names. -/
def vertexNamed (query : Query Number) : Json → Except (Fault Number) Nat
  | .text label => query.indexOf label
  | _ => Json.refuse .wrongKind

/-- The vertex that a field of an object names. -/
def vertexIn (query : Query Number) (value : Json) (name : String) :
    Except (Fault Number) Nat := do
  query.vertexNamed (← value.item name)

def readFlow (query : Query Number) (entry : Json) : Except (Fault Number) ReadFlow := do
  let edge ← entry.integerIn "id"
  let flow ← entry.numberIn "flow"
  let tail ← query.vertexIn entry "tail"
  let head ← query.vertexIn entry "head"
  return ⟨edge, flow, tail, head⟩

/-- This function reads the object of a summary with the labels of a query. -/
def readBack (query : Query Number) (summary : Json) : Except (Fault Number) Reading := do
  let value ← summary.numberIn "max_flow_value"
  let source ← query.vertexIn summary "source"
  let sink ← query.vertexIn summary "sink"
  let augmentations ← summary.integerIn "augmentations"
  let minCut ← (← summary.listIn "min_cut").mapM query.vertexNamed
  let flows ← (← summary.listIn "flows").mapM query.readFlow
  return { value, source, sink, augmentations, minCut, flows }

/-- A query has a maximum flow as an answer when a solve gives it, with fuel of its own or any
other. -/
def Answers {α : Type} [Quantity α] (query : Query α) (network : Network α) (options : Options α)
    (watch : Watch α) (result : MaxFlow.Result α) : Prop :=
  (query.solve network options watch).outcome = .ok (.maxFlow result) ∨
  ∃ fuel source sink, query.source = some source ∧ query.sink = some sink ∧
    (MaxFlow.solveWithin fuel network.resetFlows source sink options watch).outcome = .ok result

end Query

/-- A reading recovers a result when it has the terminals and the cut of the result, the cut in
increasing order, and one flow for each edge in the order of the edges,
with the ends of the edge. -/
structure Reading.Recovers (reading : Reading) (result : MaxFlow.Result Number)
    (network : Network Number) : Prop where
  value : reading.value = result.value
  source : (reading.source : Int) = result.source
  sink : (reading.sink : Int) = result.sink
  augmentations : reading.augmentations = result.augmentations
  minCut : reading.minCut.map Int.ofNat = result.minCut
  increasing : reading.minCut.Pairwise (· < ·)
  edges : reading.flows.map ReadFlow.edge = (List.range network.edgeCount).map Int.ofNat
  flows : ∀ read ∈ reading.flows, ∃ edge ∈ network.edges, read.edge = edge.index ∧
    result.flows.find? read.edge = some read.flow ∧ read.tail = edge.tail ∧ read.head = edge.head

namespace Query

variable {query : Query Number}

/-- A solve of a query changes flows only. -/
theorem resetFlows_solve {α : Type} [Quantity α] (query : Query α) (network : Network α)
    (options : Options α) (watch : Watch α) :
    (query.solve network options watch).network.resetFlows = network.resetFlows := by
  unfold solve
  split
  · exact MaxFlow.resetFlows_solve _ _ _ _ _
  · rfl

/-- An answer comes from a search with some fuel for paths from the source to the sink. -/
theorem Answers.solveWithin {α : Type} [Quantity α] {query : Query α} {network : Network α}
    {options : Options α} {watch : Watch α} {result : MaxFlow.Result α}
    (answers : query.Answers network options watch result) :
    ∃ fuel source sink,
      (MaxFlow.solveWithin fuel network.resetFlows source sink options watch).outcome =
        .ok result := by
  rcases answers with solved | ⟨fuel, source, sink, -, -, solved⟩
  · obtain ⟨source, sink, -, -, outcome⟩ := maxFlow_of_solve solved
    exact ⟨_, source, sink, MaxFlow.solveWithin_of_solve outcome⟩
  · exact ⟨fuel, source, sink, solved⟩

/-- Different labels lead back to the vertices that they name. -/
theorem vertexNamed_vertexName (distinct : query.labels.Nodup) {vertex : Nat}
    (inside : vertex < query.labels.length) :
    query.vertexNamed (.text (vertexName (some query.labels) vertex)) = .ok vertex := by
  rw [vertexNamed, Summary.vertexName_of_lt inside, indexOf,
    Problem.idxOf?_getElem distinct inside]

/-- The flow on an edge is read with the ends of the edge. -/
theorem readFlow_entryJson (distinct : query.labels.Nodup) {tail head : Nat}
    (tailInside : tail < query.labels.length) (headInside : head < query.labels.length)
    (edge : Int) (flow : Number) :
    query.readFlow (Summary.entryJson ⟨edge, flow,
      some (vertexName (some query.labels) tail, vertexName (some query.labels) head)⟩) =
      .ok ⟨edge, flow, tail, head⟩ := by
  have tails := vertexNamed_vertexName distinct tailInside
  have heads := vertexNamed_vertexName distinct headInside
  generalize vertexName (some query.labels) tail = tailName at *
  generalize vertexName (some query.labels) head = headName at *
  have known : (Summary.entryJson ⟨edge, flow, some (tailName, headName)⟩).integerIn "id" =
    .ok edge := rfl
  have carried : (Summary.entryJson ⟨edge, flow, some (tailName, headName)⟩).numberIn "flow" =
    .ok flow := rfl
  have first : query.vertexIn (Summary.entryJson ⟨edge, flow, some (tailName, headName)⟩) "tail" =
    query.vertexNamed (.text tailName) := rfl
  have last : query.vertexIn (Summary.entryJson ⟨edge, flow, some (tailName, headName)⟩) "head" =
    query.vertexNamed (.text headName) := rfl
  simp only [readFlow, known, carried, first, last, tails, heads, ok_bind]
  rfl

/-- What is read as the flow on an edge is for the edge that was told. -/
theorem edge_of_readFlow {told : FlowEntry Number} {read : ReadFlow}
    (ok : query.readFlow (Summary.entryJson told) = .ok read) : read.edge = told.edge := by
  obtain ⟨edge, known, ok⟩ := ok_of_bind ok
  obtain ⟨flow, -, ok⟩ := ok_of_bind ok
  obtain ⟨tail, -, ok⟩ := ok_of_bind ok
  obtain ⟨head, -, ok⟩ := ok_of_bind ok
  have same : (Summary.entryJson told).integerIn "id" = .ok told.edge := rfl
  rw [← Except.ok.inj ok]
  exact Except.ok.inj (known.symm.trans same)

/-- The cut is read as the vertices that it lists. -/
theorem mapM_vertexNamed (distinct : query.labels.Nodup) {cut : List Nat}
    (inside : ∀ vertex ∈ cut, vertex < query.labels.length) :
    ((cut.map (vertexName (some query.labels))).map Json.text).mapM query.vertexNamed =
      .ok cut := by
  rw [List.mapM_map, List.mapM_map]
  have named : ∀ vertex ∈ cut, query.vertexNamed
      (.text (vertexName (some query.labels) vertex)) = .ok (id vertex) :=
    fun vertex member => vertexNamed_vertexName distinct (inside vertex member)
  exact (mapM_ok named).trans (congrArg Except.ok (List.map_id cut))

section Flows

variable {network : Network Number} {solution : Solution Number} {flows : Table Int Number}

/-- Flows that have the edges as keys in their order are sorted already. -/
theorem mergeSort_entries {count : Nat}
    (keys : flows.keys = (List.range count).map Int.ofNat) :
    (flows.entries.mergeSort fun first second => first.1 ≤ second.1) = flows.entries := by
  have increasing : flows.keys.Pairwise (· ≤ ·) := by
    rw [keys, List.pairwise_map]
    exact List.pairwise_lt_range.imp fun before => Int.ofNat_le.mpr before.le
  apply List.mergeSort_of_pairwise
  exact (List.pairwise_map.mp increasing).imp fun before => decide_eq_true before

/-- Every entry of such flows is for an edge of the network. -/
theorem exists_edge_of_entry (wellFormed : network.WellFormed)
    (keys : flows.keys = (List.range network.edgeCount).map Int.ofNat) {entry : Int × Number}
    (member : entry ∈ flows.entries) : ∃ edge ∈ network.edges, (edge.index : Int) = entry.1 := by
  have key : entry.1 ∈ flows.keys := List.mem_map_of_mem member
  rw [keys] at key
  obtain ⟨position, inRange, same⟩ := List.mem_map.mp key
  have early : position < network.edges.size := List.mem_range.mp inRange
  refine ⟨network.edges[position], Array.getElem_mem early, ?_⟩
  rw [wellFormed.index position early]
  exact same

/-- The entry for an edge of the network is told with the ends of the edge, and so it is read. -/
theorem exists_readFlow (wellFormed : network.WellFormed)
    (count : network.vertexCount = query.labels.length) (distinct : query.labels.Nodup)
    {entry : Int × Number} (known : ∃ edge ∈ network.edges, (edge.index : Int) = entry.1)
    {told : FlowEntry Number}
    (tells : Summary.flowEntry solution query.labels (some network) entry = .ok told) :
    ∃ edge ∈ network.edges, (edge.index : Int) = entry.1 ∧
      query.readFlow (Summary.entryJson told) = .ok ⟨entry.1, entry.2, edge.tail, edge.head⟩ := by
  rcases Summary.flowEntry_cases solution wellFormed count entry with
    ⟨-, unknown⟩ | ⟨edge, member, index, named⟩
  · obtain ⟨edge, member, index⟩ := known
    exact absurd index (unknown edge member)
  · obtain rfl := Except.ok.inj (named.symm.trans tells)
    exact ⟨edge, member, index, readFlow_entryJson distinct (count ▸ wellFormed.tail edge member)
      (count ▸ wellFormed.head edge member) _ _⟩

/-- Flows with the edges of a network as keys are read back in the order of the edges. -/
theorem exists_mapM_readFlow (wellFormed : network.WellFormed)
    (count : network.vertexCount = query.labels.length) (distinct : query.labels.Nodup)
    (keys : flows.keys = (List.range network.edgeCount).map Int.ofNat)
    {told : List (FlowEntry Number)}
    (tells : (flows.entries.mergeSort fun first second => first.1 ≤ second.1).mapM
      (Summary.flowEntry solution query.labels (some network)) = .ok told) :
    ∃ reads, (told.map Summary.entryJson).mapM query.readFlow = .ok reads ∧
      reads.map ReadFlow.edge = (List.range network.edgeCount).map Int.ofNat ∧
      ∀ read ∈ reads, ∃ edge ∈ network.edges, read.edge = edge.index ∧
        flows.find? read.edge = some read.flow ∧ read.tail = edge.tail ∧
        read.head = edge.head := by
  rw [mergeSort_entries keys] at tells
  have read : ∀ item ∈ told, ∃ entry ∈ flows.entries, ∃ edge ∈ network.edges,
      (edge.index : Int) = entry.1 ∧
      query.readFlow (Summary.entryJson item) = .ok ⟨entry.1, entry.2, edge.tail, edge.head⟩ := by
    intro item member
    obtain ⟨entry, listed, tell⟩ := mapM_member tells member
    exact ⟨entry, listed, exists_readFlow wellFormed count distinct
      (exists_edge_of_entry wellFormed keys listed) tell⟩
  obtain ⟨reads, computed⟩ : ∃ reads,
      (told.mapM fun item => query.readFlow (Summary.entryJson item)) = .ok reads := by
    apply mapM_exists
    intro item member
    obtain ⟨_, _, _, _, _, ok⟩ := read item member
    exact ⟨_, ok⟩
  refine ⟨reads, by rw [List.mapM_map]; exact computed, ?_, ?_⟩
  · have edges : told.map FlowEntry.edge = flows.entries.map Prod.fst := by
      refine map_of_mapM (fun entry item tell => ?_) tells
      rcases Summary.flowEntry_cases solution wellFormed count entry with
        ⟨other, -⟩ | ⟨_, _, _, other⟩
      · rw [← Except.ok.inj (other.symm.trans tell)]
      · rw [← Except.ok.inj (other.symm.trans tell)]
    rw [map_of_mapM (fun item read ok => edge_of_readFlow ok) computed, edges]
    exact keys
  · intro item member
    obtain ⟨source, told, ok⟩ := mapM_member computed member
    obtain ⟨entry, listed, edge, inside, index, other⟩ := read source told
    obtain rfl := Except.ok.inj (other.symm.trans ok)
    exact ⟨edge, inside, index.symm, Table.find?_of_mem listed, rfl, rfl⟩

end Flows

/-- The object of a maximum flow is read field by field. -/
theorem readBack_json (query : Query Number) (value : Number) (source sink : Text)
    (augmentations : Int) (minCut : List Text) (flows : List (FlowEntry Number)) :
    query.readBack (Summary.json ⟨value, .maxFlow source sink, augmentations, minCut, flows⟩) = do
      let first ← query.vertexNamed (.text source)
      let last ← query.vertexNamed (.text sink)
      let cut ← (minCut.map Json.text).mapM query.vertexNamed
      let reads ← (flows.map Summary.entryJson).mapM query.readFlow
      return ⟨value, first, last, augmentations, cut, reads⟩ := rfl

/-- The maximum flow that answers a problem is read back from the object of its summary,
whatever flows were on the network before and whatever flows are on it when it is summarised. -/
theorem readBack_recovers {vertices edges source sink : Json} {problem : Problem Number}
    (built : Problem.build vertices edges source sink = .ok problem)
    {before after : Network Number}
    (flowsOnly : before.resetFlows = problem.network.resetFlows)
    (flowsOnlyToo : after.resetFlows = problem.network.resetFlows)
    {options : Options Number} {watch : Watch Number} {result : MaxFlow.Result Number}
    (answers : problem.Answers before options watch result) :
    ∃ summary reading,
      Summary.ofSolution (.maxFlow result) (some (problem.labels, after)) = .ok summary ∧
      problem.readBack summary.json = .ok reading ∧
      reading.Recovers result problem.network := by
  obtain ⟨_, _, -, -, writes⟩ := Problem.exists_writes_of_build built
  obtain ⟨fuel, _, _, solved⟩ := answers.solveWithin
  have shape := sameShape_of_resetFlows flowsOnly.symm
  have shapeToo := sameShape_of_resetFlows flowsOnlyToo.symm
  have wellFormed := writes.assembled.wellFormed.ofSameShape shapeToo
  have count : after.vertexCount = problem.labels.length :=
    shapeToo.vertexCount.symm.trans writes.vertexCount
  have cleared := shape.trans (sameShape_resetFlows before)
  obtain ⟨first, last, cut, -, -, outlines⟩ :=
    MaxFlow.outlines_of_solveWithin (writes.assembled.wellFormed.ofSameShape cleared) solved
  have labelled : ∀ {vertex}, vertex < before.resetFlows.vertexCount →
      vertex < problem.labels.length := by
    intro vertex inside
    rwa [← writes.vertexCount, cleared.vertexCount]
  have firstInside := labelled outlines.sourceInside
  have lastInside := labelled outlines.sinkInside
  have cutInside := fun vertex member => labelled (outlines.inside vertex member)
  have kinds : Summary.kindOf (.maxFlow result) problem.labels =
      .ok (.maxFlow (vertexName (some problem.labels) first)
        (vertexName (some problem.labels) last)) := by
    simp only [Summary.kindOf, outlines.sourceNamed, outlines.sinkNamed,
      Summary.nameOf_natCast _ firstInside, Summary.nameOf_natCast _ lastInside, ok_bind]
    rfl
  obtain ⟨told, tells, summarised⟩ := Summary.ofSolution_eq wellFormed count kinds
    outlines.minCut outlines.increasing
    fun vertex member => Summary.nameOf_natCast _ (cutInside vertex member)
  have keys : result.flows.keys = (List.range after.edgeCount).map Int.ofNat := by
    rw [outlines.keys, ← cleared.edgeCount, shapeToo.edgeCount]
  obtain ⟨reads, read, edgesRead, flowsRead⟩ :=
    exists_mapM_readFlow wellFormed count writes.distinct keys tells
  refine ⟨_, ⟨result.value, first, last, result.augmentations, cut, reads⟩, summarised, ?_, ?_⟩
  · simp only [Solution.value, Solution.augmentations, readBack_json,
      vertexNamed_vertexName writes.distinct firstInside,
      vertexNamed_vertexName writes.distinct lastInside,
      mapM_vertexNamed writes.distinct cutInside, read, ok_bind]
    rfl
  · constructor
    case value => rfl
    case source => exact outlines.sourceNamed.symm
    case sink => exact outlines.sinkNamed.symm
    case augmentations => rfl
    case minCut => exact outlines.minCut.symm
    case increasing => exact outlines.increasing
    case edges => rw [edgesRead, shapeToo.edgeCount]
    case flows =>
      intro item member
      obtain ⟨edge, inside, index, found, tail, head⟩ := flowsRead item member
      obtain ⟨other, insideToo, place⟩ := shapeToo.exists_place inside
      refine ⟨other, insideToo, ?_, found, ?_, ?_⟩
      · rw [index]
        exact congrArg (fun place => (Place.index place : Int)) place.symm
      · rw [tail]
        exact congrArg Place.tail place.symm
      · rw [head]
        exact congrArg Place.head place.symm

/-- Each id is the numeral of another position. -/
def crossedVertices : Json :=
  .list [Problem.plainVertex (.text "1"), Problem.plainVertex (.ofInt 0),
    Problem.plainVertex (.text "s")]

def crossedEdges : Json :=
  .list [Problem.plainEdge (.text "s") (.text "1") 2, Problem.plainEdge (.text "s") (.ofInt 0) 3,
    Problem.plainEdge (.ofInt 0) (.text "1") 1]

/-- Names that are numerals of other positions are read as what they name. -/
theorem readBack_recovers_crossed :
    ∃ problem result summary reading,
      Problem.build crossedVertices crossedEdges (.text "s") (.ofInt 1) = .ok problem ∧
      (problem.solve problem.network .usual .idle).outcome =
        .ok (.maxFlow result) ∧
      (result.source, result.sink, result.minCut) = (2, 0, [1, 2]) ∧
      Summary.ofSolution (.maxFlow result) (some (problem.labels,
        (problem.solve problem.network .usual .idle).network)) = .ok summary ∧
      problem.readBack summary.json = .ok reading ∧
      reading.Recovers result problem.network := by
  have known : (Problem.answered crossedVertices crossedEdges (.text "s") (.ofInt 1)).map
      (fun answer => match answer.2 with
        | .maxFlow result => some (result.source, result.sink, result.minCut)
        | .circulation _ => none) = some (some (2, 0, [1, 2])) := by decide +kernel
  obtain ⟨⟨problem, solution⟩, answer, known⟩ := Option.map_eq_some_iff.mp known
  obtain ⟨built, solved⟩ := Problem.answered_eq_some answer
  cases solution with
  | circulation result => cases known
  | maxFlow result =>
    obtain ⟨summary, reading, summarised, read, recovers⟩ :=
      readBack_recovers built rfl (resetFlows_solve _ _ _ _) (Or.inl solved)
    exact ⟨problem, result, summary, reading, built, solved, Option.some.inj known, summarised,
      read, recovers⟩

end Query
end NetworkFlow
