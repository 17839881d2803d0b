import NetworkFlow.DrawnGraph
import NetworkFlow.Proofs.Arithmetic.ExactQuantity

namespace NetworkFlow

open Quantity

namespace DrawnGraph

variable {α : Type}

/-- The names of the two ends of an edge. -/
def ends (labels : Option (List Text)) (edge : Edge α) : Text × Text :=
  (vertexName labels edge.tail, vertexName labels edge.head)

/-- The bundle of the edges between two names, in their order. -/
def bundle (labels : Option (List Text)) (edges : List (Edge α)) (key : Text × Text) :
    List (Edge α) :=
  edges.filter fun edge => ends labels edge = key

theorem mem_bundle {labels : Option (List Text)} {edges : List (Edge α)} {key : Text × Text}
    {edge : Edge α} : edge ∈ bundle labels edges key ↔ edge ∈ edges ∧ ends labels edge = key := by
  rw [bundle, List.mem_filter, decide_eq_true_iff]

/-- A bundle of a network has edges of it only. -/
theorem mem_of_bundle {network : Network α} {labels : Option (List Text)} {key : Text × Text}
    {edge : Edge α} (member : edge ∈ bundle labels network.edges.toList key) :
    edge ∈ network.edges :=
  Array.mem_toList_iff.mp (mem_bundle.mp member).1

theorem bundle_snoc_same (labels : Option (List Text)) (edges : List (Edge α)) (edge : Edge α) :
    bundle labels (edges ++ [edge]) (ends labels edge) =
      bundle labels edges (ends labels edge) ++ [edge] := by
  simp [bundle]

theorem bundle_snoc_other {labels : Option (List Text)} {edge : Edge α} {key : Text × Text}
    (differ : key ≠ ends labels edge) (edges : List (Edge α)) :
    bundle labels (edges ++ [edge]) key = bundle labels edges key := by
  simp [bundle, Ne.symm differ]

variable [Quantity α]

/-- The sum of an amount over edges, from the left. The first amount is taken as it is. -/
def sumOver (amount : Edge α → Except (Fault α) α) : List (Edge α) → Except (Fault α) α
  | [] => .ok zero
  | first :: rest => do
    let start ← amount first
    rest.foldlM (fun sum edge => do add sum (← amount edge)) start

theorem sumOver_singleton (amount : Edge α → Except (Fault α) α) (edge : Edge α) :
    sumOver amount [edge] = amount edge := by
  rw [sumOver]
  simp only [List.foldlM_nil, bind_pure]

/-- One more edge adds its amount to a sum. -/
theorem sumOver_snoc {edges : List (Edge α)} (nonempty : edges ≠ [])
    (amount : Edge α → Except (Fault α) α) (edge : Edge α) :
    sumOver amount (edges ++ [edge]) =
      (do let known ← sumOver amount edges; let more ← amount edge; add known more) := by
  cases edges with
  | nil => exact absurd rfl nonempty
  | cons first rest => simp [sumOver, List.foldlM_append]

/-- A drawn edge stands for edges when it lists them and has the sums of what is drawn of them. -/
structure StandsFor (flows : Option (Table Int α)) (edges : List (Edge α))
    (drawn : DrawnEdge α) : Prop where
  ids : drawn.ids = edges.map Edge.index
  upper : sumOver (fun edge => edge.upper) edges = .ok drawn.upper
  lower : sumOver (fun edge => edge.fullLower) edges = .ok drawn.lower
  flow : sumOver (drawnFlow flows) edges = .ok drawn.flow

/-- Between two names there is an edge that stands for the bundle, or nothing when it is empty. -/
def Bundled (flows : Option (Table Int α)) (edges : List (Edge α)) :
    Option (DrawnEdge α) → Prop
  | none => edges = []
  | some drawn => edges ≠ [] ∧ StandsFor flows edges drawn

variable {labels : Option (List Text)} {flows : Option (Table Int α)}

/-- This function enters a drawn edge at the names of an edge. -/
def enter (labels : Option (List Text)) (graph : DrawnGraph α) (edge : Edge α)
    (drawn : DrawnEdge α) : DrawnGraph α :=
  { graph with edges := graph.edges.insert (ends labels edge) drawn }

/-- The first edge of a bundle is drawn with its own bounds and flow. -/
theorem addEdge_first {graph after : DrawnGraph α} {edge : Edge α}
    (absent : graph.edges.find? (ends labels edge) = none) :
    addEdge labels flows graph edge = .ok after ↔
      ∃ drawn, StandsFor flows [edge] drawn ∧ after = enter labels graph edge drawn := by
  rw [ends] at absent
  rw [addEdge, absent]
  constructor
  · intro computed
    obtain ⟨flow, drawnFlows, computed⟩ := ok_of_bind computed
    obtain ⟨upper, uppers, computed⟩ := ok_of_bind computed
    obtain ⟨lower, lowers, computed⟩ := ok_of_bind computed
    refine ⟨⟨upper, lower, flow, [edge.index]⟩, ?_, (Except.ok.inj computed).symm⟩
    exact ⟨rfl, (sumOver_singleton _ _).trans uppers, (sumOver_singleton _ _).trans lowers,
      (sumOver_singleton _ _).trans drawnFlows⟩
  · rintro ⟨drawn, ⟨ids, upper, lower, flow⟩, rfl⟩
    rw [sumOver_singleton] at upper lower flow
    rw [flow, ok_bind, upper, ok_bind, lower, ok_bind]
    change Except.ok (enter labels graph edge ⟨_, _, _, [edge].map Edge.index⟩) = _
    rw [← ids]

/-- A further edge of a bundle is drawn by adding its bounds and flow to the sums. -/
theorem addEdge_further {graph after : DrawnGraph α} {edges : List (Edge α)} {edge : Edge α}
    {known : DrawnEdge α} (present : graph.edges.find? (ends labels edge) = some known)
    (nonempty : edges ≠ []) (stands : StandsFor flows edges known) :
    addEdge labels flows graph edge = .ok after ↔
      ∃ drawn, StandsFor flows (edges ++ [edge]) drawn ∧
        after = enter labels graph edge drawn := by
  rw [ends] at present
  rw [addEdge, present]
  constructor
  · intro computed
    obtain ⟨flow, drawnFlows, computed⟩ := ok_of_bind computed
    obtain ⟨upper, uppers, computed⟩ := ok_of_bind computed
    obtain ⟨lower, lowers, computed⟩ := ok_of_bind computed
    obtain ⟨moreUpper, addedUpper, computed⟩ := ok_of_bind computed
    obtain ⟨moreLower, addedLower, computed⟩ := ok_of_bind computed
    obtain ⟨moreFlow, addedFlow, computed⟩ := ok_of_bind computed
    refine ⟨⟨moreUpper, moreLower, moreFlow, known.ids ++ [edge.index]⟩, ?_,
      (Except.ok.inj computed).symm⟩
    constructor
    case ids => rw [stands.ids, List.map_append, List.map_singleton]
    case upper => rw [sumOver_snoc nonempty, stands.upper, ok_bind, uppers, ok_bind, addedUpper]
    case lower => rw [sumOver_snoc nonempty, stands.lower, ok_bind, lowers, ok_bind, addedLower]
    case flow => rw [sumOver_snoc nonempty, stands.flow, ok_bind, drawnFlows, ok_bind, addedFlow]
  · rintro ⟨drawn, ⟨ids, upper, lower, flow⟩, rfl⟩
    rw [sumOver_snoc nonempty, stands.upper, ok_bind] at upper
    rw [sumOver_snoc nonempty, stands.lower, ok_bind] at lower
    rw [sumOver_snoc nonempty, stands.flow, ok_bind] at flow
    obtain ⟨moreUpper, uppers, addedUpper⟩ := ok_of_bind upper
    obtain ⟨moreLower, lowers, addedLower⟩ := ok_of_bind lower
    obtain ⟨moreFlow, drawnFlows, addedFlow⟩ := ok_of_bind flow
    rw [drawnFlows, ok_bind, uppers, ok_bind, lowers, ok_bind]
    dsimp only
    rw [addedUpper, ok_bind, addedLower, ok_bind, addedFlow, ok_bind]
    rw [List.map_append, List.map_singleton, ← stands.ids] at ids
    change Except.ok (enter labels graph edge ⟨_, _, _, known.ids ++ [edge.index]⟩) = _
    rw [← ids]

/-- One more edge is merged when all sums of its bundle can be computed with it. -/
theorem addEdge_eq_ok {graph after : DrawnGraph α} {edges : List (Edge α)} {edge : Edge α}
    (known : Bundled flows edges (graph.edges.find? (ends labels edge))) :
    addEdge labels flows graph edge = .ok after ↔
      ∃ drawn, StandsFor flows (edges ++ [edge]) drawn ∧
        after = enter labels graph edge drawn := by
  cases found : graph.edges.find? (ends labels edge) with
  | none =>
    rw [found] at known
    obtain rfl := known
    exact addEdge_first found
  | some drawn =>
    rw [found] at known
    exact addEdge_further found known.1 known.2

/-- A graph holds the bundles of some edges when it has the right drawn edge for every key. -/
def Holds (labels : Option (List Text)) (flows : Option (Table Int α)) (edges : List (Edge α))
    (graph : DrawnGraph α) : Prop :=
  ∀ key, Bundled flows (bundle labels edges key) (graph.edges.find? key)

/-- An edge that enters at its names completes its own bundle and no other one. -/
theorem Holds.enter {graph : DrawnGraph α} {edges : List (Edge α)}
    (holds : graph.Holds labels flows edges) {edge : Edge α} {drawn : DrawnEdge α}
    (stands : StandsFor flows (bundle labels edges (ends labels edge) ++ [edge]) drawn) :
    (enter labels graph edge drawn).Holds labels flows (edges ++ [edge]) := by
  intro key
  by_cases same : key = ends labels edge
  · subst same
    rw [bundle_snoc_same, DrawnGraph.enter, Table.find?_insert_same]
    exact ⟨by simp, stands⟩
  · rw [bundle_snoc_other same, DrawnGraph.enter, Table.find?_insert_other _ same]
    exact holds key

/-- The graph before any edge is merged. -/
def bare (network : Network α) (labels : Option (List Text)) : DrawnGraph α :=
  ⟨.ofList ((List.range network.vertexCount).map fun vertex =>
    (vertexName labels vertex, vertex)), .empty⟩

theorem holds_bare (network : Network α) : (bare network labels).Holds labels flows [] :=
  fun _ => rfl

/-- A merged network has the nodes of its vertices and holds the bundles of its edges. -/
theorem holds_of_ofNetwork {network : Network α} {graph : DrawnGraph α}
    (computed : ofNetwork network labels flows = .ok graph) :
    graph.nodes = (bare network labels).nodes ∧
      graph.Holds labels flows network.edges.toList := by
  rw [ofNetwork, ← Array.foldlM_toList] at computed
  refine foldlM_induction (fun done graph => graph.nodes = (bare network labels).nodes ∧
    graph.Holds labels flows done) ⟨rfl, holds_bare network⟩ ?_ computed
  intro done edge before after ⟨nodes, holds⟩ added
  obtain ⟨drawn, stands, rfl⟩ := (addEdge_eq_ok (holds _)).mp added
  exact ⟨nodes, holds.enter stands⟩

/-- What is drawn of edges can be summed when no sum of it overflows. -/
structure Summable (flows : Option (Table Int α)) (edges : List (Edge α)) : Prop where
  upper : ∃ upper, sumOver (fun edge => edge.upper) edges = .ok upper
  lower : ∃ lower, sumOver (fun edge => edge.fullLower) edges = .ok lower
  flow : ∃ flow, sumOver (drawnFlow flows) edges = .ok flow

theorem Bundled.summable {edges : List (Edge α)} {found : Option (DrawnEdge α)}
    (bundled : Bundled flows edges found) : Summable flows edges := by
  cases found with
  | none =>
    obtain rfl := bundled
    exact ⟨⟨_, rfl⟩, ⟨_, rfl⟩, ⟨_, rfl⟩⟩
  | some drawn => exact ⟨⟨_, bundled.2.upper⟩, ⟨_, bundled.2.lower⟩, ⟨_, bundled.2.flow⟩⟩

theorem Summable.standsFor {edges : List (Edge α)} (summable : Summable flows edges) :
    ∃ drawn, StandsFor flows edges drawn := by
  obtain ⟨⟨upper, uppers⟩, ⟨lower, lowers⟩, ⟨flow, drawnFlows⟩⟩ := summable
  exact ⟨⟨upper, lower, flow, edges.map Edge.index⟩, rfl, uppers, lowers, drawnFlows⟩

theorem sumOver_of_snoc {amount : Edge α → Except (Fault α) α} {edges : List (Edge α)}
    {edge : Edge α} (computed : ∃ sum, sumOver amount (edges ++ [edge]) = .ok sum) :
    ∃ sum, sumOver amount edges = .ok sum := by
  by_cases nonempty : edges = []
  · exact ⟨zero, by rw [nonempty, sumOver]⟩
  · obtain ⟨sum, computed⟩ := computed
    rw [sumOver_snoc nonempty] at computed
    obtain ⟨known, before, -⟩ := ok_of_bind computed
    exact ⟨known, before⟩

/-- A part of a bundle from the left can be summed when the whole can. -/
theorem Summable.of_snoc {edges : List (Edge α)} {edge : Edge α}
    (summable : Summable flows (edges ++ [edge])) : Summable flows edges :=
  ⟨sumOver_of_snoc summable.upper, sumOver_of_snoc summable.lower, sumOver_of_snoc summable.flow⟩

/-- Edges are merged into a graph that holds no edge yet when all their bundles can be summed. -/
theorem exists_merged {start : DrawnGraph α} (fresh : start.Holds labels flows [])
    {edges : List (Edge α)} (summable : ∀ key, Summable flows (bundle labels edges key)) :
    ∃ graph : DrawnGraph α, edges.foldlM (addEdge labels flows) start = .ok graph ∧
      graph.Holds labels flows edges := by
  induction edges using List.reverseRecOn with
  | nil => exact ⟨start, rfl, fresh⟩
  | append_singleton done edge inductionHypothesis =>
    have whole := summable (ends labels edge)
    rw [bundle_snoc_same] at whole
    obtain ⟨graph, folded, holds⟩ := inductionHypothesis fun key => by
      by_cases same : key = ends labels edge
      · exact same ▸ whole.of_snoc
      · exact bundle_snoc_other same done ▸ summable key
    obtain ⟨drawn, stands⟩ := whole.standsFor
    refine ⟨enter labels graph edge drawn, ?_, holds.enter stands⟩
    rw [List.foldlM_append, folded, ok_bind, List.foldlM_cons,
      (addEdge_eq_ok (holds _)).mpr ⟨drawn, stands, rfl⟩, ok_bind, List.foldlM_nil]
    rfl

/-- A network is merged exactly when every bundle of it can be summed. -/
theorem exists_ofNetwork_iff {network : Network α} :
    (∃ graph, ofNetwork network labels flows = .ok graph) ↔
      ∀ key, Summable flows (bundle labels network.edges.toList key) := by
  constructor
  · rintro ⟨graph, computed⟩ key
    exact ((holds_of_ofNetwork computed).2 key).summable
  · intro summable
    obtain ⟨graph, folded, -⟩ := exists_merged (holds_bare network) summable
    exact ⟨graph, by rw [ofNetwork, ← Array.foldlM_toList]; exact folded⟩

end DrawnGraph
end NetworkFlow
