import NetworkFlow.Drawing
import NetworkFlow.Network.WellFormed
import NetworkFlow.Proofs.Drawing.Bundle
import NetworkFlow.Proofs.Network.Incidence

namespace NetworkFlow

open Quantity

namespace Network

variable {α : Type}

/-- The edges from one vertex to another, in their order. -/
def between (network : Network α) (tail head : Nat) : List (Edge α) :=
  network.edges.toList.filter fun edge => edge.tail = tail ∧ edge.head = head

theorem mem_between {network : Network α} {tail head : Nat} {edge : Edge α} :
    edge ∈ network.between tail head ↔
      edge ∈ network.edges ∧ edge.tail = tail ∧ edge.head = head := by
  rw [between, List.mem_filter, Array.mem_toList_iff, decide_eq_true_iff]

/-- Some edges of a network, in their order, have increasing indices. -/
theorem WellFormed.filter_increasing {network : Network α} (wellFormed : network.WellFormed)
    (keep : Edge α → Bool) :
    ((network.edges.toList.filter keep).map Edge.index).Pairwise (· < ·) := by
  have increasing : (network.edges.toList.map Edge.index).Pairwise (· < ·) := by
    rw [wellFormed.map_index]
    exact List.pairwise_lt_range
  exact increasing.sublist (List.filter_sublist.map Edge.index)

end Network

namespace Drawing

theorem mem_names {network : Network Number} {labels : Option (List Text)} {name : Text} :
    name ∈ names network labels ↔
      ∃ vertex < network.vertexCount, vertexName labels vertex = name := by
  simp [names]

/-- Different names belong to different vertices. -/
theorem eq_of_vertexName {network : Network Number} {labels : Option (List Text)}
    (distinct : (names network labels).Nodup) {first second : Nat}
    (inside : first < network.vertexCount) (insideToo : second < network.vertexCount)
    (same : vertexName labels first = vertexName labels second) : first = second :=
  List.inj_on_of_nodup_map distinct (List.mem_range.mpr inside) (List.mem_range.mpr insideToo) same

end Drawing

namespace DrawnGraph

variable {network : Network Number} {labels : Option (List Text)}
  {flows : Option (Table Int Number)} {graph : DrawnGraph Number}

theorem ends_mem_names (wellFormed : network.WellFormed) {edge : Edge Number}
    (member : edge ∈ network.edges) : (ends labels edge).1 ∈ Drawing.names network labels ∧
      (ends labels edge).2 ∈ Drawing.names network labels :=
  ⟨Drawing.mem_names.mpr ⟨edge.tail, wellFormed.tail edge member, rfl⟩,
    Drawing.mem_names.mpr ⟨edge.head, wellFormed.head edge member, rfl⟩⟩

/-- The nodes of a merged network are the names of its vertices. -/
theorem mem_nodes (computed : ofNetwork network labels flows = .ok graph) {name : Text} :
    name ∈ graph.nodes.keys ↔ name ∈ Drawing.names network labels := by
  rw [(holds_of_ofNetwork computed).1, bare, Table.mem_keys_ofList, List.map_map]
  rfl

/-- A drawn edge is found by its names, and it stands for the bundle between them. -/
theorem standsFor_of_find? (computed : ofNetwork network labels flows = .ok graph)
    {key : Text × Text} {drawn : DrawnEdge Number} (found : graph.edges.find? key = some drawn) :
    bundle labels network.edges.toList key ≠ [] ∧
      StandsFor flows (bundle labels network.edges.toList key) drawn := by
  have bundled := (holds_of_ofNetwork computed).2 key
  rw [found] at bundled
  exact bundled

/-- The names of each edge of the network are drawn. -/
theorem exists_find?_ends (computed : ofNetwork network labels flows = .ok graph)
    {edge : Edge Number} (member : edge ∈ network.edges) :
    ∃ drawn, graph.edges.find? (ends labels edge) = some drawn := by
  have bundled := (holds_of_ofNetwork computed).2 (ends labels edge)
  cases found : graph.edges.find? (ends labels edge) with
  | some drawn => exact ⟨drawn, rfl⟩
  | none =>
    rw [found] at bundled
    have inside : edge ∈ bundle labels network.edges.toList (ends labels edge) :=
      mem_bundle.mpr ⟨Array.mem_toList_iff.mpr member, rfl⟩
    rw [bundled] at inside
    cases inside

/-- Some edge of the network has the names of a drawn edge. -/
theorem exists_ends (computed : ofNetwork network labels flows = .ok graph)
    {key : Text × Text} {drawn : DrawnEdge Number} (found : graph.edges.find? key = some drawn) :
    ∃ edge ∈ network.edges, ends labels edge = key := by
  obtain ⟨edge, member⟩ := List.exists_mem_of_ne_nil _ (standsFor_of_find? computed found).1
  exact ⟨edge, mem_of_bundle member, (mem_bundle.mp member).2⟩

/-- A drawn edge lists the edges of the network that have its names. -/
theorem mem_ids (computed : ofNetwork network labels flows = .ok graph) {key : Text × Text}
    {drawn : DrawnEdge Number} (found : graph.edges.find? key = some drawn) {id : Nat} :
    id ∈ drawn.ids ↔ ∃ edge ∈ network.edges, ends labels edge = key ∧ edge.index = id := by
  rw [(standsFor_of_find? computed found).2.ids, List.mem_map]
  simp only [mem_bundle, Array.mem_toList_iff, and_assoc]

theorem ids_increasing (wellFormed : network.WellFormed)
    (computed : ofNetwork network labels flows = .ok graph) {key : Text × Text}
    {drawn : DrawnEdge Number} (found : graph.edges.find? key = some drawn) :
    drawn.ids.Pairwise (· < ·) := by
  rw [(standsFor_of_find? computed found).2.ids]
  exact wellFormed.filter_increasing _

/-- Every drawn edge is listed, since it leaves a node. -/
theorem mem_edgeList (wellFormed : network.WellFormed)
    (computed : ofNetwork network labels flows = .ok graph) {key : Text × Text}
    {drawn : DrawnEdge Number} :
    (key, drawn) ∈ graph.edgeList ↔ graph.edges.find? key = some drawn := by
  simp only [edgeList, List.mem_flatMap, List.mem_filter, decide_eq_true_eq]
  constructor
  · rintro ⟨tail, -, listed, -⟩
    exact Table.find?_of_mem listed
  · intro found
    refine ⟨key.1, ?_, Table.mem_of_find? found, rfl⟩
    obtain ⟨edge, member, rfl⟩ := exists_ends computed found
    exact (mem_nodes computed).mpr (ends_mem_names wellFormed member).1

/-- No two listed edges have the same names. -/
theorem nodup_edgeList (graph : DrawnGraph Number) : (graph.edgeList.map Prod.fst).Nodup := by
  rw [edgeList, List.map_flatMap, List.nodup_flatMap]
  refine ⟨fun tail _ => graph.edges.distinct.sublist (List.filter_sublist.map Prod.fst), ?_⟩
  refine (show graph.nodes.keys.Nodup from graph.nodes.distinct).imp fun differ => ?_
  refine List.disjoint_left.mpr fun key first second => differ ?_
  simp only [List.mem_map, List.mem_filter, decide_eq_true_eq] at first second
  obtain ⟨entry, ⟨-, rfl⟩, rfl⟩ := first
  obtain ⟨other, ⟨-, rfl⟩, same⟩ := second
  rw [same]

/-- The ids of a merged network are each listed by one drawn edge only. -/
theorem ids_perm (wellFormed : network.WellFormed)
    (computed : ofNetwork network labels flows = .ok graph) :
    (graph.edgeList.flatMap fun entry => entry.2.ids).Perm (List.range network.edgeCount) := by
  have found {entry : (Text × Text) × DrawnEdge Number} (member : entry ∈ graph.edgeList) :=
    (mem_edgeList wellFormed computed).mp member
  refine (List.perm_ext_iff_of_nodup ?_ List.nodup_range).mpr fun id => ?_
  · refine List.nodup_flatMap.mpr ⟨fun entry member => ?_, ?_⟩
    · exact (ids_increasing wellFormed computed (found member)).imp fun before => before.ne
    · refine (List.pairwise_map.mp (nodup_edgeList graph)).imp_of_mem ?_
      refine fun member memberToo differ => List.disjoint_left.mpr fun id first second => ?_
      -- An id in both lists is that of one edge, whose ends are the names of both.
      obtain ⟨edge, listed, names, index⟩ := (mem_ids computed (found member)).mp first
      obtain ⟨other, listedToo, namesToo, rfl⟩ := (mem_ids computed (found memberToo)).mp second
      obtain rfl := wellFormed.eq_of_index listed listedToo index
      exact differ (names.symm.trans namesToo)
  · rw [List.mem_flatMap, List.mem_range]
    constructor
    · rintro ⟨entry, member, inside⟩
      obtain ⟨edge, listed, -, rfl⟩ := (mem_ids computed (found member)).mp inside
      exact wellFormed.index_lt listed
    · intro inside
      have listed : network.edges[id] ∈ network.edges := Array.getElem_mem inside
      obtain ⟨drawn, present⟩ := exists_find?_ends computed listed
      exact ⟨_, (mem_edgeList wellFormed computed).mpr present,
        (mem_ids computed present).mpr ⟨_, listed, rfl, wellFormed.index id inside⟩⟩

/-- A sum of binary64 numbers is one again. -/
theorem exists_sumOver_real {amount : Edge Number → Except (Fault Number) Number}
    {edges : List (Edge Number)}
    (reals : ∀ edge ∈ edges, ∃ value, amount edge = .ok (.real value)) :
    ∃ sum, sumOver amount edges = .ok (.real sum) := by
  induction edges using List.reverseRecOn with
  | nil => exact ⟨.zero, rfl⟩
  | append_singleton done edge inductionHypothesis =>
    obtain ⟨more, amounts⟩ := reals edge (by simp)
    by_cases nonempty : done = []
    · exact ⟨more, by rw [nonempty, List.nil_append, sumOver_singleton, amounts]⟩
    · obtain ⟨sum, summed⟩ := inductionHypothesis fun other member => reals other (by simp [member])
      refine ⟨sum.add more, ?_⟩
      rw [sumOver_snoc nonempty, summed, ok_bind, amounts, ok_bind]
      rfl

/-- What is drawn of an edge is binary64 when its bounds and its drawn flow are. -/
structure DrawsReals (flows : Option (Table Int Number)) (edge : Edge Number) : Prop where
  upper : ∃ upper, edge.upper = .ok (.real upper)
  lower : ∃ lower, edge.fullLower = .ok (.real lower)
  flow : ∃ flow, drawnFlow flows edge = .ok (.real flow)

/-- A network is merged when all that is drawn of its edges is binary64. -/
theorem exists_ofNetwork_of_reals (reals : ∀ edge ∈ network.edges, DrawsReals flows edge) :
    ∃ graph, ofNetwork network labels flows = .ok graph := by
  refine exists_ofNetwork_iff.mpr fun key => ?_
  have listed {edge : Edge Number} (member : edge ∈ bundle labels network.edges.toList key) :=
    reals edge (mem_of_bundle member)
  obtain ⟨upper, uppers⟩ := exists_sumOver_real fun edge member => (listed member).upper
  obtain ⟨lower, lowers⟩ := exists_sumOver_real fun edge member => (listed member).lower
  obtain ⟨flow, drawnFlows⟩ := exists_sumOver_real fun edge member => (listed member).flow
  exact ⟨⟨_, uppers⟩, ⟨_, lowers⟩, ⟨_, drawnFlows⟩⟩

/-- With different names the bundle between two of them is that between their vertices. -/
theorem bundle_eq_between (wellFormed : network.WellFormed)
    (distinct : (Drawing.names network labels).Nodup) {tail head : Nat}
    (tailInside : tail < network.vertexCount) (headInside : head < network.vertexCount) :
    bundle labels network.edges.toList (vertexName labels tail, vertexName labels head) =
      network.between tail head := by
  refine List.filter_congr fun edge member => decide_eq_decide.mpr ?_
  have listed := Array.mem_toList_iff.mp member
  rw [ends, Prod.mk.injEq]
  constructor
  · rintro ⟨sameTail, sameHead⟩
    exact ⟨Drawing.eq_of_vertexName distinct (wellFormed.tail edge listed) tailInside sameTail,
      Drawing.eq_of_vertexName distinct (wellFormed.head edge listed) headInside sameHead⟩
  · rintro ⟨rfl, rfl⟩
    exact ⟨rfl, rfl⟩

/-- A graph merges a network when it has a node for each vertex, and for each pair of vertices
with an edge between them one drawn edge that stands for all of these. -/
structure Merges (network : Network Number) (labels : Option (List Text))
    (flows : Option (Table Int Number)) (graph : DrawnGraph Number) : Prop where
  nodes : graph.nodes.entries =
    (List.range network.vertexCount).map fun vertex => (vertexName labels vertex, vertex)
  once : (graph.edgeList.map Prod.fst).Nodup
  joined : ∀ tail < network.vertexCount, ∀ head < network.vertexCount,
    ((vertexName labels tail, vertexName labels head) ∈ graph.edgeList.map Prod.fst ↔
      ∃ edge ∈ network.edges, edge.tail = tail ∧ edge.head = head)
  sums : ∀ entry ∈ graph.edgeList, ∃ tail < network.vertexCount, ∃ head < network.vertexCount,
    entry.1 = (vertexName labels tail, vertexName labels head) ∧
      StandsFor flows (network.between tail head) entry.2
  shared : (graph.edgeList.flatMap fun entry => entry.2.ids).Perm (List.range network.edgeCount)
  increasing : ∀ entry ∈ graph.edgeList, entry.2.ids.Pairwise (· < ·)

/-- A merged network loses nothing when the names are different. -/
theorem merges (wellFormed : network.WellFormed)
    (distinct : (Drawing.names network labels).Nodup)
    (computed : ofNetwork network labels flows = .ok graph) :
    Merges network labels flows graph := by
  have found {entry : (Text × Text) × DrawnEdge Number} (member : entry ∈ graph.edgeList) :=
    (mem_edgeList wellFormed computed).mp member
  constructor
  case nodes =>
    rw [(holds_of_ofNetwork computed).1, bare]
    refine Table.entries_ofList ?_
    rw [List.map_map]
    exact distinct
  case once => exact nodup_edgeList graph
  case joined =>
    intro tail tailInside head headInside
    rw [List.mem_map]
    constructor
    · rintro ⟨entry, member, names⟩
      obtain ⟨nonempty, -⟩ := standsFor_of_find? computed (found member)
      rw [names, bundle_eq_between wellFormed distinct tailInside headInside] at nonempty
      obtain ⟨edge, between⟩ := List.exists_mem_of_ne_nil _ nonempty
      exact ⟨edge, Network.mem_between.mp between⟩
    · rintro ⟨edge, listed, rfl, rfl⟩
      obtain ⟨drawn, present⟩ := exists_find?_ends computed listed
      exact ⟨_, (mem_edgeList wellFormed computed).mpr present, rfl⟩
  case sums =>
    intro entry member
    have stands := (standsFor_of_find? computed (found member)).2
    obtain ⟨edge, listed, names⟩ := exists_ends computed (found member)
    have tailInside := wellFormed.tail edge listed
    have headInside := wellFormed.head edge listed
    rw [← names, ends, bundle_eq_between wellFormed distinct tailInside headInside] at stands
    exact ⟨edge.tail, tailInside, edge.head, headInside, names.symm, stands⟩
  case shared => exact ids_perm wellFormed computed
  case increasing =>
    exact fun entry member => ids_increasing wellFormed computed (found member)

/-- A network is merged exactly when the edges between any two vertices can be summed. -/
theorem exists_ofNetwork_iff_between (wellFormed : network.WellFormed)
    (distinct : (Drawing.names network labels).Nodup) :
    (∃ graph, ofNetwork network labels flows = .ok graph) ↔
      ∀ tail < network.vertexCount, ∀ head < network.vertexCount,
        Summable flows (network.between tail head) := by
  rw [exists_ofNetwork_iff]
  constructor
  · intro summable tail tailInside head headInside
    rw [← bundle_eq_between wellFormed distinct tailInside headInside]
    exact summable _
  · intro summable key
    by_cases empty : bundle labels network.edges.toList key = []
    · have nothing : Bundled flows [] none := rfl
      exact empty ▸ nothing.summable
    · obtain ⟨edge, member⟩ := List.exists_mem_of_ne_nil _ empty
      obtain ⟨-, rfl⟩ := mem_bundle.mp member
      have listed := mem_of_bundle member
      have tailInside := wellFormed.tail edge listed
      have headInside := wellFormed.head edge listed
      rw [ends, bundle_eq_between wellFormed distinct tailInside headInside]
      exact summable _ tailInside _ headInside

/-- Merging parallel edges for a drawing loses nothing. It fails only when a sum overflows, and
binary64 numbers never do. -/
theorem ofNetwork_merges (wellFormed : network.WellFormed)
    (distinct : (Drawing.names network labels).Nodup) (flows : Option (Table Int Number)) :
    ((∃ graph, ofNetwork network labels flows = .ok graph) ↔
      ∀ tail < network.vertexCount, ∀ head < network.vertexCount,
        Summable flows (network.between tail head)) ∧
    ((∀ edge ∈ network.edges, DrawsReals flows edge) →
      ∃ graph, ofNetwork network labels flows = .ok graph) ∧
    ∀ graph, ofNetwork network labels flows = .ok graph → Merges network labels flows graph := by
  exact ⟨exists_ofNetwork_iff_between wellFormed distinct, exists_ofNetwork_of_reals,
    fun graph computed => merges wellFormed distinct computed⟩

/-- Two parallel edges with one against them in between, and a loop. -/
def tangle : Network Number :=
  let load (capacity : Int) : Load Number := ⟨.int capacity, .int 0, .real .zero, .real .zero⟩
  ((((Network.empty 2).attach 0 1 (load 1)).attach 1 0 (load 2)).attach 0 1 (load 3)).attach 0 0
    (load 4)

theorem wellFormed_tangle : tangle.WellFormed :=
  ((((Network.wellFormed_empty 2).attach (by decide) (by decide) _).attach (by decide)
    (by decide) _).attach (by decide) (by decide) _).attach (by decide) (by decide) _

/-- The parallel edges are merged, and the other ones stay alone. -/
theorem ofNetwork_merges_tangle :
    ∃ graph, ofNetwork tangle (some ["a"]) none = .ok graph ∧
      Merges tangle (some ["a"]) none graph ∧
      (graph.edgeList.map fun entry => entry.2.ids) = [[0, 2], [3], [1]] := by
  have known : (ofNetwork tangle (some ["a"]) none).toOption.map
      (fun graph => graph.edgeList.map fun entry => entry.2.ids) =
        some [[0, 2], [3], [1]] := by decide +kernel
  obtain ⟨graph, computed, listed⟩ := Option.map_eq_some_iff.mp known
  have distinct : (Drawing.names tangle (some ["a"])).Nodup := by decide +kernel
  have merged := ofNetwork_merges wellFormed_tangle distinct none
  exact ⟨graph, ok_of_toOption computed, merged.2.2 graph (ok_of_toOption computed), listed⟩

end DrawnGraph
end NetworkFlow
