import NetworkFlow.Proofs.Drawing.FilledCut

namespace NetworkFlow

open Quantity ExactQuantity Network

namespace DrawnGraph

/-- The edges that are kept are listed among those of the whole graph. -/
theorem mem_edgeList_keepEdges {graph : DrawnGraph Number} {keep : DrawnEdge Number → Bool}
    {entry : (Text × Text) × DrawnEdge Number} :
    entry ∈ (graph.keepEdges keep).edgeList ↔ entry ∈ graph.edgeList ∧ keep entry.2 := by
  have entries : (graph.keepEdges keep).edges.entries =
      graph.edges.entries.filter fun entry => keep entry.2 :=
    Table.entries_ofList (graph.edges.distinct.sublist (List.filter_sublist.map Prod.fst))
  have nodes : (graph.keepEdges keep).nodes = graph.nodes := rfl
  simp only [edgeList, entries, nodes, List.mem_flatMap, List.mem_filter]
  constructor
  · rintro ⟨tail, listed, ⟨member, kept⟩, same⟩
    exact ⟨⟨tail, listed, member, same⟩, kept⟩
  · rintro ⟨⟨tail, listed, member, same⟩, kept⟩
    exact ⟨tail, listed, ⟨member, kept⟩, same⟩

end DrawnGraph

namespace Drawing

open DrawnGraph

/-- Gray and red arrows show a cut of a merged network when all edges with a flow are drawn once,
and the red ones are the edges of the cut that have a capacity. -/
structure ShowsCut (network : Network Number) (labels : Option (List Text)) (cut : List Int)
    (merged : DrawnGraph Number) (gray red : List (Text × Text)) : Prop where
  once : (gray ++ red).Nodup
  joined : ∀ pair ∈ gray ++ red, pair ∈ merged.edgeList.map Prod.fst
  drawn : ∀ entry ∈ merged.edgeList, entry.1 ∈ gray ++ red ↔ value? entry.2.flow ≠ some 0
  crossing : ∀ pair, pair ∈ red ↔ ∃ edge ∈ network.edges,
    edge.index ∈ network.cutEdges cut ∧ isPositive edge.capacity ∧ ends labels edge = pair

/-- The names of the vertices of a cut can be told. -/
theorem cutNames_natCast {network : Network Number} (labels : Option (List Text)) {cut : List Nat}
    (inside : ∀ vertex ∈ cut, vertex < network.vertexCount) :
    cutNames network labels (cut.map Int.ofNat) = .ok (cut.map (vertexName labels)) := by
  have all : (cut.map Int.ofNat).filter (fun vertex : Int => vertex < network.vertexCount) =
      cut.map Int.ofNat := by
    refine List.filter_eq_self.mpr fun vertex member => decide_eq_true ?_
    obtain ⟨own, listed, rfl⟩ := List.mem_map.mp member
    exact Int.ofNat_lt.mpr (inside own listed)
  have named : ∀ vertex ∈ cut.map Int.ofNat, (nameAt labels vertex : Except (Fault Number) Text) =
      .ok (vertexName labels vertex.toNat) := by
    intro vertex member
    obtain ⟨own, -, rfl⟩ := List.mem_map.mp member
    exact nameAt_natCast labels own
  rw [cutNames, all, mapM_ok named, List.map_map]
  rfl

/-- A name is on the side of the cut exactly when its vertex is. -/
theorem vertexName_mem_cut {network : Network Number} {labels : Option (List Text)}
    (distinct : (names network labels).Nodup) {cut : List Nat}
    (inside : ∀ vertex ∈ cut, vertex < network.vertexCount) {vertex : Nat}
    (present : vertex < network.vertexCount) :
    vertexName labels vertex ∈ cut.map (vertexName labels) ↔ vertex ∈ cut := by
  refine ⟨fun member => ?_, List.mem_map_of_mem⟩
  obtain ⟨other, listed, same⟩ := List.mem_map.mp member
  exact eq_of_vertexName distinct (inside other listed) present same ▸ listed

/-- The names of an edge cross a cut exactly when the edge leaves it. -/
theorem crosses_ends {network : Network Number} {labels : Option (List Text)}
    (wellFormed : network.WellFormed) (distinct : (names network labels).Nodup) {cut : List Nat}
    (inside : ∀ vertex ∈ cut, vertex < network.vertexCount) {edge : Edge Number}
    (member : edge ∈ network.edges) :
    crosses true (cut.map (vertexName labels)) (ends labels edge) ↔
      edge.tail ∈ cut ∧ edge.head ∉ cut := by
  rw [← vertexName_mem_cut distinct inside (wellFormed.tail edge member),
    ← vertexName_mem_cut distinct inside (wellFormed.head edge member)]
  simp only [crosses, ends, Bool.true_and, Bool.and_eq_true, List.contains_iff_mem,
    Bool.not_eq_true', ← Bool.not_eq_true]

/-- The edges of a cut are those that leave it. -/
theorem index_mem_cutEdges {network : Network Number} (wellFormed : network.WellFormed)
    {cut : List Nat} {edge : Edge Number} (member : edge ∈ network.edges) :
    edge.index ∈ network.cutEdges (cut.map Int.ofNat) ↔ edge.tail ∈ cut ∧ edge.head ∉ cut := by
  have natCast (vertex : Nat) : (vertex : Int) ∈ cut.map Int.ofNat ↔ vertex ∈ cut :=
    List.mem_map_of_injective fun first second => Int.ofNat.inj
  rw [cutEdges, List.mem_map]
  simp only [List.mem_filter, Array.mem_toList_iff, Bool.and_eq_true, List.contains_iff_mem,
    Bool.not_eq_true', ← Bool.not_eq_true, natCast]
  constructor
  · rintro ⟨other, ⟨listed, leaves⟩, index⟩
    exact wellFormed.eq_of_index listed member index ▸ leaves
  · exact fun leaves => ⟨edge, ⟨member, leaves⟩, rfl⟩

end Drawing

namespace Network.Fills

open DrawnGraph Drawing

variable {network : Network Number} {capacity : Nat → Nat} {flows : Table Int Number}
  {flow : Nat → Int} {cut : List Nat} {labels : Option (List Text)} {merged : DrawnGraph Number}

/-- A drawing shows the pairs of names whose merged edge has a flow. -/
theorem mem_shown (fills : network.Fills capacity flows flow cut)
    (computed : ofNetwork network labels (some flows) = .ok merged) {pair : Text × Text} :
    pair ∈ (shown false merged).edgeList.map Prod.fst ↔
      ∃ drawn, merged.edges.find? pair = some drawn ∧ value? drawn.flow ≠ some 0 := by
  have wellFormed := fills.capacitated.wellFormed
  simp only [shown, Bool.false_eq_true, if_false, List.mem_map, mem_edgeList_keepEdges,
    Bool.not_eq_true', ← Bool.not_eq_true]
  constructor
  · rintro ⟨⟨_, drawn⟩, ⟨listed, carries⟩, rfl⟩
    have found := (mem_edgeList wellFormed computed).mp listed
    exact ⟨drawn, found, fun idle => carries ((fills.isZero_iff computed found).mpr idle)⟩
  · rintro ⟨drawn, found, carries⟩
    exact ⟨(pair, drawn), ⟨(mem_edgeList wellFormed computed).mpr found,
      fun idle => carries ((fills.isZero_iff computed found).mp idle)⟩, rfl⟩

/-- A drawing shows the pairs of names with an edge between them that has a flow. -/
theorem mem_shown_iff_carries (fills : network.Fills capacity flows flow cut)
    (computed : ofNetwork network labels (some flows) = .ok merged) {pair : Text × Text} :
    pair ∈ (shown false merged).edgeList.map Prod.fst ↔
      ∃ edge ∈ network.edges, ends labels edge = pair ∧ flow edge.index ≠ 0 := by
  rw [fills.mem_shown computed]
  constructor
  · rintro ⟨drawn, found, carries⟩
    rw [Ne, fills.flow_eq_zero_iff computed found] at carries
    push Not at carries
    exact carries
  · rintro ⟨edge, member, rfl, carries⟩
    obtain ⟨drawn, found⟩ := exists_find?_ends computed member
    refine ⟨drawn, found, fun idle => carries ?_⟩
    exact (fills.flow_eq_zero_iff computed found).mp idle edge member rfl

/-- The edges of the cut with a capacity are those of its edges that have a flow. -/
theorem carries_iff_isPositive (fills : network.Fills capacity flows flow cut) {edge : Edge Number}
    (member : edge ∈ network.edges) (leaves : edge.tail ∈ cut ∧ edge.head ∉ cut) :
    flow edge.index ≠ 0 ↔ isPositive edge.capacity := by
  rw [isPositive_eq_decide (fills.capacitated.capacities edge member), decide_eq_true_iff,
    fills.full edge member leaves.1 leaves.2, Nat.cast_pos, Nat.pos_iff_ne_zero, Ne,
    Nat.cast_eq_zero]

/-- The red arrows of a filled cut are the edges of the cut that have a capacity. -/
theorem showsCut (fills : network.Fills capacity flows flow cut)
    (inside : ∀ vertex ∈ cut, vertex < network.vertexCount)
    (distinct : (names network labels).Nodup)
    (computed : ofNetwork network labels (some flows) = .ok merged) :
    ShowsCut network labels (cut.map Int.ofNat) merged
      (((shown false merged).edgeList.map Prod.fst).filter fun pair =>
        !crosses true (cut.map (vertexName labels)) pair)
      (((shown false merged).edgeList.map Prod.fst).filter
        (crosses true (cut.map (vertexName labels)))) := by
  have wellFormed := fills.capacitated.wellFormed
  have split := List.perm_append_comm.trans (List.filter_append_perm
    (crosses true (cut.map (vertexName labels))) ((shown false merged).edgeList.map Prod.fst))
  constructor
  case once => exact split.nodup_iff.mpr (nodup_edgeList _)
  case joined =>
    intro pair member
    obtain ⟨drawn, found, -⟩ := (fills.mem_shown computed).mp (split.mem_iff.mp member)
    exact List.mem_map_of_mem ((mem_edgeList wellFormed computed).mpr found)
  case drawn =>
    intro entry listed
    have found := (mem_edgeList wellFormed computed).mp listed
    rw [split.mem_iff, fills.mem_shown computed]
    constructor
    · rintro ⟨drawn, same, carries⟩
      exact Option.some.inj (found.symm.trans same) ▸ carries
    · exact fun carries => ⟨entry.2, found, carries⟩
  case crossing =>
    intro pair
    rw [List.mem_filter, fills.mem_shown_iff_carries computed]
    constructor
    · rintro ⟨⟨edge, member, rfl, carries⟩, across⟩
      have leaves := (crosses_ends wellFormed distinct inside member).mp across
      exact ⟨edge, member, (index_mem_cutEdges wellFormed member).mpr leaves,
        (fills.carries_iff_isPositive member leaves).mp carries, rfl⟩
    · rintro ⟨edge, member, chosen, positive, rfl⟩
      have leaves := (index_mem_cutEdges wellFormed member).mp chosen
      exact ⟨⟨edge, member, rfl, (fills.carries_iff_isPositive member leaves).mpr positive⟩,
        (crosses_ends wellFormed distinct inside member).mpr leaves⟩

/-- A solution that fills its cut is drawn without a fault, and its arrows show the cut. -/
theorem sketch_flows (fills : network.Fills capacity flows flow cut)
    (inside : ∀ vertex ∈ cut, vertex < network.vertexCount)
    (distinct : (names network labels).Nodup) (solution : Solution Number)
    (minCut : solution.minCut = cut.map Int.ofNat) (value : solution.value.Whole)
    {canvas : Canvas} (available : canvas.available) {style : DrawingStyle}
    (arranges : canvas.Arranges style.layout) (given : solution.flows = flows) :
    ∃ (merged : DrawnGraph Number) (gray red : List (Text × Text)),
      ofNetwork network labels (some flows) = .ok merged ∧
      (sketch (Drawing.flows canvas network solution labels style true false)).1 = .ok () ∧
      (sketch (Drawing.flows canvas network solution labels style true false)).2.arrows =
        gray.map (Prod.mk "gray") ++ red.map (Prod.mk "red") ∧
      ShowsCut network labels solution.minCut merged gray red := by
  obtain ⟨merged, computed⟩ := fills.exists_merged labels
  obtain ⟨text, valued⟩ := exists_general value
  have listed : ∀ entry ∈ (shown false merged).edgeList,
      merged.edges.find? entry.1 = some entry.2 := by
    intro entry member
    rw [shown, if_neg Bool.false_ne_true] at member
    exact (mem_edgeList fills.capacitated.wellFormed computed).mp
      (mem_edgeList_keepEdges.mp member).1
  have drawable : Drawable (shown false merged) := drawable_of_whole
    (fun entry member => fills.whole_flow computed (listed entry member))
    fun entry member => fills.whole_upper computed (listed entry member)
  have named : cutNames network labels solution.minCut = .ok (cut.map (vertexName labels)) := by
    rw [minCut, cutNames_natCast labels inside]
  have draws : Draws (Drawing.flows canvas network solution labels style true false) () _ :=
    draws_flows available arranges (given ▸ computed) named drawable valued
  obtain ⟨ok, arrows⟩ := draws.sketch
  exact ⟨merged, _, _, computed, ok, arrows, minCut ▸ fills.showsCut inside distinct computed⟩

end Network.Fills

namespace Drawing

/-- The drawing of a maximum flow shows its minimum cut. With different names, capacities that
total at most 2^53 and no lower bounds, the red arrows are the edges of the cut with a capacity,
and the gray ones are the other edges with a flow. -/
theorem flows_show_minCut (network : Network Number) (assembled : network.Assembled)
    (capacity : Nat → Nat)
    (capacities : ∀ edge ∈ network.edges,
      value? edge.capacity = some (capacity edge.index : Rat))
    (lowers : ∀ edge ∈ network.edges, value? edge.lower = some 0)
    (small : network.edgeSum (fun edge => (capacity edge.index : Int)) ≤ 2 ^ 53)
    (labels : Option (List Text)) (distinct : (names network labels).Nodup)
    (source sink : Nat) (sourceInside : source < network.vertexCount)
    (sinkInside : sink < network.vertexCount) (differ : source ≠ sink)
    (options : Options Number) (tolerance : Rat)
    (tolerances : value? options.tolerance = some tolerance) (nonneg : 0 ≤ tolerance)
    (below : tolerance < 1) (watch : Watch Number) (interval : 0 < watch.interval)
    (quiet : ∀ report, watch.halts report = false) (canvas : Canvas)
    (available : canvas.available) (style : DrawingStyle)
    (arranges : canvas.Arranges style.layout) :
    ∃ (left : Network Number) (result : MaxFlow.Result Number) (merged : DrawnGraph Number)
      (gray red : List (Text × Text)),
      (MaxFlow.solve network source sink options watch).network = left ∧
      (MaxFlow.solve network source sink options watch).outcome = .ok result ∧
      DrawnGraph.ofNetwork left labels (some result.flows) = .ok merged ∧
      (sketch (flows canvas left (.maxFlow result) labels style true false)).1 = .ok () ∧
      (sketch (flows canvas left (.maxFlow result) labels style true false)).2.arrows =
        gray.map (Prod.mk "gray") ++ red.map (Prod.mk "red") ∧
      ShowsCut left labels result.minCut merged gray red := by
  have capacitated := assembled.capacitated capacities lowers small
  obtain ⟨ran, last, value, result, settled, leaves, computed, valued, minCut, gives⟩ :=
    MaxFlow.solve_finished capacitated sourceInside sinkInside differ tolerances nonneg interval
      quiet
  have left : ran.network.Capacitated capacity :=
    capacitated.of_resetFlows (leaves ▸ MaxFlow.resetFlows_solve network source sink options watch)
  have fills := settled.fills assembled.wellFormed left differ below gives
  have count : ran.network.vertexCount = network.vertexCount := settled.leftShape.vertexCount.symm
  have inside : ∀ vertex ∈ ran.finder.reachable, vertex < ran.network.vertexCount := by
    intro vertex member
    rw [count, ← settled.size_eq]
    exact SearchTree.lt_size_of_isMarked (Finder.mem_reachable_iff.mp member)
  have different : (names ran.network labels).Nodup := by
    rwa [names, count]
  obtain ⟨merged, gray, red, shown⟩ := fills.sketch_flows inside different (.maxFlow result) minCut
    (settled.whole_value capacitated differ below valued) available arranges rfl
  exact ⟨ran.network, result, merged, gray, red, leaves, computed, shown⟩

/-- A path of two edges, and an edge beside it that has no capacity. -/
def bypass : Network Number :=
  let load (capacity : Int) : Load Number := ⟨.int capacity, .int 0, zero, zero⟩
  (((empty 3).attach 0 1 (load 2)).attach 1 2 (load 1)).attach 0 2 (load 0)

theorem assembled_bypass : bypass.Assembled :=
  (((assembled_empty 3).attach_int (by simp) (by simp) le_rfl (by decide) (by decide)).attach_int
    (by simp) (by simp) le_rfl (by decide) (by decide)).attach_int (by simp) (by simp) le_rfl
    (by decide) (by decide)

/-- The edges of the path are drawn, and the tighter one is in red. The edge beside them is in the
cut too, but it is not drawn. -/
theorem flows_show_minCut_bypass :
    ∃ left result merged gray red,
      (MaxFlow.solve bypass 0 2 ⟨.int 0, false⟩ .idle).network = left ∧
      (MaxFlow.solve bypass 0 2 ⟨.int 0, false⟩ .idle).outcome = .ok result ∧
      gray.map (Prod.mk "gray") ++ red.map (Prod.mk "red") =
        [("gray", (("s" : Text), ("1" : Text))), ("red", (("1" : Text), ("2" : Text)))] ∧
      ShowsCut left (some ["s"]) result.minCut merged gray red := by
  have known : (MaxFlow.solve bypass 0 2 ⟨.int 0, false⟩ .idle).outcome.toOption.map
      (fun result => (sketch (flows ⟨true, []⟩
        (MaxFlow.solve bypass 0 2 ⟨.int 0, false⟩ .idle).network (.maxFlow result) (some ["s"])
        ⟨"spring", [.int 12, .int 8], .int 1000, .int 10, none⟩ true false)).2.arrows) =
      some [("gray", (("s" : Text), ("1" : Text))), ("red", (("1" : Text), ("2" : Text)))] := by
    decide +kernel
  obtain ⟨left, result, merged, gray, red, rfl, computed, -, -, arrows, shows⟩ :=
    flows_show_minCut bypass assembled_bypass (fun index => 2 - index)
      (by simp [bypass, attach, empty, Number.value?_int])
      (by simp [bypass, attach, empty, Number.value?_int]) (by decide) (some ["s"])
      (by decide +kernel) 0 2 (by decide) (by decide) (by decide) ⟨.int 0, false⟩ 0
      value?_ofInt_zero le_rfl one_pos .idle (by decide) (fun _ => rfl) ⟨true, []⟩ rfl
      ⟨"spring", [.int 12, .int 8], .int 1000, .int 10, none⟩ (.inr List.not_mem_nil)
  have computedHere : (MaxFlow.solve bypass 0 2 ⟨.int 0, false⟩ .idle).outcome = .ok result :=
    computed
  rw [computedHere] at known
  exact ⟨_, result, merged, gray, red, rfl, computed, arrows ▸ Option.some.inj known, shows⟩

end Drawing
end NetworkFlow
