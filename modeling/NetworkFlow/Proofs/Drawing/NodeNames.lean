import Mathlib.Data.List.GetD
import NetworkFlow.Proofs.Drawing.Merging

namespace NetworkFlow

/-- Different vertices have different numerals, since a numeral is read back as its vertex. -/
theorem numeral_injective {first second : Nat} (same : numeral first = numeral second) :
    first = second := by
  have digits : Nat.toDigits 10 first = Nat.toDigits 10 second := by
    have written : toString first = toString second := Text.ofString_injective same
    simpa only [Nat.toString_eq_ofList_toDigits, String.ofList_inj] using written
  calc first = Nat.ofDigitChars 10 (Nat.toDigits 10 first) 0 := Nat.ofDigitChars_ten_toDigits.symm
    _ = Nat.ofDigitChars 10 (Nat.toDigits 10 second) 0 := by rw [digits]
    _ = second := Nat.ofDigitChars_ten_toDigits

namespace Drawing

/-- The vertices after the last label. -/
def unlabelled (network : Network Number) (labels : List Text) : List Nat :=
  List.range' labels.length (network.vertexCount - labels.length)

/-- The vertices without a label whose numeral is the label of another vertex. -/
def shadowed (network : Network Number) (labels : List Text) : List Nat :=
  (unlabelled network labels).filter fun vertex : Nat => numeral vertex ∈ labels

variable {network : Network Number} {labels : List Text}

/-- The names are the labels and then the numerals of the other vertices. -/
theorem names_eq_append (short : labels.length ≤ network.vertexCount) :
    names network (some labels) =
      labels ++ (unlabelled network labels).map fun vertex : Nat => numeral vertex := by
  refine List.ext_getElem (by simp [names, unlabelled, short]) fun vertex inside _ => ?_
  simp only [names, List.getElem_map, List.getElem_range, vertexName, Option.getD_some]
  by_cases early : vertex < labels.length
  · rw [List.getElem_append_left early, List.getD_eq_getElem labels _ early]
  · have late := not_lt.mp early
    rw [List.getElem_append_right late, List.getD_eq_default labels _ late, List.getElem_map]
    simp [unlabelled, Nat.add_sub_cancel' late]

/-- The numerals of unlabelled vertices are different. -/
theorem nodup_numerals {vertices : List Nat} (distinct : vertices.Nodup) :
    (vertices.map fun vertex : Nat => numeral vertex).Nodup :=
  distinct.map fun _ _ same => numeral_injective same

/-- The names are different exactly when no vertex is shadowed. -/
theorem nodup_names_iff (distinct : labels.Nodup) (short : labels.length ≤ network.vertexCount) :
    (names network (some labels)).Nodup ↔ shadowed network labels = [] := by
  rw [names_eq_append short, shadowed, List.filter_eq_nil_iff, List.nodup_append]
  constructor
  · intro apart vertex member shadow
    exact apart.2.2 _ (of_decide_eq_true shadow) _ (List.mem_map_of_mem member) rfl
  · intro free
    refine ⟨distinct, nodup_numerals (List.nodup_range' ..), fun name member other memberToo => ?_⟩
    rintro rfl
    obtain ⟨vertex, inside, rfl⟩ := List.mem_map.mp memberToo
    exact free vertex inside (decide_eq_true member)

end Drawing

namespace DrawnGraph

open Drawing

variable {network : Network Number} {labels : List Text} {flows : Option (Table Int Number)}
  {graph : DrawnGraph Number}

/-- The nodes are the labels and the numerals of the unlabelled vertices that are not shadowed. -/
theorem keys_perm (distinct : labels.Nodup) (short : labels.length ≤ network.vertexCount)
    (computed : ofNetwork network (some labels) flows = .ok graph) :
    graph.nodes.keys.Perm (labels ++ ((unlabelled network labels).filter
      fun vertex : Nat => !decide (numeral vertex ∈ labels)).map fun vertex : Nat =>
        numeral vertex) := by
  refine (List.perm_ext_iff_of_nodup graph.nodes.distinct ?_).mpr fun name => ?_
  · refine List.nodup_append.mpr
      ⟨distinct, nodup_numerals ((List.nodup_range' ..).filter _), ?_⟩
    rintro name member other memberToo rfl
    obtain ⟨vertex, inside, rfl⟩ := List.mem_map.mp memberToo
    simp [member] at inside
  · change name ∈ graph.nodes.keys ↔ _
    rw [mem_nodes computed, names_eq_append short, List.mem_append, List.mem_append]
    by_cases label : name ∈ labels
    · simp [label]
    · simp only [label, false_or, List.mem_map, List.mem_filter]
      constructor
      · rintro ⟨vertex, inside, rfl⟩
        exact ⟨vertex, ⟨inside, by simp [label]⟩, rfl⟩
      · rintro ⟨vertex, ⟨inside, -⟩, rfl⟩
        exact ⟨vertex, inside, rfl⟩

/-- Every shadowed vertex costs a node. -/
theorem length_nodes (distinct : labels.Nodup) (short : labels.length ≤ network.vertexCount)
    (computed : ofNetwork network (some labels) flows = .ok graph) :
    graph.nodes.entries.length + (shadowed network labels).length = network.vertexCount := by
  have counted := (keys_perm distinct short computed).length_eq
  have parts := List.length_eq_length_filter_add (l := unlabelled network labels)
    fun vertex => decide (numeral vertex ∈ labels)
  rw [Table.keys, List.length_map, List.length_append, List.length_map] at counted
  rw [← shadowed, unlabelled, List.length_range', ← unlabelled] at parts
  omega

/-- With different names each vertex is found by its name. -/
theorem find?_vertexName (distinct : (names network (some labels)).Nodup)
    (wellFormed : network.WellFormed)
    (computed : ofNetwork network (some labels) flows = .ok graph) {vertex : Nat}
    (inside : vertex < network.vertexCount) :
    graph.nodes.find? (vertexName (some labels) vertex) = some vertex := by
  refine Table.find?_of_mem ?_
  rw [(merges wellFormed distinct computed).nodes]
  exact List.mem_map_of_mem (List.mem_range.mpr inside)

/-- The vertices are drawn as different nodes exactly when none of them is shadowed, and then every
drawn edge joins the nodes of the ends of its edges. -/
theorem ofNetwork_separates (wellFormed : network.WellFormed) (distinct : labels.Nodup)
    (short : labels.length ≤ network.vertexCount) (flows : Option (Table Int Number)) :
    ((∀ edge ∈ network.edges, DrawsReals flows edge) →
      ∃ graph, ofNetwork network (some labels) flows = .ok graph) ∧
    ∀ graph, ofNetwork network (some labels) flows = .ok graph →
      graph.nodes.entries.length + (shadowed network labels).length = network.vertexCount ∧
      (shadowed network labels = [] →
        (∀ vertex < network.vertexCount,
          graph.nodes.find? (vertexName (some labels) vertex) = some vertex) ∧
        ∀ entry ∈ graph.edgeList, ∀ id ∈ entry.2.ids, ∃ edge,
          network.edges[id]? = some edge ∧ graph.nodes.find? entry.1.1 = some edge.tail ∧
            graph.nodes.find? entry.1.2 = some edge.head) := by
  refine ⟨exists_ofNetwork_of_reals, fun graph computed => ?_⟩
  refine ⟨length_nodes distinct short computed, fun free => ?_⟩
  have names := (nodup_names_iff distinct short).mpr free
  have found {vertex : Nat} (inside : vertex < network.vertexCount) :=
    find?_vertexName names wellFormed computed inside
  refine ⟨fun vertex inside => found inside, fun entry member id inside => ?_⟩
  have present := (mem_edgeList wellFormed computed).mp member
  obtain ⟨edge, listed, ends, rfl⟩ := (mem_ids computed present).mp inside
  refine ⟨edge, wellFormed.getElem?_index listed, ?_, ?_⟩
  · rw [← ends]
    exact found (wellFormed.tail edge listed)
  · rw [← ends]
    exact found (wellFormed.head edge listed)

/-- A vertex that gets a label, and a vertex that gets none. -/
def couple : Network Number :=
  (Network.empty 2).attach 0 1 ⟨.int 1, .real .zero, .real .zero, .real .zero⟩

theorem wellFormed_couple : couple.WellFormed :=
  (Network.wellFormed_empty 2).attach (by decide) (by decide) _

/-- A label that is no numeral leaves both vertices apart. -/
theorem ofNetwork_separates_couple :
    ∃ graph, ofNetwork couple (some ["a"]) none = .ok graph ∧ graph.nodes.entries.length = 2 ∧
      graph.nodes.find? "a" = some 0 ∧ graph.nodes.find? "1" = some 1 := by
  have distinct : (["a"] : List Text).Nodup := by decide
  have separates := ofNetwork_separates wellFormed_couple distinct (by decide) none
  have computes : (ofNetwork couple (some ["a"]) none).toOption.isSome := by decide +kernel
  have free : shadowed couple ["a"] = [] := by decide +kernel
  obtain ⟨graph, some⟩ := Option.isSome_iff_exists.mp computes
  have computed := ok_of_toOption some
  obtain ⟨count, apart⟩ := separates.2 graph computed
  rw [free, List.length_nil, Nat.add_zero] at count
  have found := (apart free).1
  exact ⟨graph, computed, count, found 0 (by decide), found 1 (by decide)⟩

/-- A label that is the numeral of the other vertex draws both as one node with a loop. -/
theorem ofNetwork_merges_couple :
    couple.WellFormed ∧ (["1"] : List Text).Nodup ∧
      (["1"] : List Text).length ≤ couple.vertexCount ∧
      ∃ graph, ofNetwork couple (some ["1"]) none = .ok graph ∧
        graph.nodes.entries.length ≠ couple.vertexCount ∧
        graph.edgeList.map Prod.fst = [(("1" : Text), ("1" : Text))] := by
  have known : (ofNetwork couple (some ["1"]) none).toOption.map
      (fun graph => (graph.nodes.entries.length, graph.edgeList.map Prod.fst)) =
        some (1, [(("1" : Text), ("1" : Text))]) := by decide +kernel
  obtain ⟨graph, computed, merged⟩ := Option.map_eq_some_iff.mp known
  obtain ⟨count, keys⟩ := Prod.mk.inj merged
  exact ⟨wellFormed_couple, by decide, by decide, graph, ok_of_toOption computed,
    by rw [count]; decide, keys⟩

end DrawnGraph
end NetworkFlow
