import NetworkFlow.Network.WellFormed
import NetworkFlow.Proofs.Arithmetic.ExactQuantity
import NetworkFlow.Solving
import Mathlib.Data.List.Sort

namespace NetworkFlow

open Network

namespace Query

variable {α : Type} [Quantity α] {query : Query α} {network : Network α} {options : Options α}
  {watch : Watch α}

/-- A maximum flow answers a query with both terminals. -/
theorem maxFlow_of_solve {result : MaxFlow.Result α}
    (solved : (query.solve network options watch).outcome = .ok (.maxFlow result)) :
    ∃ source sink, query.source = some source ∧ query.sink = some sink ∧
      (MaxFlow.solve network source sink options watch).outcome = .ok result := by
  unfold solve at solved
  split at solved
  · next source sink named namedToo =>
    obtain ⟨other, outcome, same⟩ := ok_of_map solved
    rw [Solution.maxFlow.inj same] at outcome
    exact ⟨source, sink, named, namedToo, outcome⟩
  · obtain ⟨other, -, same⟩ := ok_of_map solved
    cases same

/-- A circulation answers the demands of a query. -/
theorem circulation_of_solve {result : Circulation.Result α}
    (solved : (query.solve network options watch).outcome = .ok (.circulation result)) :
    (Circulation.solve network (.dense query.demands) options watch).outcome = .ok result := by
  unfold solve at solved
  split at solved
  · obtain ⟨other, -, same⟩ := ok_of_map solved
    cases same
  · obtain ⟨other, outcome, same⟩ := ok_of_map solved
    rwa [Solution.circulation.inj same] at outcome

end Query

/-- The problem that its parts describe, and the answer to it under the usual options. -/
def Problem.answered (vertices edges source sink : Json) :
    Option (Problem Number × Solution Number) := do
  let problem ← (build vertices edges source sink).toOption
  let solution ← (problem.solve problem.network .usual .idle).outcome.toOption
  return (problem, solution)

theorem Problem.answered_eq_some {vertices edges source sink : Json} {problem : Problem Number}
    {solution : Solution Number}
    (answer : answered vertices edges source sink = some (problem, solution)) :
    build vertices edges source sink = .ok problem ∧
      (problem.solve problem.network .usual .idle).outcome = .ok solution := by
  obtain ⟨made, built, answer⟩ := Option.bind_eq_some_iff.mp answer
  obtain ⟨found, solved, same⟩ := Option.bind_eq_some_iff.mp answer
  obtain ⟨rfl, rfl⟩ := Prod.mk.inj (Option.some.inj same)
  exact ⟨ok_of_toOption built, ok_of_toOption solved⟩

namespace Summary

variable {α : Type} {solution : Solution α} {labels : List Text}

theorem vertexName_of_lt {vertex : Nat} (inside : vertex < labels.length) :
    vertexName (some labels) vertex = labels[vertex] := by
  simp [vertexName, inside]

/-- A vertex of a problem is named by its label, whatever the solution. -/
theorem nameOf_natCast (solution : Solution α) {vertex : Nat} (inside : vertex < labels.length) :
    nameOf solution labels vertex = .ok (vertexName (some labels) vertex) := by
  have below : (vertex : Int) < labels.length := Int.ofNat_lt.mpr inside
  rw [nameOf, labelOr, if_pos below, labelAt_natCast inside, vertexName_of_lt inside]

/-- The source that a circulation added stands right after the labels, and has a name of its own. -/
theorem nameOf_source {result : Circulation.Result α}
    (source : result.source = some (labels.length : Int)) :
    nameOf (.circulation result) labels (labels.length : Int) = .ok sourceLabel := by
  rw [nameOf, labelOr, if_neg (lt_irrefl _), plainName, if_pos source]

/-- Every entry of the flows is told, and an edge of the network is told with its ends. -/
theorem flowEntry_cases (solution : Solution α) {network : Network α}
    (wellFormed : network.WellFormed) (count : network.vertexCount = labels.length)
    (entry : Int × α) :
    (flowEntry solution labels (some network) entry = .ok ⟨entry.1, entry.2, none⟩ ∧
      ∀ edge ∈ network.edges, (edge.index : Int) ≠ entry.1) ∨
    ∃ edge ∈ network.edges, (edge.index : Int) = entry.1 ∧
      flowEntry solution labels (some network) entry = .ok ⟨entry.1, entry.2,
        some (vertexName (some labels) edge.tail, vertexName (some labels) edge.head)⟩ := by
  have read : (some network >>= fun network =>
      network.edges.find? fun known => (known.index : Int) = entry.1) =
      network.edges.find? fun known => (known.index : Int) = entry.1 := rfl
  cases found : network.edges.find? fun known => (known.index : Int) = entry.1 with
  | none =>
    refine Or.inl ⟨?_, ?_⟩
    · simp only [flowEntry, read, found]
      rfl
    · intro edge member
      simpa using Array.find?_eq_none.mp found edge member
  | some edge =>
    have member := Array.mem_of_find?_eq_some found
    have tail := nameOf_natCast solution (count ▸ wellFormed.tail edge member)
    have head := nameOf_natCast solution (count ▸ wellFormed.head edge member)
    refine Or.inr ⟨edge, member, by simpa using Array.find?_some found, ?_⟩
    simp only [flowEntry, read, found, tail, head, ok_bind]
    rfl

/-- A solution is summarised when its question and the vertices of its cut can be named. -/
theorem ofSolution_eq {network : Network α} (wellFormed : network.WellFormed)
    (count : network.vertexCount = labels.length) {kind : Kind α}
    (kinds : kindOf solution labels = .ok kind) {cut : List Nat} {name : Nat → Text}
    (listed : solution.minCut = cut.map Int.ofNat) (increasing : cut.Pairwise (· < ·))
    (named : ∀ vertex ∈ cut, nameOf solution labels (vertex : Int) = .ok (name vertex)) :
    ∃ flows, (solution.flows.entries.mergeSort fun first second => first.1 ≤ second.1).mapM
        (flowEntry solution labels (some network)) = .ok flows ∧
      ofSolution solution (some (labels, network)) =
        .ok ⟨solution.value, kind, solution.augmentations, cut.map name, flows⟩ := by
  obtain ⟨flows, told⟩ : ∃ flows,
      (solution.flows.entries.mergeSort fun first second => first.1 ≤ second.1).mapM
        (flowEntry solution labels (some network)) = .ok flows := by
    apply mapM_exists
    intro entry _
    rcases flowEntry_cases solution wellFormed count entry with
      ⟨computed, -⟩ | ⟨edge, -, -, computed⟩
    · exact ⟨_, computed⟩
    · exact ⟨_, computed⟩
  have sorted : (cut.map Int.ofNat).mergeSort = cut.map Int.ofNat := by
    apply List.mergeSort_of_pairwise
    rw [List.pairwise_map]
    exact increasing.imp fun before => decide_eq_true (Int.ofNat_le.mpr before.le)
  have names : (cut.map Int.ofNat).mapM (nameOf solution labels) = .ok (cut.map name) := by
    rw [List.mapM_map]
    exact mapM_ok named
  refine ⟨flows, told, ?_⟩
  have labelled : ((some (labels, network)).map Prod.fst).getD [] = labels := rfl
  have known : (some (labels, network)).map Prod.snd = some network := rfl
  simp only [ofSolution, labelled, known, told, kinds, listed, sorted, names, ok_bind]
  rfl

end Summary
end NetworkFlow
