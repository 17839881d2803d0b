import NetworkFlow.Proofs.MaxFlow.Outline
import NetworkFlow.Proofs.Network.Growth
import NetworkFlow.Proofs.Problem.Build
import NetworkFlow.Proofs.Summary.Naming

namespace NetworkFlow

open Quantity Network

section Circulation

variable {α : Type} [Quantity α]

/-- The wiring adds its source and its sink after the vertices of the network. -/
theorem Network.buildCirculation_eq_ok {network extended : Network α} {demands : Demands α}
    {tolerance : α} {wiring : Wiring α}
    (built : network.buildCirculation demands tolerance = (extended, .ok wiring)) :
    wiring.source = network.vertexCount ∧ wiring.sink = network.vertexCount + 1 ∧
      extended.vertexCount = network.vertexCount + 2 := by
  have addEdge : ∀ {before after : Network α} {tail head : Int} {capacity : α},
      before.addEdge tail head capacity zero = .ok after →
      before.vertexCount = network.vertexCount + 2 →
      after.vertexCount = network.vertexCount + 2 := by
    intro before after tail head capacity added count
    obtain ⟨first, second, -, -, -, -, -, rfl⟩ := addEdge_eq_ok added
    rw [vertexCount_attach, count]
  have terminals : network.addVertex.addVertex.vertexCount = network.vertexCount + 2 := by
    rw [vertexCount_addVertex, vertexCount_addVertex]
  rw [buildCirculation] at built
  dsimp only at built
  split at built
  · cases built
  · next entries _ =>
    have fed := addWires_induction (fun wired => wired.vertexCount = network.vertexCount + 2)
      addEdge ((entries.filter fun entry => less entry.2 (neg tolerance)).map
        fun entry => (network.vertexCount, entry.1, neg entry.2)) terminals zero
    split at built
    · cases built
    · next fedNetwork _ _ wired =>
      rw [wired] at fed
      have drained := addWires_induction
        (fun wired => wired.vertexCount = network.vertexCount + 2) addEdge
        ((entries.filter fun entry => less tolerance entry.2).map
          fun entry => (entry.1, network.vertexCount + 1, entry.2)) fed zero
      split at built
      · cases built
      · next wiredToo =>
        rw [wiredToo] at drained
        cases built
        exact ⟨rfl, rfl, drained⟩

namespace Circulation

/-- The result of a wired solve has the terminals of the wiring and the cut of the flow. -/
theorem solveWired_eq_ok {working : Network α} {edgeCount : Nat} {reduction : Reduction α}
    {wiring : Wiring α} {options : Options α} {watch : Watch α} {result : Result α}
    (ok : (solveWired working edgeCount reduction wiring options watch).outcome = .ok result) :
    ∃ flow, (MaxFlow.solveWarm working wiring.source wiring.sink options watch).outcome =
        .ok flow ∧ result.minCut = flow.minCut ∧ result.source = some (wiring.source : Int) ∧
      result.sink = some (wiring.sink : Int) := by
  unfold solveWired at ok
  dsimp only at ok
  split at ok
  · cases ok
  · next flow feasible judged =>
    obtain ⟨other, solved, judged⟩ := ok_of_bind judged
    obtain ⟨verdict, -, judged⟩ := ok_of_bind judged
    obtain ⟨rfl, -⟩ := Prod.mk.inj (Except.ok.inj judged)
    obtain ⟨flows, -, ok⟩ := ok_of_bind ok
    rw [← Except.ok.inj ok]
    exact ⟨other, solved, rfl, rfl, rfl⟩

/-- A list that increases up to its largest number ends with it. -/
theorem eq_append_of_increasing {cut : List Nat} {last : Nat} (increasing : cut.Pairwise (· < ·))
    (member : last ∈ cut) (most : ∀ vertex ∈ cut, vertex ≤ last) :
    ∃ first, cut = first ++ [last] ∧ first.Pairwise (· < ·) ∧ ∀ vertex ∈ first, vertex < last := by
  obtain ⟨first, rest, rfl⟩ := List.append_of_mem member
  obtain ⟨before, after, across⟩ := List.pairwise_append.mp increasing
  have nothing : rest = [] := by
    refine List.eq_nil_iff_forall_not_mem.mpr fun vertex inside => ?_
    have above := (List.pairwise_cons.mp after).1 vertex inside
    exact absurd (most vertex (by simp [inside])) (not_le.mpr above)
  subst nothing
  exact ⟨first, rfl, before, fun vertex inside => across vertex inside last (by simp)⟩

/-- The cut of a circulation consists of vertices of the network and of the added source,
which is the first vertex after them. -/
theorem cut_of_solve {network : Network α} (assembled : network.Assembled) {demands : Demands α}
    {options : Options α} {watch : Watch α} {result : Result α}
    (ok : (solve network demands options watch).outcome = .ok result)
    (balanced : result.status ≠ .unbalanced) :
    ∃ cut : List Nat, result.source = some (network.vertexCount : Int) ∧
      result.minCut = (cut ++ [network.vertexCount]).map Int.ofNat ∧ cut.Pairwise (· < ·) ∧
      ∀ vertex ∈ cut, vertex < network.vertexCount := by
  unfold solve at ok
  dsimp only at ok
  split at ok
  · cases ok
  · next vector clone prepared =>
    obtain ⟨vectorRead, -, prepared⟩ := ok_of_bind prepared
    obtain ⟨copied, copying, prepared⟩ := ok_of_bind prepared
    obtain rfl := Except.ok.inj (assembled.copied.symm.trans copying)
    obtain ⟨-, rfl⟩ := Prod.mk.inj (Except.ok.inj prepared)
    split at ok
    · cases ok
    · next working reduction reduced =>
      have shape := sameShape_reduceLowerBounds network.resetFlows vector options.tolerance
      rw [reduced] at shape
      have shaped := (sameShape_resetFlows network).trans shape
      split at ok
      · rw [← Except.ok.inj ok] at balanced
        exact absurd rfl balanced
      · split at ok
        · cases ok
        · next wired wiring built =>
          obtain ⟨source, sink, count⟩ := buildCirculation_eq_ok built
          have grown := grows_buildCirculation working (.dense reduction.adjustedDemands)
            options.tolerance
          rw [built] at grown
          dsimp only at grown
          have wellFormed := grown.wellFormed (assembled.wellFormed.ofSameShape shaped)
          obtain ⟨flow, solved, minCut, sources, -⟩ := solveWired_eq_ok ok
          rw [MaxFlow.solveWarm_eq_solveWithin] at solved
          obtain ⟨first, last, cut, sourceAt, sinkAt, outlines⟩ :=
            MaxFlow.outlines_of_solveWithin wellFormed solved
          have firsts : first = network.vertexCount := by
            rw [shaped.vertexCount, ← source]
            exact (Int.natCast_inj.mp sourceAt).symm
          have lasts : last = network.vertexCount + 1 := by
            rw [shaped.vertexCount, ← sink]
            exact (Int.natCast_inj.mp sinkAt).symm
          have total : wired.vertexCount = network.vertexCount + 2 := by
            rw [count, shaped.vertexCount]
          have most : ∀ vertex ∈ cut, vertex ≤ network.vertexCount := by
            intro vertex member
            have inside := outlines.inside vertex member
            have other : vertex ≠ last := fun same => outlines.lacksSink (same ▸ member)
            omega
          obtain ⟨own, rfl, increasing, inside⟩ := eq_append_of_increasing outlines.increasing
            (firsts ▸ outlines.holdsSource) most
          refine ⟨own, ?_, minCut.trans outlines.minCut, increasing, inside⟩
          rw [sources, source, shaped.vertexCount]

end Circulation
end Circulation

/-- A summary names a cut when it lists the labels of the vertices and the added source after
them. The names are different unless a label is the name of the added source, and the vertices are
found by their names unless such a label exists. -/
structure Summary.NamesCut (summary : Summary Number) (labels : List Text) (cut : List Nat) :
    Prop where
  names : summary.minCut = cut.map (vertexName (some labels)) ++ [sourceLabel]
  distinct : summary.minCut.Nodup ↔ ∀ vertex ∈ cut, vertexName (some labels) vertex ≠ sourceLabel
  listed : ∀ vertex < labels.length, vertexName (some labels) vertex ≠ sourceLabel →
    (vertexName (some labels) vertex ∈ summary.minCut ↔ vertex ∈ cut)
  recovered : sourceLabel ∉ labels → summary.minCut.filterMap labels.idxOf? = cut

namespace Summary

variable {labels : List Text} {cut : List Nat}

/-- Different labels name different vertices. -/
theorem vertexName_inj (distinct : labels.Nodup) {first second : Nat}
    (inside : first < labels.length) (insideToo : second < labels.length)
    (same : vertexName (some labels) first = vertexName (some labels) second) :
    first = second := by
  rw [vertexName_of_lt inside, vertexName_of_lt insideToo] at same
  exact distinct.getElem_inj_iff.mp same

/-- The labels of a cut and the name of the added source name the cut. -/
theorem namesCut (distinct : labels.Nodup) (increasing : cut.Pairwise (· < ·))
    (inside : ∀ vertex ∈ cut, vertex < labels.length) {summary : Summary Number}
    (names : summary.minCut = cut.map (vertexName (some labels)) ++ [sourceLabel]) :
    summary.NamesCut labels cut := by
  constructor
  case names => exact names
  case distinct =>
    have own : (cut.map (vertexName (some labels))).Nodup :=
      .map_on (fun first member second memberToo same =>
        vertexName_inj distinct (inside first member) (inside second memberToo) same)
        (increasing.imp fun before => before.ne)
    rw [names, List.nodup_append]
    constructor
    · intro apart vertex member same
      exact apart.2.2 _ (List.mem_map_of_mem member) _ (List.mem_singleton_self _) same
    · intro differ
      refine ⟨own, List.nodup_singleton _, fun name member other memberToo => ?_⟩
      obtain ⟨vertex, listed, rfl⟩ := List.mem_map.mp member
      rw [List.mem_singleton.mp memberToo]
      exact differ vertex listed
  case listed =>
    intro vertex early differ
    rw [names, List.mem_append, List.mem_singleton, or_iff_left differ, List.mem_map]
    constructor
    · rintro ⟨other, member, same⟩
      rwa [← vertexName_inj distinct (inside other member) early same]
    · exact fun member => ⟨vertex, member, rfl⟩
  case recovered =>
    intro free
    have own : cut.filterMap (labels.idxOf? ∘ vertexName (some labels)) = cut := by
      refine (List.filterMap_congr fun vertex member => ?_).trans List.filterMap_some
      rw [Function.comp_apply, vertexName_of_lt (inside vertex member),
        Problem.idxOf?_getElem distinct (inside vertex member)]
    have absent : labels.idxOf? sourceLabel = none := List.idxOf?_eq_none_iff.mpr free
    rw [names, List.filterMap_append, List.filterMap_map, own]
    simp [absent]

/-- A circulation whose cut ends with the added source is told by the labels of the other
vertices and the name of that source. -/
theorem ofSolution_circulation {network : Network Number} (wellFormed : network.WellFormed)
    (count : network.vertexCount = labels.length) {result : Circulation.Result Number}
    (source : result.source = some (labels.length : Int))
    (minCut : result.minCut = (cut ++ [labels.length]).map Int.ofNat)
    (increasing : cut.Pairwise (· < ·)) (inside : ∀ vertex ∈ cut, vertex < labels.length) :
    ∃ summary, ofSolution (.circulation result) (some (labels, network)) = .ok summary ∧
      summary.minCut = cut.map (vertexName (some labels)) ++ [sourceLabel] := by
  have kinds : kindOf (.circulation result) labels = .ok (.circulation result.feasible
      result.status result.stage result.demand result.supply) := rfl
  -- All vertices of the cut are named by one function, the added source among them.
  let name : Nat → Text := fun vertex =>
    if vertex < labels.length then vertexName (some labels) vertex else sourceLabel
  have named : ∀ vertex ∈ cut ++ [labels.length],
      nameOf (.circulation result) labels (vertex : Int) = .ok (name vertex) := by
    intro vertex member
    rcases List.mem_append.mp member with own | added
    · rw [nameOf_natCast _ (inside vertex own)]
      simp [name, inside vertex own]
    · rw [List.mem_singleton.mp added, nameOf_source source]
      simp [name]
  have increasingAll : (cut ++ [labels.length]).Pairwise (· < ·) := by
    refine List.pairwise_append.mpr ⟨increasing, List.pairwise_singleton _ _, ?_⟩
    intro vertex own other added
    rw [List.mem_singleton.mp added]
    exact inside vertex own
  obtain ⟨flows, -, summarised⟩ :=
    ofSolution_eq wellFormed count kinds minCut increasingAll named
  have labelled : cut.map name = cut.map (vertexName (some labels)) :=
    List.map_congr_left fun vertex member => by simp [name, inside vertex member]
  have last : name labels.length = sourceLabel := if_neg (lt_irrefl _)
  refine ⟨_, summarised, ?_⟩
  rw [List.map_append, labelled, List.map_singleton, last]

/-- The cut of a circulation is told by the labels of its vertices and the name of the added
source. The names are different exactly when no vertex of the cut is labelled like that source. -/
theorem circulation_cut_named {vertices edges : Json} {problem : Problem Number}
    (built : Problem.build vertices edges .null .null = .ok problem) {options : Options Number}
    {watch : Watch Number} {result : Circulation.Result Number}
    (solved : (problem.solve problem.network options watch).outcome = .ok (.circulation result))
    (balanced : result.status ≠ .unbalanced) :
    ∃ summary cut, ofSolution (.circulation result)
        (some (problem.labels, problem.network)) = .ok summary ∧
      result.minCut = (cut ++ [problem.labels.length]).map Int.ofNat ∧
      cut.Pairwise (· < ·) ∧ (∀ vertex ∈ cut, vertex < problem.labels.length) ∧
      summary.NamesCut problem.labels cut := by
  obtain ⟨_, _, -, -, writes⟩ := Problem.exists_writes_of_build built
  obtain ⟨cut, source, minCut, increasing, inside⟩ := Circulation.cut_of_solve writes.assembled
    (Query.circulation_of_solve solved) balanced
  rw [writes.vertexCount] at source minCut inside
  obtain ⟨summary, summarised, names⟩ := ofSolution_circulation writes.assembled.wellFormed
    writes.vertexCount source minCut increasing inside
  exact ⟨summary, cut, summarised, minCut, increasing, inside,
    namesCut writes.distinct increasing inside names⟩

/-- A vertex that is written with its id and its demand. -/
def askedVertex (id : Text) (demand : Int) : Json :=
  .object [("id", .text id), ("demand", .ofInt demand)]

/-- A supply of two at a vertex, and a demand of two at another one. -/
def narrowVertices (id : Text) : Json :=
  .list [askedVertex id (-2), askedVertex "b" 2]

/-- An edge that carries half of the demand. -/
def narrowEdges (id : Text) : Json :=
  .list [Problem.plainEdge (.text id) (.text "b") 1]

/-- The vertex with the supply is in the cut, and its label is told. -/
theorem circulation_cut_named_narrow :
    ∃ problem result summary cut,
      Problem.build (narrowVertices "a") (narrowEdges "a") .null .null = .ok problem ∧
      (problem.solve problem.network .usual .idle).outcome = .ok (.circulation result) ∧
      result.status = .insufficientCapacity ∧
      ofSolution (.circulation result) (some (problem.labels, problem.network)) = .ok summary ∧
      result.minCut = (cut ++ [problem.labels.length]).map Int.ofNat ∧
      summary.NamesCut problem.labels cut := by
  have known : (Problem.answered (narrowVertices "a") (narrowEdges "a") .null .null).map
      (fun answer => match answer.2 with
        | .circulation result => some result.status
        | .maxFlow _ => none) = some (some .insufficientCapacity) := by decide +kernel
  obtain ⟨⟨problem, solution⟩, answer, known⟩ := Option.map_eq_some_iff.mp known
  obtain ⟨built, solved⟩ := Problem.answered_eq_some answer
  cases solution with
  | maxFlow result => cases known
  | circulation result =>
    have status : result.status = .insufficientCapacity := Option.some.inj known
    have balanced : result.status ≠ .unbalanced := by
      rw [status]
      decide
    obtain ⟨summary, cut, summarised, minCut, -, -, names⟩ :=
      circulation_cut_named built solved balanced
    exact ⟨problem, result, summary, cut, built, solved, status, summarised, minCut, names⟩

/-- A vertex of the cut that is labelled like the added source is told by the same name. -/
theorem circulation_cut_named_twice :
    ∃ problem result summary,
      Problem.build (narrowVertices sourceLabel) (narrowEdges sourceLabel) .null .null =
        .ok problem ∧
      (problem.solve problem.network .usual .idle).outcome = .ok (.circulation result) ∧
      result.status ≠ .unbalanced ∧
      ofSolution (.circulation result) (some (problem.labels, problem.network)) = .ok summary ∧
      summary.minCut = [sourceLabel, sourceLabel] ∧ ¬summary.minCut.Nodup := by
  have known : (Problem.answered (narrowVertices sourceLabel) (narrowEdges sourceLabel)
      .null .null).map (fun answer => match answer.2 with
        | .circulation result =>
          (answer.1.labels, some result.status, result.source, result.minCut)
        | .maxFlow _ => ([], none, none, [])) =
      some ([sourceLabel, "b"], some .insufficientCapacity, some 2, [0, 2]) := by decide +kernel
  obtain ⟨⟨problem, solution⟩, answer, known⟩ := Option.map_eq_some_iff.mp known
  obtain ⟨built, solved⟩ := Problem.answered_eq_some answer
  obtain ⟨_, _, -, -, writes⟩ := Problem.exists_writes_of_build built
  cases solution with
  | maxFlow result => cases (congrArg (fun read => read.2.1) known)
  | circulation result =>
    obtain ⟨labels, known⟩ := Prod.mk.inj known
    obtain ⟨status, known⟩ := Prod.mk.inj known
    obtain ⟨source, minCut⟩ := Prod.mk.inj known
    dsimp only at labels
    have count : problem.labels.length = 2 := congrArg List.length labels
    have ends : result.minCut = ([0] ++ [problem.labels.length]).map Int.ofNat := by
      rw [minCut, count]
      rfl
    obtain ⟨summary, summarised, names⟩ := ofSolution_circulation
      writes.assembled.wellFormed writes.vertexCount (by rw [source, count]; rfl) ends
      (List.pairwise_singleton _ _) (by simp [count])
    have first : vertexName (some problem.labels) 0 = sourceLabel := by rw [labels]; rfl
    rw [List.map_singleton, first, List.singleton_append] at names
    refine ⟨problem, result, summary, built, solved, ?_, summarised, names, ?_⟩
    · rw [Option.some.inj status]
      decide
    · rw [names]
      decide

end Summary
end NetworkFlow
