import NetworkFlow.Proofs.Residual.ShortestPaths
import NetworkFlow.Proofs.Search.PartialTree

namespace NetworkFlow

open Quantity Network

namespace Finder

variable {α : Type}

/-- The vertices from the source to a target and the edges back to the source trace a path when
each edge joins the vertices at its place. No vertex comes twice. -/
structure Traces (network : Network α) (source target : Nat) (vertices edges : List Nat) :
    Prop where
  starts : vertices.head? = some source
  ends : vertices.getLast? = some target
  simple : vertices.Nodup
  length : edges.length + 1 = vertices.length
  joins : ∀ (place position nearer farther : Nat), edges[place]? = some position →
    vertices.reverse[place]? = some nearer → vertices.reverse[place + 1]? = some farther →
    ∃ edge, network.edges[position]? = some edge ∧ edge.otherEnd nearer = farther

/-- A path of arcs that return along their edges is traced by its stops and its edges. -/
theorem traces_of_path {network : Network α} {source target : Nat} {arcs : List Arc}
    (path : ArcPath source arcs target) (simple : (stops target arcs).Nodup)
    (returns : ∀ arc ∈ arcs, ∃ edge, network.edges[arc.edge]? = some edge ∧
      edge.otherEnd arc.target = arc.origin) :
    Traces network source target (stops target arcs).reverse (arcs.map Arc.edge) := by
  constructor
  case starts => exact path.head?_vertices
  case ends => exact getLast?_vertices target arcs
  case simple => exact List.nodup_reverse.mpr simple
  case length => simp [stops]
  case joins =>
    intro place position nearer farther stands near far
    rw [List.reverse_reverse] at near far
    rw [List.getElem?_map] at stands
    obtain ⟨arc, listed, rfl⟩ := Option.map_eq_some_iff.mp stands
    obtain ⟨target, origin⟩ := path.stops_getElem? listed
    obtain rfl := Option.some.inj (target.symm.trans near)
    obtain rfl := Option.some.inj (origin.symm.trans far)
    exact returns arc (List.mem_of_getElem? listed)

variable [Quantity α]

/-- A finder in use was created on a network and may have searched it any number of times from any
integers. Meanwhile the loads of the edges may have changed, and vertices and edges may have come.
The range is the number of vertices that the network had at the last search. -/
inductive Used (tolerance : α) : Network α → Nat → Finder α → Prop where
  | create {network : Network α} (wellFormed : network.WellFormed) :
      Used tolerance network network.vertexCount (.create network tolerance)
  | search {network : Network α} {range : Nat} {finder : Finder α}
      (used : Used tolerance network range finder) (source sink : Int) :
      Used tolerance network network.vertexCount (finder.search network source sink).2
  | reload {network later : Network α} {range : Nat} {finder : Finder α}
      (used : Used tolerance network range finder) (same : SameShape network later) :
      Used tolerance later range finder
  | addVertex {network : Network α} {range : Nat} {finder : Finder α}
      (used : Used tolerance network range finder) :
      Used tolerance network.addVertex range finder
  | attach {network : Network α} {range : Nat} {finder : Finder α}
      (used : Used tolerance network range finder) {tail head : Nat}
      (tailInside : tail < network.vertexCount) (headInside : head < network.vertexCount)
      (load : Load α) : Used tolerance (network.attach tail head load) range finder

/-- The tree of a finder is rooted when no edge entered it, or when it has the levels of a search
in a network that was extended since. -/
inductive Rooted (network : Network α) (range : Nat) (finder : Finder α) : Prop where
  | bare (marks : finder.tree.marked.size = range) (entries : finder.tree.edgeTo.size = range)
      (unreached : ∀ vertex, finder.tree.entry vertex = none)
      (root : ∀ vertex, finder.tree.isMarked vertex → ∃ source,
        finder.source = some source ∧ position? range source = some vertex)
  | grown {searched : Network α} {source : Nat} {level : Nat → Nat}
      (wellFormed : searched.WellFormed) (extended : network.Extends searched)
      (count : searched.vertexCount = range) (started : finder.source = some (source : Int))
      (leveled : finder.tree.Leveled (.residual finder.tolerance) searched source level)

section Rooted

variable {network later : Network α} {range : Nat} {finder : Finder α} {tolerance : α}

/-- What happens to a network after a search leaves the tree rooted. -/
theorem Rooted.extended (rooted : Rooted network range finder) (extended : later.Extends network) :
    Rooted later range finder := by
  cases rooted with
  | bare marks entries unreached root => exact .bare marks entries unreached root
  | grown wellFormed before count started leveled =>
    exact .grown wellFormed (extended.trans before) count started leveled

/-- A tree that no edge entered is rooted when its mark, if it has one, is where the search
started. -/
theorem Rooted.of_blank (root : Option Nat)
    (tree : finder.tree = root.elim (.blank range) (SearchTree.blank range).markRoot)
    (started : ∀ vertex ∈ root, ∃ source, finder.source = some source ∧
      position? range source = some vertex) : Rooted network range finder := by
  cases root with
  | none =>
    have blank : finder.tree = .blank range := tree
    refine .bare ?_ ?_ ?_ fun vertex marked => ?_
    · rw [blank, SearchTree.blank, Array.size_replicate]
    · rw [blank, SearchTree.blank, Array.size_replicate]
    · exact fun vertex => blank ▸ SearchTree.entry_blank range vertex
    · rw [blank, SearchTree.isMarked_blank] at marked
      cases marked
  | some vertex =>
    obtain ⟨source, known, resolved⟩ := started vertex rfl
    have marked : finder.tree = (SearchTree.blank range).markRoot vertex := tree
    have size : (SearchTree.blank range).marked.size = range := Array.size_replicate
    refine .bare ?_ ?_ ?_ fun other reached => ⟨source, known, ?_⟩
    · rw [marked, SearchTree.markRoot, Array.size_setIfInBounds, size]
    · rw [marked, SearchTree.markRoot, SearchTree.blank, Array.size_replicate]
    · exact fun other => marked ▸ SearchTree.entry_blank range other
    · rw [marked, SearchTree.isMarked_markRoot _ _ (size.symm ▸ position?_lt resolved),
        SearchTree.isMarked_blank] at reached
      rw [resolved, reached.resolve_right Bool.false_ne_true]

/-- A search leaves its source and its tree, whether it is refused, fails or returns. -/
theorem search_after (finder : Finder α) (network : Network α) (source sink : Int) :
    (finder.search network source sink).2 =
      { finder with source := some source, tree := (finder.treeFrom network source).2 } := by
  unfold search
  dsimp only
  split <;> rfl

/-- A search from any integer leaves a rooted tree. -/
theorem rooted_search (finder : Finder α) (wellFormed : network.WellFormed) (source sink : Int) :
    Rooted network network.vertexCount (finder.search network source sink).2 := by
  rw [search_after]
  cases resolved : position? network.vertexCount source with
  | none =>
    refine .of_blank none ?_ nofun
    simp only [treeFrom, resolved]
    rfl
  | some vertex =>
    by_cases negative : source < 0
    · refine .of_blank (some vertex) ?_ ?_
      · simp only [treeFrom, resolved, if_pos negative, searchFromEnd]
        split <;> rfl
      · rintro _ ⟨⟩
        exact ⟨source, rfl, resolved⟩
    · obtain ⟨level, leveled⟩ := Search.run_leveled (.residual finder.tolerance) none
        (position?_lt resolved)
      have started : source = (vertex : Int) := by
        rw [position?, if_pos (not_lt.mp negative)] at resolved
        split at resolved
        · have := Option.some.inj resolved
          omega
        · cases resolved
      have tree : (finder.treeFrom network source).2 =
          (Search.run network (.residual finder.tolerance) none vertex).tree := by
        simp only [treeFrom, resolved, if_neg negative]
      rw [tree]
      exact .grown wellFormed (Network.Extends.refl network) rfl (congrArg some started) leveled

/-- The tree of a finder in use is rooted, and its network has its parts in step. -/
theorem Used.rooted (used : Used tolerance network range finder) :
    network.WellFormed ∧ Rooted network range finder := by
  induction used with
  | create wellFormed => exact ⟨wellFormed, .of_blank none rfl nofun⟩
  | search used source sink inductionHypothesis =>
    exact ⟨inductionHypothesis.1, rooted_search _ inductionHypothesis.1 source sink⟩
  | reload used same inductionHypothesis =>
    exact ⟨inductionHypothesis.1.ofSameShape same, inductionHypothesis.2.extended same.extends⟩
  | @addVertex network range finder used inductionHypothesis =>
    exact ⟨inductionHypothesis.1.addVertex,
      inductionHypothesis.2.extended (Network.Extends.refl network)⟩
  | attach used tailInside headInside load inductionHypothesis =>
    exact ⟨inductionHypothesis.1.attach tailInside headInside load,
      inductionHypothesis.2.extended (extends_attach _ _ _ _)⟩

theorem Rooted.size (rooted : Rooted network range finder) : finder.tree.marked.size = range := by
  cases rooted with
  | bare marks => exact marks
  | grown _ _ count _ leveled => exact leveled.markedSize.trans count

/-- The walk back from a vertex in the range ends after fewer arcs than there are vertices. -/
theorem Rooted.pathArcs (rooted : Rooted network range finder) {target : Nat}
    (inside : target < range) :
    ∃ arcs, finder.pathArcs network target = .ok arcs ∧ arcs.length < range ∧
      (finder.tree.isMarked target = false → arcs = []) ∧
      (finder.tree.isMarked target → ∃ source first, finder.source = some source ∧
        position? range source = some first ∧
        Traces network first target (stops target arcs).reverse (arcs.map Arc.edge)) := by
  cases rooted with
  | bare marks entries unreached root =>
    refine ⟨[], ?_, Nat.zero_lt_of_lt inside, fun _ => rfl, fun marked => ?_⟩
    · rw [pathArcs_eq _ _ (entries ▸ inside), SearchTree.arcsTo_of_bare (unreached target)]
    · obtain ⟨source, started, resolved⟩ := root target marked
      exact ⟨source, target, started, resolved, traces_of_path .start (by simp [stops]) (by simp)⟩
  | @grown searched source level wellFormed extended count started leveled =>
    have returns := residual_returns finder.tolerance wellFormed
    have sizes : finder.tree.edgeTo.size = range := leveled.edgeToSize.trans count
    rw [pathArcs_eq _ _ (sizes ▸ inside), started]
    cases marked : finder.tree.isMarked target with
    | false =>
      exact ⟨[], SearchTree.arcsTo_of_bare (leveled.bare target marked) network _,
        Nat.zero_lt_of_lt inside, fun _ => rfl, fun other => absurd other Bool.false_ne_true⟩
    | true =>
      have low := leveled.level_lt marked
      have sourceInside : source < range :=
        count ▸ leveled.markedSize ▸ SearchTree.lt_size_of_isMarked leveled.rootMarked
      obtain ⟨arcs, walked, path, length, facts⟩ := leveled.walk_eq returns
        (finder.tree.edgeTo.size + 1) target [] marked (by omega)
      rw [SearchTree.arcsTo, leveled.walk_extended extended, walked]
      refine ⟨arcs, rfl, by omega, fun other => absurd other.symm Bool.false_ne_true,
        fun _ => ⟨source, source, rfl, position?_natCast sourceInside, traces_of_path path
          (path.nodup_stops fun arc member => (facts arc member).2.2.2) fun arc member => ?_⟩⟩
      obtain ⟨crosses, -, -, higher⟩ := facts arc member
      obtain ⟨edge, stands, -⟩ := crosses.2
      obtain ⟨other, found, place⟩ := extended stands
      refine ⟨other, found, ?_⟩
      rw [Edge.otherEnd_eq place]
      refine returns arc edge crosses stands fun same => ?_
      rw [same] at higher
      omega

/-- Both lists of a vertex in the range of the last search are read without a fault, and they name
fewer edges than there are vertices. They trace a path from where the search started
when the vertex is marked, and they are empty when it is not. -/
theorem Used.paths_end (used : Used tolerance network range finder) {target : Nat}
    (inside : target < range) :
    ∃ reached vertices edges, finder.hasPathTo target = .ok reached ∧
      finder.pathVertices network target = .ok (vertices.map Int.ofNat) ∧
      finder.pathEdges network target = .ok edges ∧ edges.length < range ∧
      (reached = true → ∃ source first, finder.source = some source ∧
        position? range source = some first ∧ Traces network first target vertices edges) ∧
      (reached = false → vertices = [] ∧ edges = []) := by
  obtain ⟨-, rooted⟩ := used.rooted
  obtain ⟨arcs, found, length, unmarked, marked⟩ := rooted.pathArcs inside
  have answer : finder.hasPathTo target = .ok (finder.tree.isMarked target) := by
    rw [hasPathTo, position?_natCast (rooted.size ▸ inside)]
  have edges : finder.pathEdges network target = .ok (arcs.map Arc.edge) := by
    rw [pathEdges, found]
    rfl
  cases mark : finder.tree.isMarked target with
  | false =>
    rw [mark] at answer
    obtain rfl := unmarked mark
    refine ⟨false, [], [], answer, ?_, edges, length,
      fun other => absurd other Bool.false_ne_true, fun _ => ⟨rfl, rfl⟩⟩
    simp only [pathVertices, answer]
    cases finder.source <;> rfl
  | true =>
    rw [mark] at answer
    obtain ⟨source, first, started, resolved, traces⟩ := marked mark
    refine ⟨true, (stops target arcs).reverse, arcs.map Arc.edge, answer, ?_, edges,
      by rwa [List.length_map], fun _ => ⟨source, first, started, resolved, traces⟩,
      fun other => absurd other.symm Bool.false_ne_true⟩
    simp only [pathVertices, started, answer, found]
    simp [stops]
    rfl

end Rooted

/-- A path of two lanes. -/
def relay : Network Number :=
  ((Network.empty 3).attach 0 1 ⟨.int 4, .int 0, .int 0, .int 0⟩).attach 1 2
    ⟨.int 5, .int 0, .real .zero, .int 0⟩

/-- The room of the second lane is too large to be computed. -/
def brokenRelay : Network Number :=
  relay.modifyLoad 1 fun load => { load with capacity := .int (10 ^ 400) }

/-- The finder was refused once, and its next search failed at the second lane. -/
def worn : Finder Number :=
  (((create relay (.int 0)).search relay (-7) 2).2.search brokenRelay 0 2).2

theorem paths_end_worn :
    (((create relay (.int 0)).search relay (-7) 2).2.search brokenRelay 0 2).1 =
      .error (.overflow .conversion) ∧
    worn.pathVertices brokenRelay.addVertex 1 = .ok [0, 1] ∧
      worn.pathEdges brokenRelay.addVertex 1 = .ok [0] ∧
      Traces brokenRelay.addVertex 0 1 [0, 1] [0] := by
  have wellFormed : relay.WellFormed :=
    ((wellFormed_empty 3).attach (by decide) (by decide) _).attach (by decide) (by decide) _
  have used : Used (.int 0) brokenRelay.addVertex 3 worn :=
    .addVertex (.search (.reload (.search (.create wellFormed) (-7) 2)
      (sameShape_modifyLoad relay 1 _)) 0 2)
  obtain ⟨reached, vertices, edges, answer, stops, listed, -, traces, -⟩ :=
    used.paths_end (show 1 < 3 by decide)
  have marked : worn.hasPathTo 1 = .ok true := by decide +kernel
  have known : worn.pathVertices brokenRelay.addVertex 1 = .ok [0, 1] := by decide +kernel
  have knownToo : worn.pathEdges brokenRelay.addVertex 1 = .ok [0] := by decide +kernel
  have origin : worn.source = some 0 := by decide +kernel
  obtain ⟨source, first, started, resolved, traces⟩ :=
    traces (Except.ok.inj (answer.symm.trans marked))
  obtain rfl := Option.some.inj (origin.symm.trans started)
  obtain rfl : 0 = first := Option.some.inj resolved
  obtain rfl := Except.ok.inj (listed.symm.trans knownToo)
  obtain rfl : vertices = [0, 1] :=
    List.map_injective_iff.mpr Int.ofNat_injective (Except.ok.inj (stops.symm.trans known))
  exact ⟨by decide +kernel, known, knownToo, traces⟩

end Finder
end NetworkFlow
