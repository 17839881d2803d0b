import NetworkFlow.Proofs.Residual.Reachability

namespace NetworkFlow

open Quantity Network

/-- The vertices of a path from its target back to its source. -/
def stops (target : Nat) (arcs : List Arc) : List Nat :=
  target :: arcs.map Arc.origin

section Stops

variable {source target : Nat} {arcs : List Arc}

theorem ArcPath.getLast?_stops (path : ArcPath source arcs target) :
    (stops target arcs).getLast? = some source := by
  induction path with
  | start => rfl
  | extend arc path inductionHypothesis =>
    rw [stops, List.map_cons, List.getLast?_cons_cons]
    exact inductionHypothesis

/-- Listed from its source, a path begins there and ends at its target. -/
theorem ArcPath.head?_vertices (path : ArcPath source arcs target) :
    (stops target arcs).reverse.head? = some source := by
  rw [List.head?_reverse, path.getLast?_stops]

theorem getLast?_vertices (target : Nat) (arcs : List Arc) :
    (stops target arcs).reverse.getLast? = some target := by
  rw [List.getLast?_reverse]
  rfl

/-- Each arc of a path leads from the next stop to the stop at its place. -/
theorem ArcPath.stops_getElem? (path : ArcPath source arcs target) {place : Nat} {arc : Arc}
    (stands : arcs[place]? = some arc) : (stops target arcs)[place]? = some arc.target ∧
      (stops target arcs)[place + 1]? = some arc.origin := by
  induction path generalizing place with
  | start => cases stands
  | @extend rest first path inductionHypothesis =>
    cases place with
    | zero =>
      obtain rfl : first = arc := by simpa using stands
      exact ⟨rfl, rfl⟩
    | succ place => exact inductionHypothesis stands

theorem length_stops (target : Nat) (arcs : List Arc) :
    (stops target arcs).length = arcs.length + 1 := by
  rw [stops, List.length_cons, List.length_map]

/-- Read from the source on, each arc of a path leads from the vertex at its place to the next. -/
theorem ArcPath.vertices_getElem? (path : ArcPath source arcs target) {place : Nat} {arc : Arc}
    (stands : arcs.reverse[place]? = some arc) :
    (stops target arcs).reverse[place]? = some arc.origin ∧
      (stops target arcs).reverse[place + 1]? = some arc.target := by
  have inside : place < arcs.length := by
    rw [← List.length_reverse]
    exact (List.getElem?_eq_some_iff.mp stands).1
  rw [List.getElem?_reverse inside] at stands
  obtain ⟨head, tail⟩ := path.stops_getElem? stands
  have length := length_stops target arcs
  constructor
  · rw [List.getElem?_reverse (by omega), ← tail]
    congr 1
    omega
  · rw [List.getElem?_reverse (by omega), ← head]
    congr 1
    omega

/-- The levels fall from each stop of a path to the next when every arc rises by one. -/
theorem ArcPath.pairwise_stops (path : ArcPath source arcs target) {level : Nat → Nat}
    (rises : ∀ arc ∈ arcs, level arc.target = level arc.origin + 1) :
    (stops target arcs).Pairwise fun nearer farther => level farther < level nearer := by
  induction path with
  | start => exact List.pairwise_singleton _ _
  | @extend rest arc path inductionHypothesis =>
    have ordered := inductionHypothesis fun other member => rises other (by simp [member])
    have rise := rises arc (by simp)
    refine List.pairwise_cons.mpr ⟨fun vertex member => ?_, ordered⟩
    rcases List.mem_cons.mp member with rfl | later
    · omega
    · have lower := (List.pairwise_cons.mp ordered).1 vertex later
      omega

/-- A path whose arcs rise comes to no vertex twice. -/
theorem ArcPath.nodup_stops (path : ArcPath source arcs target) {level : Nat → Nat}
    (rises : ∀ arc ∈ arcs, level arc.target = level arc.origin + 1) :
    (stops target arcs).Nodup := by
  refine (path.pairwise_stops rises).imp ?_
  rintro nearer farther falls rfl
  exact Nat.lt_irrefl _ falls

theorem ShortestPath.nodup_stops {crosses : Arc → Prop} {bound : Nat}
    (shortest : ShortestPath crosses bound source target arcs) : (stops target arcs).Nodup :=
  shortest.path.nodup_stops shortest.rises

end Stops

namespace Finder

variable {α : Type} [Quantity α] {network : Network α} {next : Finder α} {tolerance : α}
  {source target : Nat}

/-- A path of passable arcs to a target, by its vertices from the source
and by its edges from the target. -/
structure ShortestResidual (network : Network α) (tolerance : α) (source target : Nat)
    (vertices edges : List Nat) : Prop where
  starts : vertices.head? = some source
  ends : vertices.getLast? = some target
  simple : vertices.Nodup
  length : edges.length + 1 = vertices.length
  joins : ∀ (place edge nearer farther : Nat), edges[place]? = some edge →
    vertices.reverse[place]? = some nearer → vertices.reverse[place + 1]? = some farther →
    network.Passable tolerance ⟨edge, farther, nearer⟩
  shortest : ∀ length, Walk (Leads (network.Passable tolerance)) source length target →
    edges.length ≤ length

/-- The arcs on the tree path to a marked vertex are a shortest path. -/
theorem Explored.pathArcs (explored : next.Explored network tolerance source)
    (wellFormed : network.WellFormed) (marked : next.tree.isMarked target) :
    ∃ arcs, next.pathArcs network target = .ok arcs ∧
      ShortestPath (network.Passable tolerance) network.vertexCount source target arcs := by
  obtain ⟨level, spans⟩ := explored.spans
  have returns := residual_returns tolerance wellFormed
  obtain ⟨arcs, found, shortest⟩ := spans.arcsTo returns marked
  rw [crosses_residual wellFormed] at shortest
  have inside : target < next.tree.edgeTo.size := by
    rw [spans.edgeToSize, ← spans.markedSize]
    exact SearchTree.lt_size_of_isMarked marked
  refine ⟨arcs, ?_, shortest⟩
  rw [pathArcs_eq next network inside, explored.started, found]

/-- No arc leads to a vertex without a mark in the tree. -/
theorem Explored.pathArcs_unmarked (explored : next.Explored network tolerance source)
    (inside : target < network.vertexCount) (unmarked : next.tree.isMarked target = false) :
    next.pathArcs network target = .ok [] := by
  obtain ⟨level, spans⟩ := explored.spans
  rw [← spans.edgeToSize] at inside
  rw [pathArcs_eq next network inside, SearchTree.arcsTo_of_bare (spans.bare target unmarked)]

theorem Explored.hasPathTo_eq (explored : next.Explored network tolerance source)
    (inside : target < network.vertexCount) :
    next.hasPathTo target = .ok (next.tree.isMarked target) := by
  rw [← explored.size] at inside
  rw [hasPathTo, position?_natCast inside]

/-- The two lists of a marked vertex describe one shortest path. -/
theorem Explored.shortestResidual (explored : next.Explored network tolerance source)
    (wellFormed : network.WellFormed) (marked : next.tree.isMarked target) :
    ∃ vertices edges, next.pathVertices network target = .ok (vertices.map Int.ofNat) ∧
      next.pathEdges network target = .ok edges ∧
      ShortestResidual network tolerance source target vertices edges := by
  obtain ⟨arcs, found, shortest⟩ := explored.pathArcs wellFormed marked
  have inside : target < network.vertexCount := by
    rw [← explored.size]
    exact SearchTree.lt_size_of_isMarked marked
  have answer := explored.hasPathTo_eq inside
  rw [marked] at answer
  refine ⟨(stops target arcs).reverse, arcs.map Arc.edge, ?_, ?_, ?_⟩
  · simp only [pathVertices, explored.started, answer, found]
    simp [stops]
    rfl
  · simp only [pathEdges, found]
    rfl
  constructor
  case starts => exact shortest.path.head?_vertices
  case ends => exact getLast?_vertices target arcs
  case simple => exact List.nodup_reverse.mpr shortest.nodup_stops
  case length => simp [stops]
  case joins =>
    intro place edge nearer farther stands near far
    rw [List.reverse_reverse] at near far
    rw [List.getElem?_map] at stands
    obtain ⟨arc, listed, rfl⟩ := Option.map_eq_some_iff.mp stands
    obtain ⟨target, origin⟩ := shortest.path.stops_getElem? listed
    obtain rfl := Option.some.inj (target.symm.trans near)
    obtain rfl := Option.some.inj (origin.symm.trans far)
    exact shortest.crossed arc (List.mem_of_getElem? listed)
  case shortest =>
    intro steps walk
    rw [List.length_map]
    exact shortest.length_le walk

/-- A search from a vertex returns when every number is in the range of binary64. After a search
that returns, the lists of a marked vertex describe one shortest path of passable arcs,
and those of another vertex are empty. -/
theorem search_paths_shortest {network : Network Number} (wellFormed : network.WellFormed)
    (finder : Finder Number) {source : Nat} (sourceInside : source < network.vertexCount) :
    (network.InDoubleRange → ∀ sink < network.vertexCount,
      ∃ found next, finder.search network source sink = (.ok found, next)) ∧
    ∀ (sink : Int) (found : Bool) (next : Finder Number),
      finder.search network source sink = (.ok found, next) →
      ∀ target < network.vertexCount,
        (next.hasPathTo target = .ok true →
          ∃ vertices edges, next.pathVertices network target = .ok (vertices.map Int.ofNat) ∧
            next.pathEdges network target = .ok edges ∧
            ShortestResidual network finder.tolerance source target vertices edges) ∧
        (next.hasPathTo target = .ok false →
          next.pathVertices network target = .ok [] ∧
            next.pathEdges network target = .ok []) := by
  constructor
  · intro inRange sink sinkInside
    obtain ⟨found, returned⟩ := finder.search_returns inRange.hasRooms wellFormed sourceInside
      sinkInside
    exact ⟨found, _, returned⟩
  · intro sink found next returned target inside
    obtain ⟨explored, -⟩ := explored_of_search wellFormed sourceInside returned
    constructor
    · intro answer
      exact explored.shortestResidual wellFormed ((hasPathTo_natCast next target).mp answer)
    · intro answer
      have unmarked : next.tree.isMarked target = false := by
        rw [explored.hasPathTo_eq inside] at answer
        exact Except.ok.inj answer
      have none := explored.pathArcs_unmarked inside unmarked
      constructor
      · simp only [pathVertices, explored.started, answer]
        rfl
      · simp only [pathEdges, none]
        rfl

/-- The direct lane is full, so the shortest path goes backward along a loaded lane. -/
def fullLane : Network Number :=
  ((((Network.empty 4).attach 0 1 ⟨.int 4, .int 0, .int 1, .int 0⟩).attach 2 1
    ⟨.int 4, .int 0, .int 2, .int 0⟩).attach 2 3 ⟨.int 3, .int 0, .int 0, .int 0⟩).attach 0 3
      ⟨.int 2, .int 0, .int 2, .int 0⟩

theorem search_paths_shortest_fullLane :
    ((create fullLane (.int 0)).after fullLane 0).pathVertices fullLane 3 = .ok [0, 1, 2, 3] ∧
      ((create fullLane (.int 0)).after fullLane 0).pathEdges fullLane 3 = .ok [2, 1, 0] ∧
      ∀ length, Walk (Leads (fullLane.Passable (.int 0))) 0 length 3 → 3 ≤ length := by
  have wellFormed : fullLane.WellFormed :=
    ((((wellFormed_empty 4).attach (by decide) (by decide) _).attach (by decide) (by decide)
      _).attach (by decide) (by decide) _).attach (by decide) (by decide) _
  have returned : (create fullLane (.int 0)).search fullLane 0 3 =
    (.ok true, (create fullLane (.int 0)).after fullLane 0) := rfl
  obtain ⟨-, after⟩ := search_paths_shortest wellFormed (create fullLane (.int 0))
    (show 0 < fullLane.vertexCount by decide)
  obtain ⟨marked, -⟩ := after 3 true _ returned 3 (by decide)
  obtain ⟨vertices, edges, -, listed, path⟩ := marked rfl
  have known : ((create fullLane (.int 0)).after fullLane 0).pathEdges fullLane 3 =
    .ok [2, 1, 0] := rfl
  obtain rfl := Except.ok.inj (known.symm.trans listed)
  exact ⟨rfl, known, path.shortest⟩

end Finder
end NetworkFlow
