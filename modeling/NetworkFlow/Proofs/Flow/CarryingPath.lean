import NetworkFlow.FlowPath
import NetworkFlow.Proofs.Arithmetic.Least
import NetworkFlow.Proofs.Residual.ShortestPaths

namespace NetworkFlow

open Quantity Network

section Rule

variable {α : Type} [Quantity α] {network : Network α} {flows : Table Int α} {tolerance : α}

/-- An arc is loaded when it goes along its edge from the tail to the head, and the entry
of the edge exceeds the tolerance. -/
def Network.Loaded (network : Network α) (flows : Table Int α) (tolerance : α) (arc : Arc) :
    Prop :=
  ∃ edge flow, network.edges[arc.edge]? = some edge ∧ edge.tail = arc.origin ∧
    edge.head = arc.target ∧ flows.find? arc.edge = some flow ∧ less tolerance flow = true

/-- An edge is admitted when it has an entry that exceeds the tolerance. -/
theorem Crossing.admits_carrying_iff (least : less tolerance zero = false) {vertex : Nat}
    {edge : Edge α} : (Crossing.carrying flows tolerance).admits vertex edge = .ok true ↔
      ∃ flow, flows.find? edge.index = some flow ∧ less tolerance flow = true := by
  simp only [carrying, Except.ok.injEq]
  cases flows.find? edge.index with
  | none => simp [least]
  | some flow => simp

/-- The rule crosses exactly the loaded arcs. -/
theorem crosses_carrying (wellFormed : network.WellFormed) (least : less tolerance zero = false) :
    (Crossing.carrying flows tolerance).Crosses network = network.Loaded flows tolerance := by
  funext arc
  refine propext ⟨?_, ?_⟩
  · rintro ⟨-, edge, stands, leads, admits⟩
    obtain ⟨flow, found, wide⟩ := (Crossing.admits_carrying_iff least).mp admits
    simp only [Crossing.carrying, Option.ite_none_right_eq_some, Option.some.injEq] at leads
    rw [wellFormed.index_eq stands] at found
    exact ⟨edge, flow, stands, leads.1, leads.2, found, wide⟩
  · rintro ⟨edge, flow, stands, tail, head, found, wide⟩
    rw [← wellFormed.index_eq stands] at found
    refine ⟨wellFormed.mem_incident_iff.mpr ⟨edge, stands, Or.inl tail⟩, edge, stands, ?_,
      (Crossing.admits_carrying_iff least).mpr ⟨flow, found, wide⟩⟩
    simp only [Crossing.carrying, if_pos tail, head]

theorem carrying_decides (wellFormed : network.WellFormed) (flows : Table Int α) (tolerance : α) :
    (Crossing.carrying flows tolerance).Decides network := by
  intro vertex inside position incident
  obtain ⟨edge, stands, ends⟩ := wellFormed.mem_incident_iff.mp incident
  refine ⟨edge, stands, fun next leads => ⟨?_, _, rfl⟩⟩
  simp only [Crossing.carrying, Option.ite_none_right_eq_some, Option.some.injEq] at leads
  rw [← leads.2]
  exact wellFormed.head edge (Array.mem_of_getElem? stands)

theorem carrying_returns (network : Network α) (flows : Table Int α) (tolerance : α) :
    (Crossing.carrying flows tolerance).Returns network := by
  rintro arc edge ⟨-, other, stands, leads, -⟩ standsToo differ
  obtain rfl := Option.some.inj (standsToo.symm.trans stands)
  simp only [Crossing.carrying, Option.ite_none_right_eq_some, Option.some.injEq] at leads
  obtain ⟨tail, head⟩ := leads
  rw [Edge.otherEnd, if_neg (by rw [tail]; exact differ.symm), tail]

end Rule

/-- A path of loaded arcs from a source to a target that has as few edges as possible
and carries the least entry of its edges. -/
structure ShortestLoaded (network : Network Number) (flows : Table Int Number) (tolerance : Number)
    (source target : Nat) (path : FlowPath Number) : Prop where
  starts : path.vertices.head? = some source
  ends : path.vertices.getLast? = some target
  simple : path.vertices.Nodup
  length : path.edges.length + 1 = path.vertices.length
  joins : ∀ (place position : Nat), path.edges[place]? = some position →
    ∃ here next, path.vertices[place]? = some here ∧ path.vertices[place + 1]? = some next ∧
      network.Loaded flows tolerance ⟨position, here, next⟩
  shortest : ∀ length, Walk (Leads (network.Loaded flows tolerance)) source length target →
    path.edges.length ≤ length
  attained : ∃ position ∈ path.edges, flows.find? (position : Int) = some path.flow
  least : ∀ position ∈ path.edges, ∀ flow, flows.find? (position : Int) = some flow →
    lessEq path.flow flow = true
  wide : less tolerance path.flow = true

section Path

variable {network : Network Number} {flows : Table Int Number} {tolerance : Number}
  {source target : Nat} {arcs : List Arc}

/-- Among entries that exceed a tolerance there is a least one. -/
theorem least_entry {positions : List Nat} (nonempty : positions ≠ [])
    (entered : ∀ position ∈ positions, ∃ flow, flows.find? (position : Int) = some flow ∧
      less tolerance flow = true) :
    ∃ carried flow, positions.mapM (entryOf flows) = .ok carried ∧ least? carried = some flow ∧
      (∃ position ∈ positions, flows.find? (position : Int) = some flow) ∧
      ∀ position ∈ positions, ∀ other, flows.find? (position : Int) = some other →
        lessEq flow other = true := by
  have read : positions.mapM (entryOf flows) =
      .ok (positions.map fun (position : Nat) => (flows.find? (position : Int)).getD zero) := by
    refine mapM_ok fun position member => ?_
    obtain ⟨flow, found, -⟩ := entered position member
    simp only [entryOf, found, Option.getD_some]
  have ranked : ∀ number ∈ positions.map fun (position : Nat) =>
      (flows.find? (position : Int)).getD zero, ∃ rank, number.rank? = some rank := by
    intro number member
    obtain ⟨position, inside, rfl⟩ := List.mem_map.mp member
    obtain ⟨flow, found, wide⟩ := entered position inside
    obtain ⟨-, rank, -, known, -⟩ := Number.less_iff_rank.mp wide
    exact ⟨rank, by rw [found, Option.getD_some, known]⟩
  obtain ⟨flow, found⟩ : ∃ flow, least? (positions.map fun (position : Nat) =>
      (flows.find? (position : Int)).getD zero) = some flow := by
    obtain ⟨first, rest, rfl⟩ := List.exists_cons_of_ne_nil nonempty
    exact ⟨_, rfl⟩
  refine ⟨_, flow, read, found, ?_, ?_⟩
  · obtain ⟨position, inside, same⟩ := List.mem_map.mp (mem_of_least? found)
    obtain ⟨entry, known, -⟩ := entered position inside
    rw [known, Option.getD_some] at same
    exact ⟨position, inside, known.trans (congrArg some same)⟩
  · intro position inside other known
    refine Number.lessEq_of_least? found ranked other (List.mem_map.mpr ⟨position, inside, ?_⟩)
    rw [known, Option.getD_some]

/-- The path of a search tree to its goal is a shortest path of loaded arcs. -/
theorem shortestLoaded_flowPath
    (shortest : ShortestPath (network.Loaded flows tolerance) network.vertexCount source target
      arcs)
    (differ : source ≠ target) :
    ∃ path, Network.flowPath flows target arcs = .ok path ∧
      ShortestLoaded network flows tolerance source target path := by
  have nonempty : (arcs.map Arc.edge).reverse ≠ [] := by
    rw [Ne, List.reverse_eq_nil_iff, List.map_eq_nil_iff]
    exact shortest.path.ne_nil differ
  have entered : ∀ position ∈ (arcs.map Arc.edge).reverse, ∃ flow,
      flows.find? (position : Int) = some flow ∧ less tolerance flow = true := by
    intro position member
    obtain ⟨arc, inside, rfl⟩ := List.mem_map.mp (List.mem_reverse.mp member)
    obtain ⟨edge, flow, -, -, -, found, wide⟩ := shortest.crossed arc inside
    exact ⟨flow, found, wide⟩
  obtain ⟨carried, flow, read, found, attained, least⟩ := least_entry nonempty entered
  refine ⟨⟨(stops target arcs).reverse, (arcs.map Arc.edge).reverse, flow⟩, ?_, ?_⟩
  · simp only [Network.flowPath, read, ok_bind, found]
    rfl
  · constructor
    case starts => exact shortest.path.head?_vertices
    case ends => exact getLast?_vertices target arcs
    case simple => exact List.nodup_reverse.mpr shortest.nodup_stops
    case length =>
      rw [List.length_reverse, List.length_reverse, List.length_map, length_stops]
    case joins =>
      intro place position stands
      rw [← List.map_reverse, List.getElem?_map] at stands
      obtain ⟨arc, listed, rfl⟩ := Option.map_eq_some_iff.mp stands
      obtain ⟨here, next⟩ := shortest.path.vertices_getElem? listed
      have inside : arc ∈ arcs := List.mem_reverse.mp (List.mem_of_getElem? listed)
      exact ⟨arc.origin, arc.target, here, next, shortest.crossed arc inside⟩
    case shortest =>
      intro length walk
      rw [List.length_reverse, List.length_map]
      exact shortest.length_le walk
    case attained => exact attained
    case least => exact least
    case wide =>
      obtain ⟨position, inside, known⟩ := attained
      obtain ⟨other, knownToo, wide⟩ := entered position inside
      rwa [Option.some.inj (known.symm.trans knownToo)]

end Path

/-- An extraction finds a shortest path of loaded arcs, or says that no such arcs lead
from the source to the target. -/
theorem extractPath_cases {network : Network Number} (wellFormed : network.WellFormed)
    (flows : Table Int Number) {source target : Nat} (sourceInside : source < network.vertexCount)
    (targetInside : target < network.vertexCount) (differ : source ≠ target) {tolerance : Number}
    (nonneg : lessEq zero tolerance = true) :
    (∃ path, network.extractPath flows source target tolerance = .ok (some path) ∧
      (∃ length, Walk (Leads (network.Loaded flows tolerance)) source length target) ∧
      ShortestLoaded network flows tolerance source target path) ∨
    (network.extractPath flows source target tolerance = .ok none ∧
      ¬∃ length, Walk (Leads (network.Loaded flows tolerance)) source length target) := by
  have least : less tolerance zero = false := Number.not_less_of_lessEq nonneg
  obtain ⟨⟨level, lowest⟩, marked_iff⟩ :=
    Search.run_goal (carrying_decides wellFormed flows tolerance) sourceInside target
  rw [crosses_carrying wellFormed least] at marked_iff
  have computed : network.extractPath flows source target tolerance =
      let search := Search.run network (Crossing.carrying flows tolerance) (some target) source
      if search.tree.isMarked target then do
        let arcs ← search.tree.arcsTo network (some (source : Int)) target
        return some (← Network.flowPath flows target arcs)
      else return none := by
    simp only [extractPath, checkVertex_natCast _ sourceInside, checkVertex_natCast _ targetInside,
      ok_bind, if_neg differ]
  rw [computed]
  by_cases marked : (Search.run network (Crossing.carrying flows tolerance) (some target)
      source).tree.isMarked target
  · obtain ⟨arcs, found, shortest⟩ :=
      lowest.arcsTo (carrying_returns network flows tolerance) marked
    rw [crosses_carrying wellFormed least] at shortest
    obtain ⟨path, carried, correct⟩ := shortestLoaded_flowPath shortest differ
    refine Or.inl ⟨path, ?_, marked_iff.mp marked, correct⟩
    simp only [marked, if_true, found, ok_bind, carried]
    rfl
  · refine Or.inr ⟨?_, fun walk => marked (marked_iff.mpr walk)⟩
    simp only [if_neg marked]
    rfl

/-- A path is extracted from every flows without a fault. There is one exactly when loaded arcs
lead from the source to the target, and then it is a shortest one with the least entry
of its edges. -/
theorem extractPath_shortest (network : Network Number) (wellFormed : network.WellFormed)
    (flows : Table Int Number) (source target : Nat) (sourceInside : source < network.vertexCount)
    (targetInside : target < network.vertexCount) (differ : source ≠ target) (tolerance : Number)
    (nonneg : lessEq zero tolerance = true) :
    ∃ answer, network.extractPath flows source target tolerance = .ok answer ∧
      (answer = none ↔
        ¬∃ length, Walk (Leads (network.Loaded flows tolerance)) source length target) ∧
      ∀ path, answer = some path → ShortestLoaded network flows tolerance source target path := by
  rcases extractPath_cases wellFormed flows sourceInside targetInside differ nonneg with
    ⟨path, computed, walk, correct⟩ | ⟨computed, none⟩
  · refine ⟨some path, computed, ⟨nofun, fun none => absurd walk none⟩, ?_⟩
    intro other same
    rw [← Option.some.inj same]
    exact correct
  · exact ⟨Option.none, computed, ⟨fun _ => none, fun _ => rfl⟩, nofun⟩

/-- A cycle of two vertices, a parallel lane and two ways to the last vertex. -/
def crossroads : Network Number :=
  ((((((Network.empty 4).attach 0 1 ⟨.int 3, .int 0, zero, zero⟩).attach 1 0
    ⟨.int 3, .int 0, zero, zero⟩).attach 1 3 ⟨.int 3, .int 0, zero, zero⟩).attach 0 2
      ⟨.int 3, .int 0, zero, zero⟩).attach 2 3 ⟨.int 3, .int 0, zero, zero⟩).attach 0 1
        ⟨.int 3, .int 0, zero, zero⟩

/-- The first lane has no entry, so the path takes the parallel one. -/
theorem extractPath_shortest_crossroads :
    ∃ path, crossroads.extractPath (.ofList [(1, .int 3), (2, .real (.ofDecimal false 5 (-1))),
        (5, .int 2)]) 0 3 (.int 0) = .ok (some path) ∧
      path.vertices = [0, 1, 3] ∧ path.edges = [5, 2] ∧
      less (.int 0) path.flow = true ∧ lessEq path.flow (.int 2) = true := by
  have wellFormed : crossroads.WellFormed :=
    ((((((wellFormed_empty 4).attach (by decide) (by decide) _).attach (by decide) (by decide)
      _).attach (by decide) (by decide) _).attach (by decide) (by decide) _).attach (by decide)
        (by decide) _).attach (by decide) (by decide) _
  have known : (crossroads.extractPath (.ofList [(1, .int 3),
      (2, .real (.ofDecimal false 5 (-1))), (5, .int 2)]) 0 3 (.int 0)).toOption.map
      (Option.map fun path => (path.vertices, path.edges)) =
        some (some ([0, 1, 3], [5, 2])) := by decide +kernel
  obtain ⟨answer, computed, -, correct⟩ := extractPath_shortest crossroads wellFormed
    (.ofList [(1, .int 3), (2, .real (.ofDecimal false 5 (-1))), (5, .int 2)]) 0 3 (by decide)
    (by decide) (by decide) (.int 0) (by decide +kernel)
  have computedHere : crossroads.extractPath (.ofList [(1, .int 3),
      (2, .real (.ofDecimal false 5 (-1))), (5, .int 2)]) 0 3 (.int 0) = .ok answer := computed
  rw [computedHere] at known
  cases answer with
  | none => cases known
  | some path =>
    obtain ⟨vertices, edges⟩ := Prod.mk.inj (Option.some.inj (Option.some.inj known))
    have shortest := correct path rfl
    refine ⟨path, computedHere, vertices, edges, shortest.wide, ?_⟩
    exact shortest.least 5 (by rw [edges]; decide) (.int 2) rfl

end NetworkFlow
