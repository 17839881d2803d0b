import NetworkFlow.Proofs.Arithmetic.Finite
import NetworkFlow.Proofs.Residual.Arc
import NetworkFlow.Proofs.Search.FaultFree

namespace NetworkFlow

open Quantity Network

/-- The edge leads from a vertex to its other end. -/
theorem Edge.otherEnd_eq_iff {α : Type} {edge : Edge α} {origin target : Nat}
    (ends : edge.tail = origin ∨ edge.head = origin) : edge.otherEnd origin = target ↔
      (edge.tail = origin ∧ edge.head = target ∨ edge.head = origin ∧ edge.tail = target) := by
  unfold Edge.otherEnd
  split <;> grind

namespace Finder

variable {α : Type}

theorem hasPathTo_natCast (finder : Finder α) (vertex : Nat) :
    finder.hasPathTo vertex = .ok true ↔ finder.tree.isMarked vertex := by
  unfold hasPathTo
  by_cases inside : vertex < finder.tree.marked.size
  · rw [position?_natCast inside]
    exact ⟨Except.ok.inj, congrArg Except.ok⟩
  · have outside : position? finder.tree.marked.size (vertex : Int) = none := by
      simp [position?, inside]
    rw [outside]
    constructor
    · intro answer
      cases answer
    · intro marked
      exact absurd (SearchTree.lt_size_of_isMarked marked) inside

end Finder

variable {α : Type} [Quantity α]

/-- An arc is passable when it goes along its edge from one end to the other,
and the room toward its target exceeds the tolerance. -/
def Network.Passable (network : Network α) (tolerance : α) (arc : Arc) : Prop :=
  ∃ edge room, network.edges[arc.edge]? = some edge ∧
    (edge.tail = arc.origin ∧ edge.head = arc.target ∨
      edge.head = arc.origin ∧ edge.tail = arc.target) ∧
    edge.roomToward arc.target = .ok room ∧ less tolerance room = true

/-- A vertex is reached when passable arcs lead to it from the source, one after the other. -/
def Network.Reaches (network : Network α) (tolerance : α) (source vertex : Nat) : Prop :=
  ∃ length, Walk (Leads (network.Passable tolerance)) source length vertex

/-- The room of every direction is computed without a fault. -/
def Network.HasRooms (network : Network α) : Prop :=
  ∀ edge ∈ network.edges, ∀ forward, ∃ room, edge.room forward = .ok room

/-- The room toward the other end is the room of the direction that leads there. -/
theorem Edge.roomToward_otherEnd (edge : Edge α) (vertex : Nat) :
    edge.roomToward (edge.otherEnd vertex) =
      edge.room (edge.otherEnd vertex = edge.head) := by
  have known : edge.endpoint (edge.otherEnd vertex) = .ok (edge.otherEnd vertex) := by
    unfold Edge.endpoint Edge.otherEnd
    split <;> grind
  rw [Edge.roomToward, known]
  rfl

theorem Crossing.admits_residual_iff {tolerance : α} {vertex : Nat} {edge : Edge α} :
    (Crossing.residual tolerance).admits vertex edge = .ok true ↔
      ∃ room, edge.roomToward (edge.otherEnd vertex) = .ok room ∧ less tolerance room = true := by
  rw [Edge.roomToward_otherEnd]
  simp only [Crossing.residual]
  cases edge.room (edge.otherEnd vertex = edge.head) with
  | error fault =>
    constructor
    · intro admitted
      cases admitted
    · rintro ⟨room, computed, -⟩
      cases computed
  | ok room =>
    constructor
    · exact fun wide => ⟨room, rfl, Except.ok.inj wide⟩
    · rintro ⟨other, same, wide⟩
      obtain rfl := Except.ok.inj same
      exact congrArg Except.ok wide

section

variable {network : Network α} {source : Nat}

/-- The residual rule crosses exactly the passable arcs. -/
theorem crosses_residual (wellFormed : network.WellFormed) (tolerance : α) :
    (Crossing.residual tolerance).Crosses network = network.Passable tolerance := by
  funext arc
  refine propext ⟨?_, ?_⟩
  · rintro ⟨incident, edge, stands, leads, admits⟩
    obtain ⟨other, standsToo, ends⟩ := wellFormed.mem_incident_iff.mp incident
    obtain rfl := Option.some.inj (stands.symm.trans standsToo)
    have target : edge.otherEnd arc.origin = arc.target := Option.some.inj leads
    obtain ⟨room, toward, wide⟩ := Crossing.admits_residual_iff.mp admits
    exact ⟨edge, room, stands, (Edge.otherEnd_eq_iff ends).mp target, target ▸ toward, wide⟩
  · rintro ⟨edge, room, stands, joins, toward, wide⟩
    have ends : edge.tail = arc.origin ∨ edge.head = arc.origin := joins.imp And.left And.left
    have target := (Edge.otherEnd_eq_iff ends).mpr joins
    refine ⟨wellFormed.mem_incident_iff.mpr ⟨edge, stands, ends⟩, edge, stands, ?_, ?_⟩
    · exact congrArg some target
    · exact Crossing.admits_residual_iff.mpr ⟨room, target ▸ toward, wide⟩

theorem residual_staysIn (wellFormed : network.WellFormed) (tolerance : α) :
    (Crossing.residual tolerance).StaysIn network := by
  intro vertex inside position incident
  obtain ⟨edge, stands, ends⟩ := wellFormed.mem_incident_iff.mp incident
  refine ⟨edge, stands, fun next leads => ?_⟩
  have member := Array.mem_of_getElem? stands
  rcases (Edge.otherEnd_eq_iff ends).mp (Option.some.inj leads) with ⟨-, head⟩ | ⟨-, tail⟩
  · exact head ▸ wellFormed.head edge member
  · exact tail ▸ wellFormed.tail edge member

/-- Where every room is computed, the rule gives a verdict on every edge. -/
theorem Network.HasRooms.decides (rooms : network.HasRooms) (wellFormed : network.WellFormed)
    (tolerance : α) : (Crossing.residual tolerance).Decides network := by
  intro vertex inside position incident
  obtain ⟨edge, stands, within⟩ := residual_staysIn wellFormed tolerance vertex inside position
    incident
  obtain ⟨room, computed⟩ := rooms edge (Array.mem_of_getElem? stands)
    (edge.otherEnd vertex = edge.head)
  refine ⟨edge, stands, fun next leads => ⟨within next leads, less tolerance room, ?_⟩⟩
  simp only [Crossing.residual, computed]
  rfl

end

namespace Finder

variable {network : Network α} {finder next : Finder α} {source : Nat}

/-- What a search from a vertex leaves behind. -/
structure Explored (network : Network α) (tolerance : α) (source : Nat) (next : Finder α) :
    Prop where
  started : next.source = some (source : Int)
  spans : ∃ level, next.tree.Spans (.residual tolerance) network source level

theorem Explored.size {tolerance : α} (explored : next.Explored network tolerance source) :
    next.tree.marked.size = network.vertexCount := by
  obtain ⟨level, spans⟩ := explored.spans
  exact spans.markedSize

/-- A vertex is marked exactly when it is reached. -/
theorem Explored.isMarked_iff {tolerance : α} (explored : next.Explored network tolerance source)
    (wellFormed : network.WellFormed) (vertex : Nat) :
    next.tree.isMarked vertex ↔ network.Reaches tolerance source vertex := by
  obtain ⟨level, spans⟩ := explored.spans
  rw [Reaches, ← crosses_residual wellFormed tolerance]
  exact ⟨fun marked => ⟨_, spans.walk marked⟩, fun ⟨_, walk⟩ => (spans.of_walk walk).1⟩

/-- The finder after a search from a vertex. -/
def after (finder : Finder α) (network : Network α) (source : Nat) : Finder α :=
  { finder with
    source := some (source : Int)
    tree := (Search.run network (.residual finder.tolerance) none source).tree }

/-- A search from a vertex ends with a fault or looks at the mark of the sink. -/
theorem search_natCast (finder : Finder α) (sourceInside : source < network.vertexCount)
    (sink : Int) : finder.search network source sink =
      (match (Search.run network (.residual finder.tolerance) none source).fault with
      | some fault => .error fault
      | none => (finder.after network source).hasPathTo sink, finder.after network source) := by
  simp only [search, treeFrom, position?_natCast sourceInside,
    if_neg (not_lt.mpr (Int.natCast_nonneg source))]
  cases (Search.run network (.residual finder.tolerance) none source).fault <;> rfl

/-- A search that returns explored everything that it reaches. -/
theorem explored_of_search (wellFormed : network.WellFormed)
    (sourceInside : source < network.vertexCount) {sink : Int} {found : Bool}
    (returned : finder.search network source sink = (.ok found, next)) :
    next.Explored network finder.tolerance source ∧ next.hasPathTo sink = .ok found := by
  rw [search_natCast finder sourceInside] at returned
  obtain ⟨outcome, rfl⟩ := Prod.mk.inj returned
  cases failed : (Search.run network (.residual finder.tolerance) none source).fault with
  | some fault =>
    rw [failed] at outcome
    cases outcome
  | none =>
    rw [failed] at outcome
    have spans := Search.spans_of_noFault (residual_staysIn wellFormed finder.tolerance)
      sourceInside failed
    exact ⟨⟨rfl, spans⟩, outcome⟩

/-- Where every room is computed, a search between vertices of the network returns. -/
theorem search_returns (rooms : network.HasRooms) (wellFormed : network.WellFormed)
    (finder : Finder α) {sink : Nat} (sourceInside : source < network.vertexCount)
    (sinkInside : sink < network.vertexCount) :
    ∃ found, finder.search network source sink = (.ok found, finder.after network source) := by
  obtain ⟨noFault, level, spans⟩ := Search.run_spans (rooms.decides wellFormed finder.tolerance)
    sourceInside
  rw [← spans.markedSize] at sinkInside
  rw [search_natCast finder sourceInside, noFault]
  refine ⟨(finder.after network source).tree.isMarked sink, ?_⟩
  simp only [hasPathTo, after, position?_natCast sinkInside]

end Finder

/-! ## Numbers -/

theorem exists_of_isOk {β ε : Type} {outcome : Except ε β} (succeeds : outcome.isOk = true) :
    ∃ value, outcome = .ok value := by
  cases outcome with
  | ok value => exact ⟨value, rfl⟩
  | error fault => cases succeeds

/-- The difference of two numbers in the range of binary64 is computed. -/
theorem Number.sub_of_toBinary {first second : Number} {left right : Binary64}
    (near : first.toBinary = .ok left) (nearToo : second.toBinary = .ok right) :
    ∃ difference, Quantity.sub first second = .ok difference := by
  simp only [sub_eq_ok, Number.sub]
  cases kind : first.value with
  | inr binary =>
    rw [combine_of_inr (.inl ⟨binary, kind⟩), near, nearToo]
    exact ⟨_, rfl⟩
  | inl value =>
    cases kindToo : second.value with
    | inr binary =>
      rw [combine_of_inr (.inr ⟨binary, kindToo⟩), near, nearToo]
      exact ⟨_, rfl⟩
    | inl other => exact ⟨.int (value - other), by simp only [Number.combine, kind, kindToo]⟩

/-- Every capacity and every flow has a nearest binary64 number.
Infinities and what is not a number are binary64 numbers themselves. -/
def Network.InDoubleRange (network : Network Number) : Prop :=
  ∀ edge ∈ network.edges, (∃ binary, edge.capacity.toBinary = .ok binary) ∧
    ∃ binary, edge.flow.toBinary = .ok binary

theorem Network.InDoubleRange.hasRooms {network : Network Number}
    (inRange : network.InDoubleRange) : network.HasRooms := by
  intro edge member forward
  obtain ⟨⟨left, near⟩, right, nearToo⟩ := inRange edge member
  cases forward with
  | true => exact Number.sub_of_toBinary near nearToo
  | false => exact ⟨edge.flow, rfl⟩

end NetworkFlow
