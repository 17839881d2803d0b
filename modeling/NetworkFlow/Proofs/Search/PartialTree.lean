/-
This file proves that a search leaves a tree with levels, also when it fails on the way.
The walk back along the tree takes the same arcs whatever happens to the network afterwards,
as long as its edges still stand where they stood.
-/
import NetworkFlow.Proofs.Network.Incidence
import NetworkFlow.Proofs.Residual.Arc

namespace NetworkFlow

open Network

variable {α : Type} {rule : Crossing α} {network later last : Network α} {source : Nat}

/-! ## Searches that may fail -/

namespace Search

/-- What a search keeps at each of its edges, whatever the rule does there. -/
structure Growing (rule : Crossing α) (network : Network α) (source : Nat) (search : Search α) :
    Prop where
  tree : ∃ level, search.tree.Leveled rule network source level
  queued : ∀ vertex ∈ search.queue, search.tree.isMarked vertex

/-- Crossing an edge marks one vertex at most, and the mark of the current one stays. -/
theorem Growing.cross {search : Search α} {current position : Nat}
    (growing : Growing rule network source search) (marked : search.tree.isMarked current)
    (incident : position ∈ network.incident current) :
    Growing rule network source (Search.cross network rule current search position) ∧
      (Search.cross network rule current search position).tree.isMarked current := by
  unfold Search.cross
  split
  · next edge noFault stands =>
    split
    · next target leads =>
      split
      · next fresh =>
        split
        · exact ⟨⟨growing.tree, growing.queued⟩, marked⟩
        · next admits =>
          obtain ⟨level, leveled⟩ := growing.tree
          have crosses : rule.Crosses network ⟨position, current, target⟩ :=
            ⟨incident, edge, stands, leads, admits⟩
          have inRange := ((search.tree.marked_eq_false_iff target).mp fresh).1
          have mark := search.tree.isMarked_reach inRange position
          refine ⟨⟨⟨_, leveled.reach marked crosses fresh⟩, fun vertex member => ?_⟩,
            (mark current).mpr (Or.inr marked)⟩
          rcases List.mem_append.mp member with old | new
          · exact (mark vertex).mpr (Or.inr (growing.queued vertex old))
          · exact (mark vertex).mpr (Or.inl (List.mem_singleton.mp new))
        · exact ⟨growing, marked⟩
      · exact ⟨growing, marked⟩
    · exact ⟨growing, marked⟩
  · exact ⟨growing, marked⟩

theorem Growing.scan {search : Search α} {current : Nat} {rest : List Nat}
    (growing : Growing rule network source search) (queue : search.queue = current :: rest) :
    Growing rule network source
      (Search.scan network rule { search with queue := rest } current) := by
  have popped : Growing rule network source { search with queue := rest } :=
    ⟨growing.tree, fun vertex member => growing.queued vertex (by simp [queue, member])⟩
  have marked : search.tree.isMarked current := growing.queued current (by simp [queue])
  exact (List.foldlRecOn (motive := fun search => Growing rule network source search ∧
    search.tree.isMarked current) (network.incident current) (Search.cross network rule current)
    ⟨popped, marked⟩ fun _ kept _ member => kept.1.cross kept.2 member).1

theorem Growing.explore (goal : Option Nat) (fuel : Nat) {search : Search α}
    (growing : Growing rule network source search) :
    Growing rule network source (Search.explore network rule goal fuel search) := by
  induction fuel generalizing search with
  | zero => exact growing
  | succ fuel inductionHypothesis =>
    rw [Search.explore]
    split
    · exact growing
    · split
      · exact growing
      · next queue => exact inductionHypothesis (growing.scan queue)

/-- A search from a vertex leaves a tree in which each vertex was reached from a lower level. -/
theorem run_leveled (rule : Crossing α) (goal : Option Nat)
    (inRange : source < network.vertexCount) :
    ∃ level, (run network rule goal source).tree.Leveled rule network source level := by
  obtain ⟨exploring, -⟩ := exploring_start rule inRange
  have growing : Growing rule network source (start network.vertexCount source) :=
    ⟨⟨_, exploring.tree⟩, exploring.queued⟩
  exact (growing.explore goal network.vertexCount).tree

end Search

/-! ## Networks that change after a search -/

/-- A network extends another one when the edges of that one still stand where they stood.
Their loads may be any, and vertices and edges may have come. -/
def Network.Extends (later network : Network α) : Prop :=
  ∀ {position : Nat} {edge : Edge α}, network.edges[position]? = some edge →
    ∃ other, later.edges[position]? = some other ∧ other.place = edge.place

theorem Network.Extends.refl (network : Network α) : network.Extends network :=
  fun stands => ⟨_, stands, rfl⟩

theorem Network.Extends.trans (second : last.Extends later) (first : later.Extends network) :
    last.Extends network := by
  intro position edge stands
  obtain ⟨other, found, place⟩ := first stands
  obtain ⟨another, foundToo, placeToo⟩ := second found
  exact ⟨another, foundToo, placeToo.trans place⟩

theorem Network.SameShape.extends (same : SameShape network later) : later.Extends network :=
  fun stands => same.getElem? stands

theorem Network.extends_attach (network : Network α) (tail head : Nat) (load : Load α) :
    (network.attach tail head load).Extends network := by
  intro position edge stands
  have inside := (Array.getElem?_eq_some_iff.mp stands).1
  refine ⟨edge, ?_, rfl⟩
  rw [Network.attach, Array.getElem?_push_lt inside]
  exact (Array.getElem?_eq_getElem inside).symm.trans stands

namespace SearchTree

variable {level : Nat → Nat} {tree : SearchTree}

/-- Every entry of a tree with levels stands for an edge. -/
theorem Leveled.exists_edge (leveled : tree.Leveled rule network source level)
    {vertex position : Nat} (entry : tree.entry vertex = some position) :
    ∃ edge, network.edges[position]? = some edge := by
  have marked : tree.isMarked vertex := by
    by_contra unmarked
    rw [leveled.bare vertex (by simpa using unmarked)] at entry
    cases entry
  have differ : vertex ≠ source := by
    rintro rfl
    rw [leveled.rootBare] at entry
    cases entry
  obtain ⟨arc, known, -, crosses, -⟩ := leveled.parent vertex marked differ
  obtain ⟨edge, stands, -⟩ := crosses.2
  rw [known, Option.some.injEq] at entry
  exact ⟨edge, entry ▸ stands⟩

/-- The walk back takes the same arcs in a network that extends the searched one. -/
theorem Leveled.walk_extended (leveled : tree.Leveled rule network source level)
    (extended : later.Extends network) (root : Option Int) (fuel vertex : Nat)
    (found : List Arc) :
    tree.walk later root fuel vertex found = tree.walk network root fuel vertex found := by
  induction fuel generalizing vertex found with
  | zero => rfl
  | succ fuel inductionHypothesis =>
    rw [SearchTree.walk, SearchTree.walk]
    by_cases here : root = some (vertex : Int)
    · rw [if_pos here, if_pos here]
    · rw [if_neg here, if_neg here]
      cases entry : tree.entry vertex with
      | none =>
        have bare : tree.edgeTo.getD vertex none = none := entry
        simp only [SearchTree.edgeInto, bare]
        rfl
      | some position =>
        obtain ⟨edge, stands⟩ := leveled.exists_edge entry
        obtain ⟨other, standsToo, place⟩ := extended stands
        have reached : tree.edgeTo.getD vertex none = some position := entry
        simp only [SearchTree.edgeInto, reached, stands, standsToo, Option.bind_eq_bind,
          Option.bind_some, Option.pure_def, Edge.otherEnd_eq place, inductionHypothesis]

end SearchTree
end NetworkFlow
