import NetworkFlow.Circulation
import NetworkFlow.Proofs.Matching.Wiring
import NetworkFlow.Proofs.Network.Assembled

namespace NetworkFlow

open Quantity Network

namespace Network

variable {α : Type}

/-- A network grows into another one that has its edges at least and agrees in its parts
when the first one does. -/
structure Grows (first second : Network α) : Prop where
  wellFormed : first.WellFormed → second.WellFormed
  edges : first.edgeCount ≤ second.edgeCount

theorem Grows.refl (network : Network α) : network.Grows network := ⟨id, le_refl _⟩

theorem Grows.trans {first second third : Network α} (left : first.Grows second)
    (right : second.Grows third) : first.Grows third :=
  ⟨right.wellFormed ∘ left.wellFormed, left.edges.trans right.edges⟩

theorem SameShape.grows {first second : Network α} (same : SameShape first second) :
    first.Grows second :=
  ⟨fun wellFormed => wellFormed.ofSameShape same, same.edgeCount.le⟩

theorem grows_addVertex (network : Network α) : network.Grows network.addVertex :=
  ⟨WellFormed.addVertex, le_refl _⟩

variable [Quantity α]

theorem grows_addEdge {network extended : Network α} {tail head : Int} {capacity lower : α}
    (added : network.addEdge tail head capacity lower = .ok extended) :
    network.Grows extended := by
  obtain ⟨first, second, -, -, inside, insideToo, -, rfl⟩ := addEdge_eq_ok added
  exact ⟨fun wellFormed => wellFormed.attach inside insideToo _, by simp⟩

/-- Wires are added until one of them is refused, which keeps what one addition keeps. -/
theorem addWires_induction (keeps : Network α → Prop)
    (addEdge : ∀ {network extended : Network α} {tail head : Int} {capacity : α},
      network.addEdge tail head capacity zero = .ok extended → keeps network → keeps extended)
    (wires : List (Nat × Nat × α)) {network : Network α} (start : keeps network) (total : α) :
    keeps (network.addWires wires total).1 := by
  induction wires generalizing network total with
  | nil => exact start
  | cons wire rest inductionHypothesis =>
    obtain ⟨tail, head, capacity⟩ := wire
    rw [addWires]
    cases added : network.addEdge tail head capacity zero with
    | error fault => exact start
    | ok extended =>
      have kept := addEdge added start
      cases add total capacity with
      | error fault => exact kept
      | ok sum =>
        have further := inductionHypothesis kept sum
        revert further
        dsimp only
        cases extended.addWires rest sum with
        | mk finished outcome => cases outcome <;> exact id

/-- A wiring adds vertices and edges without lower bounds, also when it fails on the way. -/
theorem buildCirculation_induction (keeps : Network α → Prop) {network : Network α}
    (start : keeps network)
    (addVertex : ∀ {network : Network α}, keeps network → keeps network.addVertex)
    (addEdge : ∀ {network extended : Network α} {tail head : Int} {capacity : α},
      network.addEdge tail head capacity zero = .ok extended → keeps network → keeps extended)
    (demands : Demands α) (tolerance : α) :
    keeps (network.buildCirculation demands tolerance).1 := by
  have terminals : keeps network.addVertex.addVertex := addVertex (addVertex start)
  rw [buildCirculation]
  dsimp only
  split
  · exact start
  · next entries _ =>
    have fed := addWires_induction keeps addEdge
      ((entries.filter fun entry => less entry.2 (neg tolerance)).map
        fun entry => (network.vertexCount, entry.1, neg entry.2)) terminals zero
    split
    · next wired => rwa [wired] at fed
    · next fedNetwork totalSupply feedEdges wired =>
      rw [wired] at fed
      have drained := addWires_induction keeps addEdge
        ((entries.filter fun entry => less tolerance entry.2).map
          fun entry => (entry.1, network.vertexCount + 1, entry.2)) fed zero
      split
      · next wiredToo => rwa [wiredToo] at drained
      · next wiredToo => rwa [wiredToo] at drained

theorem grows_buildCirculation (network : Network α) (demands : Demands α) (tolerance : α) :
    network.Grows (network.buildCirculation demands tolerance).1 :=
  buildCirculation_induction network.Grows (.refl network)
    (fun grown => grown.trans (grows_addVertex _))
    (fun added grown => grown.trans (grows_addEdge added)) demands tolerance

end Network

section Reduction

variable {α : Type} [Quantity α]

/-- One step of a folding leaves the network as it is, or it folds the load of one edge. -/
theorem Folding.network_foldEdge (folding : Folding α) (position : Nat) :
    (folding.foldEdge position).network = folding.network ∨
      ∃ edge, folding.network.edges[position]? = some edge ∧
        ¬lessEq edge.lower (ofInt 0) = true ∧
        (folding.foldEdge position).network =
          folding.network.modifyLoad position fun _ => (foldLoad edge.toLoad).1 := by
  rw [foldEdge]
  split
  · next edge noFault stands =>
    split
    · exact .inl rfl
    · next large =>
      dsimp only
      split
      · exact .inl rfl
      · exact .inr ⟨edge, stands, large, rfl⟩
  · exact .inl rfl

/-- A reduction keeps what the folding of one edge keeps, also when it fails on the way. -/
theorem Network.reduceLowerBounds_induction (keeps : Network α → Prop) {network : Network α}
    (start : keeps network)
    (step : ∀ {network : Network α} {position : Nat} {edge : Edge α},
      network.edges[position]? = some edge → ¬lessEq edge.lower (ofInt 0) = true →
      keeps network →
      keeps (network.modifyLoad position fun _ => (Folding.foldLoad edge.toLoad).1))
    (demands : List α) (tolerance : α) :
    keeps (network.reduceLowerBounds demands tolerance).1 := by
  have folded : keeps (network.foldAll demands.length).network := by
    refine List.foldlRecOn (motive := fun folding : Folding α => keeps folding.network)
      (List.range network.edgeCount) Folding.foldEdge start fun folding kept position _ => ?_
    rcases folding.network_foldEdge position with same | ⟨edge, stands, large, next⟩
    · rwa [same]
    · rw [next]
      exact step stands large kept
  rw [reduceLowerBounds]
  dsimp only
  split
  · exact start
  · exact start
  · split <;> exact folded

/-- A reduction moves no edge, also when it fails between two edges. -/
theorem Network.sameShape_reduceLowerBounds (network : Network α) (demands : List α)
    (tolerance : α) : SameShape network (network.reduceLowerBounds demands tolerance).1 :=
  reduceLowerBounds_induction (SameShape network) (.refl network)
    (fun _ _ same => same.trans (sameShape_modifyLoad _ _ _)) demands tolerance

end Reduction

section Matching

variable {α : Type} [Quantity α] {matching next : MatchingNetwork α}

theorem MatchingNetwork.Wired.of_addPair (wired : matching.Wired) {pair : Int × Int}
    (added : matching.addPair pair = .ok next) : next.Wired := by
  obtain ⟨left, right⟩ := pair
  have accepted : (0 ≤ left ∧ left < matching.leftCount) ∧
      (0 ≤ right ∧ right < matching.rightCount) := by
    unfold MatchingNetwork.addPair at added
    by_cases leftInside : 0 ≤ left ∧ left < matching.leftCount
    · by_cases rightInside : 0 ≤ right ∧ right < matching.rightCount
      · exact ⟨leftInside, rightInside⟩
      · simp [leftInside, rightInside, throw_bind, pure, Except.pure] at added
    · simp [leftInside, throw_bind] at added
  obtain ⟨⟨leftLeast, leftMost⟩, rightLeast, rightMost⟩ := accepted
  lift left to Nat using leftLeast
  lift right to Nat using rightLeast
  obtain ⟨other, addedToo, otherWired, -⟩ := wired.addPair (by omega : left < matching.leftCount)
    (by omega : right < matching.rightCount)
  rw [added] at addedToo
  rwa [Except.ok.inj addedToo]

theorem MatchingNetwork.Wired.of_addPairs (wired : matching.Wired) {pairs : List (Int × Int)}
    (added : pairs.foldlM MatchingNetwork.addPair matching = .ok next) : next.Wired := by
  induction pairs generalizing matching with
  | nil => rwa [← Except.ok.inj added]
  | cons pair rest inductionHypothesis =>
    obtain ⟨middle, first, others⟩ := ok_of_bind added
    exact inductionHypothesis (wired.of_addPair first) others

/-- A matching network that is built has its parts in step. -/
theorem MatchingNetwork.wired_of_build {leftCount rightCount : Int} {pairs : List (Int × Int)}
    (built : build leftCount rightCount pairs = .ok matching) : matching.Wired := by
  unfold build at built
  split at built
  · cases built
  · exact (wired_sides _ _).of_addPairs built

end Matching
end NetworkFlow
