import NetworkFlow.Proofs.Arithmetic.Number
import NetworkFlow.Proofs.Network.StandsFor

namespace NetworkFlow

open Quantity ExactQuantity Network

namespace Network

variable {α : Type} [Quantity α]

/-- The vertices and the edges of an assembled network were added one by one.
Its flows may have changed since. -/
inductive Assembled : Network α → Prop where
  | create {count : Int} {network : Network α} (created : Network.create count = .ok network) :
      Assembled network
  | addVertex {network : Network α} (assembled : Assembled network) : Assembled network.addVertex
  | addEdge {network extended : Network α} {tail head : Int} {capacity lower : α}
      (assembled : Assembled network)
      (added : network.addEdge tail head capacity lower = .ok extended) : Assembled extended
  | reflow {network : Network α} (assembled : Assembled network) (flow : Edge α → α) :
      Assembled (network.mapLoads fun edge => { edge.toLoad with flow := flow edge })

omit [Quantity α] in
/-- A network that is created has vertices only. -/
theorem create_eq_ok {count : Int} {network : Network α}
    (created : Network.create count = .ok network) : network = empty count.toNat := by
  unfold Network.create at created
  split at created
  · cases created
  · exact (Except.ok.inj created).symm

/-- An edge is added between two vertices when its bounds are accepted. -/
theorem addEdge_eq_ok {network extended : Network α} {tail head : Int} {capacity lower : α}
    (added : network.addEdge tail head capacity lower = .ok extended) :
    ∃ first second : Nat, tail = first ∧ head = second ∧ first < network.vertexCount ∧
      second < network.vertexCount ∧
      Load.check ⟨capacity, lower, zero, zero⟩ tail head = .ok () ∧
      extended = network.attach first second ⟨capacity, lower, zero, zero⟩ := by
  unfold addEdge at added
  cases tails : network.checkVertex "Edge tail" tail with
  | error fault => simp [tails, error_bind] at added
  | ok first =>
    cases heads : network.checkVertex "Edge head" head with
    | error fault => simp [tails, heads, ok_bind, error_bind] at added
    | ok second =>
      cases checked : Load.check (⟨capacity, lower, zero, zero⟩ : Load α) tail head with
      | error fault => simp [tails, heads, checked, ok_bind] at added
      | ok accepted =>
        simp only [tails, heads, checked, ok_bind] at added
        obtain ⟨equalTail, inside⟩ := checkVertex_eq_ok tails
        obtain ⟨equalHead, insideToo⟩ := checkVertex_eq_ok heads
        exact ⟨first, second, equalTail, equalHead, inside, insideToo, rfl,
          (Except.ok.inj added).symm⟩

namespace Assembled

theorem wellFormed {network : Network α} (assembled : network.Assembled) : network.WellFormed := by
  induction assembled with
  | create created =>
    obtain rfl := create_eq_ok created
    exact wellFormed_empty _
  | addVertex assembled inductionHypothesis => exact inductionHypothesis.addVertex
  | addEdge assembled added inductionHypothesis =>
    obtain ⟨first, second, -, -, inside, insideToo, -, rfl⟩ := addEdge_eq_ok added
    exact inductionHypothesis.attach inside insideToo _
  | reflow assembled flow inductionHypothesis =>
    exact inductionHypothesis.ofSameShape (sameShape_mapLoads _ _)

/-- The bounds of every edge were accepted, and none of them was folded. -/
theorem load {network : Network α} (assembled : network.Assembled) :
    ∀ edge ∈ network.edges, edge.toLoad.check edge.tail edge.head = .ok () ∧
      edge.offset = zero := by
  induction assembled with
  | create created =>
    obtain rfl := create_eq_ok created
    intro edge member
    simp [empty] at member
  | addVertex assembled inductionHypothesis => exact inductionHypothesis
  | addEdge assembled added inductionHypothesis =>
    obtain ⟨first, second, rfl, rfl, -, -, checked, rfl⟩ := addEdge_eq_ok added
    intro edge member
    rcases Array.mem_push.mp member with old | rfl
    · exact inductionHypothesis edge old
    · exact ⟨checked, rfl⟩
  | reflow assembled flow inductionHypothesis =>
    intro edge member
    obtain ⟨old, inside, rfl⟩ := mem_mapLoads.mp member
    exact inductionHypothesis old inside

end Assembled

/-- A network with vertices only is assembled. -/
theorem assembled_empty (count : Nat) : (empty count : Network α).Assembled := by
  have created : Network.create (count : Int) = .ok (empty count : Network α) := by
    rw [Network.create, if_neg (not_lt.mpr (Int.natCast_nonneg count)), Int.toNat_natCast]
  exact .create created

/-- An edge between two vertices may be added when its bounds are accepted. -/
theorem Assembled.attach {network : Network α} (assembled : network.Assembled) {tail head : Nat}
    {capacity lower : α} (tailInside : tail < network.vertexCount)
    (headInside : head < network.vertexCount)
    (checked : Load.check ⟨capacity, lower, zero, zero⟩ tail head = .ok ()) :
    (network.attach tail head ⟨capacity, lower, zero, zero⟩).Assembled := by
  have added : network.addEdge tail head capacity lower =
      .ok (network.attach tail head ⟨capacity, lower, zero, zero⟩) := by
    simp only [Network.addEdge, checkVertex_natCast _ tailInside, checkVertex_natCast _ headInside,
      ok_bind, checked]
    rfl
  exact .addEdge assembled added

/-- The smallest network with an edge between two vertices. -/
def single (capacity lower : α) : Network α :=
  (empty 2).attach 0 1 ⟨capacity, lower, zero, zero⟩

theorem assembled_single {capacity lower : α}
    (checked : Load.check ⟨capacity, lower, zero, zero⟩ 0 1 = .ok ()) :
    (single capacity lower).Assembled :=
  (assembled_empty 2).attach (by simp) (by simp) checked

theorem mem_single {capacity lower : α} {edge : Edge α}
    (member : edge ∈ (single capacity lower).edges) :
    edge = ⟨⟨capacity, lower, zero, zero⟩, 0, 1, 0⟩ := by
  simpa [single, attach, empty] using member

omit [Quantity α] in
/-- The vertices and the edges determine a well-formed network. -/
theorem WellFormed.eq_of_edges {first second : Network α} (left : first.WellFormed)
    (right : second.WellFormed) (vertices : first.vertexCount = second.vertexCount)
    (edges : first.edges = second.edges) : first = second := by
  have adjacency : first.adjacency = second.adjacency := by
    apply Array.ext vertices
    intro vertex inside insideToo
    have one := left.incident vertex inside
    have other := right.incident vertex insideToo
    rw [edges, ← other, Network.incident, Network.incident] at one
    simpa [inside, insideToo] using one
  cases first
  cases second
  exact congrArg₂ Network.mk adjacency edges

/-- Edges that were accepted before are accepted again in the same order. -/
theorem foldlM_insert (rest : List (Edge α)) :
    ∀ clone : Network α, clone.WellFormed →
      (∀ edge ∈ rest, edge.tail < clone.vertexCount ∧ edge.head < clone.vertexCount ∧
        edge.toLoad.check edge.tail edge.head = .ok ()) →
      rest.map Edge.index = List.range' clone.edgeCount rest.length →
      ∃ last, rest.foldlM (fun clone edge => do
          clone.insert (← LooseEdge.create edge.tail edge.head edge.toLoad (-1))) clone = .ok last ∧
        last.WellFormed ∧ last.vertexCount = clone.vertexCount ∧
        last.edges.toList = clone.edges.toList ++ rest := by
  induction rest with
  | nil =>
    intro clone wellFormed _ _
    exact ⟨clone, rfl, wellFormed, rfl, by simp⟩
  | cons edge rest inductionHypothesis =>
    intro clone wellFormed accepted numbered
    obtain ⟨tail, head, checked⟩ := accepted edge (by simp)
    rw [List.map_cons, List.length_cons, List.range'_succ, List.cons.injEq] at numbered
    have inserted : clone.insert ⟨edge.toLoad, edge.tail, edge.head, -1⟩ =
        .ok (clone.attach edge.tail edge.head edge.toLoad) := by
      have loose : ¬(0 : Int) ≤ -1 := by decide
      simp only [insert, if_neg loose, checkVertex_natCast _ tail, checkVertex_natCast _ head]
      rfl
    obtain ⟨last, folded, stays, vertices, edges⟩ := inductionHypothesis
      (clone.attach edge.tail edge.head edge.toLoad) (wellFormed.attach tail head _)
      (by
        intro other member
        rw [vertexCount_attach]
        exact accepted other (by simp [member]))
      (by rw [edgeCount_attach]; exact numbered.2)
    refine ⟨last, ?_, stays, by rw [vertices, vertexCount_attach], ?_⟩
    · rw [List.foldlM_cons]
      simp only [LooseEdge.create, checked, ok_bind, pure, Except.pure, inserted]
      exact folded
    · have same : (⟨edge.toLoad, edge.tail, edge.head, clone.edges.size⟩ : Edge α) = edge := by
        rw [show clone.edges.size = edge.index from numbered.1.symm]
      rw [edges, attach, Array.toList_push, same, List.append_assoc]
      rfl

/-- A network whose bounds are accepted is its own copy. -/
theorem copy_eq {network : Network α} (wellFormed : network.WellFormed)
    (checked : ∀ edge ∈ network.edges, edge.toLoad.check edge.tail edge.head = .ok ()) :
    network.copy = .ok network := by
  obtain ⟨last, folded, stays, vertices, edges⟩ := foldlM_insert network.edges.toList
    (empty network.vertexCount) (wellFormed_empty _)
    (by
      intro edge member
      have inside := Array.mem_toList_iff.mp member
      rw [vertexCount_empty]
      exact ⟨wellFormed.tail edge inside, wellFormed.head edge inside, checked edge inside⟩)
    (by
      rw [wellFormed.map_index, List.range_eq_range']
      simp [edgeCount, empty])
  have same : last = network := by
    refine stays.eq_of_edges wellFormed (by rw [vertices, vertexCount_empty]) ?_
    rw [← Array.toList_inj, edges]
    simp [empty]
  rw [copy, ← Array.foldlM_toList, folded, same]

/-- An assembled network is its own copy. -/
theorem Assembled.copied {network : Network α} (assembled : network.Assembled) :
    network.copy = .ok network :=
  copy_eq assembled.wellFormed fun edge member => (assembled.load edge member).1

end Network

/-- Bounds are accepted when they are finite, not below zero and in order. -/
theorem Load.check_eq_ok {α : Type} [Quantity α] {load : Load α} {tail head : Int} :
    load.check tail head = .ok () ↔
      (isFinite load.capacity = .ok true ∧ isNegative load.capacity = false) ∧
      (isFinite load.lower = .ok true ∧ isNegative load.lower = false) ∧
      less load.capacity load.lower = false := by
  unfold check
  cases isFinite load.capacity with
  | error fault => simp [error_bind]
  | ok first =>
    simp only [ok_bind, guard_eq_ok]
    cases isFinite load.lower with
    | error fault => simp [error_bind]
    | ok second =>
      simp only [ok_bind, guard_eq_ok]
      cases less load.capacity load.lower <;>
        simp [throw, throwThe, MonadExceptOf.throw, pure, Except.pure]

/-- Bounds that fit are accepted when they are in order. -/
theorem exact_check {α : Type} [Quantity α] [ExactQuantity α] {load : Load α} {capacity lower : Rat}
    (capacities : value? load.capacity = some capacity) (lowers : value? load.lower = some lower)
    (fitsCapacity : Fits α capacity) (fitsLower : Fits α lower) (tail head : Int) :
    load.check tail head = .ok () ↔ 0 ≤ lower ∧ lower ≤ capacity := by
  rw [Load.check_eq_ok, exact_isFinite capacities fitsCapacity, exact_isFinite lowers fitsLower,
    isNegative_eq_decide capacities, isNegative_eq_decide lowers, less_eq_decide capacities lowers]
  simp only [true_and, decide_eq_false_iff_not, not_lt]
  constructor
  · rintro ⟨-, least, most⟩
    exact ⟨least, most⟩
  · rintro ⟨least, most⟩
    exact ⟨least.trans most, least, most⟩

/-- An edge with small integer bounds in order may be added. -/
theorem Network.Assembled.attach_int {network : Network Number} (assembled : network.Assembled)
    {tail head : Nat} {capacity lower : Int} (tailInside : tail < network.vertexCount)
    (headInside : head < network.vertexCount) (least : 0 ≤ lower) (most : lower ≤ capacity)
    (small : capacity ≤ 2 ^ 53) :
    (network.attach tail head ⟨.int capacity, .int lower, zero, zero⟩).Assembled := by
  have fitsCapacity : Fits Number capacity := Number.fits_intCast (by omega)
  have fitsLower : Fits Number lower := Number.fits_intCast (by omega)
  refine assembled.attach tailInside headInside ((exact_check (Number.value?_int capacity)
    (Number.value?_int lower) fitsCapacity fitsLower tail head).mpr ⟨?_, ?_⟩)
  · exact_mod_cast least
  · exact_mod_cast most

theorem assembled_single_int {capacity lower : Int} (least : 0 ≤ lower) (most : lower ≤ capacity)
    (small : capacity ≤ 2 ^ 53) : (single (Number.int capacity) (Number.int lower)).Assembled :=
  (assembled_empty 2).attach_int (by simp) (by simp) least most small

end NetworkFlow
