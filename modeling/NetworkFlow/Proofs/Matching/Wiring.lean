import NetworkFlow.Matching
import NetworkFlow.Proofs.Arithmetic.ExactQuantity
import NetworkFlow.Proofs.Flow.Balance

namespace NetworkFlow

open Quantity Network

/-- Edges that are attached in turn come after the edges from before. -/
theorem Network.foldl_attach {α : Type} (load : Load α) (tail head : Nat → Nat) (count : Nat)
    {network : Network α} (wellFormed : network.WellFormed)
    (inside : ∀ vertex < count,
      tail vertex < network.vertexCount ∧ head vertex < network.vertexCount) :
    let last := (List.range count).foldl
      (fun network vertex => network.attach (tail vertex) (head vertex) load) network
    last.WellFormed ∧ last.vertexCount = network.vertexCount ∧
      last.edgeCount = network.edgeCount + count ∧
      last.edges.toList = network.edges.toList ++ (List.range count).map fun vertex =>
        ⟨load, tail vertex, head vertex, network.edgeCount + vertex⟩ := by
  induction count with
  | zero => exact ⟨wellFormed, rfl, rfl, by simp⟩
  | succ count inductionHypothesis =>
    obtain ⟨earlier, vertices, size, edges⟩ := inductionHypothesis fun vertex below =>
      inside vertex (by omega)
    obtain ⟨tailInside, headInside⟩ := inside count (by omega)
    simp only [List.range_succ, List.foldl_append, List.foldl_cons, List.foldl_nil]
    refine ⟨earlier.attach (vertices ▸ tailInside) (vertices ▸ headInside) load,
      by rw [vertexCount_attach, vertices], by rw [edgeCount_attach, size, add_assoc], ?_⟩
    rw [attach, Array.toList_push, edges, show Array.size _ = _ from size, List.map_append,
      List.map_singleton, List.append_assoc]

/-- What an edge with an amount adds to what a vertex sends. -/
def Edge.sends {α K : Type} [AddCommGroup K] (edge : Edge α) (amount : K) (vertex : Nat) : K :=
  (if edge.tail = vertex then amount else 0) - (if edge.head = vertex then amount else 0)

namespace Edge

variable {α K : Type} [AddCommGroup K] {edge : Edge α} {vertex : Nat}

theorem sends_tail (amount : K) (tail : edge.tail = vertex) (head : edge.head ≠ vertex) :
    edge.sends amount vertex = amount := by
  rw [sends, if_pos tail, if_neg head, sub_zero]

theorem sends_head (amount : K) (tail : edge.tail ≠ vertex) (head : edge.head = vertex) :
    edge.sends amount vertex = -amount := by
  rw [sends, if_neg tail, if_pos head, zero_sub]

theorem sends_off (amount : K) (tail : edge.tail ≠ vertex) (head : edge.head ≠ vertex) :
    edge.sends amount vertex = 0 := by
  rw [sends, if_neg tail, if_neg head, sub_zero]

end Edge

namespace MatchingNetwork

variable {α : Type} [Quantity α] {matching : MatchingNetwork α}

/-- The edge from the source to a left vertex. -/
def feed (matching : MatchingNetwork α) (left : Nat) : Edge α :=
  ⟨unitLoad, matching.source, left, left⟩

/-- The edge from a right vertex to the sink. -/
def drain (matching : MatchingNetwork α) (right : Nat) : Edge α :=
  ⟨unitLoad, matching.leftCount + right, matching.sink, matching.leftCount + right⟩

/-- The edge of an entry joins the ends of its pair. -/
def joint (matching : MatchingNetwork α) (entry : Nat × Nat × Nat) : Edge α :=
  ⟨unitLoad, entry.2.1, matching.leftCount + entry.2.2, entry.1⟩

/-- A matching network is wired when its edges are the feeds, the drains and the joints,
in this order. -/
structure Wired (matching : MatchingNetwork α) : Prop where
  wellFormed : matching.network.WellFormed
  vertices : matching.network.vertexCount = matching.leftCount + matching.rightCount + 2
  edges : matching.network.edges.toList = (List.range matching.leftCount).map matching.feed ++
    (List.range matching.rightCount).map matching.drain ++ matching.pairEdges.map matching.joint
  inside : ∀ entry ∈ matching.pairEdges,
    entry.2.1 < matching.leftCount ∧ entry.2.2 < matching.rightCount

theorem wired_sides (leftCount rightCount : Nat) :
    (⟨sides leftCount rightCount, leftCount, rightCount, []⟩ : MatchingNetwork α).Wired := by
  obtain ⟨fed, feeds, size, edges⟩ := foldl_attach unitLoad (fun _ => leftCount + rightCount)
    (fun vertex => vertex) leftCount (wellFormed_empty (leftCount + rightCount + 2) (α := α))
    fun vertex below => by rw [vertexCount_empty]; omega
  rw [vertexCount_empty] at feeds
  have none : (Network.empty (leftCount + rightCount + 2) : Network α).edgeCount = 0 := rfl
  rw [none, zero_add] at size
  obtain ⟨drained, drains, -, edgesToo⟩ := foldl_attach unitLoad
    (fun vertex => leftCount + vertex) (fun _ => leftCount + rightCount + 1) rightCount fed
    fun vertex below => by rw [feeds]; omega
  refine ⟨drained, drains.trans feeds, ?_, by simp⟩
  rw [edges, size, none] at edgesToo
  simp only [zero_add] at edgesToo
  rw [List.map_nil, List.append_nil]
  exact edgesToo

/-- A pair in range becomes an entry and its joint. -/
theorem Wired.addPair (wired : matching.Wired) {left right : Nat}
    (leftInside : left < matching.leftCount) (rightInside : right < matching.rightCount) :
    ∃ next, matching.addPair ((left : Int), (right : Int)) = .ok next ∧ next.Wired ∧
      next.leftCount = matching.leftCount ∧ next.rightCount = matching.rightCount ∧
      next.pairEdges.map Prod.snd = matching.pairEdges.map Prod.snd ++ [(left, right)] := by
  have leftAccepted : (0 : Int) ≤ left ∧ (left : Int) < matching.leftCount := by omega
  have rightAccepted : (0 : Int) ≤ right ∧ (right : Int) < matching.rightCount := by omega
  refine ⟨{ matching with
    network := matching.network.attach left (matching.leftCount + right) unitLoad
    pairEdges := matching.pairEdges ++ [(matching.network.edgeCount, left, right)] }, ?_, ?_, rfl,
    rfl, by simp⟩
  · simp only [MatchingNetwork.addPair, not_true, leftAccepted, rightAccepted, and_self,
      if_false, Int.toNat_natCast]
    rfl
  · refine ⟨?_, ?_, ?_, ?_⟩
    · exact wired.wellFormed.attach (by rw [wired.vertices]; omega)
        (by rw [wired.vertices]; omega) _
    · rw [vertexCount_attach, wired.vertices]
    · rw [attach, Array.toList_push, wired.edges, List.map_append, ← List.append_assoc]
      rfl
    · intro entry member
      rcases List.mem_append.mp member with old | new
      · exact wired.inside entry old
      · rw [List.mem_singleton.mp new]
        exact ⟨leftInside, rightInside⟩

theorem Wired.foldlM_addPair (wired : matching.Wired) {pairs : List (Nat × Nat)}
    (inside : ∀ pair ∈ pairs, pair.1 < matching.leftCount ∧ pair.2 < matching.rightCount) :
    ∃ last, (pairs.map fun pair => ((pair.1 : Int), (pair.2 : Int))).foldlM
        MatchingNetwork.addPair matching = .ok last ∧ last.Wired ∧
      last.leftCount = matching.leftCount ∧ last.rightCount = matching.rightCount ∧
      last.pairEdges.map Prod.snd = matching.pairEdges.map Prod.snd ++ pairs := by
  induction pairs generalizing matching with
  | nil => exact ⟨matching, rfl, wired, rfl, rfl, by simp⟩
  | cons pair rest inductionHypothesis =>
    obtain ⟨leftInside, rightInside⟩ := inside pair (by simp)
    obtain ⟨next, added, nextWired, lefts, rights, entries⟩ :=
      wired.addPair leftInside rightInside
    obtain ⟨last, folded, lastWired, leftsToo, rightsToo, entriesToo⟩ :=
      inductionHypothesis nextWired fun other member => by
        rw [lefts, rights]
        exact inside other (by simp [member])
    refine ⟨last, ?_, lastWired, leftsToo.trans lefts, rightsToo.trans rights, ?_⟩
    · rw [List.map_cons, List.foldlM_cons, added]
      exact folded
    · rw [entriesToo, entries, List.append_assoc, List.singleton_append]

/-- Pairs in range build a wired network with an entry for each of them, in order. -/
theorem build_wired {leftCount rightCount : Nat} {pairs : List (Nat × Nat)}
    (inside : ∀ pair ∈ pairs, pair.1 < leftCount ∧ pair.2 < rightCount) :
    ∃ matching : MatchingNetwork α,
      build leftCount rightCount (pairs.map fun pair => ((pair.1 : Int), (pair.2 : Int))) =
        .ok matching ∧ matching.Wired ∧ matching.leftCount = leftCount ∧
      matching.rightCount = rightCount ∧ matching.pairEdges.map Prod.snd = pairs := by
  obtain ⟨last, folded, wired, lefts, rights, entries⟩ :=
    (wired_sides leftCount rightCount (α := α)).foldlM_addPair inside
  refine ⟨last, ?_, wired, lefts, rights, entries⟩
  have accepted : ¬((leftCount : Int) < 0 ∨ (rightCount : Int) < 0) := by omega
  simp only [build, if_neg accepted, Int.toNat_natCast]
  exact folded

namespace Wired

/-- Every edge is a feed, a drain or a joint. -/
theorem mem_iff (wired : matching.Wired) {edge : Edge α} : edge ∈ matching.network.edges ↔
    (∃ left < matching.leftCount, matching.feed left = edge) ∨
      (∃ right < matching.rightCount, matching.drain right = edge) ∨
      ∃ entry ∈ matching.pairEdges, matching.joint entry = edge := by
  rw [← Array.mem_toList_iff, wired.edges]
  simp only [List.mem_append, List.mem_map, List.mem_range, or_assoc]

theorem feed_mem (wired : matching.Wired) {left : Nat} (inside : left < matching.leftCount) :
    matching.feed left ∈ matching.network.edges :=
  wired.mem_iff.mpr (Or.inl ⟨left, inside, rfl⟩)

theorem drain_mem (wired : matching.Wired) {right : Nat} (inside : right < matching.rightCount) :
    matching.drain right ∈ matching.network.edges :=
  wired.mem_iff.mpr (Or.inr (Or.inl ⟨right, inside, rfl⟩))

theorem joint_mem (wired : matching.Wired) {entry : Nat × Nat × Nat}
    (member : entry ∈ matching.pairEdges) : matching.joint entry ∈ matching.network.edges :=
  wired.mem_iff.mpr (Or.inr (Or.inr ⟨entry, member, rfl⟩))

/-- Every edge may carry one unit and carries nothing yet. -/
theorem load (wired : matching.Wired) :
    ∀ edge ∈ matching.network.edges, edge.toLoad = unitLoad := by
  intro edge member
  rcases wired.mem_iff.mp member with ⟨left, -, rfl⟩ | ⟨right, -, rfl⟩ | ⟨entry, -, rfl⟩ <;> rfl

/-- The edges at the source are the feeds. -/
theorem incident_source (wired : matching.Wired) :
    matching.network.incident matching.source = List.range matching.leftCount := by
  have inside : matching.source < matching.network.vertexCount := by
    rw [wired.vertices, source]
    omega
  have feeds : ((List.range matching.leftCount).map matching.feed).filter (fun edge =>
      edge.tail = matching.source ∨ edge.head = matching.source) =
        (List.range matching.leftCount).map matching.feed := by
    apply List.filter_eq_self.mpr
    intro edge member
    obtain ⟨left, -, rfl⟩ := List.mem_map.mp member
    simp [feed]
  have drains : ((List.range matching.rightCount).map matching.drain).filter (fun edge =>
      edge.tail = matching.source ∨ edge.head = matching.source) = [] := by
    apply List.filter_eq_nil_iff.mpr
    intro edge member
    obtain ⟨right, below, rfl⟩ := List.mem_map.mp member
    have small := List.mem_range.mp below
    have tail : ¬matching.leftCount + right = matching.source := by rw [source]; omega
    have head : ¬matching.sink = matching.source := by rw [source, sink]; omega
    exact fun ends => (of_decide_eq_true ends).elim tail head
  have joints : (matching.pairEdges.map matching.joint).filter (fun edge =>
      edge.tail = matching.source ∨ edge.head = matching.source) = [] := by
    apply List.filter_eq_nil_iff.mpr
    intro edge member
    obtain ⟨entry, present, rfl⟩ := List.mem_map.mp member
    have small := wired.inside entry present
    have tail : ¬entry.2.1 = matching.source := by rw [source]; omega
    have head : ¬matching.leftCount + entry.2.2 = matching.source := by rw [source]; omega
    exact fun ends => (of_decide_eq_true ends).elim tail head
  rw [wired.wellFormed.incident _ inside, edgesAt, wired.edges, List.filter_append,
    List.filter_append, feeds, drains, joints, List.append_nil, List.append_nil, List.map_map]
  exact List.map_id _

section Sums

variable {K : Type} [AddCommGroup K]

/-- A sum over the edges has a part for the feeds, one for the drains and one for the joints. -/
theorem edgeSum_eq (wired : matching.Wired) (amount : Edge α → K) :
    matching.network.edgeSum amount =
      ∑ left ∈ Finset.range matching.leftCount, amount (matching.feed left) +
      ∑ right ∈ Finset.range matching.rightCount, amount (matching.drain right) +
      (matching.pairEdges.map fun entry => amount (matching.joint entry)).sum := by
  rw [edgeSum, wired.edges, List.map_append, List.map_append, List.sum_append, List.sum_append,
    List.map_map, List.map_map, List.map_map, ← sum_map_range, ← sum_map_range]
  rfl

theorem netOutflow_eq_sum (wired : matching.Wired) (flow : Edge α → K) (vertex : Nat) :
    matching.network.netOutflow flow vertex =
      ∑ left ∈ Finset.range matching.leftCount,
        (matching.feed left).sends (flow (matching.feed left)) vertex +
      ∑ right ∈ Finset.range matching.rightCount,
        (matching.drain right).sends (flow (matching.drain right)) vertex +
      (matching.pairEdges.map fun entry =>
        (matching.joint entry).sends (flow (matching.joint entry)) vertex).sum := by
  rw [netOutflow_eq]
  exact wired.edgeSum_eq fun edge => edge.sends (flow edge) vertex

/-- A left vertex sends on its joints and receives from its feed. -/
theorem netOutflow_left (wired : matching.Wired) (flow : Edge α → K) {left : Nat}
    (inside : left < matching.leftCount) : matching.network.netOutflow flow left =
      (matching.pairEdges.map fun entry =>
        if entry.2.1 = left then flow (matching.joint entry) else 0).sum -
        flow (matching.feed left) := by
  have notSource : matching.source ≠ left := by rw [source]; omega
  have notSink : matching.sink ≠ left := by rw [sink]; omega
  have feeds : ∑ other ∈ Finset.range matching.leftCount,
      (matching.feed other).sends (flow (matching.feed other)) left =
        -flow (matching.feed left) := by
    rw [Finset.sum_eq_single_of_mem left (Finset.mem_range.mpr inside)
      fun other _ differ => Edge.sends_off _ notSource differ]
    exact Edge.sends_head _ notSource rfl
  have drains : ∑ right ∈ Finset.range matching.rightCount,
      (matching.drain right).sends (flow (matching.drain right)) left = 0 := by
    refine Finset.sum_eq_zero fun right _ => Edge.sends_off _ ?_ notSink
    exact (Nat.lt_add_right right inside).ne'
  have joints : (matching.pairEdges.map fun entry =>
      (matching.joint entry).sends (flow (matching.joint entry)) left) =
      matching.pairEdges.map fun entry =>
        if entry.2.1 = left then flow (matching.joint entry) else 0 := by
    apply List.map_congr_left
    intro entry _
    have head : matching.leftCount + entry.2.2 ≠ left := by omega
    split
    · exact Edge.sends_tail _ ‹_› head
    · exact Edge.sends_off _ ‹_› head
  rw [wired.netOutflow_eq_sum, feeds, drains, joints, add_zero, neg_add_eq_sub]

/-- A right vertex sends on its drain and receives from its joints. -/
theorem netOutflow_right (wired : matching.Wired) (flow : Edge α → K) {right : Nat}
    (inside : right < matching.rightCount) :
    matching.network.netOutflow flow (matching.leftCount + right) =
      flow (matching.drain right) - (matching.pairEdges.map fun entry =>
        if entry.2.2 = right then flow (matching.joint entry) else 0).sum := by
  have notSource : matching.source ≠ matching.leftCount + right := by rw [source]; omega
  have notSink : matching.sink ≠ matching.leftCount + right := by rw [sink]; omega
  have feeds : ∑ left ∈ Finset.range matching.leftCount,
      (matching.feed left).sends (flow (matching.feed left)) (matching.leftCount + right) = 0 := by
    refine Finset.sum_eq_zero fun left member => Edge.sends_off _ notSource ?_
    exact (Nat.lt_add_right right (Finset.mem_range.mp member)).ne
  have drains : ∑ other ∈ Finset.range matching.rightCount,
      (matching.drain other).sends (flow (matching.drain other)) (matching.leftCount + right) =
        flow (matching.drain right) := by
    rw [Finset.sum_eq_single_of_mem right (Finset.mem_range.mpr inside)
      fun other _ differ =>
        Edge.sends_off _ (fun same => differ (Nat.add_left_cancel same)) notSink]
    exact Edge.sends_tail _ rfl notSink
  have joints : (matching.pairEdges.map fun entry =>
      (matching.joint entry).sends (flow (matching.joint entry)) (matching.leftCount + right)) =
      matching.pairEdges.map fun entry =>
        -if entry.2.2 = right then flow (matching.joint entry) else 0 := by
    apply List.map_congr_left
    intro entry member
    have tail : entry.2.1 ≠ matching.leftCount + right :=
      (Nat.lt_add_right right (wired.inside entry member).1).ne
    split
    · exact Edge.sends_head _ tail (congrArg (matching.leftCount + ·) ‹entry.2.2 = right›)
    · rw [neg_zero]
      exact Edge.sends_off _ tail fun same => ‹¬entry.2.2 = right› (Nat.add_left_cancel same)
  rw [wired.netOutflow_eq_sum, feeds, drains, joints, zero_add, sub_eq_add_neg, List.sum_neg,
    List.map_map]
  rfl

/-- The source sends on its feeds and receives nothing. -/
theorem netOutflow_source (wired : matching.Wired) (flow : Edge α → K) :
    matching.network.netOutflow flow matching.source =
      ∑ left ∈ Finset.range matching.leftCount, flow (matching.feed left) := by
  have feeds : ∑ left ∈ Finset.range matching.leftCount,
      (matching.feed left).sends (flow (matching.feed left)) matching.source =
      ∑ left ∈ Finset.range matching.leftCount, flow (matching.feed left) := by
    refine Finset.sum_congr rfl fun left member => Edge.sends_tail _ rfl ?_
    exact (Nat.lt_add_right _ (Finset.mem_range.mp member)).ne
  have drains : ∑ right ∈ Finset.range matching.rightCount,
      (matching.drain right).sends (flow (matching.drain right)) matching.source = 0 := by
    refine Finset.sum_eq_zero fun right member => Edge.sends_off _ ?_ (Nat.succ_ne_self _)
    exact (Nat.add_lt_add_left (Finset.mem_range.mp member) _).ne
  have joints : (matching.pairEdges.map fun entry =>
      (matching.joint entry).sends (flow (matching.joint entry)) matching.source) =
      matching.pairEdges.map fun _ => 0 := by
    apply List.map_congr_left
    intro entry member
    obtain ⟨left, right⟩ := wired.inside entry member
    exact Edge.sends_off _ (Nat.lt_add_right _ left).ne (Nat.add_lt_add_left right _).ne
  rw [wired.netOutflow_eq_sum, feeds, drains, joints, List.sum_map_zero, add_zero, add_zero]

end Sums
end Wired
end MatchingNetwork
end NetworkFlow
