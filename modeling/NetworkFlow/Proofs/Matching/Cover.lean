/-
This file proves that the minimum cut of a matching solve gives a vertex cover
of the size of the matching. No joint leaves the side of the source,
so that the cut crosses only feeds and drains, one for each vertex of the cover.
-/
import NetworkFlow.Proofs.Flow.LeastCut
import NetworkFlow.Proofs.Matching.Maximum

namespace NetworkFlow

open Quantity ExactQuantity Network

namespace MatchingNetwork

section Pairing

variable {α : Type} [Quantity α] {matching : MatchingNetwork α} {flow : Nat → Int}
  {first second : Nat × Nat × Nat}

/-- A joint that carries a unit takes what the source feeds to its left vertex. -/
theorem Pairing.fed (pairing : matching.Pairing flow) (member : first ∈ matching.carried flow) :
    flow first.2.1 = 1 := by
  have inside := (pairing.carried_inside first member).1
  have counted : 0 < ((matching.carried flow).map fun entry => entry.2.1).count first.2.1 :=
    List.count_pos_iff.mpr (List.mem_map_of_mem member)
  have count := pairing.count_left inside
  rcases pairing.unit (pairing.feed_mem inside) with none | one
  · exact absurd (Int.ofNat.inj (count.trans none)) counted.ne'
  · exact one

/-- Joints that carry a unit from the same left vertex are the same. -/
theorem Pairing.eq_of_left (pairing : matching.Pairing flow)
    (member : first ∈ matching.carried flow) (memberToo : second ∈ matching.carried flow)
    (same : first.2.1 = second.2.1) : first = second := by
  have nodup := pairing.isMatching.left
  rw [List.map_map] at nodup
  exact List.inj_on_of_nodup_map nodup member memberToo same

end Pairing

variable {matching : MatchingNetwork Number} {run : MaxFlow.Run Number} {bound value : Rat}
  {last : Network Rat}

/-- A residual arc of a settled run to a left vertex that is fed runs backward over a joint
that carries a unit. -/
theorem Wired.origin_of_fed (wired : matching.Wired) (nonneg : 0 ≤ bound)
    (settled : run.Settled bound matching.source matching.sink
      (matching.network.integral (fun _ => 1) fun _ => 0) last value)
    {arc : Arc} (residual : last.Residual bound arc) (differ : arc.origin ≠ arc.target)
    (inside : arc.target < matching.leftCount) (fed : ⌊last.flowAt arc.target⌋ = 1) :
    ∃ entry ∈ matching.carried (fun position => ⌊last.flowAt position⌋),
      entry.2.1 = arc.target ∧ matching.leftCount + entry.2.2 = arc.origin := by
  obtain ⟨edge, forward, stands, -, origin, target, wide⟩ := residual.direction differ
  obtain ⟨old, standsToo, place⟩ := settled.sameShape.symm.getElem? stands
  obtain ⟨capacity, -, flow⟩ := settled.integer_edge standsToo stands
  have member := Array.mem_of_getElem? standsToo
  have index := wired.wellFormed.index_eq standsToo
  have pairing := wired.pairing settled
  rw [Load.space, capacity, flow] at wide
  rw [← index] at wide
  rw [Edge.origin, ← Edge.place_tail place, ← Edge.place_head place] at origin
  rw [Edge.target, ← Edge.place_tail place, ← Edge.place_head place] at target
  -- Forward the arc would run along the feed, which is full.
  cases forward
  case true =>
    rcases wired.mem_iff.mp member with ⟨left, -, rfl⟩ | ⟨right, -, rfl⟩ | ⟨entry, -, rfl⟩
    · rw [show arc.target = left from target] at fed
      rw [if_pos rfl, show (matching.feed left).index = left from rfl, fed] at wide
      norm_num at wide
      linarith
    · have head : arc.target = matching.sink := target
      rw [sink] at head
      omega
    · have head : arc.target = matching.leftCount + entry.2.2 := target
      omega
  case false =>
    rcases wired.mem_iff.mp member with ⟨left, -, rfl⟩ | ⟨right, -, rfl⟩ | ⟨entry, listed, rfl⟩
    · have tail : arc.target = matching.source := target
      rw [source] at tail
      omega
    · have tail : arc.target = matching.leftCount + right := target
      omega
    · refine ⟨entry, List.mem_filter.mpr ⟨listed, ?_⟩, target.symm, origin.symm⟩
      rcases pairing.entry_unit entry listed with none | one
      · simp only [Bool.false_eq_true, if_false] at wide
        rw [show (matching.joint entry).index = entry.1 from rfl, none] at wide
        norm_num at wide
        linarith
      · simpa using one

/-- No joint leaves the side of the source in a settled run. A left vertex whose joint leaves it
is fed, so only that joint leads back to the vertex, and the side is not the least closed one. -/
theorem Wired.joint_stays (wired : matching.Wired) (nonneg : 0 ≤ bound) (below : bound < 1)
    (settled : run.Settled bound matching.source matching.sink
      (matching.network.integral (fun _ => 1) fun _ => 0) last value)
    {entry : Nat × Nat × Nat} (listed : entry ∈ matching.pairEdges)
    (left : entry.2.1 ∈ run.finder.side) :
    matching.leftCount + entry.2.2 ∈ run.finder.side := by
  have pairing := wired.pairing settled
  have small := (wired.inside entry listed).1
  have found := settled.ended.found
  by_contra leaves
  have whole := settled.netOutflow_eq wired.wellFormed matching.source_ne_sink below
  obtain ⟨full, -⟩ := pairing.isFlow.tight settled.source_mem settled.sink_not_mem
    (by simpa only [Nat.cast_one] using whole)
  have carried : entry ∈ matching.carried fun position => ⌊last.flowAt position⌋ :=
    List.mem_filter.mpr
      ⟨listed, decide_eq_true (full _ (wired.joint_mem listed) left leaves)⟩
  have notSource : matching.source ≠ entry.2.1 := by
    rw [source]
    omega
  have closed : run.finder.side ⊆ run.finder.side.erase entry.2.1 := by
    refine found.side_subset (Finset.mem_erase.mpr ⟨notSource, settled.source_mem⟩) ?_
    intro arc residual member
    obtain ⟨differ, origin⟩ := Finset.mem_erase.mp member
    have marked := found.closed arc residual (Finder.mem_side_iff.mp origin)
    refine Finset.mem_erase.mpr ⟨fun target => ?_, Finder.mem_side_iff.mpr marked⟩
    obtain ⟨other, carriedToo, same, back⟩ := wired.origin_of_fed nonneg settled residual
      (target ▸ differ) (target ▸ small) (target ▸ pairing.fed carried)
    obtain rfl := pairing.eq_of_left carried carriedToo (target.symm.trans same.symm)
    exact leaves (back ▸ origin)
  exact Finset.notMem_erase _ _ (closed left)

/-- The left vertices outside the side of the source and the right vertices inside it
are as many as the joints that carry a unit. -/
theorem Wired.card_cover (wired : matching.Wired) (nonneg : 0 ≤ bound) (below : bound < 1)
    (settled : run.Settled bound matching.source matching.sink
      (matching.network.integral (fun _ => 1) fun _ => 0) last value) :
    ((Finset.range matching.leftCount).filter fun left => left ∉ run.finder.side).card +
        ((Finset.range matching.rightCount).filter fun right =>
          matching.leftCount + right ∈ run.finder.side).card =
      (matching.carried fun position => ⌊last.flowAt position⌋).length := by
  have pairing := wired.pairing settled
  have whole := settled.netOutflow_eq wired.wellFormed matching.source_ne_sink below
  have none : (matching.pairEdges.filter fun entry => entry.2.1 ∈ run.finder.side ∧
      matching.leftCount + entry.2.2 ∉ run.finder.side) = [] := by
    refine List.filter_eq_nil_iff.mpr fun entry listed crosses => ?_
    obtain ⟨left, leaves⟩ := of_decide_eq_true crosses
    exact leaves (wired.joint_stays nonneg below settled listed left)
  simp only [Nat.cast_one] at whole
  rw [← pairing.length_carried, wired.leaving_eq settled.source_mem settled.sink_not_mem, none,
    List.length_nil, add_zero] at whole
  exact (Int.ofNat.inj whole).symm

end MatchingNetwork

namespace Matching

/-- The minimum cut of a matching solve gives a vertex cover of exactly the size of the matching:
the left vertices outside the cut and the right vertices inside it. -/
theorem solve_cover (leftCount rightCount : Nat) (pairs : List (Nat × Nat))
    (inside : ∀ pair ∈ pairs, pair.1 < leftCount ∧ pair.2 < rightCount)
    (options : Options Number) (tolerance : Rat)
    (tolerances : value? options.tolerance = some tolerance) (nonneg : 0 ≤ tolerance)
    (below : tolerance < 1) :
    ∃ matching : Matching Number,
      (solve leftCount rightCount (pairs.map fun pair => ((pair.1 : Int), (pair.2 : Int)))
        options).outcome = .ok matching ∧
      (∀ pair ∈ pairs, (pair.1 : Int) ∉ matching.flow.minCut ∨
        ((leftCount + pair.2 : Nat) : Int) ∈ matching.flow.minCut) ∧
      ((Finset.range leftCount).filter fun left : Nat => (left : Int) ∉ matching.flow.minCut).card +
          ((Finset.range rightCount).filter fun right : Nat =>
            ((leftCount + right : Nat) : Int) ∈ matching.flow.minCut).card =
        matching.size := by
  obtain ⟨matching, joined, run, last, count, computed, rfl, rfl, rfl, reads⟩ :=
    solve_reads inside tolerances nonneg below
  have cut := reads.minCut
  refine ⟨matching, computed, ?_, ?_⟩
  · intro pair member
    obtain ⟨entry, listed, rfl⟩ := List.mem_map.mp member
    rw [cut, Finder.natCast_mem_reachable_iff, Finder.natCast_mem_reachable_iff, ← imp_iff_not_or]
    exact reads.wired.joint_stays nonneg below reads.settled listed
  · simp only [cut, Finder.natCast_mem_reachable_iff, size, reads.length_eq]
    rw [reads.wired.card_cover nonneg below reads.settled, reads.length_carried]

/-- A repeated pair and a left vertex without a partner are covered too. -/
theorem solve_cover_repeated :
    ∃ matching : Matching Number,
      (solve 3 2 [(0, 0), (0, 0), (1, 0), (2, 1)] ⟨Number.int 0, false⟩).outcome = .ok matching ∧
      ∀ pair ∈ ([(0, 0), (0, 0), (1, 0), (2, 1)] : List (Nat × Nat)),
        (pair.1 : Int) ∉ matching.flow.minCut ∨
          ((3 + pair.2 : Nat) : Int) ∈ matching.flow.minCut := by
  obtain ⟨matching, computed, covers, -⟩ := solve_cover 3 2 [(0, 0), (0, 0), (1, 0), (2, 1)]
    (by decide) ⟨.int 0, false⟩ 0 value?_ofInt_zero le_rfl one_pos
  exact ⟨matching, computed, covers⟩

end Matching
end NetworkFlow
