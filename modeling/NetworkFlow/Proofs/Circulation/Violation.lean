import NetworkFlow.Proofs.Circulation.Solve

namespace NetworkFlow

open Quantity ExactQuantity Network

/-- Values of a discrete lattice at most the bound are not positive. -/
theorem Discrete.ite_eq {α : Type} [Quantity α] [ExactQuantity α] {bound value : Rat}
    (discrete : Discrete α bound) (member : value ∈ lattice α) (nonneg : 0 ≤ bound) :
    (if bound < value then value else 0) = max value 0 := by
  by_cases above : bound < value
  · rw [if_pos above, max_eq_left (nonneg.trans above.le)]
  · rw [if_neg above]
    by_cases positive : 0 ≤ value
    · rw [discrete value member positive (not_lt.mp above), max_self]
    · rw [max_eq_right (not_le.mp positive).le]

/-- What a set of vertices demands after the lower bounds across its boundary were folded. -/
theorem Network.sum_shiftedDemand (network : Network Rat) (demand : Nat → Rat)
    (side : Finset Nat) :
    ∑ vertex ∈ side, network.shiftedDemand demand vertex = ∑ vertex ∈ side, demand vertex +
      (network.leaving (fun edge => edge.lower) side -
        network.entering (fun edge => edge.lower) side) := by
  rw [← sum_netOutflow, ← Finset.sum_add_distrib]
  rfl

namespace Circulation

variable {α : Type} [Quantity α] [ExactQuantity α] {result : Result α} {run : MaxFlow.Run α}
  {tolerance : α} {exact last : Network Rat} {demand : Nat → Rat} {bound total : Rat}

namespace Settles

/-- The cut has no vertex beyond those of the caller but the new source. -/
theorem lt_vertexCount (settles : Settles result run tolerance exact demand bound last total)
    {vertex : Nat} (member : vertex ∈ run.finder.side.erase exact.vertexCount) :
    vertex < exact.vertexCount := by
  obtain ⟨notSource, inside⟩ := Finset.mem_erase.mp member
  have notSink : vertex ≠ exact.vertexCount + 1 := by
    rintro rfl
    exact settles.finished.sink_not_mem inside
  have early := settles.finished.ended.found.lt_vertexCount inside
  rw [← settles.finished.bounds.shape.vertexCount, vertexCount_circulation] at early
  omega

/-- The value is what the edges of the caller may carry out of the cut, what the source may feed
to the vertices outside of it, and what the sink may drain from those inside. -/
theorem total_eq (settles : Settles result run tolerance exact demand bound last total)
    (posed : Posed α exact demand) (discrete : Discrete α bound) (nonneg : 0 ≤ bound) :
    total = exact.leaving (fun edge => edge.capacity - edge.lower)
        (run.finder.side.erase exact.vertexCount) +
      ((∑ vertex ∈ Finset.range exact.vertexCount,
          if vertex ∈ run.finder.side.erase exact.vertexCount then 0
          else max (-exact.shiftedDemand demand vertex) 0) +
        ∑ vertex ∈ Finset.range exact.vertexCount,
          if vertex ∈ run.finder.side.erase exact.vertexCount
          then max (exact.shiftedDemand demand vertex) 0 else 0) := by
  have source := settles.finished.source_mem
  have sink := settles.finished.sink_not_mem
  have member (vertex : Nat) (inside : vertex < exact.vertexCount) :
      vertex ∈ run.finder.side.erase exact.vertexCount ↔ vertex ∈ run.finder.side := by
    rw [Finset.mem_erase]
    exact and_iff_right (Nat.ne_of_lt inside)
  rw [settles.finished.total_eq (by omega) discrete, leaving,
    edgeSum_capacity settles.finished.bounds fun tail head =>
      tail ∈ run.finder.side ∧ head ∉ run.finder.side,
    edgeSum_circulation exact demand bound fun tail head load =>
      if tail ∈ run.finder.side ∧ head ∉ run.finder.side then load.capacity else 0]
  congr 1
  · apply edgeSum_congr
    intro edge present
    simp only [member _ (posed.wellFormed.tail edge present),
      member _ (posed.wellFormed.head edge present)]
    rfl
  · congr 1
    · apply Finset.sum_congr rfl
      intro vertex inside
      have shifted := posed.shiftedDemand_mem vertex
      simp only [← discrete.ite_eq (neg_mem shifted) nonneg,
        member vertex (Finset.mem_range.mp inside)]
      by_cases cut : vertex ∈ run.finder.side <;> simp [source, cut, lt_neg]
    · apply Finset.sum_congr rfl
      intro vertex inside
      have shifted := posed.shiftedDemand_mem vertex
      simp only [← discrete.ite_eq shifted nonneg, member vertex (Finset.mem_range.mp inside)]
      by_cases cut : vertex ∈ run.finder.side <;> simp [sink, cut]

/-- When the value falls short of the demand, the vertices on the cut send more
than what their edges may carry away beyond what their edges must carry in. -/
theorem violates (settles : Settles result run tolerance exact demand bound last total)
    (posed : Posed α exact demand) (discrete : Discrete α bound) (nonneg : 0 ≤ bound)
    (cancels : ∑ vertex ∈ Finset.range exact.vertexCount, demand vertex = 0)
    (short : total < demandTotal exact.vertexCount (exact.shiftedDemand demand)) :
    exact.leaving (fun edge => edge.capacity) (run.finder.side.erase exact.vertexCount) -
        exact.entering (fun edge => edge.lower) (run.finder.side.erase exact.vertexCount) <
      -∑ vertex ∈ run.finder.side.erase exact.vertexCount, demand vertex := by
  obtain ⟨side, known⟩ : ∃ side, side = run.finder.side.erase exact.vertexCount := ⟨_, rfl⟩
  have own : side ⊆ Finset.range exact.vertexCount := by
    intro vertex member
    rw [known] at member
    exact Finset.mem_range.mpr (settles.lt_vertexCount member)
  have whole := settles.total_eq posed discrete nonneg
  rw [← known] at whole ⊢
  -- The demands and the supplies are equal, so the value falls short of the supplies as well.
  have equal := demandTotal_sub_supplyTotal exact.vertexCount (exact.shiftedDemand demand)
  rw [posed.wellFormed.sum_shiftedDemand, cancels, sub_eq_zero] at equal
  rw [equal, supplyTotal, whole] at short
  have inside : ∑ vertex ∈ side, exact.shiftedDemand demand vertex =
      ∑ vertex ∈ Finset.range exact.vertexCount, (if vertex ∈ side then
        exact.shiftedDemand demand vertex else 0) := by
    rw [Finset.sum_ite_mem, Finset.inter_eq_right.mpr own]
  have split : (∑ vertex ∈ Finset.range exact.vertexCount,
        if vertex ∈ side then 0 else max (-exact.shiftedDemand demand vertex) 0) +
      (∑ vertex ∈ Finset.range exact.vertexCount,
        if vertex ∈ side then max (exact.shiftedDemand demand vertex) 0 else 0) -
      (∑ vertex ∈ Finset.range exact.vertexCount, max (-exact.shiftedDemand demand vertex) 0) =
      ∑ vertex ∈ side, exact.shiftedDemand demand vertex := by
    rw [inside, ← Finset.sum_add_distrib, ← Finset.sum_sub_distrib]
    apply Finset.sum_congr rfl
    intro vertex _
    by_cases cut : vertex ∈ side
    · rw [if_pos cut, if_pos cut, if_pos cut, zero_add]
      exact max_zero_sub_max_neg_zero_eq_self _
    · rw [if_neg cut, if_neg cut, if_neg cut, add_zero, sub_self]
  have shifts := exact.sum_shiftedDemand demand side
  have room := exact.leaving_sub (fun edge => edge.capacity) (fun edge => edge.lower) side
  linarith

end Settles
end Circulation
end NetworkFlow
