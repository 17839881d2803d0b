import NetworkFlow.Proofs.MaxFlow.Finished

namespace NetworkFlow

open Quantity ExactQuantity Network

/-- A walk stays in a set that no step leaves. -/
theorem Walk.mem_of_closed {step : Nat → Nat → Prop} {source length vertex : Nat}
    {side : Finset Nat} (walk : Walk step source length vertex) (inside : source ∈ side)
    (closed : ∀ origin target, step origin target → origin ∈ side → target ∈ side) :
    vertex ∈ side := by
  induction walk with
  | start => exact inside
  | extend walk leads inductionHypothesis => exact closed _ _ leads inductionHypothesis

/-- A search reaches nothing outside a set that no residual arc leaves. -/
theorem Finder.Found.side_subset {α : Type} {network : Network α} {last : Network Rat} {bound : Rat}
    {source : Nat} {finder : Finder α} (found : finder.Found network last bound source)
    {side : Finset Nat} (inside : source ∈ side)
    (closed : ∀ arc, last.Residual bound arc → arc.origin ∈ side → arc.target ∈ side) :
    finder.side ⊆ side := by
  intro vertex member
  have near := (found.marked vertex).mp (Finder.mem_side_iff.mp member)
  refine (walk_of_distance_lt near).mem_of_closed inside ?_
  rintro origin target ⟨position, residual⟩ member
  exact closed _ residual member

/-- Finders that marked the same vertices of as many reach the same list of them. -/
theorem Finder.reachable_eq {α β : Type} {first : Finder α} {second : Finder β}
    (size : first.tree.marked.size = second.tree.marked.size) (side : first.side = second.side) :
    first.reachable = second.reachable := by
  rw [reachable, reachable, SearchTree.reachable, SearchTree.reachable, size]
  apply List.filter_congr
  intro vertex _
  rw [Bool.eq_iff_iff, ← mem_side_iff, ← mem_side_iff, side]

namespace Network

variable {α K : Type} [AddCommGroup K] [LinearOrder K] [IsOrderedAddMonoid K]

/-- A sum of amounts that are not negative is zero only when each of them is. -/
theorem eq_zero_of_edgeSum {network : Network α} {amount : Edge α → K}
    (nonneg : ∀ edge ∈ network.edges, 0 ≤ amount edge) (none : network.edgeSum amount = 0)
    {edge : Edge α} (member : edge ∈ network.edges) : amount edge = 0 :=
  le_antisymm (none ▸ le_edgeSum nonneg member) (nonneg edge member)

/-- A flow as large as the capacity of a cut fills what leaves it and empties what enters it. -/
theorem IsFlow.tight {network : Network α} {source sink : Nat} {capacity flow : Edge α → K}
    (isFlow : network.IsFlow source sink capacity flow) {side : Finset Nat} (inside : source ∈ side)
    (outside : sink ∉ side)
    (whole : network.netOutflow flow source = network.leaving capacity side) :
    (∀ edge ∈ network.edges, edge.tail ∈ side → edge.head ∉ side → flow edge = capacity edge) ∧
      ∀ edge ∈ network.edges, edge.head ∈ side → edge.tail ∉ side → flow edge = 0 := by
  have unused : network.edgeSum (fun edge =>
      (if edge.tail ∈ side ∧ edge.head ∉ side then capacity edge - flow edge else 0) +
        if edge.head ∈ side ∧ edge.tail ∉ side then flow edge else 0) = 0 := by
    have slack : network.edgeSum (fun edge =>
        if edge.tail ∈ side ∧ edge.head ∉ side then capacity edge - flow edge else 0) =
          network.leaving capacity side - network.leaving flow side := by
      rw [leaving, leaving, ← edgeSum_sub]
      apply edgeSum_congr
      intro edge _
      split
      · rfl
      · rw [sub_zero]
    rw [edgeSum_add, slack, ← whole, isFlow.netOutflow_eq inside outside]
    show _ + network.entering flow side = 0
    abel
  have nonneg : ∀ edge ∈ network.edges,
      0 ≤ (if edge.tail ∈ side ∧ edge.head ∉ side then capacity edge - flow edge else 0) +
        if edge.head ∈ side ∧ edge.tail ∉ side then flow edge else 0 := by
    intro edge member
    apply add_nonneg
    · split
      · exact sub_nonneg.mpr (isFlow.atMost edge member)
      · exact le_rfl
    · split
      · exact isFlow.nonneg edge member
      · exact le_rfl
  refine ⟨?_, ?_⟩
  · intro edge member tail head
    have empty := eq_zero_of_edgeSum nonneg unused member
    rw [if_pos ⟨tail, head⟩, if_neg fun enters => head enters.1, add_zero] at empty
    exact (sub_eq_zero.mp empty).symm
  · intro edge member head tail
    have empty := eq_zero_of_edgeSum nonneg unused member
    rwa [if_neg fun leaves => tail leaves.1, if_pos ⟨head, tail⟩, zero_add] at empty

end Network

namespace MaxFlow.Run.Settled

variable {α : Type} [Quantity α] [ExactQuantity α] {run : Run α} {exact last : Network Rat}
  {bound value : Rat} {source sink : Nat}

/-- No flow is larger than the capacity of a cut. -/
theorem value_le (settled : run.Settled bound source sink exact last value) (differ : source ≠ sink)
    {side : Finset Nat} (inside : source ∈ side) (outside : sink ∉ side) :
    value ≤ last.leaving (fun edge => edge.capacity) side := by
  rw [← settled.carries.netOutflow_source differ]
  exact settled.carries.isFlow.netOutflow_le inside outside

/-- The cut of a settled run lies in every cut whose capacity is the value of the flow. -/
theorem side_subset (settled : run.Settled bound source sink exact last value)
    (nonneg : 0 ≤ bound) (differ : source ≠ sink) {side : Finset Nat} (inside : source ∈ side)
    (outside : sink ∉ side)
    (whole : value = last.leaving (fun edge => edge.capacity) side) : run.finder.side ⊆ side := by
  rw [← settled.carries.netOutflow_source differ] at whole
  obtain ⟨full, empty⟩ := settled.carries.isFlow.tight inside outside whole
  apply settled.ended.found.side_subset inside
  intro arc residual origin
  by_contra target
  have ends : arc.origin ≠ arc.target := fun same => target (same ▸ origin)
  obtain ⟨edge, forward, stands, -, starts, leads, wide⟩ := residual.direction ends
  have member := Array.mem_of_getElem? stands
  rw [starts] at origin
  rw [leads] at target
  cases forward with
  | true =>
    have room := full edge member origin target
    simp only [Load.space, if_true, room, sub_self] at wide
    exact absurd wide (not_lt.mpr nonneg)
  | false =>
    have room := empty edge member origin target
    simp only [Load.space, Bool.false_eq_true, if_false, room] at wide
    exact absurd wide (not_lt.mpr nonneg)

/-- Settled runs whose networks have the same capacities on all cuts agree
on the value of the flow and on the cut. -/
theorem agree {β : Type} [Quantity β] [ExactQuantity β] {other : Run β}
    {exact' last' : Network Rat} {bound' value' : Rat}
    (first : run.Settled bound source sink exact last value)
    (second : other.Settled bound' source sink exact' last' value')
    (differ : source ≠ sink) (nonneg : 0 ≤ bound) (nonneg' : 0 ≤ bound')
    (discrete : Discrete α bound) (discrete' : Discrete β bound')
    (same : ∀ side, last.leaving (fun edge => edge.capacity) side =
      last'.leaving (fun edge => edge.capacity) side) :
    value = value' ∧ run.finder.side = other.finder.side := by
  have most : value ≤ value' := by
    rw [second.total_eq differ discrete', ← same]
    exact first.value_le differ second.source_mem second.sink_not_mem
  have least : value' ≤ value := by
    rw [first.total_eq differ discrete, same]
    exact second.value_le differ first.source_mem first.sink_not_mem
  have equal := le_antisymm most least
  refine ⟨equal, Finset.Subset.antisymm ?_ ?_⟩
  · apply first.side_subset nonneg differ second.source_mem second.sink_not_mem
    rw [same, equal]
    exact second.total_eq differ discrete'
  · apply second.side_subset nonneg' differ first.source_mem first.sink_not_mem
    rw [← same, ← equal]
    exact first.total_eq differ discrete

end MaxFlow.Run.Settled
end NetworkFlow
