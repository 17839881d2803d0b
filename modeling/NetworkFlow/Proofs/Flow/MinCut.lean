import NetworkFlow.Cut
import NetworkFlow.Proofs.Arithmetic.Number
import NetworkFlow.Proofs.Flow.Conservation

namespace NetworkFlow

open Quantity ExactQuantity Network

/-- A lattice is discrete at a bound when no positive value in it is that small. -/
def Discrete (α : Type) [Quantity α] [ExactQuantity α] (bound : Rat) : Prop :=
  ∀ value ∈ lattice α, 0 ≤ value → value ≤ bound → value = 0

/-- No positive integer is below one. -/
theorem discrete_number {bound : Rat} (small : bound < 1) : Discrete Number bound := by
  rintro value ⟨integer, rfl⟩ nonneg most
  simp only [Int.coe_castAddHom] at nonneg most ⊢
  have least : 0 ≤ integer := by exact_mod_cast nonneg
  have less : integer < 1 := by exact_mod_cast most.trans_lt small
  norm_cast
  omega

namespace Finder

variable {α : Type}

/-- The vertices that the last search of a finder reached. -/
def side (finder : Finder α) : Finset Nat :=
  finder.reachable.toFinset

theorem mem_reachable_iff {finder : Finder α} {vertex : Nat} :
    vertex ∈ finder.reachable ↔ finder.tree.isMarked vertex := by
  rw [reachable, SearchTree.reachable, List.mem_filter, List.mem_range]
  exact ⟨And.right, fun marked => ⟨SearchTree.lt_size_of_isMarked marked, marked⟩⟩

theorem mem_side_iff {finder : Finder α} {vertex : Nat} :
    vertex ∈ finder.side ↔ finder.tree.isMarked vertex := by
  rw [side, List.mem_toFinset, mem_reachable_iff]

theorem natCast_mem_reachable_iff {finder : Finder α} {vertex : Nat} :
    (vertex : Int) ∈ finder.reachable.map Int.ofNat ↔ vertex ∈ finder.side := by
  rw [side, List.mem_toFinset, List.mem_map]
  constructor
  · rintro ⟨other, member, same⟩
    rwa [← Int.ofNat.inj same]
  · exact fun member => ⟨vertex, member, rfl⟩

namespace Found

variable {network : Network α} {last : Network Rat} {bound : Rat} {source : Nat}
  {finder : Finder α}

theorem lt_vertexCount (found : finder.Found network last bound source) {vertex : Nat}
    (member : vertex ∈ finder.side) : vertex < last.vertexCount := by
  rw [← found.size]
  exact SearchTree.lt_size_of_isMarked (mem_side_iff.mp member)

/-- An edge has no room out of the side in any direction. -/
theorem space_le (found : finder.Found network last bound source) {edge : Edge Rat}
    (member : edge ∈ last.edges) (forward : Bool) (inside : edge.origin forward ∈ finder.side)
    (outside : edge.target forward ∉ finder.side) : edge.space forward ≤ bound := by
  by_contra wide
  obtain ⟨position, stands⟩ := Array.mem_iff_getElem?.mp member
  have differ : edge.tail ≠ edge.head := by
    intro same
    cases forward <;> simp only [Edge.origin, Edge.target, same] at inside outside <;>
      exact outside inside
  have marked := found.closed _ (residual_of_direction stands differ (not_le.mp wide))
    (mem_side_iff.mp inside)
  exact outside (mem_side_iff.mpr marked)

/-- A flow that leaves no room on the cut of a search is as large as its capacity. -/
theorem total_eq [Quantity α] [ExactQuantity α]
    (found : finder.Found network last bound source) {sink : Nat} {total : Rat}
    (unreached : ¬finder.tree.isMarked sink) (differ : source ≠ sink) (discrete : Discrete α bound)
    (carries : last.Carries source sink total) (onLattice : last.OnLattice α) :
    total = last.leaving (fun edge => edge.capacity) finder.side := by
  have sends := carries.isFlow.netOutflow_eq (mem_side_iff.mpr found.root)
    (fun inside => unreached (mem_side_iff.mp inside))
  rw [carries.netOutflow_source differ] at sends
  have full : last.leaving (fun edge => edge.flow) finder.side =
      last.leaving (fun edge => edge.capacity) finder.side := by
    apply edgeSum_congr
    intro edge member
    split
    · have room := found.space_le member true (And.left ‹_›) (And.right ‹_›)
      have rest := discrete _
        (sub_mem (onLattice.capacity edge member) (onLattice.flow edge member))
        (sub_nonneg.mpr (carries.atMost edge member)) room
      linarith
    · rfl
  have empty : last.entering (fun edge => edge.flow) finder.side = 0 := by
    refine (edgeSum_congr fun edge member => ?_).trans (edgeSum_zero last)
    split
    · have room := found.space_le member false (And.left ‹_›) (And.right ‹_›)
      exact discrete _ (onLattice.flow edge member) (carries.nonneg edge member) room
    · rfl
  rw [sends, full, empty, sub_zero]

end Found
end Finder

section Capacity

variable {α : Type} [Quantity α] {network : Network α}

omit [Quantity α] in
/-- The edges at the positions of some edges are these edges. -/
theorem mapM_edgeAt (wellFormed : network.WellFormed) {edges : List (Edge α)}
    (inside : ∀ edge ∈ edges, edge ∈ network.edges) :
    (edges.map Edge.index).mapM (fun (position : Nat) => network.edgeAt position) = .ok edges := by
  induction edges with
  | nil => rfl
  | cons edge rest inductionHypothesis =>
    have member := inside edge (by simp)
    have found : network.edgeAt edge.index = .ok edge := by
      have range : edge.index < network.edges.size := wellFormed.index_lt member
      simp only [edgeAt, position?_natCast range, Option.bind_eq_bind, Option.bind_some,
        wellFormed.getElem?_index member]
    rw [List.map_cons, List.mapM_cons, found, ok_bind,
      inductionHypothesis fun other later => inside other (by simp [later])]
    rfl

/-- The capacity of a cut is computed exactly when all upper bounds together fit. -/
theorem exact_cutCapacity [ExactQuantity α] (wellFormed : network.WellFormed)
    {upper : Edge α → Rat} (uppers : ∀ edge ∈ network.edges, ∃ bound, edge.upper = .ok bound ∧
      value? bound = some (upper edge))
    (members : ∀ edge ∈ network.edges, upper edge ∈ lattice α)
    (nonneg : ∀ edge ∈ network.edges, 0 ≤ upper edge) (fits : Fits α (network.edgeSum upper))
    (side : List Nat) : ∃ cut, network.cutCapacity (side.map Int.ofNat) = .ok cut ∧
      value? cut = some (network.leaving upper side.toFinset) := by
  have crossing (edge : Edge α) : ((side.map Int.ofNat).contains (edge.tail : Int) &&
      !(side.map Int.ofNat).contains (edge.head : Int)) =
        decide (edge.tail ∈ side.toFinset ∧ edge.head ∉ side.toFinset) := by
    simp [List.contains_eq_mem, Bool.decide_and]
  obtain ⟨cutting, chosen⟩ : ∃ cutting, cutting = network.edges.toList.filter fun edge =>
      edge.tail ∈ side.toFinset ∧ edge.head ∉ side.toFinset := ⟨_, rfl⟩
  have cuts : network.cutEdges (side.map Int.ofNat) = cutting.map Edge.index := by
    rw [cutEdges, List.filter_congr fun edge _ => crossing edge, chosen]
  have present : ∀ edge ∈ cutting, edge ∈ network.edges := by
    rw [chosen]
    exact fun edge member => Array.mem_toList_iff.mp (List.mem_filter.mp member).1
  have leaves : (cutting.map upper).sum = network.leaving upper side.toFinset := by
    rw [chosen, sum_map_filter]
    rfl
  have values : ∀ value ∈ cutting.map upper, value ∈ lattice α := by
    intro value member
    obtain ⟨edge, inside, rfl⟩ := List.mem_map.mp member
    exact members edge (present edge inside)
  have positive : (cutting.map upper).map abs = cutting.map upper := by
    rw [List.map_map]
    exact List.map_congr_left fun edge member => abs_of_nonneg (nonneg edge (present edge member))
  have least := leaving_nonneg nonneg side.toFinset
  have most : network.leaving upper side.toFinset ≤ network.edgeSum upper := by
    apply edgeSum_le_edgeSum
    intro edge member
    split
    · exact le_rfl
    · exact nonneg edge member
  have small : Fits α ((cutting.map upper).map abs).sum := by
    rw [positive, leaves]
    refine fits_of_abs_le ?_ (abs_le_abs_of_nonneg least most) fits
    rw [← leaves]
    exact list_sum_mem values
  obtain ⟨bounds, computed, stands⟩ := exact_mapM fun edge member =>
    uppers edge (present edge member)
  obtain ⟨cut, added, known⟩ := exact_sum_of_abs stands values small
  refine ⟨cut, ?_, ?_⟩
  · rw [cutCapacity, cuts, mapM_edgeAt wellFormed present, ok_bind, computed, ok_bind, added]
  · rw [known, leaves]

end Capacity
end NetworkFlow
