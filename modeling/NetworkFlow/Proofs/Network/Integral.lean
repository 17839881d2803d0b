import NetworkFlow.Proofs.Arithmetic.Number
import NetworkFlow.Proofs.Flow.Balance
import NetworkFlow.Proofs.Network.StandsFor

namespace NetworkFlow

open Quantity ExactQuantity Network

theorem natCast_mem_lattice (value : Nat) : (value : Rat) ∈ lattice Number :=
  ⟨value, by simp⟩

theorem intCast_mem_lattice (value : Int) : (value : Rat) ∈ lattice Number :=
  ⟨value, rfl⟩

theorem Number.fits_natCast {value : Nat} (small : value ≤ 2 ^ 53) :
    ExactQuantity.Fits Number (value : Rat) :=
  ⟨value, by simp, by simpa using small⟩

namespace Network

/-- The rational network with integer bounds and no flow. -/
def integral {α : Type} (network : Network α) (capacity lower : Nat → Nat) : Network Rat :=
  network.valued fun edge => ⟨capacity edge.index, lower edge.index, 0, 0⟩

section Sums

variable {α : Type} (network : Network α) (capacity lower : Nat → Nat)

/-- A sum over the rational network is a sum over the edges that it was made from. -/
theorem edgeSum_integral (amount : Nat → Nat → Load Rat → Rat) :
    ((network.integral capacity lower).edgeSum fun edge =>
      amount edge.tail edge.head edge.toLoad) =
      network.edgeSum fun edge =>
        amount edge.tail edge.head ⟨capacity edge.index, lower edge.index, 0, 0⟩ := by
  simp only [edgeSum, integral, valued, Array.toList_map, List.map_map]
  rfl

theorem capacitySum_integral :
    ((network.integral capacity lower).edgeSum fun edge => edge.capacity) =
      ((network.edgeSum fun edge => (capacity edge.index : Int) : Int) : Rat) := by
  rw [intCast_edgeSum]
  exact edgeSum_integral network capacity lower fun _ _ load => load.capacity

theorem lowerSum_integral :
    ((network.integral capacity lower).edgeSum fun edge => edge.lower) =
      ((network.edgeSum fun edge => (lower edge.index : Int) : Int) : Rat) := by
  rw [intCast_edgeSum]
  exact edgeSum_integral network capacity lower fun _ _ load => load.lower

theorem leaving_integral (side : Finset Nat) :
    ((network.integral capacity lower).leaving (fun edge => edge.capacity) side) =
      ((network.leaving (fun edge => (capacity edge.index : Int)) side : Int) : Rat) := by
  rw [intCast_leaving]
  exact edgeSum_integral network capacity lower fun tail head load =>
    if tail ∈ side ∧ head ∉ side then load.capacity else 0

theorem entering_integral (side : Finset Nat) :
    ((network.integral capacity lower).entering (fun edge => edge.lower) side) =
      ((network.entering (fun edge => (lower edge.index : Int)) side : Int) : Rat) := by
  rw [intCast_entering]
  exact edgeSum_integral network capacity lower fun tail head load =>
    if head ∈ side ∧ tail ∉ side then load.lower else 0

end Sums

/-- A network whose bounds are integers stands for the rational network with these bounds. -/
theorem standsFor_integral {network : Network Number} {capacity lower : Nat → Nat}
    (capacities : ∀ edge ∈ network.edges,
      value? edge.capacity = some (capacity edge.index : Rat))
    (lowers : ∀ edge ∈ network.edges, value? edge.lower = some (lower edge.index : Rat))
    (offsets : ∀ edge ∈ network.edges, value? edge.offset = some 0) :
    network.resetFlows.StandsFor (network.integral capacity lower) := by
  refine ⟨(sameShape_resetFlows network).symm.trans (sameShape_valued network _), ?_⟩
  intro position edge other stands standsToo
  simp only [resetFlows, Array.getElem?_map, Option.map_eq_some_iff] at stands
  obtain ⟨old, found, rfl⟩ := stands
  rw [integral, getElem?_valued, found, Option.map_some, Option.some.injEq] at standsToo
  rw [← standsToo]
  have member := Array.mem_of_getElem? found
  exact ⟨capacities old member, lowers old member, value?_zero, offsets old member⟩

end Network
end NetworkFlow
