import NetworkFlow.Proofs.Circulation.SolvedReduction
import NetworkFlow.Proofs.MaxFlow.FlowsOnly
import NetworkFlow.Proofs.Network.Growth

namespace NetworkFlow

open Quantity Network

namespace Load

/-- A lower bound that is folded can be added to the offset. -/
def Foldable (load : Load Number) : Prop :=
  lessEq load.lower (ofInt 0) = true ∨
    load.capacity.InFormat ∧ load.lower.InFormat ∧
      ∃ offset, add load.offset load.lower = .ok offset

/-- The bounds of a sound load are accepted between any ends, now and when they are folded. -/
structure Sound (load : Load Number) : Prop where
  checked : ∀ tail head : Int, load.check tail head = .ok ()
  foldable : load.Foldable

variable {load : Load Number}

/-- The ends of an edge play no part in what its bounds have to be. -/
theorem Sound.of_check {tail head : Int} (checked : load.check tail head = .ok ())
    (foldable : load.Foldable) : load.Sound :=
  ⟨fun _ _ => check_eq_ok.mpr (check_eq_ok.mp checked), foldable⟩

/-- The flow plays no part in what the bounds have to be. -/
theorem Sound.of_cleared {other : Load Number} (sound : load.Sound)
    (cleared : { other with flow := zero } = { load with flow := zero }) : other.Sound := by
  have same : { load with flow := other.flow } = other :=
    congrArg (fun bare : Load Number => { bare with flow := other.flow }) cleared.symm
  rw [← same]
  exact ⟨fun tail head => check_eq_ok.mpr (check_eq_ok.mp (sound.checked tail head)),
    sound.foldable⟩

/-- The lower bound of a new edge can be added to its offset, which is zero. -/
theorem foldable_fresh {capacity lower flow : Number} (capacities : capacity.InFormat)
    (lowers : lower.InFormat) (finite : isFinite lower = .ok true) :
    Foldable ⟨capacity, lower, flow, zero⟩ := by
  obtain ⟨negative, units, near⟩ := Number.toBinary_of_isFinite finite
  have raised : Number.add zero lower =
      .ok (.real (Binary64.zero.add (.finite negative units))) := by
    rw [Number.add, Number.combine_of_inr (.inl ⟨_, rfl⟩), near]
    rfl
  exact .inr ⟨capacities, lowers, _, Number.add_eq_ok.mpr raised⟩

/-- A sound load is folded without a fault, and what remains is sound. -/
theorem Sound.fold (sound : load.Sound) (large : ¬lessEq load.lower (ofInt 0) = true) :
    (Folding.foldLoad load).1.Sound := by
  obtain ⟨capacities, lowers, offset, raised⟩ := sound.foldable.resolve_left large
  obtain ⟨rest, weight, left, -⟩ := exists_rest capacities lowers (sound.checked 0 0)
  -- The capacity changes before the offset, so a fault between them would break the order.
  have folds : Folding.foldLoad load = (⟨rest, zero, zero, offset⟩, none) := by
    simp only [Folding.foldLoad, left, raised]
  have checked := check_reduced capacities lowers (sound.checked 0 0) fun _ => by rw [folds]
  rw [reduced, if_neg large, folds] at checked
  rw [folds]
  exact .of_check checked (.inl Number.zero_lessEq)

/-- An edge of a matching network is sound. -/
theorem sound_unitLoad : (MatchingNetwork.unitLoad : Load Number).Sound :=
  .of_check (by decide +kernel : MatchingNetwork.unitLoad.check 0 1 = .ok ())
    (.inl Number.zero_lessEq)

end Load

namespace Network

variable {network extended : Network Number}

/-- A sound network has sound loads. -/
def Sound (network : Network Number) : Prop :=
  ∀ edge ∈ network.edges, edge.toLoad.Sound

/-- A sound network is its own copy. -/
theorem Sound.copied (sound : network.Sound) (wellFormed : network.WellFormed) :
    network.copy = .ok network :=
  copy_eq wellFormed fun edge member => (sound edge member).checked edge.tail edge.head

theorem Sound.attach (sound : network.Sound) (tail head : Nat) {load : Load Number}
    (added : load.Sound) : (network.attach tail head load).Sound := by
  intro edge member
  rcases Array.mem_push.mp member with old | rfl
  · exact sound edge old
  · exact added

/-- An edge without a lower bound may be added. -/
theorem Sound.addEdge (sound : network.Sound) {tail head : Int} {capacity : Number}
    (added : network.addEdge tail head capacity zero = .ok extended) : extended.Sound := by
  obtain ⟨first, second, -, -, -, -, checked, rfl⟩ := addEdge_eq_ok added
  exact sound.attach first second (.of_check checked (.inl Number.zero_lessEq))

/-- A network stays sound while its loads stay but for the flows. -/
theorem Sound.of_resetFlows {other : Network Number} (sound : network.Sound)
    (same : other.resetFlows = network.resetFlows) : other.Sound := by
  intro edge member
  have cleared : { edge with flow := Quantity.zero } ∈ network.resetFlows.edges := by
    rw [← same]
    exact Array.mem_map_of_mem member
  obtain ⟨twin, inside, equal⟩ := Array.mem_map.mp cleared
  exact (sound twin inside).of_cleared (congrArg Edge.toLoad equal).symm

theorem Sound.resetFlows (sound : network.Sound) : network.resetFlows.Sound := by
  intro edge member
  obtain ⟨old, inside, rfl⟩ := Array.mem_map.mp member
  exact (sound old inside).of_cleared rfl

theorem Sound.reduceLowerBounds (sound : network.Sound) (demands : List Number)
    (tolerance : Number) : (network.reduceLowerBounds demands tolerance).1.Sound := by
  refine reduceLowerBounds_induction Sound sound (fun stands large kept edge member => ?_) demands
    tolerance
  rcases mem_modifyLoad member with old | ⟨twin, standsToo, rfl⟩
  · exact kept edge old
  · exact (kept _ (Array.mem_of_getElem? stands)).fold large

theorem Sound.buildCirculation (sound : network.Sound) (demands : Demands Number)
    (tolerance : Number) : (network.buildCirculation demands tolerance).1.Sound :=
  buildCirculation_induction Sound sound id (fun added kept => kept.addEdge added) demands tolerance

/-- A matching network is sound. -/
theorem sound_of_build {leftCount rightCount : Int} {pairs : List (Int × Int)}
    {matching : MatchingNetwork Number}
    (built : MatchingNetwork.build leftCount rightCount pairs = .ok matching) :
    matching.network.Sound := by
  intro edge member
  have listed := Array.mem_toList_iff.mpr member
  rw [(MatchingNetwork.wired_of_build built).edges] at listed
  have unit : edge.toLoad = MatchingNetwork.unitLoad := by
    simp only [List.mem_append, List.mem_map] at listed
    obtain (⟨_, -, rfl⟩ | ⟨_, -, rfl⟩) | ⟨_, -, rfl⟩ := listed <;> rfl
  rw [unit]
  exact Load.sound_unitLoad

end Network
end NetworkFlow
