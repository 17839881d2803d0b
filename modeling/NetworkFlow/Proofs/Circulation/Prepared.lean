import NetworkFlow.Proofs.Circulation.Folding
import NetworkFlow.Proofs.Network.Growth

namespace NetworkFlow

open Quantity ExactQuantity Network

namespace Load

/-- The load with both bounds in the units of the caller, without flow and without offset. -/
def unfolded (load : Load Rat) : Load Rat :=
  ⟨load.capacity + load.offset, load.lower + load.offset, 0, 0⟩

/-- A load that was never folded is in the units of the caller already. -/
theorem unfolded_fresh (capacity lower : Rat) :
    unfolded ⟨capacity, lower, zero, zero⟩ = ⟨capacity, lower, zero, zero⟩ :=
  congrArg₂ (fun capacity lower => (⟨capacity, lower, 0, 0⟩ : Load Rat)) (add_zero capacity)
    (add_zero lower)

theorem unfolded_folded (load : Load Rat) : load.folded.unfolded = load.unfolded := by
  simp only [folded, unfolded, mk.injEq, and_true]
  constructor <;> ring

/-- Folding a rational load never fails. -/
theorem foldLoad_eq (load : Load Rat) : Folding.foldLoad load = (load.folded, none) :=
  rfl

theorem folded_unfolded (load : Load Rat) : load.unfolded.folded = load.folded := by
  simp only [folded, unfolded, mk.injEq, true_and]
  constructor <;> ring

end Load

namespace Network

variable {network : Network Rat} {position : Nat} {edge : Edge Rat}

/-- The network in the units of the caller, as if no lower bound had been folded. -/
def unfolded (network : Network Rat) : Network Rat :=
  network.mapLoads fun edge => edge.toLoad.unfolded

theorem sameShape_unfolded (network : Network Rat) : SameShape network network.unfolded :=
  sameShape_mapLoads network _

theorem unfolded_attach (network : Network Rat) (tail head : Nat) (load : Load Rat) :
    (network.attach tail head load).unfolded =
      network.unfolded.attach tail head load.unfolded := by
  simp only [unfolded, mapLoads, attach, Array.map_push, Array.size_map]
  rfl

/-- A folded edge has the bounds of the caller that it had. -/
theorem unfolded_modifyLoad (stands : network.edges[position]? = some edge) :
    (network.modifyLoad position fun _ => edge.toLoad.folded).unfolded = network.unfolded := by
  refine congrArg (Network.mk network.adjacency) ?_
  apply Array.ext_getElem?
  intro other
  simp only [modifyLoad, Array.getElem?_map, Array.getElem?_modify]
  by_cases here : position = other
  · rw [if_pos here, ← here, stands]
    exact congrArg (fun load => some (edge.withLoad load)) edge.toLoad.unfolded_folded
  · rw [if_neg here]

/-- A reduction leaves the bounds of the caller as they are. -/
theorem unfolded_reduceLowerBounds (network : Network Rat) (demands : List Rat)
    (tolerance : Rat) :
    (network.reduceLowerBounds demands tolerance).1.unfolded = network.unfolded :=
  reduceLowerBounds_induction (fun other => other.unfolded = network.unfolded) rfl
    (fun stands _ kept => by
      rw [Load.foldLoad_eq]
      exact (unfolded_modifyLoad stands).trans kept) demands tolerance

/-- A prepared network was assembled, and its lower bounds may have been reduced in place,
any number of times, between the additions and after them. -/
inductive Prepared : Network Rat → Prop where
  | create {count : Int} {network : Network Rat} (created : Network.create count = .ok network) :
      Prepared network
  | addVertex {network : Network Rat} (prepared : Prepared network) : Prepared network.addVertex
  | addEdge {network extended : Network Rat} {tail head : Int} {capacity lower : Rat}
      (prepared : Prepared network)
      (added : network.addEdge tail head capacity lower = .ok extended) : Prepared extended
  | reflow {network : Network Rat} (prepared : Prepared network) (flow : Edge Rat → Rat) :
      Prepared (network.mapLoads fun edge => { edge.toLoad with flow := flow edge })
  | reduce {network : Network Rat} (prepared : Prepared network) (demands : List Rat)
      (tolerance : Rat) : Prepared (network.reduceLowerBounds demands tolerance).1

/-- The bounds of every edge are in order. -/
def Ordered (network : Network Rat) : Prop :=
  ∀ edge ∈ network.edges, 0 ≤ edge.lower ∧ edge.lower ≤ edge.capacity

/-- A network whose bounds are in order is its own copy. -/
theorem Ordered.copied (ordered : network.Ordered) (wellFormed : network.WellFormed) :
    network.copy = .ok network :=
  copy_eq wellFormed fun edge member =>
    (exact_check rfl rfl trivial trivial _ _).mpr (ordered edge member)

/-- Clearing the flows keeps the bounds in order. -/
theorem Ordered.resetFlows (ordered : network.Ordered) : network.resetFlows.Ordered := by
  intro edge member
  obtain ⟨old, inside, rfl⟩ := Array.mem_map.mp member
  exact ordered old inside

theorem Assembled.ordered (assembled : network.Assembled) : network.Ordered :=
  fun edge member => (exact_check rfl rfl trivial trivial _ _).mp (assembled.load edge member).1

/-- A folded edge has its bounds in order when it had them so before. -/
theorem Ordered.modifyLoad (ordered : network.Ordered)
    (stands : network.edges[position]? = some edge) :
    (network.modifyLoad position fun _ => edge.toLoad.folded).Ordered := by
  intro other member
  rcases mem_modifyLoad member with old | ⟨twin, standsToo, rfl⟩
  · exact ordered other old
  · exact ⟨le_rfl, sub_nonneg.mpr (ordered edge (Array.mem_of_getElem? stands)).2⟩

/-- A network that was never reduced is prepared as well. -/
theorem Assembled.prepared (assembled : network.Assembled) : network.Prepared := by
  induction assembled with
  | create created => exact .create created
  | addVertex assembled inductionHypothesis => exact .addVertex inductionHypothesis
  | addEdge assembled added inductionHypothesis => exact .addEdge inductionHypothesis added
  | reflow assembled flow inductionHypothesis => exact .reflow inductionHypothesis flow

namespace Prepared

/-- The bounds of a prepared network are in order. -/
theorem ordered (prepared : network.Prepared) : network.Ordered := by
  induction prepared with
  | create created =>
    obtain rfl := create_eq_ok created
    intro edge member
    simp [empty] at member
  | addVertex prepared inductionHypothesis => exact inductionHypothesis
  | addEdge prepared added inductionHypothesis =>
    obtain ⟨first, second, -, -, -, -, checked, rfl⟩ := addEdge_eq_ok added
    intro edge member
    rcases Array.mem_push.mp member with old | rfl
    · exact inductionHypothesis edge old
    · exact (exact_check rfl rfl trivial trivial _ _).mp checked
  | reflow prepared flow inductionHypothesis =>
    intro edge member
    obtain ⟨old, inside, rfl⟩ := mem_mapLoads.mp member
    exact inductionHypothesis old inside
  | reduce prepared demands tolerance inductionHypothesis =>
    refine reduceLowerBounds_induction Ordered inductionHypothesis
      (fun stands _ kept => ?_) demands tolerance
    rw [Load.foldLoad_eq]
    exact kept.modifyLoad stands

/-- In the units of the caller a prepared network is assembled. -/
theorem assembled (prepared : network.Prepared) : network.unfolded.Assembled := by
  induction prepared with
  | @create count network created =>
    obtain rfl := create_eq_ok created
    have same : (empty count.toNat : Network Rat).unfolded = empty count.toNat := by
      simp [unfolded, mapLoads, empty]
    rw [same]
    exact assembled_empty _
  | addVertex prepared inductionHypothesis => exact inductionHypothesis.addVertex
  | @addEdge network extended tail head capacity lower prepared added inductionHypothesis =>
    obtain ⟨first, second, rfl, rfl, inside, insideToo, checked, rfl⟩ := addEdge_eq_ok added
    rw [unfolded_attach, Load.unfolded_fresh]
    exact inductionHypothesis.attach inside insideToo checked
  | @reflow network prepared flow inductionHypothesis =>
    have same : (network.mapLoads fun edge => { edge.toLoad with flow := flow edge }).unfolded =
        network.unfolded := by
      simp only [unfolded, mapLoads, Array.map_map]
      rfl
    rwa [same]
  | reduce prepared demands tolerance inductionHypothesis =>
    rwa [unfolded_reduceLowerBounds]

theorem wellFormed (prepared : network.Prepared) : network.WellFormed :=
  prepared.assembled.wellFormed.ofSameShape network.sameShape_unfolded.symm

end Prepared

end Network
end NetworkFlow
