import NetworkFlow.Proofs.Arithmetic.Counting
import NetworkFlow.Proofs.MaxFlow.Optimality

namespace NetworkFlow

open Quantity ExactQuantity Network

/-- A network has unit capacities when it carries an integer flow and no edge takes more than one
unit. -/
structure Network.UnitFlow (network : Network Rat) (source sink : Nat) (value : Rat) : Prop where
  wellFormed : network.WellFormed
  capacities : ∀ edge ∈ network.edges, edge.capacity = 1
  carries : network.Carries source sink value
  onLattice : network.OnLattice Number

section UnitFlow

variable {network last : Network Rat} {source sink : Nat} {bound amount value : Rat}
  {arcs : List Arc}

theorem Network.UnitFlow.space_le (unit : network.UnitFlow source sink value) {edge : Edge Rat}
    (member : edge ∈ network.edges) (forward : Bool) : edge.space forward ≤ 1 := by
  have capacity := unit.capacities edge member
  have least := unit.carries.nonneg edge member
  have most := unit.carries.atMost edge member
  rw [Load.space]
  split <;> linarith

theorem Network.UnitFlow.roomFits (unit : network.UnitFlow source sink value) :
    network.RoomFits Number := by
  have one : Fits Number 1 := ⟨1, Int.cast_one.symm, by decide⟩
  intro edge member
  have capacity := unit.capacities edge member
  have least := unit.carries.nonneg edge member
  have most := unit.carries.atMost edge member
  rw [capacity] at most
  have flow := unit.onLattice.flow edge member
  have whole := unit.onLattice.capacity edge member
  have fits {room : Rat} (inside : room ∈ lattice Number) (lower : 0 ≤ room) (upper : room ≤ 1) :
      Fits Number room :=
    fits_of_abs_le inside (abs_le_abs_of_nonneg lower upper) one
  refine ⟨capacity ▸ one, fits flow least most, fits (sub_mem whole flow) ?_ ?_⟩
  · linarith
  · linarith

/-- An augmentation moves one unit, because no smaller integer exceeds the tolerance. -/
theorem Augments.eq_one (unit : network.UnitFlow source sink value) (nonneg : 0 ≤ bound)
    (augments : Augments bound source sink network arcs amount) : amount = 1 := by
  obtain ⟨integer, rfl⟩ := augments.mem_lattice unit.onLattice
  have positive : (0 : Rat) < Int.castAddHom Rat integer := nonneg.trans_lt augments.above
  obtain ⟨arc, member, equal⟩ := augments.tight
  obtain ⟨edge, stands, -⟩ := augments.shortest.crossed arc member
  have most : (Int.castAddHom Rat integer : Rat) ≤ 1 := by
    rw [equal, arcSpace_eq stands]
    exact unit.space_le (Array.mem_of_getElem? stands) _
  simp only [Int.coe_castAddHom] at positive most ⊢
  have least : 0 < integer := by exact_mod_cast positive
  have upper : integer ≤ 1 := by exact_mod_cast most
  rw [show integer = 1 by omega, Int.cast_one]

theorem Augments.unitFlow (unit : network.UnitFlow source sink value) (nonneg : 0 ≤ bound)
    (augments : Augments bound source sink network arcs amount) :
    (network.shifted amount arcs).UnitFlow source sink (value + amount) := by
  refine ⟨unit.wellFormed.ofSameShape (sameShape_shifted network amount arcs), ?_,
    augments.carries unit.wellFormed nonneg unit.carries,
    augments.onLattice unit.wellFormed unit.onLattice⟩
  intro edge member
  obtain ⟨old, inside, rfl⟩ := mem_shifted.mp member
  exact unit.capacities old inside

/-- Every step of a chain moves one unit. -/
theorem Chain.amount_eq_one {steps : List (List Arc × Rat)} (nonneg : 0 ≤ bound)
    (chain : Chain bound source sink network steps last) :
    ∀ {value : Rat}, network.UnitFlow source sink value → ∀ step ∈ steps, step.2 = 1 := by
  induction chain with
  | stop network => simp
  | step augments chain inductionHypothesis =>
    intro value unit step member
    rcases List.mem_cons.mp member with rfl | later
    · exact augments.eq_one unit nonneg
    · exact inductionHypothesis (augments.unitFlow unit nonneg) step later

theorem amountOf_eq_length {steps : List (List Arc × Rat)} (ones : ∀ step ∈ steps, step.2 = 1) :
    amountOf steps = steps.length := by
  induction steps with
  | nil => simp
  | cons step rest inductionHypothesis =>
    rw [amountOf_cons, ones step (by simp),
      inductionHypothesis fun other member => ones other (by simp [member]), List.length_cons]
    push_cast
    ring

/-- A run with unit capacities goes on, and its total counts. -/
theorem keepsGoing_unitFlow (nonneg : 0 ≤ bound) (source sink : Nat) :
    KeepsGoing Number bound source sink fun network sum total =>
      network.UnitFlow source sink sum ∧ ∃ count : Nat, sum = count ∧ total.Counts count := by
  refine ⟨fun holds => holds.1.roomFits, ?_⟩
  rintro network sum total arcs value amount ⟨unit, count, equal, counts⟩ augments amounts
  have one := augments.eq_one unit nonneg
  rw [one] at amounts
  obtain ⟨after, added, counted⟩ := counts.add_one amounts
  refine ⟨after, added, augments.unitFlow unit nonneg, count + 1, ?_, counted⟩
  rw [equal, one, Nat.cast_add_one]

end UnitFlow

namespace MaxFlow

variable {network : Network Number} {source sink : Nat} {bound : Rat} {watch : Watch Number}

/-- Augmentations that follow steps of one unit have the bottleneck one. -/
theorem bottleneck_eq_one {augmentations : List (Augmentation Number)}
    {steps : List (List Arc × Rat)}
    (follows : List.Forall₂ Augmentation.Follows augmentations steps)
    (ones : ∀ step ∈ steps, step.2 = 1) :
    ∀ augmentation ∈ augmentations, value? augmentation.bottleneck = some 1 := by
  induction follows with
  | nil => simp
  | cons first rest inductionHypothesis =>
    intro augmentation member
    rcases List.mem_cons.mp member with rfl | later
    · rw [first.2, ones _ (by simp)]
    · exact inductionHypothesis (fun step inside => ones step (by simp [inside])) _ later

/-- A run from empty edges with unit capacities is settled.
It makes as many augmentations as the value of its flow. -/
theorem run_unitFlow {tolerance : Number}
    (standsFor : network.StandsFor (network.integral (fun _ => 1) fun _ => 0))
    (wellFormed : network.WellFormed) (sourceInside : source < network.vertexCount)
    (sinkInside : sink < network.vertexCount) (differ : source ≠ sink)
    (tolerances : value? tolerance = some bound) (nonneg : 0 ≤ bound)
    (quiet : ∀ report, watch.halts report = false) :
    ∃ (last : Network Rat) (count : Nat),
      (run network source sink tolerance watch).Settled bound source sink
        (network.integral (fun _ => 1) fun _ => 0) last count ∧
      value? (run network source sink tolerance watch).total =
        some ((min count (2 ^ 53) : Nat) : Rat) ∧
      (run network source sink tolerance watch).augmentations.length = count ∧
      ∀ augmentation ∈ (run network source sink tolerance watch).augmentations,
        value? augmentation.bottleneck = some 1 := by
  have unit : (network.integral (fun _ => 1) fun _ => 0).UnitFlow source sink 0 := by
    refine ⟨standsFor.wellFormed wellFormed, ?_, carries_integral source sink,
      onLattice_integral network _⟩
    intro edge member
    obtain ⟨old, -, rfl⟩ := mem_valued.mp member
    exact Nat.cast_one
  rw [standsFor.shape.vertexCount] at sourceInside sinkInside
  obtain ⟨steps, last, follows, ⟨settled, count, equal, counts⟩, ending⟩ := run_goes watch
    (keepsGoing_unitFlow nonneg source sink) differ nonneg standsFor wellFormed tolerances
    sourceInside sinkInside ⟨unit, 0, Nat.cast_zero.symm, Number.counts_zero⟩
  have ones := follows.chain.amount_eq_one nonneg unit
  have number : (steps.length : Rat) = count := by rw [← equal, amountOf_eq_length ones]
  refine ⟨last, count, ?_, counts.value?_eq, ?_, ?_⟩
  · rcases ending with ended | ⟨_, report, -, halts⟩
    · exact ⟨follows.chain.sameBounds, follows.network, settled.wellFormed,
        equal ▸ settled.carries, settled.onLattice, settled.roomFits, ended⟩
    · rw [quiet report] at halts
      cases halts
  · rw [follows.augmentations.length_eq]
    exact_mod_cast number
  · exact bottleneck_eq_one follows.augmentations ones

/-- A warm solve of empty edges with unit capacities reads its result from a settled run.
The value counts the augmentations as long as binary64 numbers do. -/
theorem solveWarm_unitFlow {options : Options Number}
    (standsFor : network.StandsFor (network.integral (fun _ => 1) fun _ => 0))
    (wellFormed : network.WellFormed) (sourceInside : source < network.vertexCount)
    (sinkInside : sink < network.vertexCount) (differ : source ≠ sink)
    (tolerances : value? options.tolerance = some bound) (nonneg : 0 ≤ bound)
    (interval : 0 < watch.interval) (quiet : ∀ report, watch.halts report = false) :
    ∃ (ran : Run Number) (last : Network Rat) (count : Nat) (result : Result Number),
      ran.Settled bound source sink (network.integral (fun _ => 1) fun _ => 0) last count ∧
      (solveWarm network source sink options watch).network = ran.network ∧
      (solveWarm network source sink options watch).outcome = .ok result ∧
      value? result.value = some ((min count (2 ^ 53) : Nat) : Rat) ∧
      result.augmentations = count ∧
      (∀ bottleneck ∈ result.bottlenecks, value? bottleneck = some 1) ∧
      result.minCut = ran.finder.reachable.map Int.ofNat ∧
      Gives result.flows network.edgeCount last.totalAt := by
  obtain ⟨last, count, settled, totals, augmentations, bottlenecks⟩ := run_unitFlow standsFor
    wellFormed sourceInside sinkInside differ tolerances nonneg quiet
  obtain ⟨result, computed, valued, cut, gives⟩ := settled.exact_result settled.fits_integer
    options.recordPaths
  obtain ⟨counted, listed⟩ := Run.result_eq_ok computed
  refine ⟨_, last, count, result, settled, ?_, ?_, ?_, ?_, ?_, cut, ?_⟩
  · rw [solveWarm_eq options sourceInside sinkInside differ interval]
  · rw [solveWarm_eq options sourceInside sinkInside differ interval]
    exact computed
  · rw [valued, totals]
  · rw [counted, augmentations]
  · intro bottleneck member
    rw [listed] at member
    obtain ⟨augmentation, present, rfl⟩ := List.mem_map.mp member
    exact bottlenecks augmentation present
  · rw [settled.leftShape.edgeCount]
    exact gives

end MaxFlow
end NetworkFlow
