import NetworkFlow.Proofs.MaxFlow.Finished
import NetworkFlow.Proofs.Network.Assembled
import NetworkFlow.Proofs.Network.Integral
import Mathlib.Data.Real.Basic

namespace NetworkFlow

open Quantity ExactQuantity Network

/-- A network without lower bounds is accepted. -/
theorem hasLowerBounds_eq_false {α : Type} [Quantity α] [ExactQuantity α] {network : Network α}
    (lowers : ∀ edge ∈ network.edges, value? edge.lower = some 0)
    (offsets : ∀ edge ∈ network.edges, value? edge.offset = some 0) :
    network.hasLowerBounds = false := by
  rw [hasLowerBounds, Array.any_eq_false']
  intro edge member
  rw [isPositive_eq_decide (lowers edge member), isPositive_eq_decide (offsets edge member)]
  simp

section Integers

variable {network : Network Number} {capacity : Nat → Nat}

theorem carries_integral (source sink : Nat) :
    (network.integral capacity fun _ => 0).Carries source sink 0 := by
  apply carries_zero
  · intro edge member
    obtain ⟨old, -, rfl⟩ := mem_valued.mp member
    rfl
  · intro edge member
    obtain ⟨old, -, rfl⟩ := mem_valued.mp member
    exact Nat.cast_nonneg _

/-- Capacities that total at most 2^53 fit. -/
theorem fits_capacities
    (small : network.edgeSum (fun edge => (capacity edge.index : Int)) ≤ 2 ^ 53) :
    Fits Number (network.edgeSum fun edge => (capacity edge.index : Rat)) := by
  have least : 0 ≤ network.edgeSum fun edge => (capacity edge.index : Int) :=
    edgeSum_nonneg fun edge _ => Int.natCast_nonneg _
  refine ⟨network.edgeSum fun edge => (capacity edge.index : Int), ?_, by omega⟩
  rw [intCast_edgeSum]
  simp only [Int.cast_natCast]

theorem onLattice_integral (network : Network Number) (capacity : Nat → Nat) :
    (network.integral capacity fun _ => 0).OnLattice Number := by
  refine ⟨?_, ?_⟩
  · intro edge member
    obtain ⟨old, -, rfl⟩ := mem_valued.mp member
    exact natCast_mem_lattice _
  · intro edge member
    obtain ⟨old, -, rfl⟩ := mem_valued.mp member
    exact zero_mem _

theorem measured_integral
    (small : network.edgeSum (fun edge => (capacity edge.index : Int)) ≤ 2 ^ 53) :
    (network.integral capacity fun _ => 0).Measured Number := by
  refine ⟨onLattice_integral network capacity, ?_⟩
  rw [capacitySum_integral, intCast_edgeSum]
  simp only [Int.cast_natCast]
  exact fits_capacities small

end Integers

namespace MaxFlow

section Integers

variable {network : Network Number} {capacity : Nat → Nat} {run : Run Number}
  {bound value : Rat} {source sink : Nat} {last : Network Rat}

/-- Each edge of the network has its capacity and an integer flow when the run is settled. -/
theorem Run.Settled.integer_edge
    (settled : run.Settled bound source sink (network.integral capacity fun _ => 0) last value)
    {position : Nat} {edge : Edge Number} {other : Edge Rat}
    (stands : network.edges[position]? = some edge)
    (standsToo : last.edges[position]? = some other) :
    other.capacity = (capacity edge.index : Rat) ∧ other.offset = 0 ∧
      other.flow = (⌊last.flowAt position⌋ : Rat) := by
  have clear := getElem?_valued network
    (fun edge => ⟨capacity edge.index, ((0 : Nat) : Rat), 0, 0⟩) position
  rw [stands, Option.map_some] at clear
  obtain ⟨capacities, -, offsets⟩ := settled.bounds.bounds clear standsToo
  obtain ⟨integer, equal⟩ := settled.onLattice.flow other (Array.mem_of_getElem? standsToo)
  refine ⟨capacities, offsets, ?_⟩
  rw [flowAt_eq standsToo, ← equal, Int.coe_castAddHom, Int.floor_intCast]

theorem Run.Settled.sameShape
    (settled : run.Settled bound source sink (network.integral capacity fun _ => 0) last value) :
    SameShape network last :=
  (sameShape_valued network _).trans settled.bounds.shape

/-- A settled run leaves the shape of its network. -/
theorem Run.Settled.leftShape
    (settled : run.Settled bound source sink (network.integral capacity fun _ => 0) last value) :
    SameShape network run.network :=
  settled.sameShape.trans settled.network.shape.symm

/-- The flows fit as they are, because no lower bound was folded. -/
theorem Run.Settled.fits_integer
    (settled : run.Settled bound source sink (network.integral capacity fun _ => 0) last value) :
    ∀ edge ∈ last.edges, Fits Number edge.offset ∧ Fits Number (edge.flow + edge.offset) := by
  intro edge member
  obtain ⟨position, stands⟩ := Array.mem_iff_getElem?.mp member
  obtain ⟨old, found, -⟩ := settled.sameShape.symm.getElem? stands
  rw [(settled.integer_edge found stands).2.1, add_zero]
  exact ⟨fits_zero, (settled.fits edge member).flow⟩

/-- The table gives the integer flow of each edge of the network. -/
theorem Run.Settled.integer_flow
    (settled : run.Settled bound source sink (network.integral capacity fun _ => 0) last value)
    (wellFormed : network.WellFormed) {flows : Table Int Number}
    (gives : Gives flows network.edgeCount last.totalAt) {edge : Edge Number}
    (member : edge ∈ network.edges) :
    ∃ number, flows.find? edge.index = some number ∧
      value? number = some (⌊last.flowAt edge.index⌋ : Rat) := by
  have stands := wellFormed.getElem?_index member
  obtain ⟨other, found, -⟩ := settled.sameShape.getElem? stands
  obtain ⟨number, read, known⟩ := gives.value edge.index (wellFormed.index_lt member)
  obtain ⟨-, offset, flow⟩ := settled.integer_edge stands found
  exact ⟨number, read, by rw [known, totalAt_eq found, offset, add_zero, flow]⟩

/-- The integer flow sends from each vertex what the rational flow does. -/
theorem Run.Settled.cast_netOutflow
    (settled : run.Settled bound source sink (network.integral capacity fun _ => 0) last value)
    (wellFormed : network.WellFormed) (vertex : Nat) :
    ((network.netOutflow (fun edge => ⌊last.flowAt edge.index⌋) vertex : Int) : Rat) =
      last.netOutflow (fun edge => edge.flow) vertex := by
  rw [intCast_netOutflow]
  apply settled.sameShape.netOutflow_eq
  intro position edge other stands standsToo
  rw [wellFormed.index_eq stands, (settled.integer_edge stands standsToo).2.2]

/-- A settled run leaves the capacities and integer flows on the edges. -/
theorem Run.Settled.left_edge
    (settled : run.Settled bound source sink (network.integral capacity fun _ => 0) last value)
    (wellFormed : network.WellFormed) :
    ∀ edge ∈ run.network.edges, value? edge.capacity = some (capacity edge.index : Rat) ∧
      value? edge.flow = some (⌊last.flowAt edge.index⌋ : Rat) := by
  intro edge member
  obtain ⟨position, stands⟩ := Array.mem_iff_getElem?.mp member
  obtain ⟨other, found, place, loads⟩ := settled.network.edge stands
  obtain ⟨old, before, -⟩ := settled.sameShape.symm.getElem? found
  obtain ⟨capacities, -, flow⟩ := settled.integer_edge before found
  have index := settled.leftForm.index_eq stands
  rw [wellFormed.index_eq before, ← index] at capacities
  rw [← index] at flow
  exact ⟨by rw [loads.capacity, capacities], by rw [loads.flow, flow]⟩

theorem Run.Settled.isFlow
    (settled : run.Settled bound source sink (network.integral capacity fun _ => 0) last value)
    (wellFormed : network.WellFormed) :
    network.IsFlow source sink (fun edge => (capacity edge.index : Int))
      fun edge => ⌊last.flowAt edge.index⌋ := by
  have twin : ∀ edge ∈ network.edges, ∃ other ∈ last.edges,
      other.capacity = (capacity edge.index : Rat) ∧
      other.flow = (⌊last.flowAt edge.index⌋ : Rat) := by
    intro edge member
    have stands := wellFormed.getElem?_index member
    obtain ⟨other, found, -⟩ := settled.sameShape.getElem? stands
    obtain ⟨capacities, -, flows⟩ := settled.integer_edge stands found
    exact ⟨other, Array.mem_of_getElem? found, capacities, flows⟩
  refine ⟨?_, ?_, ?_⟩
  · intro edge member
    obtain ⟨other, inside, -, flows⟩ := twin edge member
    have nonneg := settled.carries.nonneg other inside
    rw [flows] at nonneg
    exact_mod_cast nonneg
  · intro edge member
    obtain ⟨other, inside, capacities, flows⟩ := twin edge member
    have most := settled.carries.atMost other inside
    rw [flows, capacities] at most
    exact_mod_cast most
  · intro vertex notSource notSink
    have casts := settled.cast_netOutflow wellFormed vertex
    rw [settled.carries.balance, if_neg (Ne.symm notSource), if_neg (Ne.symm notSink),
      sub_zero] at casts
    exact_mod_cast casts

/-- A settled run leaves the capacity of every cut. -/
theorem Run.Settled.leaving_eq
    (settled : run.Settled bound source sink (network.integral capacity fun _ => 0) last value)
    (side : Finset Nat) : last.leaving (fun edge => edge.capacity) side =
      network.leaving (fun edge => (capacity edge.index : Rat)) side := by
  symm
  apply settled.sameShape.leaving_eq
  intro position edge other stands standsToo
  exact (settled.integer_edge stands standsToo).1.symm

/-- The integer flow fills the cut of the run. -/
theorem Run.Settled.netOutflow_eq
    (settled : run.Settled bound source sink (network.integral capacity fun _ => 0) last value)
    (wellFormed : network.WellFormed) (differ : source ≠ sink) (below : bound < 1) :
    network.netOutflow (fun edge => ⌊last.flowAt edge.index⌋) source =
      network.leaving (fun edge => (capacity edge.index : Int)) run.finder.side := by
  have sends := settled.cast_netOutflow wellFormed source
  rw [settled.carries.balance, if_pos rfl, if_neg differ.symm, sub_zero,
    settled.total_eq differ (discrete_number below), settled.leaving_eq] at sends
  have cast : ((network.leaving (fun edge => (capacity edge.index : Int)) run.finder.side : Int) :
      Rat) = network.leaving (fun edge => (capacity edge.index : Rat)) run.finder.side := by
    rw [intCast_leaving]
    simp only [Int.cast_natCast]
  rw [← cast] at sends
  exact_mod_cast sends

/-- The capacity of any cut is computed exactly. -/
theorem exact_cut (wellFormed : network.WellFormed)
    (capacities : ∀ edge ∈ network.edges,
      value? edge.capacity = some (capacity edge.index : Rat))
    (offsets : ∀ edge ∈ network.edges, value? edge.offset = some 0)
    (small : network.edgeSum (fun edge => (capacity edge.index : Int)) ≤ 2 ^ 53)
    (side : List Nat) : ∃ cut, network.cutCapacity (side.map Int.ofNat) = .ok cut ∧
      value? cut = some ((network.leaving (fun edge => (capacity edge.index : Int))
        side.toFinset : Int) : Rat) := by
  have nonneg : ∀ edge ∈ network.edges, (0 : Rat) ≤ capacity edge.index :=
    fun edge _ => Nat.cast_nonneg _
  have fits := fits_capacities small
  have uppers : ∀ edge ∈ network.edges, ∃ bound, edge.upper = .ok bound ∧
      value? bound = some (capacity edge.index : Rat) := by
    intro edge member
    have fitsCapacity : Fits Number (capacity edge.index : Rat) :=
      fits_of_edgeSum nonneg fits member (natCast_mem_lattice _) (nonneg edge member) le_rfl
    obtain ⟨bound, added, known⟩ := exact_add (capacities edge member) (offsets edge member)
      fitsCapacity fits_zero (by rwa [add_zero])
    exact ⟨bound, added, by rw [known, add_zero]⟩
  obtain ⟨cut, computed, known⟩ := exact_cutCapacity wellFormed uppers
    (fun edge _ => natCast_mem_lattice _) nonneg fits side
  refine ⟨cut, computed, ?_⟩
  rw [known, intCast_leaving]
  simp only [Int.cast_natCast]

end Integers

/-- A solve with integer capacities that total at most 2^53 finds a minimum cut
and an integer flow of the same value. No flow of real numbers sends more. -/
theorem solve_maximal (network : Network Number) (assembled : network.Assembled)
    (capacity : Nat → Nat)
    (capacities : ∀ edge ∈ network.edges,
      value? edge.capacity = some (capacity edge.index : Rat))
    (lowers : ∀ edge ∈ network.edges, value? edge.lower = some 0)
    (small : network.edgeSum (fun edge => (capacity edge.index : Int)) ≤ 2 ^ 53)
    (source sink : Nat) (sourceInside : source < network.vertexCount)
    (sinkInside : sink < network.vertexCount) (differ : source ≠ sink)
    (options : Options Number) (tolerance : Rat)
    (tolerances : value? options.tolerance = some tolerance) (nonneg : 0 ≤ tolerance)
    (below : tolerance < 1) (watch : Watch Number) (interval : 0 < watch.interval)
    (quiet : ∀ report, watch.halts report = false) :
    ∃ (result : Result Number) (flow : Nat → Int) (value : Int),
      (solve network source sink options watch).outcome = .ok result ∧
      (source : Int) ∈ result.minCut ∧ (sink : Int) ∉ result.minCut ∧
      result.flows.keys = (List.range network.edgeCount).map Int.ofNat ∧
      (∀ edge ∈ network.edges, ∃ number, result.flows.find? edge.index = some number ∧
        value? number = some (flow edge.index : Rat)) ∧
      network.IsFlow source sink (fun edge => (capacity edge.index : Int))
        (fun edge => flow edge.index) ∧
      value? result.value = some (value : Rat) ∧
      value = network.netOutflow (fun edge => flow edge.index) source ∧
      (∃ cut, network.cutCapacity result.minCut = .ok cut ∧ value? cut = some (value : Rat)) ∧
      ∀ other : Edge Number → ℝ,
        network.IsFlow source sink (fun edge => (capacity edge.index : ℝ)) other →
        network.netOutflow other source ≤ value := by
  have wellFormed := assembled.wellFormed
  have offsets : ∀ edge ∈ network.edges, value? edge.offset = some 0 := by
    intro edge member
    rw [(assembled.load edge member).2, value?_zero]
  have resetForm := wellFormed.ofSameShape (sameShape_resetFlows network)
  have clear : network.resetFlows.StandsFor (network.integral capacity fun _ => 0) :=
    standsFor_integral capacities (fun edge member => by rw [lowers edge member, Nat.cast_zero])
      offsets
  have carries : (network.integral capacity fun _ => 0).Carries source sink 0 :=
    carries_integral source sink
  have measured := measured_integral small
  obtain ⟨last, total, finished⟩ := run_finished differ nonneg clear resetForm tolerances
    sourceInside sinkInside carries measured
    (run_noFault quiet differ nonneg clear resetForm tolerances sourceInside sinkInside carries
      measured)
  obtain ⟨ended, ran⟩ : ∃ ended, run network.resetFlows source sink options.tolerance watch =
      ended := ⟨_, rfl⟩
  rw [ran] at finished
  obtain ⟨result, computed, valued, cut, gives⟩ := finished.exact_result finished.fits_integer
    options.recordPaths
  obtain ⟨cutValue, cutting, cutKnown⟩ := exact_cut wellFormed capacities offsets small
    ended.finder.reachable
  have sameCount : ended.network.edgeCount = network.edgeCount :=
    (finished.sameShape.trans finished.network.shape.symm).edgeCount.symm
  have crosses := finished.netOutflow_eq wellFormed differ below
  refine ⟨result, fun position => ⌊last.flowAt position⌋,
    network.netOutflow (fun edge => ⌊last.flowAt edge.index⌋) source, ?_, ?_, ?_, ?_, ?_,
    finished.isFlow wellFormed, ?_, rfl, ⟨cutValue, ?_, ?_⟩, ?_⟩
  · simp only [solve, hasLowerBounds_eq_false lowers offsets, Bool.false_eq_true, if_false,
      checkTerminals_natCast sourceInside sinkInside differ, solveFrom,
      if_neg (not_le.mpr interval), ran]
    exact computed
  · rw [cut, Finder.natCast_mem_reachable_iff]
    exact finished.source_mem
  · rw [cut, Finder.natCast_mem_reachable_iff]
    exact finished.sink_not_mem
  · rw [gives.keys, sameCount]
  · exact fun edge => finished.integer_flow wellFormed (sameCount ▸ gives)
  · rw [valued, finished.total, finished.cast_netOutflow wellFormed, finished.carries.balance,
      if_pos rfl, if_neg differ.symm, sub_zero]
  · rw [cut]
    exact cutting
  · rw [cutKnown, crosses]
    rfl
  · intro other isFlow
    have most := isFlow.netOutflow_le finished.source_mem finished.sink_not_mem
    rw [crosses, intCast_leaving]
    exact most

/-- Two parallel edges, an edge against them and an edge to the sink. -/
def eddy : Network Number :=
  let load (capacity : Int) : Load Number := ⟨.int capacity, .int 0, zero, zero⟩
  ((((empty 3).attach 0 1 (load 2)).attach 0 1 (load 1)).attach 1 0 (load 3)).attach 1 2 (load 4)

theorem assembled_eddy : eddy.Assembled :=
  ((((assembled_empty 3).attach_int (by simp) (by simp) le_rfl (by decide) (by decide)).attach_int
    (by simp) (by simp) le_rfl (by decide) (by decide)).attach_int (by simp) (by simp) le_rfl
    (by decide) (by decide)).attach_int (by simp) (by simp) le_rfl (by decide) (by decide)

/-- Both parallel edges are filled, and the edge against them is not part of the cut. -/
theorem solve_maximal_eddy :
    ∃ result, (solve eddy 0 2 ⟨.int 0, false⟩ .idle).outcome = .ok result ∧
      result.minCut = [0] ∧ result.augmentations = 2 ∧ value? result.value = some 3 ∧
      ∃ cut, eddy.cutCapacity result.minCut = .ok cut ∧ value? cut = some 3 := by
  have known : (solve eddy 0 2 ⟨.int 0, false⟩ .idle).outcome.toOption.map
      (fun result => (result.minCut, result.augmentations, value? result.value)) =
        some ([0], 2, some 3) := by decide +kernel
  obtain ⟨result, flow, value, computed, -, -, -, -, -, valued, -, ⟨cut, cutting, stands⟩, -⟩ :=
    solve_maximal eddy assembled_eddy (fun index => [2, 1, 3, 4].getD index 0)
      (by simp [eddy, attach, empty, Number.value?_int])
      (by simp [eddy, attach, empty, Number.value?_int]) (by decide) 0 2 (by decide) (by decide)
      (by decide) ⟨.int 0, false⟩ 0 value?_ofInt_zero le_rfl one_pos .idle (by decide) fun _ => rfl
  have computedHere : (solve eddy 0 2 ⟨.int 0, false⟩ .idle).outcome = .ok result := computed
  rw [computedHere] at known
  simp only [Except.toOption, Option.map_some, Option.some.injEq, Prod.mk.injEq] at known
  obtain ⟨minCut, augmentations, three⟩ := known
  exact ⟨result, computed, minCut, augmentations, three, cut, cutting,
    stands.trans (valued.symm.trans three)⟩

end MaxFlow
end NetworkFlow
