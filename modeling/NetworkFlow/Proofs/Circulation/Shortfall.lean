/-
This file proves how far a circulation in rational arithmetic may fall short of demands that an
assignment meets. The tolerance hides at most so much room on each edge that crosses the cut,
and at most so much of each demand that is not wired.
-/
import NetworkFlow.Proofs.Circulation.Completeness
import NetworkFlow.Proofs.Circulation.Soundness
import NetworkFlow.Proofs.MaxFlow.DualityGap

namespace NetworkFlow

open Quantity ExactQuantity Network

/-- What an edge across a cut adds beyond the tolerance, or what an edge back takes off. -/
def surplus (side : Finset Nat) (bound : Rat) (tail head : Nat) (capacity : Rat) : Rat :=
  (if tail ∈ side ∧ head ∉ side then capacity - bound else 0) -
    if head ∈ side ∧ tail ∉ side then bound else 0

/-- The surplus of all edges is the room of the cut without the tolerance on each edge that
crosses it. -/
theorem Network.edgeSum_surplus {α : Type} (network : Network α) (room : Edge α → Rat)
    (bound : Rat) (side : List Nat) :
    (network.edgeSum fun edge => surplus side.toFinset bound edge.tail edge.head (room edge)) =
      network.leaving room side.toFinset - bound * network.boundaryCount (side.map Int.ofNat) := by
  rw [← leaving_add_entering_const, leaving, leaving, entering, ← edgeSum_add, ← edgeSum_sub]
  apply edgeSum_congr
  intro edge _
  rw [surplus, sub_add_eq_sub_sub]
  congr 1
  split
  · rfl
  · rw [sub_zero]

/-- The number of vertices that supply outside of a set or demand inside of it. -/
def strandedCount (count : Nat) (values : Nat → Rat) (side : List Int) : Nat :=
  ((Finset.range count).filter fun vertex : Nat =>
    if (vertex : Int) ∈ side then 0 < values vertex else values vertex < 0).card

section Demands

variable {count : Nat} {values : Nat → Rat} {bound room : Rat}

/-- An amount for each stranded vertex adds up to their number of amounts. -/
theorem sum_stranded (count : Nat) (values : Nat → Rat) (bound : Rat) (side : List Nat) :
    (∑ vertex ∈ Finset.range count, if
      (if vertex ∈ side.toFinset then 0 < values vertex else values vertex < 0) then bound else 0) =
      bound * strandedCount count values (side.map Int.ofNat) := by
  rw [strandedCount, ← Finset.sum_filter, Finset.sum_const, nsmul_eq_mul, mul_comm]
  congr 3
  apply Finset.filter_congr
  intro vertex _
  simp

/-- What the wires at a vertex add across a cut beyond the tolerance. -/
def wireSurplus (side : Finset Nat) (bound : Rat) (values : Nat → Rat) (vertex : Nat) : Rat :=
  (if values vertex < -bound then (if vertex ∈ side then 0 else -values vertex - bound) else 0) +
    if bound < values vertex then (if vertex ∈ side then values vertex - bound else 0) else 0

/-- A vertex supplies at most what it sends from a set, its wires across the boundary,
and the tolerance when it is stranded. -/
theorem supply_le (nonneg : 0 ≤ bound) (side : Finset Nat) (vertex : Nat) :
    max (-values vertex) 0 ≤ -(if vertex ∈ side then values vertex else 0) +
      wireSurplus side bound values vertex +
      if (if vertex ∈ side then 0 < values vertex else values vertex < 0) then bound else 0 := by
  rw [wireSurplus]
  by_cases inside : vertex ∈ side
  · simp only [inside, if_true]
    rcases max_cases (-values vertex) 0 with ⟨most, sign⟩ | ⟨most, sign⟩ <;>
      rw [most] <;> split_ifs <;> linarith
  · simp only [inside, if_false]
    rcases max_cases (-values vertex) 0 with ⟨most, sign⟩ | ⟨most, sign⟩ <;>
      rw [most] <;> split_ifs <;> linarith

/-- Demands that cancel are at most what may leave a set, the wires across its boundary,
and the tolerance for each stranded vertex. -/
theorem demandTotal_le (nonneg : 0 ≤ bound)
    (cancels : ∑ vertex ∈ Finset.range count, values vertex = 0) (side : List Nat)
    (enough : -(∑ vertex ∈ Finset.range count, if vertex ∈ side.toFinset then values vertex else 0)
      ≤ room) :
    demandTotal count values ≤ room +
      (∑ vertex ∈ Finset.range count, wireSurplus side.toFinset bound values vertex) +
      bound * strandedCount count values (side.map Int.ofNat) := by
  have equal := demandTotal_sub_supplyTotal count values
  rw [cancels, sub_eq_zero] at equal
  calc demandTotal count values
      = ∑ vertex ∈ Finset.range count, max (-values vertex) 0 := equal
    _ ≤ _ := Finset.sum_le_sum fun vertex _ => supply_le nonneg side.toFinset vertex
    _ = -(∑ vertex ∈ Finset.range count, if vertex ∈ side.toFinset then values vertex else 0) +
          (∑ vertex ∈ Finset.range count, wireSurplus side.toFinset bound values vertex) +
          bound * strandedCount count values (side.map Int.ofNat) := by
        rw [Finset.sum_add_distrib, Finset.sum_add_distrib, Finset.sum_neg_distrib, sum_stranded]
    _ ≤ _ := by linarith

end Demands

namespace Network

/-- Only the vertices of a network count in a set that its edges leave. -/
theorem WellFormed.leaving_inter {network : Network Rat} (wellFormed : network.WellFormed)
    (room : Edge Rat → Rat) (side : Finset Nat) :
    network.leaving room (Finset.range network.vertexCount ∩ side) = network.leaving room side := by
  apply edgeSum_congr
  intro edge member
  simp only [Finset.mem_inter, Finset.mem_range, wellFormed.tail edge member,
    wellFormed.head edge member, true_and]

section Meets

variable {network : Network Rat} {demand : Nat → Rat} {assigned : Edge Rat → ℝ}

/-- An assignment of real numbers bounds what a set of vertices sends by rational numbers. -/
theorem Meets.le_of_rat
    (meets : network.Meets (fun edge => (edge.lower : ℝ)) (fun edge => (edge.capacity : ℝ))
      (fun vertex => (demand vertex : ℝ)) assigned) {side : Finset Nat}
    (own : ∀ vertex ∈ side, vertex < network.vertexCount) :
    -∑ vertex ∈ side, demand vertex ≤ network.leaving (fun edge => edge.capacity) side -
      network.entering (fun edge => edge.lower) side := by
  have most := meets.le own
  have entering : ((network.entering (fun edge => edge.lower) side : Rat) : ℝ) =
      network.entering (fun edge => (edge.lower : ℝ)) side :=
    map_entering network (Rat.castHom ℝ).toAddMonoidHom _ side
  rw [← ratCast_leaving, ← entering] at most
  exact_mod_cast most

/-- An assignment of real numbers leaves room across every cut for what the vertices on it send
after the lower bounds were folded. -/
theorem Meets.room
    (meets : network.Meets (fun edge => (edge.lower : ℝ)) (fun edge => (edge.capacity : ℝ))
      (fun vertex => (demand vertex : ℝ)) assigned) {side : Finset Nat}
    (own : ∀ vertex ∈ side, vertex < network.vertexCount) :
    -∑ vertex ∈ side, network.shiftedDemand demand vertex ≤
      network.leaving (fun edge => edge.capacity - edge.lower) side := by
  have most := meets.le_of_rat own
  rw [sum_shiftedDemand, leaving_sub]
  linarith

/-- The rational demands that an assignment of real numbers meets cancel. -/
theorem Meets.sum_rat_eq_zero
    (meets : network.Meets (fun edge => (edge.lower : ℝ)) (fun edge => (edge.capacity : ℝ))
      (fun vertex => (demand vertex : ℝ)) assigned) (wellFormed : network.WellFormed) :
    ∑ vertex ∈ Finset.range network.vertexCount, demand vertex = 0 := by
  exact_mod_cast meets.sum_eq_zero wellFormed

/-- The flows on the edges do not matter to an assignment. -/
theorem Meets.resetFlows
    (meets : network.Meets (fun edge => (edge.lower : ℝ)) (fun edge => (edge.capacity : ℝ))
      (fun vertex => (demand vertex : ℝ)) assigned) (wellFormed : network.WellFormed) :
    ∃ moved : Edge Rat → ℝ, network.resetFlows.Meets (fun edge => (edge.lower : ℝ))
      (fun edge => (edge.capacity : ℝ)) (fun vertex => (demand vertex : ℝ)) moved := by
  have twin : ∀ edge ∈ network.resetFlows.edges, ∃ old, network.edges[edge.index]? = some old ∧
      old ∈ network.edges ∧ old.lower = edge.lower ∧ old.capacity = edge.capacity := by
    intro edge member
    obtain ⟨old, inside, rfl⟩ := Array.mem_map.mp member
    exact ⟨old, wellFormed.getElem?_index inside, inside, rfl, rfl⟩
  refine ⟨fun edge => (network.edges[edge.index]?.map assigned).getD 0, ?_, ?_, ?_⟩
  · intro edge member
    obtain ⟨old, stands, inside, lower, -⟩ := twin edge member
    rw [stands, ← lower]
    exact meets.least old inside
  · intro edge member
    obtain ⟨old, stands, inside, -, capacity⟩ := twin edge member
    rw [stands, ← capacity]
    exact meets.most old inside
  · intro vertex inside
    have same : network.netOutflow assigned vertex = network.resetFlows.netOutflow
        (fun edge => (network.edges[edge.index]?.map assigned).getD 0) vertex := by
      apply (sameShape_resetFlows network).netOutflow_eq
      intro position edge other stands standsToo
      have resetForm := wellFormed.ofSameShape (sameShape_resetFlows network)
      rw [resetForm.index_eq standsToo, stands]
      rfl
    have balanced := meets.balanced vertex inside
    rw [netOutflow, netOutflow] at same
    linarith

end Meets

end Network

namespace Circulation

section Settled

variable {α : Type} [Quantity α] [ExactQuantity α] {result : Result α} {run : MaxFlow.Run α}
  {tolerance : α} {exact last : Network Rat} {demand : Nat → Rat} {bound total : Rat}

/-- The value is at least the surplus of the edges of the caller and of the wires. -/
theorem Settles.surplus_le
    (settles : Settles result run tolerance exact demand bound last total) :
    exact.leaving (fun edge => edge.capacity - edge.lower) run.finder.side -
        bound * exact.boundaryCount (run.finder.reachable.map Int.ofNat) +
      ∑ vertex ∈ Finset.range exact.vertexCount,
        wireSurplus run.finder.side bound (exact.shiftedDemand demand) vertex ≤ total := by
  have source := settles.finished.source_mem
  have sink := settles.finished.sink_not_mem
  have gap := (settles.finished.gap_le (by omega)).2
  have whole : (last.edgeSum fun edge =>
      surplus run.finder.side bound edge.tail edge.head edge.capacity) ≤ total := by
    rw [Finder.side, edgeSum_surplus]
    rw [Finder.side] at gap
    linarith
  have same : (last.edgeSum fun edge =>
      surplus run.finder.side bound edge.tail edge.head edge.capacity) =
      (exact.circulation demand bound).edgeSum fun edge =>
        surplus run.finder.side bound edge.tail edge.head edge.capacity := by
    symm
    apply settles.finished.bounds.shape.edgeSum_eq
    intro position edge twin stands standsTwin
    obtain ⟨tail, head⟩ := settles.finished.bounds.shape.ends stands standsTwin
    rw [tail, head, (settles.finished.bounds.bounds stands standsTwin).1]
  rw [same, edgeSum_circulation exact demand bound fun tail head load =>
    surplus run.finder.side bound tail head load.capacity] at whole
  have own : (exact.edgeSum fun edge =>
      surplus run.finder.side bound edge.tail edge.head edge.toLoad.folded.capacity) =
      exact.leaving (fun edge => edge.capacity - edge.lower) run.finder.side -
        bound * exact.boundaryCount (run.finder.reachable.map Int.ofNat) :=
    edgeSum_surplus exact (fun edge => edge.capacity - edge.lower) bound run.finder.reachable
  rw [own] at whole
  -- The source is on the side of the cut and the sink is not, so no wire leads back across it.
  simpa only [wireSurplus, Finset.sum_add_distrib, surplus, source, sink, true_and, false_and,
    and_true, and_false, not_true_eq_false, not_false_eq_true, if_false, sub_zero, ite_not]
    using whole

/-- Demands that an assignment meets are missed by at most the tolerance for each edge that
crosses the cut and for each stranded vertex. -/
theorem Settles.shortfall_le
    (settles : Settles result run tolerance exact demand bound last total)
    (wellFormed : exact.WellFormed) (nonneg : 0 ≤ bound) {assigned : Edge Rat → ℝ}
    (meets : exact.Meets (fun edge => (edge.lower : ℝ)) (fun edge => (edge.capacity : ℝ))
      (fun vertex => (demand vertex : ℝ)) assigned) :
    demandTotal exact.vertexCount (exact.shiftedDemand demand) - total ≤
      bound * (exact.boundaryCount (run.finder.reachable.map Int.ofNat) +
        strandedCount exact.vertexCount (exact.shiftedDemand demand)
          (run.finder.reachable.map Int.ofNat)) := by
  have cancels : ∑ vertex ∈ Finset.range exact.vertexCount,
      exact.shiftedDemand demand vertex = 0 := by
    rw [wellFormed.sum_shiftedDemand, meets.sum_rat_eq_zero wellFormed]
  have enough : -(∑ vertex ∈ Finset.range exact.vertexCount,
      if vertex ∈ run.finder.side then exact.shiftedDemand demand vertex else 0) ≤
      exact.leaving (fun edge => edge.capacity - edge.lower) run.finder.side := by
    have room := meets.room fun vertex
      (member : vertex ∈ Finset.range exact.vertexCount ∩ run.finder.side) =>
      Finset.mem_range.mp (Finset.mem_inter.mp member).1
    rwa [← Finset.sum_ite_mem, wellFormed.leaving_inter] at room
  have most := demandTotal_le nonneg cancels run.finder.reachable enough
  have least := settles.surplus_le
  rw [Finder.side] at most least
  linarith

/-- Demands that an assignment meets are reached when the tolerance hides no room. -/
theorem Settles.reaches
    (settles : Settles result run tolerance exact demand bound last total)
    (posed : Posed α exact demand) (discrete : Discrete α bound) (nonneg : 0 ≤ bound)
    {assigned : Edge Rat → ℝ}
    (meets : exact.Meets (fun edge => (edge.lower : ℝ)) (fun edge => (edge.capacity : ℝ))
      (fun vertex => (demand vertex : ℝ)) assigned) :
    demandTotal exact.vertexCount (exact.shiftedDemand demand) ≤ total := by
  by_contra short
  have violates := settles.violates posed discrete nonneg
    (meets.sum_rat_eq_zero posed.wellFormed) (not_le.mp short)
  exact absurd (meets.le_of_rat fun _ => settles.lt_vertexCount) (not_le.mpr violates)

/-- A flow that reaches what the tolerance leaves of the demand is feasible. -/
theorem Settles.feasible_of_le
    (settles : Settles result run tolerance exact demand bound last total) {room : α} {left : Rat}
    (spared : sub result.demand tolerance = .ok room) (known : value? room = some left)
    (enough : left ≤ total) : result.feasible = true := by
  have judged := settles.verdict
  rw [verdict_eq spared] at judged
  rw [← Except.ok.inj judged]
  exact (lessEq_iff known settles.value).mpr enough

end Settled

section Multiples

variable {unit : Rat}

/-- Rational arithmetic on the multiples of a unit. -/
@[reducible]
def multiplesOf (unit : Rat) : ExactQuantity Rat :=
  { (inferInstance : ExactQuantity Rat) with
    lattice := AddSubgroup.zmultiples unit
    fits_of_abs_le := fun _ _ _ => trivial }

/-- No positive multiple of a unit is below the unit. -/
theorem discrete_multiplesOf {bound : Rat} (below : bound < unit) :
    @Discrete Rat _ (multiplesOf unit) bound := by
  rintro value ⟨count, rfl⟩ least most
  simp only [zsmul_eq_mul] at least most ⊢
  have positive : 0 < unit := (least.trans most).trans_lt below
  have some : 0 ≤ (count : Rat) := nonneg_of_mul_nonneg_left least positive
  have few : (count : Rat) < 1 := by
    rw [← mul_lt_iff_lt_one_left positive]
    exact most.trans_lt below
  have none : count = 0 := by
    have lower : 0 ≤ count := by exact_mod_cast some
    have upper : count < 1 := by exact_mod_cast few
    omega
  rw [none, Int.cast_zero, zero_mul]

theorem standsFor_multiplesOf (unit : Rat) (network : Network Rat) :
    @Network.StandsFor Rat _ (multiplesOf unit) network network := by
  let := multiplesOf unit
  refine ⟨.refl network, ?_⟩
  intro position edge other stands standsToo
  rw [stands] at standsToo
  rw [← Option.some.inj standsToo]
  exact ⟨rfl, rfl, rfl, rfl⟩

/-- A network whose bounds are multiples of a unit poses a circulation on these multiples. -/
theorem Network.Assembled.posed_multiplesOf {network : Network Rat} {demand : Nat → Rat}
    (assembled : network.Assembled)
    (bounds : ∀ edge ∈ network.edges, edge.lower ∈ AddSubgroup.zmultiples unit ∧
      edge.capacity ∈ AddSubgroup.zmultiples unit)
    (amounts : ∀ vertex, demand vertex ∈ AddSubgroup.zmultiples unit) :
    @Posed Rat _ (multiplesOf unit) network.resetFlows demand := by
  obtain ⟨wellFormed, least, most, flow, offset, -⟩ := assembled.posed demand
  have reset : ∀ edge ∈ network.resetFlows.edges, edge.lower ∈ AddSubgroup.zmultiples unit ∧
      edge.capacity ∈ AddSubgroup.zmultiples unit := by
    intro edge member
    obtain ⟨old, inside, rfl⟩ := Array.mem_map.mp member
    exact bounds old inside
  let := multiplesOf unit
  exact ⟨wellFormed, least, most, flow, offset, fun edge member => (reset edge member).2,
    fun edge member => (reset edge member).1, amounts, trivial⟩

end Multiples

section Caller

variable {network : Network Rat} {demands : Demands Rat} {demand : Nat → Rat}
  {options : Options Rat} {watch : Watch Rat} {result : Result Rat} {assigned : Edge Rat → ℝ}

/-- A circulation is feasible when an assignment meets it and all data are multiples of one unit
above the tolerance. -/
theorem feasible_of_multiples (assembled : network.Assembled)
    (asks : demands.Ask network.vertexCount demand)
    (meets : network.Meets (fun edge => (edge.lower : ℝ)) (fun edge => (edge.capacity : ℝ))
      (fun vertex => (demand vertex : ℝ)) assigned) (nonneg : 0 ≤ options.tolerance) {unit : Rat}
    (below : options.tolerance < unit)
    (bounds : ∀ edge ∈ network.edges, edge.lower ∈ AddSubgroup.zmultiples unit ∧
      edge.capacity ∈ AddSubgroup.zmultiples unit)
    (amounts : ∀ vertex, demand vertex ∈ AddSubgroup.zmultiples unit)
    (ok : (solve network demands options watch).outcome = .ok result) :
    result.feasible = true := by
  have posed := Network.Assembled.posed_multiplesOf assembled bounds amounts
  obtain ⟨moved, clear⟩ := meets.resetFlows assembled.wellFormed
  obtain ⟨vector, accepted, stands⟩ := asks.exact_vector fun _ _ => trivial
  have cancels := meets.sum_rat_eq_zero assembled.wellFormed
  -- The same run is read over the multiples of the unit, where the tolerance hides nothing.
  let := multiplesOf unit
  obtain ⟨run, last, total, settles⟩ := solve_settles_of_cancels posed
    (standsFor_multiplesOf unit _) assembled.copied accepted stands rfl nonneg cancels ok
  have reached := settles.reaches posed (discrete_multiplesOf below) nonneg clear
  have demanded : result.demand = _ := Option.some.inj settles.demand
  refine settles.feasible_of_le rfl rfl ((sub_le_self _ nonneg).trans ?_)
  rwa [demanded]

end Caller

/-- In rational arithmetic a circulation whose demands some assignment meets is not refused.
Its value falls short by at most the tolerance for each edge that crosses the cut and for each
vertex whose supply is outside of the cut or whose demand is inside. Hence it is feasible when
one of these at most is there, when the tolerance is zero, and when all data are multiples of one
unit above the tolerance. -/
theorem solve_shortfall (network : Network Rat) (assembled : network.Assembled)
    (demands : Demands Rat) (demand : Nat → Rat) (asks : demands.Ask network.vertexCount demand)
    (assigned : Edge Rat → ℝ)
    (meets : network.Meets (fun edge => (edge.lower : ℝ)) (fun edge => (edge.capacity : ℝ))
      (fun vertex => (demand vertex : ℝ)) assigned)
    (options : Options Rat) (nonneg : 0 ≤ options.tolerance) (watch : Watch Rat) :
    (0 < watch.interval → (∀ report, watch.halts report = false) →
      ∃ result, (solve network demands options watch).outcome = .ok result) ∧
    ∀ result, (solve network demands options watch).outcome = .ok result →
      result.status ≠ .unbalanced ∧
      result.demand - result.value ≤ options.tolerance * (network.boundaryCount result.minCut +
        strandedCount network.vertexCount (network.shiftedDemand demand) result.minCut) ∧
      (network.boundaryCount result.minCut +
        strandedCount network.vertexCount (network.shiftedDemand demand) result.minCut ≤ 1 →
        result.feasible = true) ∧
      (options.tolerance = 0 → result.feasible = true) ∧
      ∀ unit, options.tolerance < unit →
        (∀ edge ∈ network.edges, edge.lower ∈ AddSubgroup.zmultiples unit ∧
          edge.capacity ∈ AddSubgroup.zmultiples unit) →
        (∀ vertex, demand vertex ∈ AddSubgroup.zmultiples unit) → result.feasible = true := by
  have posed := assembled.posed demand
  obtain ⟨vector, accepted, stands⟩ := asks.exact_vector fun _ _ => trivial
  refine ⟨?_, ?_⟩
  · intro interval quiet
    exact solve_ok posed network.resetFlows.standsFor_self assembled.copied accepted stands rfl
      nonneg interval quiet fun total _ => ⟨total - options.tolerance, rfl⟩
  · intro result ok
    obtain ⟨moved, clear⟩ := meets.resetFlows assembled.wellFormed
    obtain ⟨run, last, total, settles⟩ := solve_settles_of_cancels posed
      network.resetFlows.standsFor_self assembled.copied accepted stands rfl nonneg
      (clear.sum_rat_eq_zero posed.wellFormed) ok
    -- What holds of the cleared network is said of the network of the caller.
    have short := settles.shortfall_le posed.wellFormed nonneg clear
    have demanded := Option.some.inj settles.demand
    have valued := Option.some.inj settles.value
    have boundary : network.resetFlows.boundaryCount (run.finder.reachable.map Int.ofNat) =
        network.boundaryCount result.minCut := by
      rw [settles.minCut, (sameShape_resetFlows network).boundaryCount_eq]
    rw [← demanded, ← valued, boundary, network.shiftedDemand_resetFlows,
      ← settles.minCut] at short
    have judged (enough : result.demand - result.value ≤ options.tolerance) :
        result.feasible = true :=
      settles.feasible_of_le rfl rfl (by linarith)
    refine ⟨settles.status_ne, short, ?_, ?_, ?_⟩
    · intro few
      apply judged
      refine short.trans (mul_le_of_le_one_right nonneg ?_)
      exact_mod_cast few
    · intro exactly
      apply judged
      rw [exactly, zero_mul] at short
      exact short.trans nonneg
    · intro unit below bounds amounts
      exact feasible_of_multiples assembled asks meets nonneg below bounds amounts ok

/-- Two edges for one unit each from the first vertex to the second. -/
def lanes : Network Rat :=
  ((empty 2).attach 0 1 ⟨1, 0, 0, 0⟩).attach 0 1 ⟨1, 0, 0, 0⟩

theorem assembled_lanes : lanes.Assembled := by
  have checked : Load.check (⟨1, 0, 0, 0⟩ : Load Rat) 0 1 = .ok () :=
    (exact_check rfl rfl trivial trivial 0 1).mpr (by norm_num)
  exact ((assembled_empty 2).attach (by simp) (by simp) checked).attach (by simp) (by simp) checked

/-- One unit on each of the two edges moves two units. -/
theorem meets_lanes : lanes.Meets (fun edge => (edge.lower : ℝ)) (fun edge => (edge.capacity : ℝ))
    (fun vertex => ((if vertex = 0 then -2 else 2 : Rat) : ℝ)) fun _ => 1 := by
  refine ⟨by simp [lanes, attach, empty], by simp [lanes, attach, empty], ?_⟩
  intro vertex inside
  have two : vertex < 2 := inside
  interval_cases vertex <;>
    norm_num [lanes, attach, empty, inflow, outflow, edgeSum]

/-- A tolerance of one half hides none of the units on the edges. -/
theorem solve_shortfall_lanes :
    ∃ result, (solve lanes (.dense [-2, 2]) ⟨1 / 2, false⟩ .idle).outcome = .ok result ∧
      result.demand - result.value ≤ 1 / 2 * (lanes.boundaryCount result.minCut + strandedCount 2
        (lanes.shiftedDemand fun vertex => if vertex = 0 then -2 else 2) result.minCut) ∧
      result.feasible = true := by
  obtain ⟨gives, falls⟩ := solve_shortfall lanes assembled_lanes (.dense [-2, 2])
    (fun vertex => if vertex = 0 then -2 else 2) (allStandFor_rat.mpr rfl) _ meets_lanes
    ⟨1 / 2, false⟩ (by norm_num) .idle
  obtain ⟨result, ok⟩ := gives (by decide) fun _ => rfl
  obtain ⟨-, short, -, -, units⟩ := falls result ok
  refine ⟨result, ok, short, units 1 (by norm_num) ?_ ?_⟩
  · simp [lanes, attach, empty]
  · intro vertex
    split
    · exact ⟨-2, by norm_num⟩
    · exact ⟨2, by norm_num⟩

/-- A tolerance of one saturates both edges, so that the demands are missed though an assignment
meets them. -/
theorem solve_saturated :
    lanes.Assembled ∧ (∃ assigned : Edge Rat → ℝ, lanes.Meets (fun edge => (edge.lower : ℝ))
      (fun edge => (edge.capacity : ℝ)) (fun vertex => ((if vertex = 0 then -2 else 2 : Rat) : ℝ))
      assigned) ∧
    (solve lanes (.dense [-2, 2]) ⟨1, false⟩ .idle).outcome.toOption.map Result.feasible =
      some false :=
  ⟨assembled_lanes, ⟨_, meets_lanes⟩, by decide +kernel⟩

end Circulation
end NetworkFlow
