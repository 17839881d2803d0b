import NetworkFlow.Proofs.Circulation.Folding

namespace NetworkFlow

open Quantity ExactQuantity Network

/-- The demand of a vertex after the lower bounds at it were folded. -/
def Network.shiftedDemand (network : Network Rat) (demand : Nat → Rat) (vertex : Nat) : Rat :=
  demand vertex + network.netOutflow (fun edge => edge.lower) vertex

/-- Every vertex is shifted by the lower bounds that leave it and enter it. -/
theorem Network.edgeSum_shiftAt (network : Network Rat) (vertex : Nat) :
    network.edgeSum (shiftAt vertex) = network.netOutflow (fun edge => edge.lower) vertex := by
  rw [netOutflow_eq]
  rfl

/-- The shifts cancel over all vertices. -/
theorem Network.WellFormed.sum_shiftedDemand {network : Network Rat}
    (wellFormed : network.WellFormed) (demand : Nat → Rat) :
    ∑ vertex ∈ Finset.range network.vertexCount, network.shiftedDemand demand vertex =
      ∑ vertex ∈ Finset.range network.vertexCount, demand vertex := by
  simp only [shiftedDemand]
  rw [Finset.sum_add_distrib, sum_netOutflow_eq_zero wellFormed, add_zero]

/-- Clearing the flows shifts the demands as before. -/
theorem Network.shiftedDemand_resetFlows (network : Network Rat) (demand : Nat → Rat) :
    network.resetFlows.shiftedDemand demand = network.shiftedDemand demand := by
  funext vertex
  rw [shiftedDemand, shiftedDemand]
  congr 1
  symm
  apply (sameShape_resetFlows network).netOutflow_eq
  intro position edge twin stands standsToo
  rw [resetFlows, Array.getElem?_map, stands] at standsToo
  rw [← Option.some.inj standsToo]

/-- The sum of the positive demands. -/
def demandTotal (count : Nat) (demand : Nat → Rat) : Rat :=
  ∑ vertex ∈ Finset.range count, max (demand vertex) 0

/-- The sum of the supplies. -/
def supplyTotal (count : Nat) (demand : Nat → Rat) : Rat :=
  ∑ vertex ∈ Finset.range count, max (-demand vertex) 0

theorem demandTotal_nonneg (count : Nat) (demand : Nat → Rat) : 0 ≤ demandTotal count demand :=
  Finset.sum_nonneg fun _ _ => le_max_right _ _

theorem supplyTotal_nonneg (count : Nat) (demand : Nat → Rat) : 0 ≤ supplyTotal count demand :=
  Finset.sum_nonneg fun _ _ => le_max_right _ _

/-- The totals differ by the sum of all demands. -/
theorem demandTotal_sub_supplyTotal (count : Nat) (demand : Nat → Rat) :
    demandTotal count demand - supplyTotal count demand =
      ∑ vertex ∈ Finset.range count, demand vertex := by
  rw [demandTotal, supplyTotal, ← Finset.sum_sub_distrib]
  apply Finset.sum_congr rfl
  intro vertex _
  exact max_zero_sub_max_neg_zero_eq_self (demand vertex)

/-- The totals are what the demands ask for and supply together. -/
theorem demandTotal_add_supplyTotal (count : Nat) (demand : Nat → Rat) :
    demandTotal count demand + supplyTotal count demand =
      ∑ vertex ∈ Finset.range count, |demand vertex| := by
  rw [demandTotal, supplyTotal, ← Finset.sum_add_distrib]
  apply Finset.sum_congr rfl
  intro vertex _
  exact max_zero_add_max_neg_zero_eq_abs_self (demand vertex)

theorem demandTotal_mem {lattice : AddSubgroup Rat} {values : Nat → Rat}
    (members : ∀ vertex, values vertex ∈ lattice) (count : Nat) :
    demandTotal count values ∈ lattice := by
  refine sum_mem fun vertex _ => ?_
  rcases max_choice (values vertex) 0 with left | right
  · rw [left]
    exact members vertex
  · rw [right]
    exact zero_mem lattice

theorem supplyTotal_mem {lattice : AddSubgroup Rat} {values : Nat → Rat}
    (members : ∀ vertex, values vertex ∈ lattice) (count : Nat) :
    supplyTotal count values ∈ lattice := by
  have negated := demandTotal_mem (fun vertex => neg_mem (members vertex)) count
  exact negated

/-- Every edge leaves one vertex. -/
theorem sum_outflow {network : Network Rat} (wellFormed : network.WellFormed)
    (flow : Edge Rat → Rat) :
    ∑ vertex ∈ Finset.range network.vertexCount, network.outflow flow vertex =
      network.edgeSum flow := by
  simp only [outflow]
  rw [sum_edgeSum]
  apply edgeSum_congr
  intro edge member
  rw [Finset.sum_ite_eq, if_pos (Finset.mem_range.mpr (wellFormed.tail edge member))]

/-- Every edge enters one vertex. -/
theorem sum_inflow {network : Network Rat} (wellFormed : network.WellFormed)
    (flow : Edge Rat → Rat) :
    ∑ vertex ∈ Finset.range network.vertexCount, network.inflow flow vertex =
      network.edgeSum flow := by
  simp only [inflow]
  rw [sum_edgeSum]
  apply edgeSum_congr
  intro edge member
  rw [Finset.sum_ite_eq, if_pos (Finset.mem_range.mpr (wellFormed.head edge member))]

section Totals

variable {α : Type} [Quantity α] [ExactQuantity α]

omit [Quantity α] [ExactQuantity α] in
/-- Filters that agree on related entries keep them related. -/
theorem forall₂_filter {β : Type} {related : α → β → Prop} {first : List α} {second : List β}
    (all : List.Forall₂ related first second) (keeps : α → Bool) (keepsToo : β → Prop)
    [DecidablePred keepsToo]
    (agree : ∀ entry twin, related entry twin → keeps entry = decide (keepsToo twin)) :
    List.Forall₂ related (first.filter keeps) (second.filter keepsToo) := by
  induction all with
  | nil => exact .nil
  | @cons entry twin first second head tail inductionHypothesis =>
    rw [List.filter_cons, List.filter_cons, agree entry twin head]
    split
    · exact .cons head inductionHypothesis
    · exact inductionHypothesis

theorem sum_filter_range (count : Nat) (values : Nat → Rat) (keeps : Rat → Prop)
    [DecidablePred keeps] : (((List.range count).map values).filter keeps).sum =
      ∑ vertex ∈ Finset.range count, if keeps (values vertex) then values vertex else 0 := by
  rw [List.filter_map, ← sum_map_range]
  exact sum_map_filter (List.range count) (fun vertex => keeps (values vertex)) values

/-- The positive demands sum up to the total demand. -/
theorem sum_filter_positive (count : Nat) (values : Nat → Rat) :
    (((List.range count).map values).filter (0 < ·)).sum = demandTotal count values := by
  rw [sum_filter_range]
  apply Finset.sum_congr rfl
  intro vertex _
  split
  · exact (max_eq_left (le_of_lt ‹_›)).symm
  · exact (max_eq_right (not_lt.mp ‹_›)).symm

/-- The negative demands sum up to the total supply, with the other sign. -/
theorem sum_filter_negative (count : Nat) (values : Nat → Rat) :
    (((List.range count).map values).filter (· < 0)).sum = -supplyTotal count values := by
  rw [sum_filter_range, supplyTotal, ← Finset.sum_neg_distrib]
  apply Finset.sum_congr rfl
  intro vertex _
  split
  · rw [max_eq_left (neg_nonneg.mpr (le_of_lt ‹_›)), neg_neg]
  · rw [max_eq_right (neg_nonpos.mpr (not_lt.mp ‹_›)), neg_zero]

/-- The totals of demands are computed exactly when they fit. -/
theorem exact_totals {demands : List α} {count : Nat} {values : Nat → Rat}
    (stands : AllStandFor demands ((List.range count).map values))
    (members : ∀ vertex, values vertex ∈ lattice α)
    (fitsDemand : Fits α (demandTotal count values))
    (fitsSupply : Fits α (supplyTotal count values)) :
    ∃ demand supply, Demands.totals demands = .ok (demand, supply) ∧
      value? demand = some (demandTotal count values) ∧
      value? supply = some (supplyTotal count values) := by
  have inside (keeps : Rat → Prop) [DecidablePred keeps] :
      ∀ value ∈ ((List.range count).map values).filter keeps, value ∈ lattice α := by
    intro value member
    obtain ⟨vertex, -, rfl⟩ := List.mem_map.mp (List.mem_filter.mp member).1
    exact members vertex
  have demandMagnitudes : ((((List.range count).map values).filter (0 < ·)).map abs).sum =
      demandTotal count values := by
    rw [← sum_filter_positive, List.map_congr_left (g := id), List.map_id]
    intro value member
    exact abs_of_pos (by simpa using (List.mem_filter.mp member).2)
  have supplyMagnitudes : ((((List.range count).map values).filter (· < 0)).map abs).sum =
      supplyTotal count values := by
    rw [List.map_congr_left (g := Neg.neg), ← List.sum_neg, sum_filter_negative, neg_neg]
    intro value member
    exact abs_of_neg (by simpa using (List.mem_filter.mp member).2)
  obtain ⟨demand, summed, known⟩ := exact_sum_of_abs
    (forall₂_filter stands isPositive (0 < ·) fun _ _ => isPositive_eq_decide) (inside (0 < ·))
    (by rwa [demandMagnitudes])
  obtain ⟨supply, summedToo, knownToo⟩ := exact_sum_of_abs
    (forall₂_filter stands isNegative (· < 0) fun _ _ => isNegative_eq_decide) (inside (· < 0))
    (by rwa [supplyMagnitudes])
  refine ⟨demand, neg supply, ?_, ?_, ?_⟩
  · rw [Demands.totals, summed, ok_bind, summedToo]
    rfl
  · rw [known, sum_filter_positive]
  · rw [value?_neg knownToo, sum_filter_negative, neg_neg]

/-- The gap between totals is computed exactly when they and their difference fit. -/
theorem exact_gap {demand supply : α} {p q : Rat} (demands : value? demand = some p)
    (supplies : value? supply = some q) (fitsDemand : Fits α p) (fitsSupply : Fits α q)
    (fitsGap : Fits α (p - q)) :
    ∃ between, gap demand supply = .ok between ∧ value? between = some |p - q| := by
  obtain ⟨difference, taken, known⟩ := exact_sub demands supplies fitsDemand fitsSupply fitsGap
  refine ⟨magnitude difference, ?_, value?_magnitude known⟩
  simp only [gap, taken]
  rfl

/-- Sums at each place are computed exactly when they fit. -/
theorem exact_adjusted {demands deltas : List α} {places : List Nat} {values shifts : Nat → Rat}
    (stands : AllStandFor demands (places.map values))
    (standsToo : AllStandFor deltas (places.map shifts))
    (fits : ∀ place ∈ places, Fits α (values place) ∧ Fits α (shifts place) ∧
      Fits α (values place + shifts place)) :
    ∃ sums, adjusted demands deltas = .ok sums ∧
      AllStandFor sums (places.map fun place => values place + shifts place) := by
  induction places generalizing demands deltas with
  | nil =>
    cases stands
    exact ⟨[], rfl, .nil⟩
  | cons place places inductionHypothesis =>
    obtain ⟨demand, rest, head, tail, rfl⟩ := List.forall₂_cons_right_iff.mp stands
    obtain ⟨delta, others, headToo, tailToo, rfl⟩ := List.forall₂_cons_right_iff.mp standsToo
    obtain ⟨fitsValue, fitsShift, fitsSum⟩ := fits place (by simp)
    obtain ⟨sum, added, known⟩ := exact_add head headToo fitsValue fitsShift fitsSum
    obtain ⟨sums, all, stand⟩ := inductionHypothesis tail tailToo fun other member =>
      fits other (by simp [member])
    refine ⟨sum :: sums, ?_, .cons known stand⟩
    rw [adjusted] at all ⊢
    rw [List.zip_cons_cons, List.mapM_cons]
    simp only [added, all]
    rfl

/-- Deltas stand for a list of values. -/
theorem Folding.StandFor.toList {deltas : Array α} {count : Nat} {values : Nat → Rat}
    (stand : StandFor deltas count values) :
    AllStandFor deltas.toList ((List.range count).map values) := by
  rw [AllStandFor, List.forall₂_iff_get]
  refine ⟨by simp [stand.size], ?_⟩
  intro place inside insideToo
  obtain ⟨delta, found, known⟩ := stand.value place (by simpa using insideToo)
  obtain ⟨_, equal⟩ := Array.getElem?_eq_some_iff.mp found
  simpa [equal] using known

end Totals

namespace Posed

variable {α : Type} [Quantity α] [ExactQuantity α] {network : Network Rat} {demand : Nat → Rat}

theorem netOutflow_lower (posed : Posed α network demand) (vertex : Nat) :
    network.netOutflow (fun edge => edge.lower) vertex =
      network.edgeSumTo (shiftAt vertex) network.edgeCount := by
  rw [edgeSumTo_edgeCount posed.wellFormed, edgeSum_shiftAt]

theorem shiftedDemand_mem (posed : Posed α network demand) (vertex : Nat) :
    network.shiftedDemand demand vertex ∈ lattice α := by
  rw [shiftedDemand, posed.netOutflow_lower]
  exact add_mem (posed.demands vertex) (posed.shift_mem vertex _)

theorem outflow_lower_nonneg (posed : Posed α network demand) (vertex : Nat) :
    0 ≤ network.outflow (fun edge => edge.lower) vertex := by
  apply edgeSum_nonneg
  intro edge member
  split
  · exact posed.least edge member
  · exact le_rfl

theorem inflow_lower_nonneg (posed : Posed α network demand) (vertex : Nat) :
    0 ≤ network.inflow (fun edge => edge.lower) vertex := by
  apply edgeSum_nonneg
  intro edge member
  split
  · exact posed.least edge member
  · exact le_rfl

/-- The lower bounds add no more to the demands than their sum. -/
theorem demandTotal_shifted_le (posed : Posed α network demand) :
    demandTotal network.vertexCount (network.shiftedDemand demand) ≤
      demandTotal network.vertexCount demand + network.edgeSum fun edge => edge.lower := by
  rw [← sum_outflow posed.wellFormed, demandTotal, demandTotal, ← Finset.sum_add_distrib]
  apply Finset.sum_le_sum
  intro vertex _
  have outflow := posed.outflow_lower_nonneg vertex
  have inflow := posed.inflow_lower_nonneg vertex
  have positive := le_max_left (demand vertex) 0
  have nonneg := le_max_right (demand vertex) 0
  rw [shiftedDemand, netOutflow]
  exact max_le (by linarith) (by linarith)

/-- The lower bounds add no more to the supplies than their sum. -/
theorem supplyTotal_shifted_le (posed : Posed α network demand) :
    supplyTotal network.vertexCount (network.shiftedDemand demand) ≤
      supplyTotal network.vertexCount demand + network.edgeSum fun edge => edge.lower := by
  rw [← sum_inflow posed.wellFormed, supplyTotal, supplyTotal, ← Finset.sum_add_distrib]
  apply Finset.sum_le_sum
  intro vertex _
  have outflow := posed.outflow_lower_nonneg vertex
  have inflow := posed.inflow_lower_nonneg vertex
  have positive := le_max_left (-demand vertex) 0
  have nonneg := le_max_right (-demand vertex) 0
  rw [shiftedDemand, netOutflow]
  exact max_le (by linarith) (by linarith)

/-- Totals that the data bound fit, and so does their difference. -/
theorem fits_totals (posed : Posed α network demand) {values : Nat → Rat}
    (members : ∀ vertex, values vertex ∈ lattice α)
    (demandSmall : demandTotal network.vertexCount values ≤
      demandTotal network.vertexCount demand + network.edgeSum fun edge => edge.lower)
    (supplySmall : supplyTotal network.vertexCount values ≤
      supplyTotal network.vertexCount demand + network.edgeSum fun edge => edge.lower) :
    Fits α (demandTotal network.vertexCount values) ∧
      Fits α (supplyTotal network.vertexCount values) ∧
      Fits α (demandTotal network.vertexCount values -
        supplyTotal network.vertexCount values) := by
  have demandMem := demandTotal_mem members network.vertexCount
  have supplyMem := supplyTotal_mem members network.vertexCount
  have demandLeast := demandTotal_nonneg network.vertexCount values
  have supplyLeast := supplyTotal_nonneg network.vertexCount values
  have demandsLeast := demandTotal_nonneg network.vertexCount demand
  have suppliesLeast := supplyTotal_nonneg network.vertexCount demand
  have capacities := posed.capacitySum_nonneg
  have both := demandTotal_add_supplyTotal network.vertexCount demand
  refine ⟨posed.fits_of_le demandMem ?_, posed.fits_of_le supplyMem ?_,
    posed.fits_of_le (sub_mem demandMem supplyMem) ?_⟩
  · rw [abs_of_nonneg demandLeast]
    linarith
  · rw [abs_of_nonneg supplyLeast]
    linarith
  · exact abs_le.mpr ⟨by linarith, by linarith⟩

theorem fits_demand (posed : Posed α network demand) {vertex : Nat}
    (inside : vertex < network.vertexCount) : Fits α (demand vertex) := by
  have one : |demand vertex| ≤ ∑ other ∈ Finset.range network.vertexCount, |demand other| :=
    Finset.single_le_sum (f := fun other => |demand other|) (fun _ _ => abs_nonneg _)
      (Finset.mem_range.mpr inside)
  have capacities := posed.capacitySum_nonneg
  have lowers := posed.lowerSum_nonneg
  exact posed.fits_of_le (posed.demands vertex) (by linarith)

theorem fits_shiftedDemand (posed : Posed α network demand) {vertex : Nat}
    (inside : vertex < network.vertexCount) : Fits α (network.shiftedDemand demand vertex) := by
  have one : |demand vertex| ≤ ∑ other ∈ Finset.range network.vertexCount, |demand other| :=
    Finset.single_le_sum (f := fun other => |demand other|) (fun _ _ => abs_nonneg _)
      (Finset.mem_range.mpr inside)
  have shift := abs_edgeSumTo_shiftAt_le posed.least vertex network.edgeCount
  have capacities := posed.capacitySum_nonneg
  refine posed.fits_of_le (posed.shiftedDemand_mem vertex) ?_
  rw [← posed.netOutflow_lower, edgeSumTo_edgeCount posed.wellFormed] at shift
  rw [shiftedDemand]
  refine (abs_add_le _ _).trans ?_
  linarith

/-- A reduction is refused when the demands do not cancel up to the tolerance.
Otherwise it folds every lower bound, and the shifted demands cancel as well as before. -/
theorem exact_reduceLowerBounds (posed : Posed α network demand) {start : Network α}
    {demands : List α} {tolerance : α} {bound : Rat} (standsFor : start.StandsFor network)
    (stands : AllStandFor demands ((List.range network.vertexCount).map demand))
    (tolerances : value? tolerance = some bound) :
    (bound < |∑ vertex ∈ Finset.range network.vertexCount, demand vertex| ∧
      ∃ working reduction, start.reduceLowerBounds demands tolerance = (working, .ok reduction) ∧
        reduction.stage = some .before) ∨
    (|∑ vertex ∈ Finset.range network.vertexCount, demand vertex| ≤ bound ∧
      ∃ working reduction, start.reduceLowerBounds demands tolerance = (working, .ok reduction) ∧
        reduction.stage = none ∧ working.StandsFor network.folded ∧
        AllStandFor reduction.adjustedDemands
          ((List.range network.vertexCount).map (network.shiftedDemand demand)) ∧
        value? reduction.demand =
          some (demandTotal network.vertexCount (network.shiftedDemand demand)) ∧
        value? reduction.supply =
          some (supplyTotal network.vertexCount (network.shiftedDemand demand))) := by
  have lowers := posed.lowerSum_nonneg
  obtain ⟨fitsDemand, fitsSupply, fitsGap⟩ := posed.fits_totals posed.demands
    (by linarith) (by linarith)
  obtain ⟨demand₀, supply₀, totals, demandKnown, supplyKnown⟩ :=
    exact_totals stands posed.demands fitsDemand fitsSupply
  obtain ⟨gap₀, gapped, gapKnown⟩ := exact_gap demandKnown supplyKnown fitsDemand fitsSupply fitsGap
  rw [demandTotal_sub_supplyTotal] at gapKnown
  have verdict : less tolerance gap₀ = decide (bound <
      |∑ vertex ∈ Finset.range network.vertexCount, demand vertex|) :=
    less_eq_decide tolerances gapKnown
  by_cases wide : bound < |∑ vertex ∈ Finset.range network.vertexCount, demand vertex|
  · left
    refine ⟨wide, start, ⟨demands, List.replicate demands.length zero, [], demand₀, supply₀,
      some .before⟩, ?_, rfl⟩
    simp only [reduceLowerBounds, totals, ok_bind, gapped, verdict, wide, decide_true, pure,
      Except.pure]
  · right
    have count : demands.length = network.vertexCount := by simpa using stands.length_eq
    have follows := Folding.exact_foldAll posed standsFor
    obtain ⟨adjustedDemands, sums, stand⟩ := exact_adjusted stands follows.deltas.toList (by
      intro vertex member
      have inside := List.mem_range.mp member
      have shifted := posed.fits_shiftedDemand inside
      rw [shiftedDemand, posed.netOutflow_lower] at shifted
      exact ⟨posed.fits_demand inside, posed.fits_shift vertex _, shifted⟩)
    simp only [← posed.netOutflow_lower] at stand
    have standShifted : AllStandFor adjustedDemands
        ((List.range network.vertexCount).map (network.shiftedDemand demand)) := stand
    obtain ⟨fitsShifted, fitsSupplied, fitsBetween⟩ := posed.fits_totals posed.shiftedDemand_mem
      posed.demandTotal_shifted_le posed.supplyTotal_shifted_le
    obtain ⟨demand₁, supply₁, totalsAfter, demandAfter, supplyAfter⟩ :=
      exact_totals standShifted posed.shiftedDemand_mem fitsShifted fitsSupplied
    obtain ⟨gap₁, gappedAfter, gapAfter⟩ :=
      exact_gap demandAfter supplyAfter fitsShifted fitsSupplied fitsBetween
    rw [demandTotal_sub_supplyTotal, posed.wellFormed.sum_shiftedDemand] at gapAfter
    have balanced : lessEq gap₁ tolerance = true :=
      (lessEq_iff gapAfter tolerances).mpr (not_lt.mp wide)
    refine ⟨not_lt.mp wide, (start.foldAll network.vertexCount).network,
      ⟨adjustedDemands, (start.foldAll network.vertexCount).deltas.toList,
        (start.foldAll network.vertexCount).reduced, demand₁, supply₁, none⟩, ?_, rfl, ?_, stand,
      demandAfter, supplyAfter⟩
    · simp only [reduceLowerBounds, totals, ok_bind, gapped, verdict, wide, decide_false, pure,
        Except.pure, count, follows.noFault, sums, totalsAfter, gappedAfter, balanced, if_true]
    · rw [← posed.foldedTo_edgeCount]
      exact follows.stands

end Posed
end NetworkFlow
