import NetworkFlow.Proofs.Arithmetic.Rounding
import NetworkFlow.Proofs.Circulation.Completeness
import NetworkFlow.Proofs.MaxFlow.CanonicalCut

namespace NetworkFlow

open Quantity ExactQuantity Network

/-- What the vertices demand when an amount is moved from a source to a sink. -/
def transfer {K : Type} [Zero K] [Neg K] (source sink : Nat) (amount : K) (vertex : Nat) : K :=
  if vertex = source then -amount else if vertex = sink then amount else 0

section Transfer

variable {K : Type} [AddGroup K] {source sink : Nat} {amount : K}

@[simp]
theorem transfer_source : transfer source sink amount source = -amount :=
  if_pos rfl

theorem transfer_sink (differ : source ≠ sink) : transfer source sink amount sink = amount := by
  rw [transfer, if_neg differ.symm, if_pos rfl]

theorem transfer_other {vertex : Nat} (notSource : vertex ≠ source) (notSink : vertex ≠ sink) :
    transfer source sink amount vertex = 0 := by
  rw [transfer, if_neg notSource, if_neg notSink]

/-- Only the two ends of a transfer count in a sum over the vertices. -/
theorem sum_transfer {L : Type} [AddCommMonoid L] (change : K → L) (none : change 0 = 0)
    (amount : K) (differ : source ≠ sink) {count : Nat} (sourceInside : source < count)
    (sinkInside : sink < count) :
    ∑ vertex ∈ Finset.range count, change (transfer source sink amount vertex) =
      change (-amount) + change amount := by
  rw [Finset.sum_eq_add source sink differ, transfer_source, transfer_sink differ]
  · intro vertex _ other
    rw [transfer_other other.1 other.2, none]
  · exact fun outside => absurd (Finset.mem_range.mpr sourceInside) outside
  · exact fun outside => absurd (Finset.mem_range.mpr sinkInside) outside

/-- Amounts that vanish at all vertices but one are their sum there. -/
theorem eq_ite_of_sum_eq {count place : Nat} {amounts : Nat → Rat} {total : Rat}
    (inside : place < count) (elsewhere : ∀ vertex < count, vertex ≠ place → amounts vertex = 0)
    (sum : ∑ vertex ∈ Finset.range count, amounts vertex = total) {vertex : Nat}
    (early : vertex < count) : amounts vertex = if vertex = place then total else 0 := by
  have alone := Finset.sum_eq_single_of_mem place (Finset.mem_range.mpr inside)
    fun vertex member away => elsewhere vertex (Finset.mem_range.mp member) away
  by_cases here : vertex = place
  · rw [if_pos here, here, ← alone, sum]
  · rw [if_neg here, elsewhere vertex early here]

theorem intCast_transfer (source sink vertex : Nat) (amount : Int) :
    ((transfer source sink amount vertex : Int) : Rat) =
      transfer source sink (amount : Rat) vertex := by
  simp only [transfer, apply_ite (Int.cast : Int → Rat), Int.cast_neg, Int.cast_zero]

end Transfer

namespace Network

/-- No edge is at a vertex that a network does not have. -/
theorem WellFormed.netOutflow_outside {α K : Type} [AddCommGroup K] {network : Network α}
    (wellFormed : network.WellFormed) (flow : Edge α → K) {vertex : Nat}
    (outside : network.vertexCount ≤ vertex) : network.netOutflow flow vertex = 0 := by
  rw [netOutflow_eq]
  refine (edgeSum_congr ?_).trans (edgeSum_zero network)
  intro edge member
  rw [if_neg ((wellFormed.tail edge member).trans_le outside).ne,
    if_neg ((wellFormed.head edge member).trans_le outside).ne, sub_zero]

/-- Without lower bounds no demand is shifted. -/
theorem shiftedDemand_of_lowers {network : Network Rat}
    (lowers : ∀ edge ∈ network.edges, edge.lower = 0) (demand : Nat → Rat) :
    network.shiftedDemand demand = demand := by
  funext vertex
  have none : network.netOutflow (fun edge => edge.lower) vertex = 0 := by
    rw [netOutflow_eq]
    refine (edgeSum_congr ?_).trans (edgeSum_zero network)
    intro edge member
    rw [lowers edge member, ite_self, ite_self, sub_zero]
  rw [shiftedDemand, none, add_zero]

/-- The new source takes no flow back. -/
theorem Carries.fed_nonneg {last : Network Rat} {source sink : Nat} {total : Rat}
    (carries : last.Carries source sink total) (count vertex : Nat) :
    0 ≤ last.fed count vertex :=
  edgeSum_ite_nonneg carries.nonneg _

/-- The new sink gives no flow back. -/
theorem Carries.drained_nonneg {last : Network Rat} {source sink : Nat} {total : Rat}
    (carries : last.Carries source sink total) (count vertex : Nat) :
    0 ≤ last.drained count vertex :=
  edgeSum_ite_nonneg carries.nonneg _

end Network

/-- An amount is moved between two vertices of a network without lower bounds. -/
structure Network.Transfers (network : Network Rat) (source sink : Nat) (amount : Rat) : Prop where
  lowers : ∀ edge ∈ network.edges, edge.lower = 0
  nonneg : 0 ≤ amount
  differ : source ≠ sink
  sourceInside : source < network.vertexCount
  sinkInside : sink < network.vertexCount

/-- The value of a maximum flow with integer capacities is a natural number. -/
theorem MaxFlow.Run.Settled.exists_value {network : Network Number} {capacity : Nat → Nat}
    {run : MaxFlow.Run Number} {last : Network Rat} {bound value : Rat} {source sink : Nat}
    (settled : run.Settled bound source sink (network.integral capacity fun _ => 0) last value)
    (differ : source ≠ sink) (below : bound < 1) : ∃ most : Nat, value = most := by
  have least : 0 ≤ network.leaving (fun edge => (capacity edge.index : Int)) run.finder.side :=
    leaving_nonneg (fun _ _ => Int.natCast_nonneg _) _
  obtain ⟨most, equal⟩ := Int.eq_ofNat_of_zero_le least
  have cast := congrArg (Int.cast : Int → Rat) equal
  rw [intCast_leaving] at cast
  refine ⟨most, ?_⟩
  rw [settled.total_eq differ (discrete_number below), settled.leaving_eq]
  exact_mod_cast cast

namespace Circulation

section Settled

variable {α : Type} [Quantity α] [ExactQuantity α] {result : Result α} {run : MaxFlow.Run α}
  {tolerance : α} {exact last : Network Rat} {bound total amount : Rat} {source sink : Nat}

/-- Only the source of a transfer is fed. -/
theorem Settles.fed_eq
    (settles : Settles result run tolerance exact (transfer source sink amount) bound last total)
    (posed : Posed α exact (transfer source sink amount))
    (transfers : exact.Transfers source sink amount) {vertex : Nat}
    (inside : vertex < exact.vertexCount) :
    last.fed exact.vertexCount vertex = if vertex = source then total else 0 := by
  have carries := settles.finished.carries
  refine eq_ite_of_sum_eq transfers.sourceInside ?_
    (sum_fed posed.wellFormed settles.finished.bounds carries) inside
  intro other early away
  have most := fed_le posed.wellFormed settles.finished.bounds carries early
  rw [shiftedDemand_of_lowers transfers.lowers] at most
  refine le_antisymm (most.trans (le_of_eq (max_eq_right ?_))) (carries.fed_nonneg _ _)
  by_cases atSink : other = sink
  · rw [atSink, transfer_sink transfers.differ]
    exact neg_nonpos.mpr transfers.nonneg
  · rw [transfer_other away atSink, neg_zero]

/-- Only the sink of a transfer is drained. -/
theorem Settles.drained_eq
    (settles : Settles result run tolerance exact (transfer source sink amount) bound last total)
    (posed : Posed α exact (transfer source sink amount))
    (transfers : exact.Transfers source sink amount) {vertex : Nat}
    (inside : vertex < exact.vertexCount) :
    last.drained exact.vertexCount vertex = if vertex = sink then total else 0 := by
  have carries := settles.finished.carries
  refine eq_ite_of_sum_eq transfers.sinkInside ?_
    (sum_drained posed.wellFormed settles.finished.bounds carries) inside
  intro other early away
  have most := drained_le posed.wellFormed settles.finished.bounds carries early
  rw [shiftedDemand_of_lowers transfers.lowers] at most
  refine le_antisymm (most.trans (le_of_eq (max_eq_right ?_))) (carries.drained_nonneg _ _)
  by_cases atSource : other = source
  · rw [atSource, transfer_source]
    exact neg_nonpos.mpr transfers.nonneg
  · rw [transfer_other atSource away]

/-- The edges of the caller carry a flow from the source to the sink of a transfer. -/
theorem Settles.isFlow
    (settles : Settles result run tolerance exact (transfer source sink amount) bound last total)
    (posed : Posed α exact (transfer source sink amount))
    (transfers : exact.Transfers source sink amount) :
    exact.IsFlow source sink (fun edge => edge.capacity) (fun edge => last.flowAt edge.index) ∧
      exact.netOutflow (fun edge => last.flowAt edge.index) source = total := by
  have carries := settles.finished.carries
  have sends : ∀ vertex < exact.vertexCount,
      exact.netOutflow (fun edge => last.flowAt edge.index) vertex =
        (if vertex = source then total else 0) - if vertex = sink then total else 0 := by
    intro vertex inside
    rw [own_netOutflow posed.wellFormed settles.finished.wellFormed settles.finished.bounds
      posed.offset carries inside,
      settles.fed_eq posed transfers inside,
      settles.drained_eq posed transfers inside]
  have twin : ∀ edge ∈ exact.edges, ∃ other ∈ last.edges, other.capacity = edge.capacity ∧
      last.flowAt edge.index = other.flow := by
    intro edge member
    obtain ⟨other, stands, -, capacity, -⟩ := own_edge settles.finished.bounds posed.offset
      (posed.wellFormed.getElem?_index member)
    exact ⟨other, Array.mem_of_getElem? stands,
      by rw [capacity, transfers.lowers edge member, sub_zero], flowAt_eq stands⟩
  refine ⟨⟨?_, ?_, ?_⟩, ?_⟩
  · intro edge member
    obtain ⟨other, inside, -, equal⟩ := twin edge member
    rw [equal]
    exact carries.nonneg other inside
  · intro edge member
    obtain ⟨other, inside, capacity, equal⟩ := twin edge member
    rw [equal, ← capacity]
    exact carries.atMost other inside
  · intro vertex notSource notSink
    by_cases inside : vertex < exact.vertexCount
    · rw [sends vertex inside, if_neg notSource, if_neg notSink, sub_zero]
    · exact posed.wellFormed.netOutflow_outside _ (not_lt.mp inside)
  · rw [sends source transfers.sourceInside, if_pos rfl, if_neg transfers.differ, sub_zero]

/-- A transfer moves no more than its amount. -/
theorem Settles.total_le
    (settles : Settles result run tolerance exact (transfer source sink amount) bound last total)
    (posed : Posed α exact (transfer source sink amount))
    (transfers : exact.Transfers source sink amount) : total ≤ amount := by
  have most := fed_le posed.wellFormed settles.finished.bounds settles.finished.carries
    transfers.sourceInside
  rwa [settles.fed_eq posed transfers transfers.sourceInside, if_pos rfl,
    shiftedDemand_of_lowers transfers.lowers, transfer_source, neg_neg,
    max_eq_left transfers.nonneg] at most

/-- A cut that separates the ends of a transfer is a cut of the edges of the caller.
Any other cut leaves the whole amount on one side. -/
theorem Settles.le_total
    (settles : Settles result run tolerance exact (transfer source sink amount) bound last total)
    (posed : Posed α exact (transfer source sink amount))
    (transfers : exact.Transfers source sink amount) (discrete : Discrete α bound)
    (least : 0 ≤ bound) :
    amount ≤ total ∨ ∃ side : Finset Nat, source ∈ side ∧ sink ∉ side ∧
      exact.leaving (fun edge => edge.capacity) side ≤ total := by
  have whole := settles.total_eq posed discrete least
  obtain ⟨side, known⟩ : ∃ side, side = run.finder.side.erase exact.vertexCount := ⟨_, rfl⟩
  have room : exact.leaving (fun edge => edge.capacity - edge.lower) side =
      exact.leaving (fun edge => edge.capacity) side := by
    apply edgeSum_congr
    intro edge member
    simp only [transfers.lowers edge member, sub_zero]
  rw [← known, shiftedDemand_of_lowers transfers.lowers, room] at whole
  have out : 0 ≤ exact.leaving (fun edge => edge.capacity) side :=
    leaving_nonneg (fun edge member => (posed.least edge member).trans (posed.most edge member)) _
  have fedTerm : ∀ vertex ∈ Finset.range exact.vertexCount, (0 : Rat) ≤
      if vertex ∈ side then 0 else max (-transfer source sink amount vertex) 0 := by
    intro vertex _
    split
    · exact le_rfl
    · exact le_max_right _ _
  have drainedTerm : ∀ vertex ∈ Finset.range exact.vertexCount, (0 : Rat) ≤
      if vertex ∈ side then max (transfer source sink amount vertex) 0 else 0 := by
    intro vertex _
    split
    · exact le_max_right _ _
    · exact le_rfl
  have fed := Finset.sum_nonneg fedTerm
  have drained := Finset.sum_nonneg drainedTerm
  -- A vertex on the wrong side leaves its wire, for the whole amount, across the cut.
  by_cases sourceCut : source ∈ side
  · by_cases sinkCut : sink ∈ side
    · have one := Finset.single_le_sum drainedTerm (Finset.mem_range.mpr transfers.sinkInside)
      rw [if_pos sinkCut, transfer_sink transfers.differ, max_eq_left transfers.nonneg] at one
      exact Or.inl (by linarith)
    · exact Or.inr ⟨side, sourceCut, sinkCut, by linarith⟩
  · have one := Finset.single_le_sum fedTerm (Finset.mem_range.mpr transfers.sourceInside)
    rw [if_neg sourceCut, transfer_source, neg_neg, max_eq_left transfers.nonneg] at one
    exact Or.inl (by linarith)

/-- A transfer moves the lesser of its amount and the value of a maximum flow. -/
theorem Settles.total_eq_min {ran : MaxFlow.Run α} {best : Network Rat} {value most : Rat}
    (settles : Settles result run tolerance exact (transfer source sink amount) bound last total)
    (posed : Posed α exact (transfer source sink amount))
    (transfers : exact.Transfers source sink amount) (discrete : Discrete α bound)
    (least : 0 ≤ bound)
    (settled : ran.Settled most source sink exact best value) (discreteToo : Discrete α most) :
    total = min amount value := by
  obtain ⟨isFlow, sends⟩ := settles.isFlow posed transfers
  have cuts (side : Finset Nat) : best.leaving (fun edge => edge.capacity) side =
      exact.leaving (fun edge => edge.capacity) side := by
    symm
    apply settled.bounds.shape.leaving_eq
    exact fun stands standsToo => (settled.bounds.bounds stands standsToo).1.symm
  apply le_antisymm
  · refine le_min (settles.total_le posed transfers) ?_
    rw [settled.total_eq transfers.differ discreteToo, cuts, ← sends]
    exact isFlow.netOutflow_le settled.source_mem settled.sink_not_mem
  · rcases settles.le_total posed transfers discrete least with
      whole | ⟨side, inside, outside, crosses⟩
    · exact (min_le_left _ _).trans whole
    · have most := settled.carries.isFlow.netOutflow_le inside outside
      rw [settled.carries.netOutflow_source transfers.differ, cuts] at most
      exact (min_le_right _ _).trans (most.trans crosses)

end Settled

section Verdict

variable {result : Result Number} {run : MaxFlow.Run Number} {tolerance : Number}
  {exact last : Network Rat} {bound : Rat} {source sink amount most : Nat}

/-- The total demand of a transfer is its amount. -/
theorem Settles.demand_eq {total : Rat}
    (settles : Settles result run tolerance exact (transfer source sink (amount : Rat)) bound last
      total) (transfers : exact.Transfers source sink amount) :
    value? result.demand = some (amount : Rat) := by
  rw [settles.demand, shiftedDemand_of_lowers transfers.lowers, demandTotal,
    sum_transfer (fun value => max value 0) (max_self (0 : Rat)) (amount : Rat) transfers.differ
      transfers.sourceInside transfers.sinkInside,
    max_eq_right (neg_nonpos.mpr transfers.nonneg), max_eq_left transfers.nonneg, zero_add]

/-- A transfer is feasible when its amount is at most the maximum flow. It is also feasible when
it passes the maximum flow by one and rounding takes that one from the demand. -/
theorem Settles.feasible_iff
    (settles : Settles result run tolerance exact (transfer source sink (amount : Rat)) bound last
      (min amount most : Nat)) (transfers : exact.Transfers source sink amount)
    (small : 2 * amount ≤ 2 ^ 53) (tolerances : value? tolerance = some bound)
    (nonneg : 0 ≤ bound) (below : bound < 1) :
    (result.feasible = true ↔ amount ≤ most ∨ (amount = most + 1 ∧
      ∃ room, sub result.demand tolerance = .ok room ∧ value? room = some (most : Rat))) ∧
    (bound ≤ 1 / 2 → (result.feasible = true ↔ amount ≤ most)) := by
  have demanded := settles.demand_eq transfers
  have fits : ExactQuantity.Fits Number (amount : Rat) := Number.fits_natCast (by omega)
  obtain ⟨room, left, spared, known, atMost⟩ := Number.exact_sub_le demanded fits
    transfers.nonneg tolerances nonneg below
  have keeps (half : Nat) (fewer : half ≤ 2 ^ 53) (under : (half : Rat) / 2 ≤ amount - bound) :
      (half : Rat) / 2 ≤ left :=
    Number.half_le_of_sub demanded fits tolerances nonneg below spared known fewer under
  have judged : result.feasible = true ↔ left ≤ (min amount most : Nat) := by
    rw [← lessEq_iff known settles.value, Except.ok.inj ((verdict_eq spared _).symm.trans
      settles.verdict)]
  have met (enough : amount ≤ most) : result.feasible = true := by
    rw [judged, min_eq_left enough]
    exact atMost
  -- An amount beyond the maximum flow keeps above the integer below it.
  have passed (beyond : most < amount) (feasible : result.feasible = true) :
      amount = most + 1 ∧ left = most := by
    rw [judged, min_eq_right beyond.le] at feasible
    obtain ⟨before, rfl⟩ := Nat.exists_eq_add_one_of_ne_zero (by omega : amount ≠ 0)
    have least := keeps (2 * before) (by omega) (by push_cast; linarith)
    have between : (before : Rat) ≤ most := by
      push_cast at least
      linarith
    have equal : before = most := le_antisymm (by exact_mod_cast between) (by omega)
    rw [equal] at least ⊢
    push_cast at least
    exact ⟨rfl, le_antisymm feasible (by linarith)⟩
  refine ⟨⟨?_, ?_⟩, fun half => ⟨?_, met⟩⟩
  · intro feasible
    rcases le_or_gt amount most with enough | beyond
    · exact Or.inl enough
    · obtain ⟨next, equal⟩ := passed beyond feasible
      exact Or.inr ⟨next, room, spared, by rw [known, equal]⟩
  · rintro (enough | ⟨next, other, computed, stands⟩)
    · exact met enough
    · rw [spared] at computed
      rw [← Except.ok.inj computed, known] at stands
      rw [judged, Option.some.inj stands, min_eq_right (by omega)]
  · intro feasible
    by_contra beyond
    obtain ⟨next, equal⟩ := passed (by omega) feasible
    have least := keeps (2 * most + 1) (by omega) (by
      rw [next]
      push_cast
      linarith)
    rw [equal] at least
    push_cast at least
    linarith

end Verdict

/-- A table with the two ends of a transfer asks for the transfer. -/
theorem Demands.ask_transfer {source sink count : Nat} (differ : source ≠ sink)
    (sourceInside : source < count) (sinkInside : sink < count) (amount : Nat) :
    (Demands.sparse (Table.ofList [((source : Int), Number.int (-amount)),
      ((sink : Int), Number.int amount)])).Ask count (transfer source sink (amount : Rat)) := by
  have distinct : ([((source : Int), Number.int (-amount)), ((sink : Int), .int amount)].map
      Prod.fst).Nodup := by
    simpa using differ
  have entries := Table.entries_ofList distinct
  refine ⟨?_, ?_⟩
  · intro key member
    rw [Table.keys, entries] at member
    simp only [List.map_cons, List.map_nil, List.mem_cons, List.not_mem_nil, or_false] at member
    omega
  · intro vertex inside
    rw [Table.find?, entries]
    by_cases atSource : vertex = source
    · subst atSource
      simp [Entries.find?, Number.value?_int]
    · by_cases atSink : vertex = sink
      · subst atSink
        simp [Entries.find?, transfer_sink differ, differ, Number.value?_int]
      · simp [Entries.find?, transfer_other atSource atSink, Ne.symm atSource, Ne.symm atSink]

section Integers

variable {network : Network Number} {capacity : Nat → Nat} {source sink : Nat}

/-- A transfer that is small enough with the capacities is posed exactly. -/
theorem posed_transfer (assembled : network.Assembled)
    (capacities : ∀ edge ∈ network.edges, value? edge.capacity = some (capacity edge.index : Rat))
    (lowers : ∀ edge ∈ network.edges, value? edge.lower = some ((0 : Nat) : Rat))
    (sourceInside : source < network.vertexCount) (sinkInside : sink < network.vertexCount)
    (differ : source ≠ sink) (amount : Nat)
    (small : network.edgeSum (fun edge => (capacity edge.index : Int)) + 2 * amount ≤ 2 ^ 53) :
    Posed Number (network.integral capacity fun _ => 0) (transfer source sink (amount : Rat)) := by
  have cast : (fun vertex => ((transfer source sink (amount : Int) vertex : Int) : Rat)) =
      transfer source sink (amount : Rat) := by
    funext vertex
    rw [intCast_transfer, Int.cast_natCast]
  have magnitudes : ∑ vertex ∈ Finset.range network.vertexCount,
      |transfer source sink (amount : Int) vertex| = 2 * amount := by
    rw [sum_transfer (fun value => |value|) abs_zero (amount : Int) differ sourceInside sinkInside,
      abs_neg, Nat.abs_cast, two_mul]
  have noLowers : network.edgeSum (fun _ => ((0 : Nat) : Int)) = 0 := edgeSum_zero network
  rw [← cast]
  refine assembled.posed_integral capacities lowers ?_
  rw [magnitudes, noLowers, add_zero]
  exact small

theorem transfers_integral (capacity : Nat → Nat) (sourceInside : source < network.vertexCount)
    (sinkInside : sink < network.vertexCount) (differ : source ≠ sink) (amount : Nat) :
    (network.integral capacity fun _ => 0).Transfers source sink amount := by
  refine ⟨?_, Nat.cast_nonneg _, differ, sourceInside, sinkInside⟩
  intro edge member
  obtain ⟨old, -, rfl⟩ := mem_valued.mp member
  exact Nat.cast_zero

end Integers

/-- A circulation that moves an integer amount between two vertices carries the lesser of the
amount and the maximum flow between them. It is feasible exactly when the amount is at most the
maximum flow, except that a tolerance near one may round the last unit away. -/
theorem solve_transfer (network : Network Number) (assembled : network.Assembled)
    (capacity : Nat → Nat)
    (capacities : ∀ edge ∈ network.edges,
      value? edge.capacity = some (capacity edge.index : Rat))
    (lowers : ∀ edge ∈ network.edges, value? edge.lower = some 0)
    (source sink : Nat) (sourceInside : source < network.vertexCount)
    (sinkInside : sink < network.vertexCount) (differ : source ≠ sink) (amount : Nat)
    (demands : Demands Number)
    (asks : demands.Ask network.vertexCount (transfer source sink (amount : Rat)))
    (small : network.edgeSum (fun edge => (capacity edge.index : Int)) + 2 * amount ≤ 2 ^ 53)
    (options flowOptions : Options Number) (tolerance flowTolerance : Rat)
    (tolerances : value? options.tolerance = some tolerance)
    (flowTolerances : value? flowOptions.tolerance = some flowTolerance)
    (nonneg : 0 ≤ tolerance) (below : tolerance < 1) (flowNonneg : 0 ≤ flowTolerance)
    (flowBelow : flowTolerance < 1) (watch flowWatch : Watch Number)
    (interval : 0 < watch.interval) (flowInterval : 0 < flowWatch.interval)
    (quiet : ∀ report, watch.halts report = false)
    (flowQuiet : ∀ report, flowWatch.halts report = false) :
    ∃ (best : MaxFlow.Result Number) (most : Nat) (result : Result Number),
      (MaxFlow.solve network source sink flowOptions flowWatch).outcome = .ok best ∧
      value? best.value = some (most : Rat) ∧
      (solve network demands options watch).outcome = .ok result ∧
      value? result.value = some ((min amount most : Nat) : Rat) ∧
      (result.feasible = true ↔ amount ≤ most ∨ (amount = most + 1 ∧
        ∃ room, sub result.demand options.tolerance = .ok room ∧
          value? room = some (most : Rat))) ∧
      (tolerance ≤ 1 / 2 → (result.feasible = true ↔ amount ≤ most)) := by
  have capacitySum : 0 ≤ network.edgeSum fun edge => (capacity edge.index : Int) :=
    edgeSum_nonneg fun _ _ => Int.natCast_nonneg _
  have capacitated := assembled.capacitated capacities lowers (by omega)
  obtain ⟨ran, other, value, best, settled, flows, valued, -⟩ := MaxFlow.solve_settled capacitated
    sourceInside sinkInside differ flowTolerances flowNonneg flowInterval flowQuiet
  obtain ⟨most, rfl⟩ := settled.exists_value differ flowBelow
  have lowersToo : ∀ edge ∈ network.edges, value? edge.lower = some ((0 : Nat) : Rat) := by
    intro edge member
    rw [lowers edge member, Nat.cast_zero]
  have posed := posed_transfer assembled capacities lowersToo sourceInside sinkInside differ amount
    small
  have transfers := transfers_integral capacity sourceInside sinkInside differ amount
  have standsFor : network.resetFlows.StandsFor (network.integral capacity fun _ => 0) :=
    standsFor_integral capacities lowersToo capacitated.offsets
  have cancels := sum_transfer (fun value => value) rfl (amount : Rat) differ
    transfers.sourceInside transfers.sinkInside
  rw [neg_add_cancel] at cancels
  obtain ⟨vector, accepted, stands⟩ := asks.exact_vector fun _ inside => posed.fits_demand inside
  obtain ⟨result, ok⟩ := solve_ok posed standsFor assembled.copied accepted stands tolerances nonneg
    interval quiet fun total known => by
      have fits := (posed.fits_totals posed.shiftedDemand_mem posed.demandTotal_shifted_le
        posed.supplyTotal_shifted_le).1
      obtain ⟨room, -, spared, -⟩ := Number.exact_sub_le known fits (demandTotal_nonneg _ _)
        tolerances nonneg below
      exact ⟨room, spared⟩
  obtain ⟨run, last, total, settles⟩ := solve_settles_of_cancels posed standsFor assembled.copied
    accepted stands tolerances nonneg cancels ok
  have equal := settles.total_eq_min posed transfers (discrete_number below) nonneg settled
    (discrete_number flowBelow)
  rw [← Nat.cast_min] at equal
  subst equal
  obtain ⟨feasible, half⟩ := settles.feasible_iff transfers (by omega) tolerances nonneg below
  exact ⟨best, most, result, flows, valued, ok, settles.value, feasible, half⟩

theorem value?_usual : value? Options.usual.tolerance =
    some (4835703278458517 / 4835703278458516698824704) := by
  decide +kernel

/-- Two units cannot pass an edge for one, so that one is moved. -/
theorem solve_transfer_lane :
    ∃ best result,
      (MaxFlow.solve (single (Number.int 1) (Number.int 0)) 0 1 .usual .idle).outcome = .ok best ∧
      value? best.value = some 1 ∧
      (solve (single (Number.int 1) (Number.int 0))
        (.sparse (Table.ofList [(0, .int (-2)), (1, .int 2)])) .usual .idle).outcome =
          .ok result ∧
      value? result.value = some 1 ∧ result.feasible = false := by
  have capacities : ∀ edge ∈ (single (Number.int 1) (Number.int 0)).edges,
      value? edge.capacity = some ((1 : Nat) : Rat) := by
    intro edge member
    rw [mem_single member]
    exact Number.value?_int 1
  have lowers : ∀ edge ∈ (single (Number.int 1) (Number.int 0)).edges,
      value? edge.lower = some 0 := by
    intro edge member
    rw [mem_single member]
    exact value?_ofInt_zero
  obtain ⟨best, most, result, flows, valued, ok, moved, -, feasible⟩ := solve_transfer
    (single (.int 1) (.int 0)) (assembled_single_int (by decide) (by decide) (by decide))
    (fun _ => 1) capacities lowers 0 1 (by decide) (by decide) (by decide) 2 _
    (Demands.ask_transfer (by decide) (by decide) (by decide) 2) (by decide) .usual .usual _ _
    value?_usual value?_usual (by norm_num) (by norm_num) (by norm_num) (by norm_num) .idle .idle
    (by decide) (by decide) (fun _ => rfl) fun _ => rfl
  have computed : (MaxFlow.solve (single (Number.int 1) (Number.int 0)) 0 1 .usual
      .idle).outcome.toOption.bind (fun best => value? best.value) = some 1 := by decide +kernel
  have one : value? best.value = some 1 := by
    rw [← computed, show (MaxFlow.solve _ 0 1 .usual .idle).outcome = .ok best from flows]
    rfl
  obtain rfl : most = 1 := by
    rw [valued, Option.some.injEq] at one
    exact_mod_cast one
  refine ⟨best, result, flows, one, ok, moved, Bool.eq_false_iff.mpr ?_⟩
  rw [ne_eq, feasible (by norm_num)]
  decide

/-- The binary64 number just below one. -/
def nearlyOne : Number := .real (.ofDecimal false 9999999999999999 (-16))

theorem value?_nearlyOne : value? nearlyOne = some (1 - 1 / 2 ^ 53) := by
  decide +kernel

/-- Two units cannot pass an edge for one. A tolerance just below one taken from the demand
rounds to one, so that the circulation is feasible though one unit is missing. -/
theorem solve_transfer_rounded :
    value? nearlyOne = some (1 - 1 / 2 ^ 53) ∧
    (MaxFlow.solve (single (Number.int 1) (Number.int 0)) 0 1 .usual
      .idle).outcome.toOption.bind (fun best => value? best.value) = some 1 ∧
    (solve (single (Number.int 1) (Number.int 0))
      (.sparse (Table.ofList [(0, .int (-2)), (1, .int 2)])) ⟨nearlyOne, false⟩
        .idle).outcome.toOption.map Result.feasible = some true := by
  refine ⟨value?_nearlyOne, ?_, ?_⟩ <;> decide +kernel

end Circulation
end NetworkFlow
