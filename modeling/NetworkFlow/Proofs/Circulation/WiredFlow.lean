import NetworkFlow.Proofs.Circulation.Wiring

namespace NetworkFlow

open Quantity ExactQuantity Network

/-- The flow from the new source to a vertex. -/
def Network.fed (network : Network Rat) (count vertex : Nat) : Rat :=
  network.edgeSum fun edge => if edge.tail = count ∧ edge.head = vertex then edge.flow else 0

/-- The flow from a vertex to the new sink. -/
def Network.drained (network : Network Rat) (count vertex : Nat) : Rat :=
  network.edgeSum fun edge => if edge.tail = vertex ∧ edge.head = count + 1 then edge.flow else 0

/-- The network that is solved for a circulation. -/
def Network.circulation (network : Network Rat) (demand : Nat → Rat) (bound : Rat) :
    Network Rat :=
  network.folded.wired (network.shiftedDemand demand) bound

section Circulation

variable {network : Network Rat} {demand : Nat → Rat} {bound : Rat}

theorem vertexCount_circulation :
    (network.circulation demand bound).vertexCount = network.vertexCount + 2 := by
  rw [circulation, wired, vertexCount_withWires, vertexCount_addVertex, vertexCount_addVertex]
  rfl

theorem wellFormed_circulation (wellFormed : network.WellFormed) :
    (network.circulation demand bound).WellFormed := by
  have folded : network.folded.WellFormed :=
    wellFormed.ofSameShape (sameShape_mapLoads network _)
  refine folded.addVertex.addVertex.withWires ?_
  have count : network.folded.addVertex.addVertex.vertexCount = network.vertexCount + 2 := by
    rw [vertexCount_addVertex, vertexCount_addVertex]
    rfl
  intro wire member
  rw [count]
  rcases List.mem_append.mp member with feed | drain
  · obtain ⟨vertex, inside, -, rfl⟩ := mem_feeds.mp feed
    simp only [show network.folded.vertexCount = network.vertexCount from rfl] at inside ⊢
    omega
  · obtain ⟨vertex, inside, -, rfl⟩ := mem_drains.mp drain
    simp only [show network.folded.vertexCount = network.vertexCount from rfl] at inside ⊢
    omega

/-- An edge of the wired circulation is folded, feeds a vertex or drains one. -/
theorem circulation_cases {edge : Edge Rat}
    (member : edge ∈ (network.circulation demand bound).edges) :
    (∃ old ∈ network.edges, edge = old.withLoad old.toLoad.folded) ∨
    (network.edgeCount ≤ edge.index ∧ edge.tail = network.vertexCount ∧
      ∃ vertex < network.vertexCount, edge.head = vertex ∧
        network.shiftedDemand demand vertex < -bound ∧
        edge.toLoad = ⟨-network.shiftedDemand demand vertex, 0, 0, 0⟩) ∨
    (network.edgeCount ≤ edge.index ∧ edge.head = network.vertexCount + 1 ∧
      ∃ vertex < network.vertexCount, edge.tail = vertex ∧
        bound < network.shiftedDemand demand vertex ∧
        edge.toLoad = ⟨network.shiftedDemand demand vertex, 0, 0, 0⟩) := by
  have count : network.folded.addVertex.addVertex.edgeCount = network.edgeCount :=
    (sameShape_mapLoads network _).edgeCount.symm
  rcases mem_withWires member with own | ⟨later, wire, present, tail, head, load⟩
  · obtain ⟨old, inside, rfl⟩ := mem_mapLoads.mp own
    exact Or.inl ⟨old, inside, rfl⟩
  · rw [count] at later
    rcases List.mem_append.mp present with feed | drain
    · obtain ⟨vertex, inside, below, rfl⟩ := mem_feeds.mp feed
      exact Or.inr (Or.inl ⟨later, tail, vertex, inside, head, below, load⟩)
    · obtain ⟨vertex, inside, above, rfl⟩ := mem_drains.mp drain
      exact Or.inr (Or.inr ⟨later, head, vertex, inside, tail, above, load⟩)

/-- A sum over the wired circulation that depends on ends and loads only. -/
theorem edgeSum_circulation (network : Network Rat) (demand : Nat → Rat) (bound : Rat)
    (amount : Nat → Nat → Load Rat → Rat) :
    ((network.circulation demand bound).edgeSum fun edge =>
      amount edge.tail edge.head edge.toLoad) =
      (network.edgeSum fun edge => amount edge.tail edge.head edge.toLoad.folded) +
      ((∑ vertex ∈ Finset.range network.vertexCount,
          if network.shiftedDemand demand vertex < -bound then amount network.vertexCount vertex
            ⟨-network.shiftedDemand demand vertex, 0, 0, 0⟩ else 0) +
        ∑ vertex ∈ Finset.range network.vertexCount,
          if bound < network.shiftedDemand demand vertex then amount vertex
            (network.vertexCount + 1) ⟨network.shiftedDemand demand vertex, 0, 0, 0⟩ else 0) := by
  rw [circulation, wired, edgeSum_withWires, List.map_append, List.sum_append, sum_feeds,
    sum_drains]
  have own : (network.folded.addVertex.addVertex.edgeSum fun edge =>
      amount edge.tail edge.head edge.toLoad) =
      network.edgeSum fun edge => amount edge.tail edge.head edge.toLoad.folded := by
    simp only [edgeSum, addVertex, folded, mapLoads, Array.toList_map, List.map_map]
    rfl
  rw [own]
  rfl

/-- The edges of the caller come first, folded. -/
theorem getElem?_circulation (demand : Nat → Rat) (bound : Rat) {position : Nat}
    {edge : Edge Rat} (stands : network.edges[position]? = some edge) :
    (network.circulation demand bound).edges[position]? =
      some (edge.withLoad edge.toLoad.folded) := by
  have inside : position < network.folded.addVertex.addVertex.edgeCount := by
    rw [show network.folded.addVertex.addVertex.edgeCount = network.edgeCount from
      (sameShape_mapLoads network _).edgeCount.symm]
    exact (Array.getElem?_eq_some_iff.mp stands).1
  rw [circulation, wired, getElem?_withWires _ _ inside]
  show network.folded.edges[position]? = _
  rw [folded, getElem?_mapLoads, stands, Option.map_some]

end Circulation

namespace Posed

variable {α : Type} [Quantity α] [ExactQuantity α] {network : Network Rat} {demand : Nat → Rat}
  {bound : Rat}

/-- The wired circulation starts without flow. -/
theorem carries_circulation (posed : Posed α network demand) (nonneg : 0 ≤ bound)
    (source sink : Nat) : (network.circulation demand bound).Carries source sink 0 := by
  apply carries_zero
  · intro edge member
    rcases circulation_cases member with ⟨old, -, rfl⟩ | ⟨-, -, _, -, -, -, load⟩ |
      ⟨-, -, _, -, -, -, load⟩
    · rfl
    · rw [load]
    · rw [load]
  · intro edge member
    rcases circulation_cases member with ⟨old, inside, rfl⟩ | ⟨-, -, _, -, -, below, load⟩ |
      ⟨-, -, _, -, -, above, load⟩
    · exact sub_nonneg.mpr (posed.most old inside)
    · rw [load]
      simp only
      linarith
    · rw [load]
      simp only
      linarith

/-- The wired circulation is measured, because its capacities fit together. -/
theorem measured_circulation (posed : Posed α network demand) (nonneg : 0 ≤ bound) :
    (network.circulation demand bound).Measured α := by
  have members : ∀ edge ∈ (network.circulation demand bound).edges,
      edge.capacity ∈ lattice α := by
    intro edge member
    rcases circulation_cases member with ⟨old, inside, rfl⟩ | ⟨-, -, vertex, -, -, -, load⟩ |
      ⟨-, -, vertex, -, -, -, load⟩
    · exact sub_mem (posed.capacities old inside) (posed.lowers old inside)
    · rw [load]
      exact neg_mem (posed.shiftedDemand_mem vertex)
    · rw [load]
      exact posed.shiftedDemand_mem vertex
  refine ⟨⟨members, ?_⟩, ?_⟩
  · intro edge member
    rcases circulation_cases member with ⟨old, -, rfl⟩ | ⟨-, -, _, -, -, -, load⟩ |
      ⟨-, -, _, -, -, -, load⟩
    · exact zero_mem _
    · rw [load]
      exact zero_mem _
    · rw [load]
      exact zero_mem _
  · have least : 0 ≤ (network.circulation demand bound).edgeSum fun edge => edge.capacity :=
      (posed.carries_circulation nonneg 0 1).capacitySum_nonneg
    have total := edgeSum_circulation network demand bound fun _ _ load => load.capacity
    have feeding : wireTotal (feeds network.vertexCount (network.shiftedDemand demand) bound) ≤ _ :=
      wireTotal_feeds_le
    have draining :
        wireTotal (drains network.vertexCount (network.shiftedDemand demand) bound) ≤ _ :=
      wireTotal_drains_le
    rw [wireTotal, sum_feeds] at feeding
    rw [wireTotal, sum_drains] at draining
    have rest : (network.edgeSum fun edge => edge.toLoad.folded.capacity) =
        (network.edgeSum fun edge => edge.capacity) - network.edgeSum fun edge => edge.lower :=
      edgeSum_sub network _ _
    have demands := posed.demandTotal_shifted_le
    have supplies := posed.supplyTotal_shifted_le
    have both := demandTotal_add_supplyTotal network.vertexCount demand
    refine posed.fits_of_le ?_ ?_
    · refine list_sum_mem fun capacity inside => ?_
      obtain ⟨edge, present, rfl⟩ := List.mem_map.mp inside
      exact members edge (Array.mem_toList_iff.mp present)
    · rw [abs_of_nonneg least, total, rest]
      simp only at feeding draining ⊢
      linarith

end Posed

section LastFlow

variable {network last : Network Rat} {demand : Nat → Rat} {bound total : Rat}

/-- An edge of the caller keeps its ends, the room between its bounds and its lower bound. -/
theorem own_edge (bounds : (network.circulation demand bound).SameBounds last)
    (cleared : ∀ edge ∈ network.edges, edge.offset = 0) {position : Nat} {edge : Edge Rat}
    (stands : network.edges[position]? = some edge) :
    ∃ twin, last.edges[position]? = some twin ∧ twin.place = edge.place ∧
      twin.capacity = edge.capacity - edge.lower ∧ twin.offset = edge.lower := by
  have folded := getElem?_circulation demand bound stands
  obtain ⟨twin, found, place⟩ := bounds.shape.getElem? folded
  obtain ⟨capacity, -, offset⟩ := bounds.bounds folded found
  refine ⟨twin, found, place, capacity, ?_⟩
  rw [offset]
  show edge.offset + edge.lower = edge.lower
  rw [cleared edge (Array.mem_of_getElem? stands), zero_add]

/-- An edge of the solved network is the caller's, or it joins a vertex to a new one. -/
theorem last_cases (wellFormed : network.WellFormed)
    (bounds : (network.circulation demand bound).SameBounds last) {edge : Edge Rat}
    (member : edge ∈ last.edges) :
    (edge.index < network.edgeCount ∧ edge.tail < network.vertexCount ∧
      edge.head < network.vertexCount) ∨
    (network.edgeCount ≤ edge.index ∧ edge.tail = network.vertexCount ∧
      edge.head < network.vertexCount) ∨
    (network.edgeCount ≤ edge.index ∧ edge.tail < network.vertexCount ∧
      edge.head = network.vertexCount + 1) := by
  obtain ⟨position, stands⟩ := Array.mem_iff_getElem?.mp member
  obtain ⟨twin, found, place⟩ := bounds.shape.symm.getElem? stands
  rw [← Edge.place_index place, ← Edge.place_tail place, ← Edge.place_head place]
  rcases circulation_cases (Array.mem_of_getElem? found) with
    ⟨old, inside, rfl⟩ | ⟨later, tail, vertex, inside, head, -⟩ |
    ⟨later, head, vertex, inside, tail, -⟩
  · have early := wellFormed.index_lt inside
    exact Or.inl ⟨early, wellFormed.tail old inside, wellFormed.head old inside⟩
  · exact Or.inr (Or.inl ⟨later, tail, head ▸ inside⟩)
  · exact Or.inr (Or.inr ⟨later, tail ▸ inside, head⟩)

/-- What the caller's edges carry out of a vertex is what the source feeds to it
less what the sink drains from it. -/
theorem own_netOutflow (wellFormed : network.WellFormed) (wellFormedLast : last.WellFormed)
    (bounds : (network.circulation demand bound).SameBounds last)
    (cleared : ∀ edge ∈ network.edges, edge.offset = 0)
    (carries : last.Carries network.vertexCount (network.vertexCount + 1) total) {vertex : Nat}
    (inside : vertex < network.vertexCount) :
    network.netOutflow (fun edge => last.flowAt edge.index) vertex =
      last.fed network.vertexCount vertex - last.drained network.vertexCount vertex := by
  have balance := carries.balance vertex
  rw [if_neg (Nat.ne_of_gt inside), if_neg (by omega), sub_zero, netOutflow_eq] at balance
  have own : (last.edgeSum fun edge => if edge.index < network.edgeCount then
      (if edge.tail = vertex then edge.flow else 0) - (if edge.head = vertex then edge.flow else 0)
      else 0) = network.netOutflow (fun edge => last.flowAt edge.index) vertex := by
    rw [netOutflow_eq]
    apply edgeSum_below wellFormedLast
    intro position edge stands
    obtain ⟨twin, found, place, -⟩ := own_edge bounds cleared stands
    refine ⟨twin, found, ?_⟩
    rw [Edge.place_tail place, Edge.place_head place, wellFormed.index_eq stands, flowAt_eq found]
  have parts : (last.edgeSum fun edge => (if edge.tail = vertex then edge.flow else 0) -
      (if edge.head = vertex then edge.flow else 0)) =
      last.edgeSum (fun edge => if edge.index < network.edgeCount then
        (if edge.tail = vertex then edge.flow else 0) -
          (if edge.head = vertex then edge.flow else 0) else 0) +
      (last.drained network.vertexCount vertex - last.fed network.vertexCount vertex) := by
    rw [drained, fed, ← edgeSum_sub, ← edgeSum_add]
    apply edgeSum_congr
    intro edge member
    rcases last_cases wellFormed bounds member with
      ⟨early, tail, head⟩ | ⟨later, tail, head⟩ | ⟨later, tail, head⟩
    · have notSource : ¬edge.tail = network.vertexCount := by omega
      have notSink : ¬edge.head = network.vertexCount + 1 := by omega
      simp only [if_pos early, notSource, notSink, and_false, false_and, if_false, sub_zero,
        add_zero]
    · have late : ¬edge.index < network.edgeCount := by omega
      have notTail : ¬network.vertexCount = vertex := by omega
      have notSink : ¬edge.head = network.vertexCount + 1 := by omega
      simp only [if_neg late, tail, notTail, notSink, and_false, true_and, if_false, zero_add]
    · have late : ¬edge.index < network.edgeCount := by omega
      have notHead : ¬network.vertexCount + 1 = vertex := by omega
      simp only [if_neg late, head, notHead, and_false, and_true, if_false, zero_add]
  rw [parts, own] at balance
  linarith

/-- The source feeds the total to the vertices. -/
theorem sum_fed (wellFormed : network.WellFormed)
    (bounds : (network.circulation demand bound).SameBounds last)
    (carries : last.Carries network.vertexCount (network.vertexCount + 1) total) :
    ∑ vertex ∈ Finset.range network.vertexCount, last.fed network.vertexCount vertex = total := by
  have balance := carries.balance network.vertexCount
  rw [if_pos rfl, if_neg (by omega), sub_zero, netOutflow_eq] at balance
  rw [← balance]
  simp only [fed]
  rw [sum_edgeSum]
  apply edgeSum_congr
  intro edge member
  rcases last_cases wellFormed bounds member with
    ⟨-, tail, head⟩ | ⟨-, tail, head⟩ | ⟨-, tail, head⟩
  · simp [Nat.ne_of_lt tail, Nat.ne_of_lt head]
  · simp [tail, head, Nat.ne_of_lt head]
  · simp [Nat.ne_of_lt tail, head]

/-- The sink drains the total from the vertices. -/
theorem sum_drained (wellFormed : network.WellFormed)
    (bounds : (network.circulation demand bound).SameBounds last)
    (carries : last.Carries network.vertexCount (network.vertexCount + 1) total) :
    ∑ vertex ∈ Finset.range network.vertexCount, last.drained network.vertexCount vertex =
      total := by
  have balance := carries.balance (network.vertexCount + 1)
  rw [if_neg (by omega), if_pos rfl, zero_sub, netOutflow_eq] at balance
  have received : (last.edgeSum fun edge =>
      (if edge.head = network.vertexCount + 1 then edge.flow else 0) -
        (if edge.tail = network.vertexCount + 1 then edge.flow else 0)) = total := by
    rw [edgeSum_sub] at balance ⊢
    linarith
  rw [← received]
  simp only [drained]
  rw [sum_edgeSum]
  apply edgeSum_congr
  intro edge member
  rcases last_cases wellFormed bounds member with
    ⟨-, tail, head⟩ | ⟨-, tail, head⟩ | ⟨-, tail, head⟩
  · have notTail : ¬edge.tail = network.vertexCount + 1 := by omega
    have notHead : ¬edge.head = network.vertexCount + 1 := by omega
    simp [notTail, notHead]
  · have notHead : ¬edge.head = network.vertexCount + 1 := by omega
    simp [tail, notHead]
  · have notTail : ¬edge.tail = network.vertexCount + 1 := by omega
    simp [head, tail, notTail]

/-- A sum of capacities is the same before and after the run. -/
theorem edgeSum_capacity (bounds : (network.circulation demand bound).SameBounds last)
    (keeps : Nat → Nat → Prop) [∀ tail head, Decidable (keeps tail head)] :
    (last.edgeSum fun edge => if keeps edge.tail edge.head then edge.capacity else 0) =
      (network.circulation demand bound).edgeSum fun edge =>
        if keeps edge.tail edge.head then edge.capacity else 0 := by
  symm
  apply bounds.shape.edgeSum_eq
  intro position edge twin stands standsTwin
  obtain ⟨tail, head⟩ := bounds.shape.ends stands standsTwin
  rw [tail, head, (bounds.bounds stands standsTwin).1]

/-- No vertex is fed more than it supplies. -/
theorem fed_le (wellFormed : network.WellFormed)
    (bounds : (network.circulation demand bound).SameBounds last)
    (carries : last.Carries network.vertexCount (network.vertexCount + 1) total) {vertex : Nat}
    (inside : vertex < network.vertexCount) :
    last.fed network.vertexCount vertex ≤ max (-network.shiftedDemand demand vertex) 0 := by
  have most : last.fed network.vertexCount vertex ≤ last.edgeSum fun edge =>
      if edge.tail = network.vertexCount ∧ edge.head = vertex then edge.capacity else 0 := by
    apply edgeSum_le_edgeSum
    intro edge member
    split
    · exact carries.atMost edge member
    · exact le_rfl
  have own : (network.edgeSum fun edge => if edge.tail = network.vertexCount ∧ edge.head = vertex
      then edge.toLoad.folded.capacity else 0) = 0 := by
    refine (edgeSum_congr fun edge member => ?_).trans (edgeSum_zero network)
    rw [if_neg fun both => absurd both.1 (Nat.ne_of_lt (wellFormed.tail edge member))]
  rw [edgeSum_capacity bounds fun tail head => tail = network.vertexCount ∧ head = vertex,
    edgeSum_circulation network demand bound fun tail head load =>
      if tail = network.vertexCount ∧ head = vertex then load.capacity else 0, own] at most
  rw [Finset.sum_eq_single_of_mem vertex (Finset.mem_range.mpr inside), Finset.sum_eq_zero,
    zero_add, add_zero] at most
  · refine most.trans ?_
    split
    · simp
    · exact le_max_right _ _
  · intro other member
    have notSource := Nat.ne_of_lt (Finset.mem_range.mp member)
    simp [notSource]
  · intro other _ differ
    simp [differ]

/-- No vertex is drained of more than it demands. -/
theorem drained_le (wellFormed : network.WellFormed)
    (bounds : (network.circulation demand bound).SameBounds last)
    (carries : last.Carries network.vertexCount (network.vertexCount + 1) total) {vertex : Nat}
    (inside : vertex < network.vertexCount) :
    last.drained network.vertexCount vertex ≤ max (network.shiftedDemand demand vertex) 0 := by
  have most : last.drained network.vertexCount vertex ≤ last.edgeSum fun edge =>
      if edge.tail = vertex ∧ edge.head = network.vertexCount + 1 then edge.capacity else 0 := by
    apply edgeSum_le_edgeSum
    intro edge member
    split
    · exact carries.atMost edge member
    · exact le_rfl
  have own : (network.edgeSum fun edge =>
      if edge.tail = vertex ∧ edge.head = network.vertexCount + 1
      then edge.toLoad.folded.capacity else 0) = 0 := by
    refine (edgeSum_congr fun edge member => ?_).trans (edgeSum_zero network)
    have head := wellFormed.head edge member
    rw [if_neg fun both => absurd both.2 (by omega)]
  rw [edgeSum_capacity bounds fun tail head => tail = vertex ∧ head = network.vertexCount + 1,
    edgeSum_circulation network demand bound fun tail head load =>
      if tail = vertex ∧ head = network.vertexCount + 1 then load.capacity else 0, own] at most
  rw [Finset.sum_eq_zero, Finset.sum_eq_single_of_mem vertex (Finset.mem_range.mpr inside),
    zero_add, zero_add] at most
  · refine most.trans ?_
    split
    · simp
    · exact le_max_right _ _
  · intro other _ differ
    simp [differ]
  · intro other member
    have notSink : ¬other = network.vertexCount + 1 := by
      have := Finset.mem_range.mp member
      omega
    simp [notSink]

/-- A vertex misses its shifted demand by at most twice the tolerance
when the total falls short of the demand by at most the tolerance. -/
theorem abs_missed_le (wellFormed : network.WellFormed)
    (bounds : (network.circulation demand bound).SameBounds last)
    (carries : last.Carries network.vertexCount (network.vertexCount + 1) total)
    (balanced : |demandTotal network.vertexCount (network.shiftedDemand demand) -
      supplyTotal network.vertexCount (network.shiftedDemand demand)| ≤ bound)
    (met : demandTotal network.vertexCount (network.shiftedDemand demand) - bound ≤ total)
    {vertex : Nat} (inside : vertex < network.vertexCount) :
    |last.drained network.vertexCount vertex - last.fed network.vertexCount vertex -
      network.shiftedDemand demand vertex| ≤ 2 * bound := by
  have missedDemand : max (network.shiftedDemand demand vertex) 0 -
      last.drained network.vertexCount vertex ≤
        demandTotal network.vertexCount (network.shiftedDemand demand) - total := by
    rw [demandTotal, ← sum_drained wellFormed bounds carries, ← Finset.sum_sub_distrib]
    exact Finset.single_le_sum (f := fun vertex => max (network.shiftedDemand demand vertex) 0 -
      last.drained network.vertexCount vertex) (fun other member =>
        sub_nonneg.mpr (drained_le wellFormed bounds carries (Finset.mem_range.mp member)))
      (Finset.mem_range.mpr inside)
  have missedSupply : max (-network.shiftedDemand demand vertex) 0 -
      last.fed network.vertexCount vertex ≤
        supplyTotal network.vertexCount (network.shiftedDemand demand) - total := by
    rw [supplyTotal, ← sum_fed wellFormed bounds carries, ← Finset.sum_sub_distrib]
    exact Finset.single_le_sum (f := fun vertex => max (-network.shiftedDemand demand vertex) 0 -
      last.fed network.vertexCount vertex) (fun other member =>
        sub_nonneg.mpr (fed_le wellFormed bounds carries (Finset.mem_range.mp member)))
      (Finset.mem_range.mpr inside)
  have drainedMost := drained_le wellFormed bounds carries inside
  have fedMost := fed_le wellFormed bounds carries inside
  have split := max_zero_sub_max_neg_zero_eq_self (network.shiftedDemand demand vertex)
  obtain ⟨least, most⟩ := abs_le.mp balanced
  exact abs_le.mpr ⟨by linarith, by linarith⟩

end LastFlow
end NetworkFlow
