import NetworkFlow.Circulation
import NetworkFlow.Proofs.Circulation.Reduction
import NetworkFlow.Proofs.Network.Assembled

namespace NetworkFlow

open Quantity ExactQuantity Network

namespace Network

theorem SameShape.addVertex {α β : Type} {first : Network α} {second : Network β}
    (same : SameShape first second) : SameShape first.addVertex second.addVertex :=
  ⟨congrArg (Array.push · []) same.adjacency, same.places⟩

theorem SameShape.attach {α β : Type} {first : Network α} {second : Network β}
    (same : SameShape first second) (tail head : Nat) (load : Load α) (other : Load β) :
    SameShape (first.attach tail head load) (second.attach tail head other) := by
  have size : first.edges.size = second.edges.size := same.edgeCount
  constructor
  · simp only [Network.attach, same.adjacency, size]
  · simp only [Network.attach, Array.toList_push, List.map_append, same.places, size]
    rfl

section StandsFor

variable {α : Type} [Quantity α] [ExactQuantity α] {network : Network α} {exact : Network Rat}

theorem StandsFor.addVertex (standsFor : network.StandsFor exact) :
    network.addVertex.StandsFor exact.addVertex :=
  ⟨standsFor.shape.addVertex, standsFor.loads⟩

theorem StandsFor.attach (standsFor : network.StandsFor exact) (tail head : Nat) {load : Load α}
    {other : Load Rat} (loads : load.StandsFor other) :
    (network.attach tail head load).StandsFor (exact.attach tail head other) := by
  have size : network.edges.size = exact.edges.size := standsFor.shape.edgeCount
  refine ⟨standsFor.shape.attach tail head load other, ?_⟩
  intro position edge twin stands standsTwin
  simp only [Network.attach, Array.getElem?_push, size] at stands standsTwin
  by_cases last : position = exact.edges.size
  · rw [if_pos last, Option.some.injEq] at stands standsTwin
    rw [← stands, ← standsTwin]
    exact loads
  · rw [if_neg last] at stands standsTwin
    exact standsFor.loads stands standsTwin

end StandsFor

/-- The network after edges with given ends and capacities were added in order. -/
def withWires (network : Network Rat) (wires : List (Nat × Nat × Rat)) : Network Rat :=
  wires.foldl (fun network wire => network.attach wire.1 wire.2.1 ⟨wire.2.2, 0, 0, 0⟩) network

/-- A wire stands for an exact one when it has the same ends and stands for its capacity. -/
def WireStandsFor {α : Type} [Quantity α] [ExactQuantity α] (wire : Nat × Nat × α)
    (exact : Nat × Nat × Rat) : Prop :=
  wire.1 = exact.1 ∧ wire.2.1 = exact.2.1 ∧ value? wire.2.2 = some exact.2.2

/-- The capacity that wires add. -/
def wireTotal (wires : List (Nat × Nat × Rat)) : Rat :=
  (wires.map fun wire => wire.2.2).sum

theorem vertexCount_withWires (network : Network Rat) (wires : List (Nat × Nat × Rat)) :
    (network.withWires wires).vertexCount = network.vertexCount := by
  rw [withWires]
  induction wires generalizing network with
  | nil => rfl
  | cons wire wires inductionHypothesis =>
    rw [List.foldl_cons, inductionHypothesis, vertexCount_attach]

theorem WellFormed.withWires {network : Network Rat} (wellFormed : network.WellFormed)
    {wires : List (Nat × Nat × Rat)}
    (inside : ∀ wire ∈ wires, wire.1 < network.vertexCount ∧ wire.2.1 < network.vertexCount) :
    (network.withWires wires).WellFormed := by
  rw [Network.withWires]
  induction wires generalizing network with
  | nil => exact wellFormed
  | cons wire wires inductionHypothesis =>
    obtain ⟨tail, head⟩ := inside wire (by simp)
    refine inductionHypothesis (wellFormed.attach tail head _) ?_
    intro other member
    rw [vertexCount_attach]
    exact inside other (by simp [member])

/-- The wires come after the edges from before. -/
theorem getElem?_withWires (network : Network Rat) (wires : List (Nat × Nat × Rat))
    {position : Nat} (inside : position < network.edgeCount) :
    (network.withWires wires).edges[position]? = network.edges[position]? := by
  rw [withWires]
  induction wires generalizing network with
  | nil => rfl
  | cons wire wires inductionHypothesis =>
    have later : position < (network.attach wire.1 wire.2.1 ⟨wire.2.2, 0, 0, 0⟩).edgeCount := by
      rw [edgeCount_attach]
      omega
    rw [List.foldl_cons, inductionHypothesis _ later]
    simp only [attach, Array.getElem?_push]
    exact if_neg (Nat.ne_of_lt inside)

/-- A sum over the wired edges that depends on ends and loads only. -/
theorem edgeSum_withWires (network : Network Rat) (wires : List (Nat × Nat × Rat))
    (amount : Nat → Nat → Load Rat → Rat) :
    ((network.withWires wires).edgeSum fun edge => amount edge.tail edge.head edge.toLoad) =
      (network.edgeSum fun edge => amount edge.tail edge.head edge.toLoad) +
        (wires.map fun wire => amount wire.1 wire.2.1 ⟨wire.2.2, 0, 0, 0⟩).sum := by
  rw [withWires]
  induction wires generalizing network with
  | nil => simp
  | cons wire wires inductionHypothesis =>
    have one : ((network.attach wire.1 wire.2.1 ⟨wire.2.2, 0, 0, 0⟩).edgeSum fun edge =>
        amount edge.tail edge.head edge.toLoad) =
        (network.edgeSum fun edge => amount edge.tail edge.head edge.toLoad) +
          amount wire.1 wire.2.1 ⟨wire.2.2, 0, 0, 0⟩ := by
      simp [edgeSum, attach]
    rw [List.foldl_cons, inductionHypothesis, one, List.map_cons, List.sum_cons, add_assoc]

/-- The edges of a wired network are those from before and the wires. -/
theorem mem_withWires {network : Network Rat} {wires : List (Nat × Nat × Rat)} {edge : Edge Rat}
    (member : edge ∈ (network.withWires wires).edges) : edge ∈ network.edges ∨
      network.edgeCount ≤ edge.index ∧
        ∃ wire ∈ wires, edge.tail = wire.1 ∧ edge.head = wire.2.1 ∧
          edge.toLoad = ⟨wire.2.2, 0, 0, 0⟩ := by
  rw [withWires] at member
  induction wires generalizing network with
  | nil => exact Or.inl member
  | cons wire wires inductionHypothesis =>
    rcases inductionHypothesis member with before | ⟨later, other, present, facts⟩
    · rcases Array.mem_push.mp before with old | rfl
      · exact Or.inl old
      · exact Or.inr ⟨le_rfl, wire, by simp, rfl, rfl, rfl⟩
    · rw [edgeCount_attach] at later
      exact Or.inr ⟨by omega, other, by simp [present], facts⟩

/-- An edge without a lower bound is added exactly. -/
theorem exact_addEdge {α : Type} [Quantity α] [ExactQuantity α] {network : Network α}
    {exact : Network Rat} (standsFor : network.StandsFor exact) {tail head : Nat}
    (tailInside : tail < exact.vertexCount) (headInside : head < exact.vertexCount) {capacity : α}
    {value : Rat} (capacities : value? capacity = some value) (fits : Fits α value)
    (nonneg : 0 ≤ value) :
    network.addEdge tail head capacity zero =
        .ok (network.attach tail head ⟨capacity, zero, zero, zero⟩) ∧
      (network.attach tail head ⟨capacity, zero, zero, zero⟩).StandsFor
        (exact.attach tail head ⟨value, 0, 0, 0⟩) := by
  have checked : Load.check (⟨capacity, zero, zero, zero⟩ : Load α) tail head = .ok () :=
    (exact_check capacities value?_zero fits fits_zero _ _).mpr ⟨le_rfl, nonneg⟩
  rw [← standsFor.shape.vertexCount] at tailInside headInside
  constructor
  · simp only [addEdge, checkVertex_natCast _ tailInside, checkVertex_natCast _ headInside, checked,
      ok_bind]
    rfl
  · exact standsFor.attach tail head ⟨capacities, value?_zero, value?_zero, value?_zero⟩

/-- Wires are added exactly when their capacities fit together with the total so far. -/
theorem exact_addWires {α : Type} [Quantity α] [ExactQuantity α]
    {wires : List (Nat × Nat × α)} {exactWires : List (Nat × Nat × Rat)}
    (stands : List.Forall₂ WireStandsFor wires exactWires) {network : Network α}
    {exact : Network Rat} (standsFor : network.StandsFor exact)
    (inside : ∀ wire ∈ exactWires, wire.1 < exact.vertexCount ∧ wire.2.1 < exact.vertexCount)
    (members : ∀ wire ∈ exactWires, wire.2.2 ∈ lattice α)
    (nonneg : ∀ wire ∈ exactWires, 0 ≤ wire.2.2) {total : α} {sum : Rat}
    (totals : value? total = some sum) (sumMem : sum ∈ lattice α) (least : 0 ≤ sum)
    (fits : Fits α (sum + wireTotal exactWires)) :
    ∃ extended last edges, addWires wires network total = (extended, .ok (last, edges)) ∧
      extended.StandsFor (exact.withWires exactWires) ∧
      value? last = some (sum + wireTotal exactWires) := by
  induction stands generalizing network exact total sum with
  | nil => exact ⟨network, total, [], rfl, standsFor, by simpa [wireTotal] using totals⟩
  | @cons wire twin wires exactWires head tail inductionHypothesis =>
    obtain ⟨tails, heads, capacities⟩ := head
    obtain ⟨tailInside, headInside⟩ := inside twin (by simp)
    have capacityMem := members twin (by simp)
    have capacityLeast := nonneg twin (by simp)
    have restLeast : 0 ≤ wireTotal exactWires := by
      refine List.sum_nonneg fun capacity member => ?_
      obtain ⟨other, present, rfl⟩ := List.mem_map.mp member
      exact nonneg other (by simp [present])
    have split : wireTotal (twin :: exactWires) = twin.2.2 + wireTotal exactWires := by
      simp [wireTotal]
    rw [split] at fits ⊢
    have within {value : Rat} (member : value ∈ lattice α) (lower : 0 ≤ value)
        (upper : value ≤ sum + (twin.2.2 + wireTotal exactWires)) : Fits α value :=
      fits_of_abs_le member (abs_le_abs_of_nonneg lower upper) fits
    have fitsCapacity := within capacityMem capacityLeast (by linarith)
    obtain ⟨added, extended⟩ := exact_addEdge standsFor tailInside headInside capacities
      fitsCapacity capacityLeast
    obtain ⟨middle, summed, known⟩ := exact_add totals capacities
      (within sumMem least (by linarith)) fitsCapacity
      (within (add_mem sumMem capacityMem) (add_nonneg least capacityLeast) (by linarith))
    obtain ⟨finished, last, edges, rest, stays, lastKnown⟩ := inductionHypothesis extended
      (fun other member => by
        rw [vertexCount_attach]
        exact inside other (by simp [member]))
      (fun other member => members other (by simp [member]))
      (fun other member => nonneg other (by simp [member])) known (add_mem sumMem capacityMem)
      (add_nonneg least capacityLeast) (by rwa [add_assoc])
    rw [add_assoc] at lastKnown
    refine ⟨finished, last, network.edgeCount :: edges, ?_, stays, lastKnown⟩
    obtain ⟨tailVertex, headVertex, capacity⟩ := wire
    simp only at tails heads added summed rest
    subst tails heads
    simp only [addWires, added, summed, rest]

end Network

/-- The wires from the new source to the vertices with supply above the tolerance. -/
def feeds (count : Nat) (demand : Nat → Rat) (bound : Rat) : List (Nat × Nat × Rat) :=
  ((List.range count).filter fun vertex => demand vertex < -bound).map fun vertex =>
    (count, vertex, -demand vertex)

/-- The wires from the vertices with demand above the tolerance to the new sink. -/
def drains (count : Nat) (demand : Nat → Rat) (bound : Rat) : List (Nat × Nat × Rat) :=
  ((List.range count).filter fun vertex => bound < demand vertex).map fun vertex =>
    (vertex, count + 1, demand vertex)

/-- The network with a new source and a new sink, which come after its vertices. -/
def Network.wired (network : Network Rat) (demand : Nat → Rat) (bound : Rat) : Network Rat :=
  network.addVertex.addVertex.withWires
    (feeds network.vertexCount demand bound ++ drains network.vertexCount demand bound)

section Wires

variable {count : Nat} {demand : Nat → Rat} {bound : Rat}

theorem mem_feeds {wire : Nat × Nat × Rat} : wire ∈ feeds count demand bound ↔
    ∃ vertex < count, demand vertex < -bound ∧ wire = (count, vertex, -demand vertex) := by
  simp only [feeds, List.mem_map, List.mem_filter, List.mem_range, decide_eq_true_eq]
  constructor
  · rintro ⟨vertex, ⟨inside, below⟩, rfl⟩
    exact ⟨vertex, inside, below, rfl⟩
  · rintro ⟨vertex, inside, below, rfl⟩
    exact ⟨vertex, ⟨inside, below⟩, rfl⟩

theorem mem_drains {wire : Nat × Nat × Rat} : wire ∈ drains count demand bound ↔
    ∃ vertex < count, bound < demand vertex ∧ wire = (vertex, count + 1, demand vertex) := by
  simp only [drains, List.mem_map, List.mem_filter, List.mem_range, decide_eq_true_eq]
  constructor
  · rintro ⟨vertex, ⟨inside, above⟩, rfl⟩
    exact ⟨vertex, inside, above, rfl⟩
  · rintro ⟨vertex, inside, above, rfl⟩
    exact ⟨vertex, ⟨inside, above⟩, rfl⟩

/-- A sum over the feeds is a sum over the vertices with supply. -/
theorem sum_feeds (amount : Nat × Nat × Rat → Rat) :
    ((feeds count demand bound).map amount).sum = ∑ vertex ∈ Finset.range count,
      if demand vertex < -bound then amount (count, vertex, -demand vertex) else 0 := by
  rw [feeds, List.map_map, ← sum_map_range]
  exact sum_map_filter (List.range count) (fun vertex => demand vertex < -bound) _

/-- A sum over the drains is a sum over the vertices with demand. -/
theorem sum_drains (amount : Nat × Nat × Rat → Rat) :
    ((drains count demand bound).map amount).sum = ∑ vertex ∈ Finset.range count,
      if bound < demand vertex then amount (vertex, count + 1, demand vertex) else 0 := by
  rw [drains, List.map_map, ← sum_map_range]
  exact sum_map_filter (List.range count) (fun vertex => bound < demand vertex) _

theorem wireTotal_feeds_le :
    wireTotal (feeds count demand bound) ≤ supplyTotal count demand := by
  rw [wireTotal, sum_feeds, supplyTotal]
  apply Finset.sum_le_sum
  intro vertex _
  split
  · exact le_max_left _ _
  · exact le_max_right _ _

theorem wireTotal_drains_le :
    wireTotal (drains count demand bound) ≤ demandTotal count demand := by
  rw [wireTotal, sum_drains, demandTotal]
  apply Finset.sum_le_sum
  intro vertex _
  split
  · exact le_max_left _ _
  · exact le_max_right _ _

/-- A wire adds a capacity that is not negative. -/
theorem wire_nonneg (nonneg : 0 ≤ bound) {wire : Nat × Nat × Rat}
    (member : wire ∈ feeds count demand bound ∨ wire ∈ drains count demand bound) :
    0 ≤ wire.2.2 := by
  rcases member with feed | drain
  · obtain ⟨vertex, -, below, rfl⟩ := mem_feeds.mp feed
    simp only
    linarith
  · obtain ⟨vertex, -, above, rfl⟩ := mem_drains.mp drain
    simp only
    linarith

theorem wire_mem {lattice : AddSubgroup Rat} (members : ∀ vertex, demand vertex ∈ lattice)
    {wire : Nat × Nat × Rat}
    (member : wire ∈ feeds count demand bound ∨ wire ∈ drains count demand bound) :
    wire.2.2 ∈ lattice := by
  rcases member with feed | drain
  · obtain ⟨vertex, -, -, rfl⟩ := mem_feeds.mp feed
    exact neg_mem (members vertex)
  · obtain ⟨vertex, -, -, rfl⟩ := mem_drains.mp drain
    exact members vertex

/-- The capacities of wires fit together when a bound of their total does. -/
theorem fits_wires {α : Type} [Quantity α] [ExactQuantity α] (nonneg : 0 ≤ bound)
    (members : ∀ vertex, demand vertex ∈ lattice α) {wires : List (Nat × Nat × Rat)}
    (within : ∀ {wire}, wire ∈ wires →
      wire ∈ feeds count demand bound ∨ wire ∈ drains count demand bound)
    {total : Rat} (most : wireTotal wires ≤ total) (fits : Fits α total) :
    Fits α (0 + wireTotal wires) := by
  have least : 0 ≤ wireTotal wires := by
    refine List.sum_nonneg fun capacity member => ?_
    obtain ⟨wire, present, rfl⟩ := List.mem_map.mp member
    exact wire_nonneg nonneg (within present)
  rw [zero_add]
  refine fits_of_abs_le ?_ (abs_le_abs_of_nonneg least most) fits
  refine list_sum_mem fun capacity member => ?_
  obtain ⟨wire, present, rfl⟩ := List.mem_map.mp member
  exact wire_mem members (within present)

end Wires

section Build

variable {α : Type} [Quantity α] [ExactQuantity α]

/-- The demands of all vertices are read in order. -/
theorem exact_entries {adjusted : List α} {count : Nat} {demand : Nat → Rat}
    (stands : AllStandFor adjusted ((List.range count).map demand)) :
    ∃ entries : List (Nat × α), ((List.range count).mapM fun vertex => do
        return (vertex, ← (Demands.dense adjusted).at? vertex)) = .ok entries ∧
      List.Forall₂ (fun entry vertex => entry.1 = vertex ∧ value? entry.2 = some (demand vertex))
        entries (List.range count) := by
  have each : ∀ vertex ∈ List.range count, ∃ found,
      (Demands.dense adjusted).at? vertex = .ok found ∧ value? found = some (demand vertex) := by
    intro vertex member
    have inside := List.mem_range.mp member
    have length : adjusted.length = count := by simpa using stands.length_eq
    have known := List.Forall₂.get stands (i := vertex) (length ▸ inside) (by simpa using inside)
    refine ⟨adjusted[vertex], ?_, by simpa using known⟩
    simp [Demands.at?, List.getElem?_eq_getElem (length.symm ▸ inside : vertex < adjusted.length)]
  generalize List.range count = vertices at each
  induction vertices with
  | nil => exact ⟨[], rfl, .nil⟩
  | cons vertex vertices inductionHypothesis =>
    obtain ⟨found, read, known⟩ := each vertex (by simp)
    obtain ⟨entries, all, stand⟩ := inductionHypothesis fun other member =>
      each other (by simp [member])
    refine ⟨(vertex, found) :: entries, ?_, .cons ⟨rfl, known⟩ stand⟩
    rw [List.mapM_cons, read]
    simp only [ok_bind, all]
    rfl

/-- The entries with supply above the tolerance become the wires that feed them. -/
theorem standsFor_feeds {entries : List (Nat × α)} {count : Nat} {demand : Nat → Rat}
    {tolerance : α} {bound : Rat} (tolerances : value? tolerance = some bound)
    (related : List.Forall₂
      (fun entry vertex => entry.1 = vertex ∧ value? entry.2 = some (demand vertex))
      entries (List.range count)) :
    List.Forall₂ WireStandsFor
      ((entries.filter fun entry => less entry.2 (neg tolerance)).map fun entry =>
        (count, entry.1, neg entry.2)) (feeds count demand bound) := by
  have supplied := forall₂_filter related (fun entry => less entry.2 (neg tolerance))
    (fun vertex => demand vertex < -bound) fun entry vertex known =>
      less_eq_decide known.2 (value?_neg tolerances)
  rw [feeds, List.forall₂_map_left_iff, List.forall₂_map_right_iff]
  exact supplied.imp fun entry vertex known => ⟨rfl, known.1, value?_neg known.2⟩

/-- The entries with demand above the tolerance become the wires that drain them. -/
theorem standsFor_drains {entries : List (Nat × α)} {count : Nat} {demand : Nat → Rat}
    {tolerance : α} {bound : Rat} (tolerances : value? tolerance = some bound)
    (related : List.Forall₂
      (fun entry vertex => entry.1 = vertex ∧ value? entry.2 = some (demand vertex))
      entries (List.range count)) :
    List.Forall₂ WireStandsFor
      ((entries.filter fun entry => less tolerance entry.2).map fun entry =>
        (entry.1, count + 1, entry.2)) (drains count demand bound) := by
  have demanded := forall₂_filter related (fun entry => less tolerance entry.2)
    (fun vertex => bound < demand vertex) fun entry vertex known =>
      less_eq_decide tolerances known.2
  rw [drains, List.forall₂_map_left_iff, List.forall₂_map_right_iff]
  exact demanded.imp fun entry vertex known => ⟨known.1, rfl, known.2⟩

/-- A circulation is wired exactly when its supplies and its demands fit. -/
theorem exact_buildCirculation {network : Network α} {exact : Network Rat}
    (standsFor : network.StandsFor exact) {adjusted : List α} {demand : Nat → Rat}
    {tolerance : α} {bound : Rat}
    (stands : AllStandFor adjusted ((List.range exact.vertexCount).map demand))
    (tolerances : value? tolerance = some bound) (nonneg : 0 ≤ bound)
    (members : ∀ vertex, demand vertex ∈ lattice α)
    (fitsSupply : Fits α (supplyTotal exact.vertexCount demand))
    (fitsDemand : Fits α (demandTotal exact.vertexCount demand)) :
    ∃ wired wiring,
      network.buildCirculation (.dense adjusted) tolerance = (wired, .ok wiring) ∧
      wired.StandsFor (exact.wired demand bound) ∧ wiring.source = exact.vertexCount ∧
      wiring.sink = exact.vertexCount + 1 := by
  obtain ⟨entries, read, related⟩ := exact_entries stands
  have count : network.vertexCount = exact.vertexCount := standsFor.shape.vertexCount
  have fitsFeeds : Fits α (0 + wireTotal (feeds exact.vertexCount demand bound)) :=
    fits_wires nonneg members (Or.inl) wireTotal_feeds_le fitsSupply
  have fitsDrains : Fits α (0 + wireTotal (drains exact.vertexCount demand bound)) :=
    fits_wires nonneg members (Or.inr) wireTotal_drains_le fitsDemand
  obtain ⟨fedNetwork, supply, feedEdges, feeding, fedStands, -⟩ := exact_addWires
    (standsFor_feeds tolerances related) standsFor.addVertex.addVertex
    (by
      rintro wire member
      obtain ⟨vertex, inside, -, rfl⟩ := mem_feeds.mp member
      simp only [vertexCount_addVertex]
      omega)
    (fun wire member => wire_mem members (Or.inl member))
    (fun wire member => wire_nonneg nonneg (Or.inl member)) value?_zero (zero_mem _) le_rfl
    fitsFeeds
  obtain ⟨wiredNetwork, want, drainEdges, draining, wiredStands, -⟩ := exact_addWires
    (standsFor_drains tolerances related) fedStands
    (by
      rintro wire member
      obtain ⟨vertex, inside, -, rfl⟩ := mem_drains.mp member
      simp only [vertexCount_withWires, vertexCount_addVertex]
      omega)
    (fun wire member => wire_mem members (Or.inr member))
    (fun wire member => wire_nonneg nonneg (Or.inr member)) value?_zero (zero_mem _) le_rfl
    fitsDrains
  rw [← count] at read feeding draining
  refine ⟨wiredNetwork, ⟨network.vertexCount, network.vertexCount + 1,
    (entries.filter fun entry => less entry.2 (neg tolerance)).map Prod.fst,
    (entries.filter fun entry => less tolerance entry.2).map Prod.fst, want, supply,
    feedEdges ++ drainEdges⟩, ?_, ?_, count, congrArg (· + 1) count⟩
  · simp only [buildCirculation, read, feeding, draining]
  · rw [wired, withWires, List.foldl_append]
    exact wiredStands

end Build
end NetworkFlow
