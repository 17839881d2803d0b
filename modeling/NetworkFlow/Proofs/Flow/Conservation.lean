import NetworkFlow.Proofs.Flow.Balance
import NetworkFlow.Proofs.MaxFlow.Run

namespace NetworkFlow

open Quantity ExactQuantity Network

/-- The flow of a network respects the capacities, and its source sends a total to its sink. -/
structure Network.Carries (network : Network Rat) (source sink : Nat) (total : Rat) : Prop where
  nonneg : ∀ edge ∈ network.edges, 0 ≤ edge.flow
  atMost : ∀ edge ∈ network.edges, edge.flow ≤ edge.capacity
  balance : ∀ vertex, network.netOutflow (fun edge => edge.flow) vertex =
    (if source = vertex then total else 0) - (if sink = vertex then total else 0)

/-- The loads of a network belong to the lattice when its capacities and its flows do. -/
structure Network.OnLattice (α : Type) [Quantity α] [ExactQuantity α] (network : Network Rat) :
    Prop where
  capacity : ∀ edge ∈ network.edges, edge.capacity ∈ lattice α
  flow : ∀ edge ∈ network.edges, edge.flow ∈ lattice α

/-- The loads of a network are measured when they belong to the lattice
and all capacities together fit. -/
structure Network.Measured (α : Type) [Quantity α] [ExactQuantity α] (network : Network Rat) : Prop
    extends network.OnLattice α where
  total : Fits α (network.edgeSum fun edge => edge.capacity)

/-- Two networks have the same bounds when they differ in the flows of their edges only. -/
structure Network.SameBounds (first second : Network Rat) : Prop where
  shape : SameShape first second
  bounds : ∀ {position : Nat} {edge other : Edge Rat}, first.edges[position]? = some edge →
    second.edges[position]? = some other →
    other.capacity = edge.capacity ∧ other.lower = edge.lower ∧ other.offset = edge.offset

/-- The flow on the edge at a position. -/
def Network.flowAt (network : Network Rat) (position : Nat) : Rat :=
  match network.edges[position]? with
  | some edge => edge.flow
  | none => 0

theorem flowAt_eq {network : Network Rat} {position : Nat} {edge : Edge Rat}
    (stands : network.edges[position]? = some edge) : network.flowAt position = edge.flow := by
  simp only [flowAt, stands]

/-- The flow on the edge at a position with what its folded lower bound forces. -/
def Network.totalAt (network : Network Rat) (position : Nat) : Rat :=
  match network.edges[position]? with
  | some edge => edge.flow + edge.offset
  | none => 0

theorem totalAt_eq {network : Network Rat} {position : Nat} {edge : Edge Rat}
    (stands : network.edges[position]? = some edge) :
    network.totalAt position = edge.flow + edge.offset := by
  simp only [totalAt, stands]

/-- Edges without flow carry nothing. -/
theorem Network.carries_zero {network : Network Rat} (source sink : Nat)
    (empty : ∀ edge ∈ network.edges, edge.flow = 0)
    (capacities : ∀ edge ∈ network.edges, 0 ≤ edge.capacity) :
    network.Carries source sink 0 := by
  refine ⟨?_, ?_, ?_⟩
  · exact fun edge member => (empty edge member).ge
  · intro edge member
    rw [empty edge member]
    exact capacities edge member
  · intro vertex
    rw [netOutflow_congr empty, netOutflow_eq]
    refine (edgeSum_congr fun edge _ => ?_).trans ((edgeSum_zero network).trans ?_)
    · simp only [ite_self, sub_zero]
    · simp only [ite_self, sub_zero]

theorem Network.Carries.isFlow {network : Network Rat} {source sink : Nat} {value : Rat}
    (carries : network.Carries source sink value) :
    network.IsFlow source sink (fun edge => edge.capacity) fun edge => edge.flow := by
  refine ⟨carries.nonneg, carries.atMost, ?_⟩
  intro vertex notSource notSink
  rw [carries.balance, if_neg (Ne.symm notSource), if_neg (Ne.symm notSink), sub_zero]

theorem Network.Carries.netOutflow_source {network : Network Rat} {source sink : Nat} {value : Rat}
    (carries : network.Carries source sink value) (differ : source ≠ sink) :
    network.netOutflow (fun edge => edge.flow) source = value := by
  rw [carries.balance, if_pos rfl, if_neg differ.symm, sub_zero]

theorem Network.SameBounds.refl (network : Network Rat) : network.SameBounds network := by
  refine ⟨.refl network, ?_⟩
  intro position edge other stands standsToo
  rw [stands, Option.some.injEq] at standsToo
  rw [standsToo]
  exact ⟨rfl, rfl, rfl⟩

theorem Network.SameBounds.trans {first second third : Network Rat}
    (left : first.SameBounds second) (right : second.SameBounds third) :
    first.SameBounds third := by
  refine ⟨left.shape.trans right.shape, ?_⟩
  intro position edge other stands standsToo
  obtain ⟨middle, found, -⟩ := left.shape.getElem? stands
  obtain ⟨capacity, lower, offset⟩ := left.bounds stands found
  obtain ⟨capacityToo, lowerToo, offsetToo⟩ := right.bounds found standsToo
  exact ⟨capacityToo.trans capacity, lowerToo.trans lower, offsetToo.trans offset⟩

theorem Network.sameBounds_shifted (network : Network Rat) (amount : Rat) (arcs : List Arc) :
    network.SameBounds (network.shifted amount arcs) := by
  refine ⟨sameShape_shifted network amount arcs, ?_⟩
  intro position edge other stands standsToo
  rw [getElem?_shifted, stands, Option.map_some, Option.some.injEq] at standsToo
  rw [← standsToo]
  exact ⟨rfl, rfl, rfl⟩

theorem Chain.sameBounds {bound : Rat} {source sink : Nat} {network last : Network Rat}
    {steps : List (List Arc × Rat)} (chain : Chain bound source sink network steps last) :
    network.SameBounds last := by
  induction chain with
  | stop network => exact .refl network
  | step augments chain inductionHypothesis =>
    exact (sameBounds_shifted _ _ _).trans inductionHypothesis

/-- One arc leaves its origin and enters its target. -/
theorem netOutflow_arc {α : Type} {network : Network α} (wellFormed : network.WellFormed)
    {arc : Arc} {edge : Edge α} (stands : network.edges[arc.edge]? = some edge) {forward : Bool}
    (differ : edge.tail ≠ edge.head) (origin : arc.origin = edge.origin forward)
    (target : arc.target = edge.target forward) (vertex : Nat) :
    network.netOutflow (fun other => if arc.edge = other.index then
        if arc.target = other.head then (1 : Rat) else -1 else 0) vertex =
      (if arc.origin = vertex then 1 else 0) - (if arc.target = vertex then 1 else 0) := by
  have single := edgeSum_single wellFormed stands fun other =>
    (if other.tail = vertex then if arc.target = other.head then (1 : Rat) else -1 else 0) -
      (if other.head = vertex then if arc.target = other.head then (1 : Rat) else -1 else 0)
  rw [netOutflow_eq]
  calc _ = _ := by
        apply edgeSum_congr
        intro other _
        by_cases crossed : arc.edge = other.index
        · simp only [if_pos crossed]
        · simp only [if_neg crossed, ite_self, sub_zero]
    _ = _ := single
    _ = _ := by
        rw [origin, target]
        cases forward
        · simp only [Edge.origin, Edge.target, Bool.false_eq_true, if_false, if_neg differ]
          split <;> split <;> norm_num
        · simp only [Edge.origin, Edge.target, if_true]

/-- Arcs from a source to a target leave the one, enter the other and balance everywhere else. -/
theorem netOutflow_crossings {α : Type} {network : Network α} (wellFormed : network.WellFormed)
    {source target : Nat} {arcs : List Arc} (path : ArcPath source arcs target)
    (crossed : ∀ arc ∈ arcs, ∃ edge forward, network.edges[arc.edge]? = some edge ∧
      edge.tail ≠ edge.head ∧ arc.origin = edge.origin forward ∧
      arc.target = edge.target forward) (vertex : Nat) :
    network.netOutflow (crossings arcs) vertex =
      (if source = vertex then 1 else 0) - (if target = vertex then 1 else 0) := by
  induction path with
  | start =>
    have none : network.netOutflow (crossings []) vertex = 0 := by
      rw [netOutflow_eq]
      refine (edgeSum_congr fun edge _ => ?_).trans (edgeSum_zero network)
      simp only [crossings, ite_self, sub_zero]
    rw [none, sub_self]
  | @extend rest arc path inductionHypothesis =>
    obtain ⟨edge, forward, stands, differ, origin, target⟩ := crossed arc (by simp)
    have earlier := inductionHypothesis fun other member => crossed other (by simp [member])
    have last := netOutflow_arc wellFormed stands differ origin target vertex
    have both := netOutflow_add network (fun other : Edge α => if arc.edge = other.index then
      if arc.target = other.head then (1 : Rat) else -1 else 0) (crossings rest) vertex
    rw [last, earlier] at both
    exact both.trans (by ring)

namespace Augments

variable {bound amount total : Rat} {source sink : Nat} {network : Network Rat} {arcs : List Arc}

/-- An augmentation keeps a flow a flow, and adds its amount to the total. -/
theorem carries (wellFormed : network.WellFormed) (nonneg : 0 ≤ bound)
    (augments : Augments bound source sink network arcs amount)
    (carries : network.Carries source sink total) :
    (network.shifted amount arcs).Carries source sink (total + amount) := by
  have positive : 0 < amount := lt_of_le_of_lt nonneg augments.above
  have within : ∀ edge ∈ network.edges, 0 ≤ edge.flow + amount * crossings arcs edge ∧
      edge.flow + amount * crossings arcs edge ≤ edge.capacity := by
    intro edge member
    have least := carries.nonneg edge member
    have most := carries.atMost edge member
    rcases augments.edge_cases wellFormed member with
      ⟨unchanged, -⟩ | ⟨arc, -, forward, -, -, -, -, -, room, -, sign⟩
    · rw [unchanged, mul_zero, add_zero]
      exact ⟨least, most⟩
    · rw [sign]
      cases forward
      · simp only [Load.space, Bool.false_eq_true, if_false] at room ⊢
        constructor <;> linarith
      · simp only [Load.space, if_true] at room ⊢
        constructor <;> linarith
  refine ⟨?_, ?_, ?_⟩
  · intro edge member
    obtain ⟨old, inside, rfl⟩ := mem_shifted.mp member
    exact (within old inside).1
  · intro edge member
    obtain ⟨old, inside, rfl⟩ := mem_shifted.mp member
    exact (within old inside).2
  · intro vertex
    have crossed : ∀ arc ∈ arcs, ∃ edge forward, network.edges[arc.edge]? = some edge ∧
        edge.tail ≠ edge.head ∧ arc.origin = edge.origin forward ∧
        arc.target = edge.target forward := by
      intro arc member
      obtain ⟨edge, forward, stands, differ, origin, target, -⟩ :=
        (augments.shortest.crossed arc member).direction (augments.shortest.origin_ne_target member)
      exact ⟨edge, forward, stands, differ, origin, target⟩
    have path := netOutflow_crossings wellFormed augments.shortest.path crossed vertex
    have pushed := map_netOutflow network (AddMonoidHom.mulLeft amount) (crossings arcs) vertex
    rw [path, AddMonoidHom.coe_mulLeft] at pushed
    calc (network.shifted amount arcs).netOutflow (fun edge => edge.flow) vertex
        = network.netOutflow (fun edge => edge.flow + amount * crossings arcs edge) vertex := by
          symm
          apply (sameShape_shifted network amount arcs).netOutflow_eq
          intro position edge twin stands standsTwin
          rw [getElem?_shifted, stands, Option.map_some, Option.some.injEq] at standsTwin
          rw [← standsTwin]
          rfl
      _ = network.netOutflow (fun edge => edge.flow) vertex +
            network.netOutflow (fun edge => amount * crossings arcs edge) vertex :=
          netOutflow_add network _ _ vertex
      _ = _ := by
          rw [carries.balance vertex, ← pushed]
          split <;> split <;> ring

/-- An augmentation moves an amount of the lattice. -/
theorem mem_lattice {α : Type} [Quantity α] [ExactQuantity α]
    (augments : Augments bound source sink network arcs amount) (onLattice : network.OnLattice α) :
    amount ∈ lattice α := by
  obtain ⟨arc, member, equal⟩ := augments.tight
  obtain ⟨edge, stands, -⟩ := augments.shortest.crossed arc member
  have inside := Array.mem_of_getElem? stands
  rw [equal, arcSpace_eq stands, Load.space]
  split
  · exact sub_mem (onLattice.capacity edge inside) (onLattice.flow edge inside)
  · exact onLattice.flow edge inside

theorem onLattice {α : Type} [Quantity α] [ExactQuantity α] (wellFormed : network.WellFormed)
    (augments : Augments bound source sink network arcs amount) (onLattice : network.OnLattice α) :
    (network.shifted amount arcs).OnLattice α := by
  have amounts := augments.mem_lattice onLattice
  refine ⟨?_, ?_⟩
  · intro edge member
    obtain ⟨old, inside, rfl⟩ := mem_shifted.mp member
    exact onLattice.capacity old inside
  · intro edge member
    obtain ⟨old, inside, rfl⟩ := mem_shifted.mp member
    have flow := onLattice.flow old inside
    show old.flow + amount * crossings arcs old ∈ lattice α
    rcases augments.edge_cases wellFormed inside with
      ⟨unchanged, -⟩ | ⟨arc, -, forward, -, -, -, -, -, -, -, sign⟩
    · rwa [unchanged, mul_zero, add_zero]
    · rw [sign]
      cases forward
      · simpa [← sub_eq_add_neg] using sub_mem flow amounts
      · simpa using add_mem flow amounts

theorem measured {α : Type} [Quantity α] [ExactQuantity α] (wellFormed : network.WellFormed)
    (augments : Augments bound source sink network arcs amount) (measured : network.Measured α) :
    (network.shifted amount arcs).Measured α := by
  refine ⟨augments.onLattice wellFormed measured.toOnLattice, ?_⟩
  have same : network.edgeSum (fun edge => edge.capacity) =
      (network.shifted amount arcs).edgeSum fun edge => edge.capacity := by
    apply (sameShape_shifted network amount arcs).edgeSum_eq
    intro position edge twin stands standsTwin
    exact ((sameBounds_shifted network amount arcs).bounds stands standsTwin).1.symm
  rw [← same]
  exact measured.total

end Augments

section Measured

variable {α : Type} [Quantity α] [ExactQuantity α] {network : Network Rat} {source sink : Nat}
  {total : Rat}

/-- What is on one edge fits when all edges together fit. -/
theorem fits_of_edgeSum {β : Type} {network : Network β} {amount : Edge β → Rat}
    (nonneg : ∀ edge ∈ network.edges, 0 ≤ amount edge) (fits : Fits α (network.edgeSum amount))
    {edge : Edge β} (member : edge ∈ network.edges) {value : Rat} (inside : value ∈ lattice α)
    (lower : 0 ≤ value) (upper : value ≤ amount edge) : Fits α value := by
  refine fits_of_abs_le inside ?_ fits
  rw [abs_of_nonneg lower, abs_of_nonneg (edgeSum_nonneg nonneg)]
  exact upper.trans (le_edgeSum nonneg member)

/-- The value of a flow belongs to the lattice because every flow on an edge does. -/
theorem Network.Carries.mem_lattice (differ : source ≠ sink)
    (carries : network.Carries source sink total) (onLattice : network.OnLattice α) :
    total ∈ lattice α := by
  rw [← carries.netOutflow_source differ, netOutflow_eq]
  refine list_sum_mem ?_
  intro amount member
  obtain ⟨edge, inside, rfl⟩ := List.mem_map.mp member
  have flow := onLattice.flow edge (Array.mem_toList_iff.mp inside)
  split <;> split <;> simp [flow]

/-- Two flows on the same edges differ by no more than what all edges may carry. -/
theorem Network.Carries.abs_sub_le {first second : Network Rat} {start : Rat}
    (differ : source ≠ sink) (wellFormed : second.WellFormed) (bounds : first.SameBounds second)
    (before : first.Carries source sink start) (after : second.Carries source sink total) :
    |total - start| ≤ second.edgeSum fun edge => edge.capacity := by
  have old : second.netOutflow (fun edge => first.flowAt edge.index) source = start := by
    rw [← before.netOutflow_source differ]
    symm
    apply bounds.shape.netOutflow_eq
    intro position edge twin stands standsTwin
    rw [wellFormed.index_eq standsTwin, flowAt_eq stands]
  have each : ∀ edge ∈ second.edges, |edge.flow - first.flowAt edge.index| ≤ edge.capacity := by
    intro edge member
    have stands := wellFormed.getElem?_index member
    obtain ⟨other, found, -⟩ := bounds.shape.symm.getElem? stands
    have capacity := (bounds.bounds found stands).1
    have inside := Array.mem_of_getElem? found
    rw [flowAt_eq found]
    exact abs_sub_le_of_nonneg_of_le (after.nonneg edge member) (after.atMost edge member)
      (before.nonneg other inside) (capacity ▸ before.atMost other inside)
  rw [← after.netOutflow_source differ, ← old, netOutflow_eq, netOutflow_eq, ← edgeSum_sub]
  refine (abs_edgeSum_le _ _).trans (edgeSum_le_edgeSum ?_)
  intro edge member
  refine le_trans ?_ (each edge member)
  have turned := abs_sub_comm (first.flowAt edge.index) edge.flow
  split <;> split <;> simp [neg_add_eq_sub, turned]

theorem Network.Carries.capacity_nonneg (carries : network.Carries source sink total)
    {edge : Edge Rat} (member : edge ∈ network.edges) : 0 ≤ edge.capacity :=
  (carries.nonneg edge member).trans (carries.atMost edge member)

theorem Network.Carries.capacitySum_nonneg (carries : network.Carries source sink total) :
    0 ≤ network.edgeSum fun edge => edge.capacity :=
  edgeSum_nonneg fun _ => carries.capacity_nonneg

theorem Network.Carries.roomFits (carries : network.Carries source sink total)
    (measured : network.Measured α) : network.RoomFits α := by
  intro edge member
  have least := carries.nonneg edge member
  have most := carries.atMost edge member
  have capacity := measured.capacity edge member
  have flow := measured.flow edge member
  have fits {value : Rat} (inside : value ∈ lattice α) (lower : 0 ≤ value)
      (upper : value ≤ edge.capacity) : Fits α value :=
    fits_of_edgeSum (fun _ => carries.capacity_nonneg) measured.total member inside lower upper
  refine ⟨fits capacity (least.trans most) le_rfl, fits flow least most, ?_⟩
  exact fits (sub_mem capacity flow) (sub_nonneg.mpr most) (sub_le_self _ least)

/-- A run from a measured flow keeps its arithmetic exact. -/
theorem keepsExact_carries {first : Network Rat} {start bound : Rat} (nonneg : 0 ≤ bound)
    (differ : source ≠ sink) (before : first.Carries source sink start)
    (measured : first.Measured α) :
    KeepsExact α bound source sink fun network total => network.WellFormed ∧
      first.SameBounds network ∧ network.Carries source sink (start + total) ∧
      network.Measured α := by
  refine ⟨?_, ?_, ?_⟩
  · rintro network total ⟨-, -, carries, measured⟩
    exact carries.roomFits measured
  · rintro network total ⟨wellFormed, bounds, carries, measures⟩
    have gained : start + total - start = total := add_sub_cancel_left start total
    have most := before.abs_sub_le differ wellFormed bounds carries
    rw [gained] at most
    refine fits_of_abs_le ?_ ?_ measures.total
    · rw [← gained]
      exact sub_mem (carries.mem_lattice differ measures.toOnLattice)
        (before.mem_lattice differ measured.toOnLattice)
    · rwa [abs_of_nonneg carries.capacitySum_nonneg]
  · rintro network total arcs amount ⟨wellFormed, bounds, carries, measured⟩ augments
    refine ⟨wellFormed.ofSameShape (sameShape_shifted network amount arcs),
      bounds.trans (sameBounds_shifted network amount arcs), ?_,
      augments.measured wellFormed measured⟩
    rw [← add_assoc]
    exact augments.carries wellFormed nonneg carries

end Measured
end NetworkFlow
