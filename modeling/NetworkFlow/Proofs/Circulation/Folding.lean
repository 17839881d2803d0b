import NetworkFlow.LowerBound
import NetworkFlow.Proofs.Flow.Conservation

namespace NetworkFlow

open Quantity ExactQuantity Network

/-- A circulation is posed by bounds in order and demands that all together fit.
Nothing flows yet, and no lower bound is folded. -/
structure Posed (α : Type) [Quantity α] [ExactQuantity α] (network : Network Rat)
    (demand : Nat → Rat) : Prop where
  wellFormed : network.WellFormed
  least : ∀ edge ∈ network.edges, 0 ≤ edge.lower
  most : ∀ edge ∈ network.edges, edge.lower ≤ edge.capacity
  flow : ∀ edge ∈ network.edges, edge.flow = 0
  offset : ∀ edge ∈ network.edges, edge.offset = 0
  capacities : ∀ edge ∈ network.edges, edge.capacity ∈ lattice α
  lowers : ∀ edge ∈ network.edges, edge.lower ∈ lattice α
  demands : ∀ vertex, demand vertex ∈ lattice α
  fits : Fits α (network.edgeSum (fun edge => edge.capacity) +
    network.edgeSum (fun edge => edge.lower) +
    ∑ vertex ∈ Finset.range network.vertexCount, |demand vertex|)

/-- The load of an edge after its lower bound was folded. -/
def Load.folded (load : Load Rat) : Load Rat :=
  ⟨load.capacity - load.lower, 0, 0, load.offset + load.lower⟩

namespace Network

/-- The network after all lower bounds were folded. -/
def folded (network : Network Rat) : Network Rat :=
  network.mapLoads fun edge => edge.toLoad.folded

/-- The network after the edges below a position were folded. -/
def foldedTo (network : Network Rat) (count : Nat) : Network Rat :=
  network.mapLoads fun edge => if edge.index < count then edge.toLoad.folded else edge.toLoad

/-- The sum of an amount over the edges below a position. -/
def edgeSumTo (network : Network Rat) (amount : Edge Rat → Rat) (count : Nat) : Rat :=
  network.edgeSum fun edge => if edge.index < count then amount edge else 0

/-- What the lower bound of an edge adds to the demand of a vertex. -/
def shiftAt (vertex : Nat) (edge : Edge Rat) : Rat :=
  (if edge.tail = vertex then edge.lower else 0) - (if edge.head = vertex then edge.lower else 0)

theorem edgeSumTo_succ {network : Network Rat} (wellFormed : network.WellFormed)
    (amount : Edge Rat → Rat) {count : Nat} {edge : Edge Rat}
    (stands : network.edges[count]? = some edge) :
    network.edgeSumTo amount (count + 1) = network.edgeSumTo amount count + amount edge := by
  rw [← edgeSum_single wellFormed stands amount, edgeSumTo, edgeSumTo, ← edgeSum_add]
  apply edgeSum_congr
  intro other _
  rcases Nat.lt_trichotomy other.index count with less | same | more
  · rw [if_pos (by omega), if_pos less, if_neg (by omega), add_zero]
  · rw [if_pos (by omega), if_neg (by omega), if_pos same.symm, zero_add]
  · rw [if_neg (by omega), if_neg (by omega), if_neg (by omega), add_zero]

theorem edgeSumTo_zero (network : Network Rat) (amount : Edge Rat → Rat) :
    network.edgeSumTo amount 0 = 0 := by
  refine (edgeSum_congr fun edge _ => ?_).trans (edgeSum_zero network)
  rw [if_neg (Nat.not_lt_zero _)]

theorem edgeSumTo_edgeCount {network : Network Rat} (wellFormed : network.WellFormed)
    (amount : Edge Rat → Rat) :
    network.edgeSumTo amount network.edgeCount = network.edgeSum amount := by
  apply edgeSum_congr
  intro edge member
  rw [if_pos (wellFormed.index_lt member)]

theorem edgeSumTo_le {network : Network Rat} {amount : Edge Rat → Rat}
    (nonneg : ∀ edge ∈ network.edges, 0 ≤ amount edge) (count : Nat) :
    network.edgeSumTo amount count ≤ network.edgeSum amount := by
  apply edgeSum_le_edgeSum
  intro edge member
  split
  · exact le_rfl
  · exact nonneg edge member

/-- The shifts of a vertex are at most the lower bounds in either direction. -/
theorem abs_edgeSumTo_shiftAt_le {network : Network Rat}
    (least : ∀ edge ∈ network.edges, 0 ≤ edge.lower) (vertex count : Nat) :
    |network.edgeSumTo (shiftAt vertex) count| ≤
      network.edgeSumTo (fun edge => edge.lower) count := by
  have each : ∀ edge ∈ network.edges,
      -(if edge.index < count then edge.lower else 0) ≤
        (if edge.index < count then shiftAt vertex edge else 0) ∧
      (if edge.index < count then shiftAt vertex edge else 0) ≤
        if edge.index < count then edge.lower else 0 := by
    intro edge member
    have nonneg := least edge member
    rw [shiftAt]
    split_ifs <;> constructor <;> linarith
  have lower := edgeSum_le_edgeSum fun edge member => (each edge member).1
  have upper := edgeSum_le_edgeSum fun edge member => (each edge member).2
  have negated := map_edgeSum network (negAddMonoidHom : Rat →+ Rat) fun edge =>
    if edge.index < count then edge.lower else 0
  refine abs_le.mpr ⟨?_, upper⟩
  exact negated.le.trans lower

end Network

namespace Posed

variable {α : Type} [Quantity α] [ExactQuantity α] {network : Network Rat} {demand : Nat → Rat}

/-- What fits is anything in the lattice that the data bound. -/
theorem fits_of_le (posed : Posed α network demand) {value : Rat} (inside : value ∈ lattice α)
    (small : |value| ≤ network.edgeSum (fun edge => edge.capacity) +
      network.edgeSum (fun edge => edge.lower) +
      ∑ vertex ∈ Finset.range network.vertexCount, |demand vertex|) : Fits α value :=
  fits_of_abs_le inside (small.trans (le_abs_self _)) posed.fits

theorem capacity_nonneg (posed : Posed α network demand) {edge : Edge Rat}
    (member : edge ∈ network.edges) : 0 ≤ edge.capacity :=
  (posed.least edge member).trans (posed.most edge member)

theorem capacitySum_nonneg (posed : Posed α network demand) :
    0 ≤ network.edgeSum fun edge => edge.capacity :=
  edgeSum_nonneg fun _ => posed.capacity_nonneg

theorem lowerSum_nonneg (posed : Posed α network demand) :
    0 ≤ network.edgeSum fun edge => edge.lower :=
  edgeSum_nonneg posed.least

theorem demandSum_nonneg (demand : Nat → Rat) (count : Nat) :
    0 ≤ ∑ vertex ∈ Finset.range count, |demand vertex| :=
  Finset.sum_nonneg fun _ _ => abs_nonneg _

/-- A lattice value that the lower bounds bound fits. -/
theorem fits_of_le_lowers (posed : Posed α network demand) {value : Rat}
    (inside : value ∈ lattice α) (small : |value| ≤ network.edgeSum fun edge => edge.lower) :
    Fits α value := by
  have capacities := posed.capacitySum_nonneg
  have demands := demandSum_nonneg demand network.vertexCount
  exact posed.fits_of_le inside (by linarith)

theorem fits_capacity (posed : Posed α network demand) {edge : Edge Rat}
    (member : edge ∈ network.edges) {value : Rat} (inside : value ∈ lattice α) (lower : 0 ≤ value)
    (upper : value ≤ edge.capacity) : Fits α value := by
  have one := le_edgeSum (fun _ => posed.capacity_nonneg) member
  have lowers := posed.lowerSum_nonneg
  have demands := demandSum_nonneg demand network.vertexCount
  refine posed.fits_of_le inside ?_
  rw [abs_of_nonneg lower]
  linarith

theorem shift_mem (posed : Posed α network demand) (vertex count : Nat) :
    network.edgeSumTo (shiftAt vertex) count ∈ lattice α := by
  refine list_sum_mem ?_
  intro value member
  obtain ⟨edge, inside, rfl⟩ := List.mem_map.mp member
  have lower := posed.lowers edge (Array.mem_toList_iff.mp inside)
  rw [shiftAt]
  split_ifs <;> simp [lower]

theorem fits_shift (posed : Posed α network demand) (vertex count : Nat) :
    Fits α (network.edgeSumTo (shiftAt vertex) count) :=
  posed.fits_of_le_lowers (posed.shift_mem vertex count)
    ((abs_edgeSumTo_shiftAt_le posed.least vertex count).trans (edgeSumTo_le posed.least count))

theorem foldedTo_edgeCount (posed : Posed α network demand) :
    network.foldedTo network.edgeCount = network.folded := by
  apply mapLoads_congr
  intro edge member
  rw [if_pos (posed.wellFormed.index_lt member)]

/-- A lower bound of zero leaves an edge as it is. -/
theorem folded_eq (posed : Posed α network demand) {edge : Edge Rat}
    (member : edge ∈ network.edges) (zero : edge.lower = 0) :
    edge.toLoad.folded = edge.toLoad := by
  have flow := posed.flow edge member
  have offset := posed.offset edge member
  obtain ⟨⟨capacity, lower, carried, folded⟩, tail, head, index⟩ := edge
  simp only at zero flow offset
  subst zero flow offset
  simp [Load.folded]

end Posed

namespace Folding

variable {α : Type} [Quantity α] [ExactQuantity α]

/-- Deltas stand for values at all vertices. -/
structure StandFor (deltas : Array α) (count : Nat) (values : Nat → Rat) : Prop where
  size : deltas.size = count
  value : ∀ vertex < count, ∃ delta, deltas[vertex]? = some delta ∧
    value? delta = some (values vertex)

/-- An exact change of one delta changes the value at its vertex. -/
theorem StandFor.shift {deltas : Array α} {count : Nat} {values : Nat → Rat}
    (stand : StandFor deltas count values) {vertex : Nat} (inside : vertex < count)
    {change : α → Except (Fault α) α} {value : Rat}
    (changes : ∀ delta, value? delta = some (values vertex) →
      ∃ next, change delta = .ok next ∧ value? next = some value) :
    ∃ next, shift deltas vertex change = .ok next ∧
      StandFor next count (Function.update values vertex value) := by
  obtain ⟨delta, found, known⟩ := stand.value vertex inside
  obtain ⟨changed, computed, changedKnown⟩ := changes delta known
  refine ⟨deltas.setIfInBounds vertex changed, ?_, ?_, ?_⟩
  · simp only [Folding.shift, found, computed]
    rfl
  · rw [Array.size_setIfInBounds, stand.size]
  · intro other otherInside
    by_cases same : other = vertex
    · subst same
      refine ⟨changed, ?_, by rw [Function.update_self, changedKnown]⟩
      exact Array.getElem?_setIfInBounds_self_of_lt (by rw [stand.size]; exact inside)
    · obtain ⟨old, foundOld, knownOld⟩ := stand.value other otherInside
      refine ⟨old, ?_, by rw [Function.update_of_ne same, knownOld]⟩
      rw [Array.getElem?_setIfInBounds_ne (Ne.symm same), foundOld]

/-- A load is folded exactly. -/
theorem exact_foldLoad {load : Load α} {exact : Load Rat} (standsFor : load.StandsFor exact)
    (capacity : Fits α exact.capacity) (lower : Fits α exact.lower) (offset : exact.offset = 0)
    (rest : Fits α (exact.capacity - exact.lower)) :
    ∃ next, foldLoad load = (next, none) ∧ next.StandsFor exact.folded := by
  obtain ⟨narrowed, taken, known⟩ :=
    exact_sub standsFor.capacity standsFor.lower capacity lower rest
  have sum : Fits α (exact.offset + exact.lower) := by rwa [offset, zero_add]
  obtain ⟨raised, added, knownToo⟩ := exact_add standsFor.offset standsFor.lower
    (offset ▸ fits_zero) lower sum
  refine ⟨⟨narrowed, zero, zero, raised⟩, ?_, known, value?_zero, value?_zero, knownToo⟩
  simp only [foldLoad, taken, added]

/-- A folding has folded the edges below a position. -/
structure Follows (folding : Folding α) (network : Network Rat) (count : Nat) : Prop where
  stands : folding.network.StandsFor (network.foldedTo count)
  deltas : StandFor folding.deltas network.vertexCount fun vertex =>
    network.edgeSumTo (shiftAt vertex) count
  noFault : folding.fault = none

variable {network : Network Rat} {demand : Nat → Rat} {folding : Folding α} {count : Nat}

theorem foldedTo_succ {edge : Edge Rat} (wellFormed : network.WellFormed)
    (stands : network.edges[count]? = some edge) : network.foldedTo (count + 1) =
      (network.foldedTo count).modifyLoad count fun _ => edge.toLoad.folded :=
  mapLoads_succ wellFormed stands Load.folded

/-- A shift fits with the next lower bound added or subtracted. -/
theorem fits_near_shift (posed : Posed α network demand) {edge : Edge Rat}
    (stands : network.edges[count]? = some edge) {vertex : Nat} {value : Rat}
    (inside : value ∈ lattice α)
    (near : |value| ≤ |network.edgeSumTo (shiftAt vertex) count| + edge.lower) : Fits α value := by
  have small := abs_edgeSumTo_shiftAt_le posed.least vertex count
  have next := edgeSumTo_succ posed.wellFormed (fun edge => edge.lower) stands
  have most := edgeSumTo_le posed.least (count + 1)
  exact posed.fits_of_le_lowers inside (by linarith)

omit [Quantity α] [ExactQuantity α] in
/-- Changes at the ends of an edge shift the values, also when the ends are one vertex. -/
theorem update_ends (before : Nat → Rat) (edge : Edge Rat) :
    Function.update (Function.update before edge.tail (before edge.tail + edge.lower)) edge.head
        (Function.update before edge.tail (before edge.tail + edge.lower) edge.head -
          edge.lower) = fun vertex => before vertex + shiftAt vertex edge := by
  funext vertex
  rw [shiftAt]
  simp only [Function.update_apply]
  by_cases head : vertex = edge.head
  · by_cases tail : edge.head = edge.tail
    · simp [head, tail]
    · simp [head, tail, Ne.symm tail, sub_eq_add_neg]
  · by_cases tail : vertex = edge.tail
    · subst tail
      simp [head, Ne.symm head]
    · simp [head, tail, Ne.symm head, Ne.symm tail]

/-- One more edge shifts the demands at its ends. -/
theorem edgeSumTo_shiftAt_succ (wellFormed : network.WellFormed) {edge : Edge Rat}
    (stands : network.edges[count]? = some edge) {before : Nat → Rat}
    (known : before = fun vertex => network.edgeSumTo (shiftAt vertex) count) :
    (fun vertex => network.edgeSumTo (shiftAt vertex) (count + 1)) =
      Function.update (Function.update before edge.tail (before edge.tail + edge.lower)) edge.head
        (Function.update before edge.tail (before edge.tail + edge.lower) edge.head -
          edge.lower) := by
  rw [update_ends]
  funext vertex
  rw [edgeSumTo_succ wellFormed (shiftAt vertex) stands, known]

/-- The deltas at both ends of an edge change exactly. -/
theorem Follows.exact_shifts (posed : Posed α network demand)
    (follows : folding.Follows network count) {edge : Edge Rat}
    (stands : network.edges[count]? = some edge) {lower : α}
    (lowers : value? lower = some edge.lower) :
    ∃ deltas, (do
        let deltas ← shift folding.deltas edge.tail (add · lower)
        shift deltas edge.head (sub · lower)) = .ok deltas ∧
      StandFor deltas network.vertexCount fun vertex =>
        network.edgeSumTo (shiftAt vertex) (count + 1) := by
  have member := Array.mem_of_getElem? stands
  have nonneg := posed.least edge member
  have lowerMem := posed.lowers edge member
  obtain ⟨before, known⟩ : ∃ before, before = fun vertex =>
      network.edgeSumTo (shiftAt vertex) count := ⟨_, rfl⟩
  have standBefore : StandFor folding.deltas network.vertexCount before := known ▸ follows.deltas
  have beforeMem (vertex : Nat) : before vertex ∈ lattice α := by
    rw [known]
    exact posed.shift_mem vertex count
  have fits {value : Rat} (vertex : Nat) (inside : value ∈ lattice α)
      (near : |value| ≤ |before vertex| + edge.lower) : Fits α value := by
    rw [known] at near
    exact fits_near_shift posed stands inside near
  have fitsBefore (vertex : Nat) : Fits α (before vertex) :=
    fits vertex (beforeMem vertex) (by linarith)
  have fitsLower : Fits α edge.lower :=
    fits edge.tail lowerMem (by rw [abs_of_nonneg nonneg]; linarith [abs_nonneg (before edge.tail)])
  have fitsSum (vertex : Nat) : Fits α (before vertex + edge.lower) := by
    refine fits vertex (add_mem (beforeMem vertex) lowerMem) ((abs_add_le _ _).trans ?_)
    rw [abs_of_nonneg nonneg]
  have fitsDifference (vertex : Nat) : Fits α (before vertex - edge.lower) := by
    refine fits vertex (sub_mem (beforeMem vertex) lowerMem) ((abs_sub _ _).trans ?_)
    rw [abs_of_nonneg nonneg]
  obtain ⟨first, shiftedTail, standTail⟩ := standBefore.shift
    (posed.wellFormed.tail edge member) fun delta stands =>
      exact_add stands lowers (fitsBefore _) fitsLower (fitsSum _)
  obtain ⟨second, shiftedHead, standHead⟩ := standTail.shift
    (posed.wellFormed.head edge member) fun delta stands =>
      exact_sub stands lowers (by
        rw [Function.update_apply]
        split
        · exact fitsSum _
        · exact fitsBefore _) fitsLower (by
        rw [Function.update_apply]
        split
        · rw [add_sub_cancel_right]
          exact fitsBefore _
        · exact fitsDifference _)
  refine ⟨second, by rw [shiftedTail, ok_bind, shiftedHead], ?_⟩
  rw [edgeSumTo_shiftAt_succ posed.wellFormed stands known]
  exact standHead

/-- An edge without a lower bound changes nothing. -/
theorem foldedTo_succ_of_zero (posed : Posed α network demand) {edge : Edge Rat}
    (stands : network.edges[count]? = some edge) (none : edge.lower = 0) :
    network.foldedTo (count + 1) = network.foldedTo count ∧
      (fun vertex => network.edgeSumTo (shiftAt vertex) (count + 1)) =
        fun vertex => network.edgeSumTo (shiftAt vertex) count := by
  constructor
  · apply mapLoads_congr
    intro other inside
    by_cases here : other.index = count
    · have standsToo := posed.wellFormed.getElem?_index inside
      rw [here, stands, Option.some.injEq] at standsToo
      rw [← standsToo, posed.folded_eq (Array.mem_of_getElem? stands) none, ite_self, ite_self]
    · have less : other.index < count + 1 ↔ other.index < count := by omega
      simp only [less]
  · funext vertex
    rw [edgeSumTo_succ posed.wellFormed (shiftAt vertex) stands, shiftAt, none, ite_self, ite_self,
      sub_zero, add_zero]

/-- One more edge is folded exactly. -/
theorem Follows.foldEdge (posed : Posed α network demand) (follows : folding.Follows network count)
    (inside : count < network.edgeCount) :
    (folding.foldEdge count).Follows network (count + 1) := by
  obtain ⟨edge, stands⟩ : ∃ edge, network.edges[count]? = some edge :=
    ⟨_, Array.getElem?_eq_getElem inside⟩
  have member := Array.mem_of_getElem? stands
  have index := posed.wellFormed.index_eq stands
  have unfolded : (network.foldedTo count).edges[count]? = some edge := by
    rw [foldedTo, getElem?_mapLoads, stands, Option.map_some, index, if_neg (lt_irrefl count)]
    rfl
  obtain ⟨own, found, place, loads⟩ := follows.stands.exactEdge unfolded
  have compared : lessEq own.lower (ofInt 0) = decide (edge.lower ≤ 0) :=
    lessEq_eq_decide loads.lower value?_ofInt_zero
  by_cases zero : edge.lower ≤ 0
  · have none : edge.lower = 0 := le_antisymm zero (posed.least edge member)
    have same : folding.foldEdge count = folding := by
      simp only [Folding.foldEdge, follows.noFault, found, compared, zero, decide_true, if_true]
    obtain ⟨unchanged, shifts⟩ := foldedTo_succ_of_zero posed stands none
    rw [same]
    exact ⟨unchanged ▸ follows.stands, shifts ▸ follows.deltas, follows.noFault⟩
  · have least := posed.least edge member
    have most := posed.most edge member
    have capacityMem := posed.capacities edge member
    have lowerMem := posed.lowers edge member
    obtain ⟨deltas, shifted, stand⟩ := follows.exact_shifts posed stands loads.lower
    obtain ⟨load, folds, loaded⟩ := exact_foldLoad loads
      (posed.fits_capacity member capacityMem (posed.capacity_nonneg member) le_rfl)
      (posed.fits_capacity member lowerMem least most) (posed.offset edge member)
      (posed.fits_capacity member (sub_mem capacityMem lowerMem) (sub_nonneg.mpr most)
        (sub_le_self _ least))
    have next : folding.foldEdge count = ⟨folding.network.modifyLoad count fun _ => load, deltas,
        folding.reduced ++ [own.index], none⟩ := by
      rw [← Edge.place_tail place, ← Edge.place_head place] at shifted
      simp only [Folding.foldEdge, follows.noFault, found, compared, zero, decide_false,
        Bool.false_eq_true, if_false, shifted, folds, Option.isNone_none, if_true]
    have changed : (folding.network.modifyLoad count fun _ => load).StandsFor
        ((network.foldedTo count).modifyLoad count fun _ => edge.toLoad.folded) := by
      apply follows.stands.modifyLoad
      intro _ _ _ _
      exact loaded
    rw [next]
    exact ⟨foldedTo_succ posed.wellFormed stands ▸ changed, stand, rfl⟩

/-- All edges are folded exactly. -/
theorem exact_foldAll (posed : Posed α network demand) {start : Network α}
    (standsFor : start.StandsFor network) :
    (start.foldAll network.vertexCount).Follows network network.edgeCount := by
  have each (count : Nat) (inside : count ≤ network.edgeCount) :
      ((List.range count).foldl Folding.foldEdge
        ⟨start, Array.replicate network.vertexCount zero, [], none⟩).Follows network count := by
    induction count with
    | zero =>
      refine ⟨?_, ⟨Array.size_replicate, ?_⟩, rfl⟩
      · have none : network.foldedTo 0 = network := by
          simp [foldedTo, mapLoads, Edge.withLoad]
        rw [none]
        exact standsFor
      · intro vertex less
        refine ⟨zero, ?_, by rw [edgeSumTo_zero, value?_zero]⟩
        show (Array.replicate network.vertexCount (zero : α))[vertex]? = some zero
        rw [Array.getElem?_replicate, if_pos less]
    | succ count inductionHypothesis =>
      rw [List.range_succ, List.foldl_append]
      exact (inductionHypothesis (by omega)).foldEdge posed (by omega)
  rw [foldAll, standsFor.shape.edgeCount]
  exact each network.edgeCount le_rfl

end Folding
end NetworkFlow
