import NetworkFlow.Proofs.Network.Incidence

namespace NetworkFlow.Network

variable {α β K L : Type}

section Sums

variable [AddCommGroup K] [AddCommGroup L]

/-- The sum of an amount over the edges of a network. -/
def edgeSum (network : Network α) (amount : Edge α → K) : K :=
  (network.edges.toList.map amount).sum

/-- What leaves a vertex. -/
def outflow (network : Network α) (flow : Edge α → K) (vertex : Nat) : K :=
  network.edgeSum fun edge => if edge.tail = vertex then flow edge else 0

/-- What enters a vertex. -/
def inflow (network : Network α) (flow : Edge α → K) (vertex : Nat) : K :=
  network.edgeSum fun edge => if edge.head = vertex then flow edge else 0

/-- What a vertex sends more than it receives. -/
def netOutflow (network : Network α) (flow : Edge α → K) (vertex : Nat) : K :=
  network.outflow flow vertex - network.inflow flow vertex

/-- What leaves a set of vertices. -/
def leaving (network : Network α) (flow : Edge α → K) (side : Finset Nat) : K :=
  network.edgeSum fun edge => if edge.tail ∈ side ∧ edge.head ∉ side then flow edge else 0

/-- What enters a set of vertices. -/
def entering (network : Network α) (flow : Edge α → K) (side : Finset Nat) : K :=
  network.edgeSum fun edge => if edge.head ∈ side ∧ edge.tail ∉ side then flow edge else 0

theorem sum_map_range (count : Nat) (amount : Nat → K) :
    ((List.range count).map amount).sum = ∑ vertex ∈ Finset.range count, amount vertex := rfl

/-- Terms that a filter drops may count as zero. -/
theorem sum_map_filter {ι : Type} (items : List ι) (keeps : ι → Prop) [DecidablePred keeps]
    (amount : ι → K) : ((items.filter keeps).map amount).sum =
      (items.map fun item => if keeps item then amount item else 0).sum := by
  rw [List.sum_map_ite]
  simp

theorem edgeSum_congr {network : Network α} {first second : Edge α → K}
    (equal : ∀ edge ∈ network.edges, first edge = second edge) :
    network.edgeSum first = network.edgeSum second := by
  rw [edgeSum, edgeSum, List.map_congr_left]
  intro edge member
  exact equal edge (Array.mem_toList_iff.mp member)

theorem edgeSum_add (network : Network α) (first second : Edge α → K) :
    (network.edgeSum fun edge => first edge + second edge) =
      network.edgeSum first + network.edgeSum second :=
  List.sum_map_add

theorem edgeSum_sub (network : Network α) (first second : Edge α → K) :
    (network.edgeSum fun edge => first edge - second edge) =
      network.edgeSum first - network.edgeSum second := by
  rw [eq_sub_iff_add_eq, ← edgeSum_add]
  simp

theorem edgeSum_zero (network : Network α) : network.edgeSum (fun _ => (0 : K)) = 0 := by
  simp [edgeSum]

/-- A sum over vertices and edges may be taken in either order. -/
theorem sum_edgeSum (network : Network α) (side : Finset Nat) (amount : Nat → Edge α → K) :
    ∑ vertex ∈ side, network.edgeSum (amount vertex) =
      network.edgeSum fun edge => ∑ vertex ∈ side, amount vertex edge := by
  simp only [edgeSum]
  induction network.edges.toList with
  | nil => simp
  | cons edge rest inductionHypothesis =>
    simp only [List.map_cons, List.sum_cons, Finset.sum_add_distrib, inductionHypothesis]

theorem map_edgeSum (network : Network α) (change : K →+ L) (amount : Edge α → K) :
    change (network.edgeSum amount) = network.edgeSum fun edge => change (amount edge) := by
  rw [edgeSum, map_list_sum, List.map_map]
  rfl

/-- A homomorphism maps the flow at a vertex to the flow of the images. -/
theorem map_netOutflow (network : Network α) (change : K →+ L) (flow : Edge α → K)
    (vertex : Nat) : change (network.netOutflow flow vertex) =
      network.netOutflow (fun edge => change (flow edge)) vertex := by
  rw [netOutflow, outflow, inflow, map_sub, map_edgeSum, map_edgeSum]
  simp only [apply_ite change, map_zero]
  rfl

theorem map_leaving (network : Network α) (change : K →+ L) (flow : Edge α → K)
    (side : Finset Nat) : change (network.leaving flow side) =
      network.leaving (fun edge => change (flow edge)) side := by
  rw [leaving, map_edgeSum]
  simp only [apply_ite change, map_zero]
  rfl

theorem map_entering (network : Network α) (change : K →+ L) (flow : Edge α → K)
    (side : Finset Nat) : change (network.entering flow side) =
      network.entering (fun edge => change (flow edge)) side := by
  rw [entering, map_edgeSum]
  simp only [apply_ite change, map_zero]
  rfl

section Casts

variable {R : Type} [Ring R]

theorem intCast_edgeSum (network : Network α) (amount : Edge α → Int) :
    ((network.edgeSum amount : Int) : R) = network.edgeSum fun edge => (amount edge : R) :=
  map_edgeSum network (Int.castAddHom R) amount

theorem intCast_netOutflow (network : Network α) (flow : Edge α → Int) (vertex : Nat) :
    ((network.netOutflow flow vertex : Int) : R) =
      network.netOutflow (fun edge => (flow edge : R)) vertex :=
  map_netOutflow network (Int.castAddHom R) flow vertex

theorem intCast_leaving (network : Network α) (flow : Edge α → Int) (side : Finset Nat) :
    ((network.leaving flow side : Int) : R) =
      network.leaving (fun edge => (flow edge : R)) side :=
  map_leaving network (Int.castAddHom R) flow side

theorem intCast_entering (network : Network α) (flow : Edge α → Int) (side : Finset Nat) :
    ((network.entering flow side : Int) : R) =
      network.entering (fun edge => (flow edge : R)) side :=
  map_entering network (Int.castAddHom R) flow side

end Casts

theorem netOutflow_eq (network : Network α) (flow : Edge α → K) (vertex : Nat) :
    network.netOutflow flow vertex = network.edgeSum fun edge =>
      (if edge.tail = vertex then flow edge else 0) -
        (if edge.head = vertex then flow edge else 0) := by
  rw [edgeSum_sub]
  rfl

theorem netOutflow_congr {network : Network α} {first second : Edge α → K}
    (equal : ∀ edge ∈ network.edges, first edge = second edge) (vertex : Nat) :
    network.netOutflow first vertex = network.netOutflow second vertex := by
  rw [netOutflow_eq, netOutflow_eq]
  apply edgeSum_congr
  intro edge member
  rw [equal edge member]

theorem netOutflow_add (network : Network α) (first second : Edge α → K) (vertex : Nat) :
    network.netOutflow (fun edge => first edge + second edge) vertex =
      network.netOutflow first vertex + network.netOutflow second vertex := by
  rw [netOutflow_eq, netOutflow_eq, netOutflow_eq, ← edgeSum_add]
  apply edgeSum_congr
  intro edge _
  split <;> split <;> abel

/-- The vertices of a set send in all what crosses its boundary. -/
theorem sum_netOutflow (network : Network α) (flow : Edge α → K) (side : Finset Nat) :
    ∑ vertex ∈ side, network.netOutflow flow vertex =
      network.leaving flow side - network.entering flow side := by
  simp only [netOutflow_eq]
  rw [sum_edgeSum, leaving, entering, ← edgeSum_sub]
  apply edgeSum_congr
  intro edge _
  rw [Finset.sum_sub_distrib, Finset.sum_ite_eq, Finset.sum_ite_eq]
  by_cases tail : edge.tail ∈ side <;> by_cases head : edge.head ∈ side <;> simp [tail, head]

theorem leaving_sub (network : Network α) (first second : Edge α → K) (side : Finset Nat) :
    network.leaving (fun edge => first edge - second edge) side =
      network.leaving first side - network.leaving second side := by
  rw [leaving, leaving, leaving, ← edgeSum_sub]
  apply edgeSum_congr
  intro edge _
  split
  · rfl
  · rw [sub_zero]

/-- An amount on one edge only is the whole sum. -/
theorem edgeSum_single {network : Network α} (wellFormed : network.WellFormed) {position : Nat}
    {edge : Edge α} (stands : network.edges[position]? = some edge) (amount : Edge α → K) :
    (network.edgeSum fun other => if position = other.index then amount other else 0) =
      amount edge := by
  have alone : network.edgeSum (fun other => if position = other.index then amount other else 0) =
      ((List.range network.edgeCount).map fun place =>
        if position = place then amount edge else 0).sum := by
    rw [edgeSum, ← wellFormed.map_index, List.map_map, List.map_congr_left]
    intro other member
    by_cases same : position = other.index
    · have found := wellFormed.getElem?_index (Array.mem_toList_iff.mp member)
      rw [← same, stands, Option.some.injEq] at found
      rw [found]
      rfl
    · simp [same]
  rw [alone, sum_map_range, Finset.sum_ite_eq, if_pos]
  exact Finset.mem_range.mpr (Array.getElem?_eq_some_iff.mp stands).1

/-- A sum over edges is a sum over their positions. -/
theorem edgeSum_eq_sum_range (network : Network α) (amount : Edge α → K) :
    network.edgeSum amount = ∑ position ∈ Finset.range network.edgeCount,
      ((network.edges[position]?).map amount).getD 0 := by
  rw [← sum_map_range, edgeSum]
  apply congrArg List.sum
  apply List.ext_getElem
  · simp [edgeCount]
  · intro position inside _
    have range : position < network.edges.size := by simpa using inside
    simp [Array.getElem?_eq_getElem range]

/-- The first edges of a network may be summed over another network that starts with them. -/
theorem edgeSum_below {first : Network α} {second : Network β} (wellFormed : second.WellFormed)
    {amount : Edge α → K} {other : Edge β → K}
    (equal : ∀ {position : Nat} {edge : Edge α}, first.edges[position]? = some edge →
      ∃ twin, second.edges[position]? = some twin ∧ other twin = amount edge) :
    (second.edgeSum fun edge => if edge.index < first.edgeCount then other edge else 0) =
      first.edgeSum amount := by
  have fewer : first.edgeCount ≤ second.edgeCount := by
    by_contra more
    have inside : second.edgeCount < first.edges.size := not_le.mp more
    obtain ⟨twin, found, -⟩ := equal (Array.getElem?_eq_getElem inside)
    exact absurd (Array.getElem?_eq_some_iff.mp found).1 (lt_irrefl _)
  rw [edgeSum_eq_sum_range, edgeSum_eq_sum_range]
  symm
  apply Finset.sum_subset_zero_on_sdiff (Finset.range_subset_range.mpr fewer)
  · intro position member
    obtain ⟨inside, outside⟩ := Finset.mem_sdiff.mp member
    have range : position < second.edges.size := Finset.mem_range.mp inside
    have stands := Array.getElem?_eq_getElem range
    have index := wellFormed.index_eq stands
    simp only [Finset.mem_range] at outside
    rw [stands, Option.map_some, Option.getD_some, index, if_neg outside]
  · intro position member
    have inside : position < first.edges.size := Finset.mem_range.mp member
    have stands := Array.getElem?_eq_getElem inside
    obtain ⟨twin, found, same⟩ := equal stands
    have index := wellFormed.index_eq found
    rw [stands, found, Option.map_some, Option.map_some, Option.getD_some, Option.getD_some,
      index, if_pos (show position < first.edgeCount from inside), same]

/-- All vertices together send as much as they receive. -/
theorem sum_netOutflow_eq_zero {network : Network α} (wellFormed : network.WellFormed)
    (flow : Edge α → K) :
    ∑ vertex ∈ Finset.range network.vertexCount, network.netOutflow flow vertex = 0 := by
  have crossing : ∀ edge ∈ network.edges,
      edge.tail ∈ Finset.range network.vertexCount ∧ edge.head ∈ Finset.range network.vertexCount :=
    fun edge member => ⟨Finset.mem_range.mpr (wellFormed.tail edge member),
      Finset.mem_range.mpr (wellFormed.head edge member)⟩
  rw [sum_netOutflow, leaving, entering, ← edgeSum_sub, ← edgeSum_zero network]
  apply edgeSum_congr
  intro edge member
  simp [crossing edge member]

/-- Sums over networks of the same shape agree when the amounts do. -/
theorem SameShape.edgeSum_eq {first : Network α} {second : Network β}
    (same : SameShape first second) {amount : Edge α → K} {other : Edge β → K}
    (equal : ∀ {position : Nat} {edge : Edge α} {twin : Edge β},
      first.edges[position]? = some edge → second.edges[position]? = some twin →
      amount edge = other twin) : first.edgeSum amount = second.edgeSum other := by
  rw [edgeSum, edgeSum]
  apply congrArg List.sum
  apply List.ext_getElem?
  intro position
  rw [List.getElem?_map, List.getElem?_map, Array.getElem?_toList, Array.getElem?_toList]
  cases found : first.edges[position]? with
  | some edge =>
    obtain ⟨twin, foundTwin, -⟩ := same.getElem? found
    rw [foundTwin, Option.map_some, Option.map_some, equal found foundTwin]
  | none =>
    cases foundTwin : second.edges[position]? with
    | none => rfl
    | some twin =>
      obtain ⟨edge, stands, -⟩ := same.symm.getElem? foundTwin
      rw [found] at stands
      cases stands

/-- Edges at the same position have the same ends. -/
theorem SameShape.ends {first : Network α} {second : Network β} (same : SameShape first second)
    {position : Nat} {edge : Edge α} {twin : Edge β} (stands : first.edges[position]? = some edge)
    (standsTwin : second.edges[position]? = some twin) :
    edge.tail = twin.tail ∧ edge.head = twin.head := by
  have place := same.place position
  rw [stands, standsTwin, Option.map_some, Option.map_some, Option.some.injEq] at place
  exact ⟨congrArg Place.tail place, congrArg Place.head place⟩

/-- Flows that agree on networks of the same shape leave the vertices alike. -/
theorem SameShape.netOutflow_eq {first : Network α} {second : Network β}
    (same : SameShape first second) {flow : Edge α → K} {other : Edge β → K}
    (equal : ∀ {position : Nat} {edge : Edge α} {twin : Edge β},
      first.edges[position]? = some edge → second.edges[position]? = some twin →
      flow edge = other twin) (vertex : Nat) :
    first.netOutflow flow vertex = second.netOutflow other vertex := by
  rw [Network.netOutflow_eq, Network.netOutflow_eq]
  apply same.edgeSum_eq
  intro position edge twin stands standsTwin
  obtain ⟨tail, head⟩ := same.ends stands standsTwin
  rw [tail, head, equal stands standsTwin]

theorem SameShape.leaving_eq {first : Network α} {second : Network β}
    (same : SameShape first second) {flow : Edge α → K} {other : Edge β → K}
    (equal : ∀ {position : Nat} {edge : Edge α} {twin : Edge β},
      first.edges[position]? = some edge → second.edges[position]? = some twin →
      flow edge = other twin) (side : Finset Nat) :
    first.leaving flow side = second.leaving other side := by
  apply same.edgeSum_eq
  intro position edge twin stands standsTwin
  obtain ⟨tail, head⟩ := same.ends stands standsTwin
  rw [tail, head, equal stands standsTwin]

end Sums

section Order

variable [AddCommGroup K] [LinearOrder K] [IsOrderedAddMonoid K]

theorem edgeSum_le_edgeSum {network : Network α} {first second : Edge α → K}
    (atMost : ∀ edge ∈ network.edges, first edge ≤ second edge) :
    network.edgeSum first ≤ network.edgeSum second :=
  List.sum_le_sum fun edge member => atMost edge (Array.mem_toList_iff.mp member)

theorem edgeSum_nonneg {network : Network α} {amount : Edge α → K}
    (nonneg : ∀ edge ∈ network.edges, 0 ≤ amount edge) : 0 ≤ network.edgeSum amount := by
  rw [← edgeSum_zero network]
  exact edgeSum_le_edgeSum nonneg

theorem abs_edgeSum_le (network : Network α) (amount : Edge α → K) :
    |network.edgeSum amount| ≤ network.edgeSum fun edge => |amount edge| := by
  simpa [edgeSum, List.map_map, Function.comp_def] using
    Multiset.abs_sum_le_sum_abs (s := (network.edges.toList.map amount : Multiset K))

/-- An amount on one edge is at most the sum of all amounts. -/
theorem le_edgeSum {network : Network α} {amount : Edge α → K}
    (nonneg : ∀ edge ∈ network.edges, 0 ≤ amount edge) {edge : Edge α}
    (member : edge ∈ network.edges) : amount edge ≤ network.edgeSum amount := by
  refine List.single_le_sum ?_ _ (List.mem_map_of_mem (Array.mem_toList_iff.mpr member))
  intro value inside
  obtain ⟨other, present, rfl⟩ := List.mem_map.mp inside
  exact nonneg other (Array.mem_toList_iff.mp present)

theorem leaving_le_leaving {network : Network α} {first second : Edge α → K}
    (atMost : ∀ edge ∈ network.edges, first edge ≤ second edge) (side : Finset Nat) :
    network.leaving first side ≤ network.leaving second side := by
  apply edgeSum_le_edgeSum
  intro edge member
  split
  · exact atMost edge member
  · exact le_rfl

theorem entering_le_entering {network : Network α} {first second : Edge α → K}
    (atMost : ∀ edge ∈ network.edges, first edge ≤ second edge) (side : Finset Nat) :
    network.entering first side ≤ network.entering second side := by
  apply edgeSum_le_edgeSum
  intro edge member
  split
  · exact atMost edge member
  · exact le_rfl

/-- A sum over some of the edges is not negative when no edge adds a negative amount. -/
theorem edgeSum_ite_nonneg {network : Network α} {amount : Edge α → K}
    (nonneg : ∀ edge ∈ network.edges, 0 ≤ amount edge) (keeps : Edge α → Prop)
    [DecidablePred keeps] :
    0 ≤ network.edgeSum fun edge => if keeps edge then amount edge else 0 := by
  apply edgeSum_nonneg
  intro edge member
  split
  · exact nonneg edge member
  · exact le_rfl

theorem leaving_nonneg {network : Network α} {flow : Edge α → K}
    (nonneg : ∀ edge ∈ network.edges, 0 ≤ flow edge) (side : Finset Nat) :
    0 ≤ network.leaving flow side :=
  edgeSum_ite_nonneg nonneg _

theorem entering_nonneg {network : Network α} {flow : Edge α → K}
    (nonneg : ∀ edge ∈ network.edges, 0 ≤ flow edge) (side : Finset Nat) :
    0 ≤ network.entering flow side :=
  edgeSum_ite_nonneg nonneg _

/-- A flow between two vertices respects the bounds of the edges
and is conserved everywhere else. -/
structure IsFlow (network : Network α) (source sink : Nat) (capacity flow : Edge α → K) : Prop where
  nonneg : ∀ edge ∈ network.edges, 0 ≤ flow edge
  atMost : ∀ edge ∈ network.edges, flow edge ≤ capacity edge
  conserved : ∀ vertex, vertex ≠ source → vertex ≠ sink → network.netOutflow flow vertex = 0

omit [IsOrderedAddMonoid K] in
/-- A flow sends across a cut what the source sends. -/
theorem IsFlow.netOutflow_eq {network : Network α} {source sink : Nat}
    {capacity flow : Edge α → K} (isFlow : network.IsFlow source sink capacity flow)
    {side : Finset Nat} (inside : source ∈ side) (outside : sink ∉ side) :
    network.netOutflow flow source = network.leaving flow side - network.entering flow side := by
  rw [← sum_netOutflow]
  symm
  apply Finset.sum_eq_single_of_mem source inside
  intro vertex member differ
  exact isFlow.conserved vertex differ fun same => outside (same ▸ member)

/-- No flow sends more than the capacity of a cut. -/
theorem IsFlow.netOutflow_le {network : Network α} {source sink : Nat}
    {capacity flow : Edge α → K} (isFlow : network.IsFlow source sink capacity flow)
    {side : Finset Nat} (inside : source ∈ side) (outside : sink ∉ side) :
    network.netOutflow flow source ≤ network.leaving capacity side := by
  rw [isFlow.netOutflow_eq inside outside]
  have most := leaving_le_leaving isFlow.atMost side
  have least := entering_nonneg isFlow.nonneg side
  exact (sub_le_self _ least).trans most

end Order

end NetworkFlow.Network
