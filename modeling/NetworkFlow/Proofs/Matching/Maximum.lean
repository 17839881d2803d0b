import NetworkFlow.Proofs.Matching.Pairing
import NetworkFlow.Proofs.MaxFlow.UnitCapacity

namespace NetworkFlow

open Quantity ExactQuantity Network

namespace MatchingNetwork

variable {matching : MatchingNetwork Number}

/-- Empty edges of one unit stand for exact ones. -/
theorem unitLoad_standsFor :
    (unitLoad : Load Number).StandsFor ⟨((1 : Nat) : Rat), ((0 : Nat) : Rat), 0, 0⟩ := by
  refine ⟨?_, ?_, value?_zero, value?_zero⟩
  · rw [Nat.cast_one, ← Int.cast_one]
    exact Number.value?_int 1
  · rw [Nat.cast_zero]
    exact value?_zero

theorem Wired.standsFor (wired : matching.Wired) :
    matching.network.StandsFor (matching.network.integral (fun _ => 1) fun _ => 0) := by
  refine ⟨sameShape_valued _ _, ?_⟩
  intro position edge other stands standsToo
  rw [integral, getElem?_valued, stands, Option.map_some, Option.some.injEq] at standsToo
  rw [← standsToo, wired.load edge (Array.mem_of_getElem? stands)]
  exact unitLoad_standsFor

/-- A settled run leaves a pairing flow. -/
theorem Wired.pairing (wired : matching.Wired) {run : MaxFlow.Run Number} {bound value : Rat}
    {last : Network Rat}
    (settled : run.Settled bound matching.source matching.sink
      (matching.network.integral (fun _ => 1) fun _ => 0) last value) :
    matching.Pairing fun position => ⌊last.flowAt position⌋ := by
  have isFlow := settled.isFlow wired.wellFormed
  exact ⟨wired, by simpa only [Nat.cast_one] using isFlow⟩

theorem source_ne_sink (matching : MatchingNetwork Number) : matching.source ≠ matching.sink := by
  rw [source, sink]
  omega

theorem Wired.source_inside (wired : matching.Wired) :
    matching.source < matching.network.vertexCount := by
  rw [wired.vertices, source]
  omega

theorem Wired.sink_inside (wired : matching.Wired) :
    matching.sink < matching.network.vertexCount := by
  rw [wired.vertices, sink]
  omega

end MatchingNetwork

namespace Matching

/-- Pairs in order have their left vertices in order. -/
theorem le_of_pairOrder {first second : Nat × Nat} (ordered : pairOrder first second) :
    first.1 ≤ second.1 := by
  simp only [pairOrder, Bool.or_eq_true, Bool.and_eq_true, decide_eq_true_eq, beq_iff_eq]
    at ordered
  omega

theorem pairOrder_trans (first second third : Nat × Nat) (left : pairOrder first second)
    (right : pairOrder second third) : pairOrder first third := by
  simp only [pairOrder, Bool.or_eq_true, Bool.and_eq_true, decide_eq_true_eq, beq_iff_eq]
    at left right ⊢
  omega

theorem pairOrder_total (first second : Nat × Nat) :
    (pairOrder first second || pairOrder second first) = true := by
  simp only [pairOrder, Bool.or_eq_true, Bool.and_eq_true, decide_eq_true_eq, beq_iff_eq]
  omega

section Reading

variable {matching : MatchingNetwork Number} {network : Network Number} {flow : Nat → Int}
  {tolerance : Number} {bound : Rat}

/-- A flow of zero or one exceeds a tolerance below one when it is one. -/
theorem less_unit (tolerances : value? tolerance = some bound) (nonneg : 0 ≤ bound)
    (below : bound < 1) {number : Number} {amount : Int}
    (known : value? number = some (amount : Rat)) (unit : amount = 0 ∨ amount = 1) :
    less tolerance number = decide (amount = 1) := by
  rw [less_eq_decide tolerances known, decide_eq_decide]
  rcases unit with rfl | rfl
  · simpa using nonneg
  · simpa using below

/-- The pairs are those whose joints carry a unit, in order. -/
theorem ofFlow_pairs (pairing : matching.Pairing flow) (tolerances : value? tolerance = some bound)
    (nonneg : 0 ≤ bound) (below : bound < 1) {result : MaxFlow.Result Number}
    (given : ∀ entry ∈ matching.pairEdges, ∃ number,
      result.flows.find? (entry.1 : Int) = some number ∧
        value? number = some (flow entry.1 : Rat)) :
    (ofFlow matching network result tolerance).pairs =
      ((matching.carried flow).map Prod.snd).mergeSort pairOrder := by
  simp only [ofFlow]
  congr 2
  apply List.filter_congr
  intro entry member
  obtain ⟨number, found, known⟩ := given entry member
  simp only [found]
  exact less_unit tolerances nonneg below known (pairing.entry_unit entry member)

/-- The matched left vertices are those whose feeds carry a unit, in order. -/
theorem ofFlow_matchedLeft (pairing : matching.Pairing flow)
    (tolerances : value? tolerance = some bound) (nonneg : 0 ≤ bound) (below : bound < 1)
    (same : SameShape matching.network network)
    (flows : ∀ edge ∈ network.edges, value? edge.flow = some (flow edge.index : Rat))
    (result : MaxFlow.Result Number) : (ofFlow matching network result tolerance).matchedLeft =
      (List.range matching.leftCount).filter fun left => flow left = 1 := by
  have incident : network.incident matching.source = List.range matching.leftCount := by
    rw [← pairing.incident_source]
    simp only [Network.incident, same.adjacency]
  have increasing : ((List.range matching.leftCount).filter fun left => flow left = 1).Pairwise
      fun first second => decide (first ≤ second) = true := by
    simpa using List.pairwise_le_range.filter _
  rw [← List.mergeSort_of_pairwise increasing, ← List.filterMap_eq_filter]
  simp only [ofFlow, incident]
  congr 1
  apply List.filterMap_congr
  intro left member
  have feed := pairing.feed_mem (List.mem_range.mp member)
  obtain ⟨edge, found, place⟩ := same.getElem? (pairing.wellFormed.getElem?_index feed)
  have stands : network.edges[left]? = some edge := found
  have tail : edge.tail = matching.source := congrArg Place.tail place
  have head : edge.head = left := congrArg Place.head place
  have index : edge.index = left := congrArg Place.index place
  have known := flows edge (Array.mem_of_getElem? found)
  rw [index] at known
  have fed := less_unit tolerances nonneg below known (pairing.unit feed)
  simp only [stands, Option.bind_eq_bind, Option.bind_some, tail, true_and, fed, head,
    Option.guard]

/-- The vertices that are fed are the left vertices of the sorted pairs. -/
theorem fed_eq_map_fst (pairing : matching.Pairing flow) :
    ((List.range matching.leftCount).filter fun left => flow left = 1) =
      (((matching.carried flow).map Prod.snd).mergeSort pairOrder).map Prod.fst := by
  have increasing : ((List.range matching.leftCount).filter fun left => flow left = 1).Pairwise
      (· ≤ ·) := List.pairwise_le_range.filter _
  have ordered : ((((matching.carried flow).map Prod.snd).mergeSort pairOrder).map
      Prod.fst).Pairwise (· ≤ ·) :=
    (List.pairwise_mergeSort pairOrder_trans pairOrder_total _).map _ fun _ _ => le_of_pairOrder
  have perm := (List.mergeSort_perm ((matching.carried flow).map Prod.snd) pairOrder).map Prod.fst
  exact (pairing.lefts_perm.symm.trans perm.symm).eq_of_pairwise' increasing ordered

end Reading

/-- What a matching keeps of the settled run that it is read from. Its value counts the pairs in
binary64 numbers, which do not go beyond 2^53. -/
structure ReadFrom (result : Matching Number) (matching : MatchingNetwork Number)
    (run : MaxFlow.Run Number) (last : Network Rat) (tolerance : Rat) (count : Nat) : Prop where
  wired : matching.Wired
  settled : run.Settled tolerance matching.source matching.sink
    (matching.network.integral (fun _ => 1) fun _ => 0) last count
  pairs : result.pairs =
    ((matching.carried fun position => ⌊last.flowAt position⌋).map Prod.snd).mergeSort pairOrder
  matchedLeft : result.matchedLeft =
    (List.range matching.leftCount).filter fun left => ⌊last.flowAt left⌋ = 1
  value : value? result.flow.value = some ((min count (2 ^ 53) : Nat) : Rat)
  augmentations : result.flow.augmentations = count
  bottlenecks : ∀ bottleneck ∈ result.flow.bottlenecks, value? bottleneck = some 1
  minCut : result.flow.minCut = run.finder.reachable.map Int.ofNat

/-- A matching solve of pairs in range reads its matching from a settled run. -/
theorem solve_reads {leftCount rightCount : Nat} {pairs : List (Nat × Nat)}
    {options : Options Number} {tolerance : Rat}
    (inside : ∀ pair ∈ pairs, pair.1 < leftCount ∧ pair.2 < rightCount)
    (tolerances : value? options.tolerance = some tolerance) (nonneg : 0 ≤ tolerance)
    (below : tolerance < 1) :
    ∃ (result : Matching Number) (matching : MatchingNetwork Number) (run : MaxFlow.Run Number)
      (last : Network Rat) (count : Nat),
      (solve leftCount rightCount (pairs.map fun pair => ((pair.1 : Int), (pair.2 : Int)))
        options).outcome = .ok result ∧
      matching.leftCount = leftCount ∧ matching.rightCount = rightCount ∧
      matching.pairEdges.map Prod.snd = pairs ∧
      result.ReadFrom matching run last tolerance count := by
  obtain ⟨matching, built, wired, lefts, rights, entries⟩ :=
    MatchingNetwork.build_wired (α := Number) inside
  obtain ⟨run, last, count, result, settled, left, computed, value, augmentations, bottlenecks, cut,
    gives⟩ := MaxFlow.solveWarm_unitFlow wired.standsFor wired.wellFormed wired.source_inside
      wired.sink_inside matching.source_ne_sink tolerances nonneg
      (show 0 < Watch.idle.interval by decide) fun _ => rfl
  have pairing := wired.pairing settled
  refine ⟨ofFlow matching run.network result options.tolerance, matching, run, last, count, ?_,
    lefts, rights, entries, ?_⟩
  · rw [solve, built]
    simp only [computed, left, ok_bind]
    rfl
  · refine ⟨wired, settled, ?_, ?_, value, augmentations, bottlenecks, cut⟩
    · exact ofFlow_pairs pairing tolerances nonneg below fun entry member =>
        settled.integer_flow wired.wellFormed gives (wired.joint_mem member)
    · exact ofFlow_matchedLeft pairing tolerances nonneg below settled.leftShape
        (fun edge member => (settled.left_edge wired.wellFormed edge member).2) result

namespace ReadFrom

variable {result : Matching Number} {matching : MatchingNetwork Number}
  {run : MaxFlow.Run Number} {last : Network Rat} {tolerance : Rat} {count : Nat}

theorem pairing (reads : result.ReadFrom matching run last tolerance count) :
    matching.Pairing fun position => ⌊last.flowAt position⌋ :=
  reads.wired.pairing reads.settled

theorem perm (reads : result.ReadFrom matching run last tolerance count) :
    result.pairs.Perm
      ((matching.carried fun position => ⌊last.flowAt position⌋).map Prod.snd) :=
  reads.pairs ▸ List.mergeSort_perm _ _

/-- As many joints carry a unit as the flow has units. -/
theorem length_carried (reads : result.ReadFrom matching run last tolerance count) :
    (matching.carried fun position => ⌊last.flowAt position⌋).length = count := by
  have sends := reads.settled.cast_netOutflow reads.wired.wellFormed matching.source
  rw [reads.settled.carries.netOutflow_source matching.source_ne_sink,
    ← reads.pairing.length_carried] at sends
  exact_mod_cast sends

theorem length_eq (reads : result.ReadFrom matching run last tolerance count) :
    result.pairs.length = count := by
  rw [reads.perm.length_eq, List.length_map, reads.length_carried]

theorem isMatching (reads : result.ReadFrom matching run last tolerance count) :
    IsMatching result.pairs :=
  reads.pairing.isMatching.perm reads.perm

theorem known (reads : result.ReadFrom matching run last tolerance count) :
    ∀ pair ∈ result.pairs, pair ∈ matching.pairEdges.map Prod.snd := by
  intro pair member
  obtain ⟨entry, carried, rfl⟩ := List.mem_map.mp (reads.perm.mem_iff.mp member)
  exact List.mem_map_of_mem (List.mem_of_mem_filter carried)

/-- No matching of the pairs is larger, because none is larger than the cut that the flow fills. -/
theorem largest (reads : result.ReadFrom matching run last tolerance count) (below : tolerance < 1)
    {other : List (Nat × Nat)} (known : ∀ pair ∈ other, pair ∈ matching.pairEdges.map Prod.snd)
    (isMatching : IsMatching other) : other.length ≤ result.pairs.length := by
  have most := reads.wired.length_le_leaving reads.settled.source_mem reads.settled.sink_not_mem
    isMatching known
  have whole := reads.settled.netOutflow_eq reads.wired.wellFormed matching.source_ne_sink below
  simp only [Nat.cast_one] at whole
  rw [← whole, ← reads.pairing.length_carried, reads.length_carried, ← reads.length_eq] at most
  exact_mod_cast most

end ReadFrom

/-- A matching solve finds a maximum matching among pairs in range.
The size, the number of augmentations and the value of the flow agree,
where a binary64 value counts up to 2^53. -/
theorem solve_maximum (leftCount rightCount : Nat) (pairs : List (Nat × Nat))
    (inside : ∀ pair ∈ pairs, pair.1 < leftCount ∧ pair.2 < rightCount)
    (options : Options Number) (tolerance : Rat)
    (tolerances : value? options.tolerance = some tolerance) (nonneg : 0 ≤ tolerance)
    (below : tolerance < 1) :
    ∃ matching : Matching Number,
      (solve leftCount rightCount (pairs.map fun pair => ((pair.1 : Int), (pair.2 : Int)))
        options).outcome = .ok matching ∧
      (∀ pair ∈ matching.pairs, pair ∈ pairs) ∧
      matching.pairs.Pairwise (fun first second => pairOrder first second) ∧
      IsMatching matching.pairs ∧
      (∀ other, (∀ pair ∈ other, pair ∈ pairs) → IsMatching other →
        other.length ≤ matching.pairs.length) ∧
      matching.size = matching.pairs.length ∧
      value? matching.flow.value = some ((min matching.pairs.length (2 ^ 53) : Nat) : Rat) ∧
      matching.flow.augmentations = matching.pairs.length ∧
      (∀ bottleneck ∈ matching.flow.bottlenecks, value? bottleneck = some 1) ∧
      matching.matchedLeft = matching.pairs.map Prod.fst := by
  obtain ⟨matching, joined, run, last, count, computed, -, -, entries, reads⟩ :=
    solve_reads inside tolerances nonneg below
  refine ⟨matching, computed, entries ▸ reads.known, ?_, reads.isMatching, ?_, rfl, ?_, ?_,
    reads.bottlenecks, ?_⟩
  · rw [reads.pairs]
    exact List.pairwise_mergeSort pairOrder_trans pairOrder_total _
  · exact fun other known isMatching => reads.largest below (entries ▸ known) isMatching
  · rw [reads.length_eq]
    exact reads.value
  · rw [reads.length_eq]
    exact reads.augmentations
  · rw [reads.matchedLeft, reads.pairs, fed_eq_map_fst reads.pairing]

/-- The repeated pair is matched once, and the other pair is moved out of its way. -/
theorem solve_maximum_rematched :
    ∃ matching : Matching Number,
      (solve 2 2 [(0, 0), (0, 0), (0, 1), (1, 0)] ⟨Number.int 0, false⟩).outcome = .ok matching ∧
      IsMatching matching.pairs ∧ 2 ≤ matching.pairs.length := by
  obtain ⟨matching, computed, -, -, isMatching, largest, -⟩ := solve_maximum 2 2
    [(0, 0), (0, 0), (0, 1), (1, 0)] (by decide) ⟨.int 0, false⟩ 0 value?_ofInt_zero le_rfl one_pos
  exact ⟨matching, computed, isMatching, largest [(0, 1), (1, 0)] (by decide)
    ⟨by decide, by decide⟩⟩

/-- Each vertex is paired with the one across from it. -/
def diagonal (count : Nat) : List (Nat × Nat) :=
  (List.range count).map fun vertex => (vertex, vertex)

theorem length_diagonal (count : Nat) : (diagonal count).length = count := by
  rw [diagonal, List.length_map, List.length_range]

theorem isMatching_diagonal (count : Nat) : IsMatching (diagonal count) := by
  have lefts : (diagonal count).map Prod.fst = List.range count := by
    simp [diagonal, Function.comp_def]
  have rights : (diagonal count).map Prod.snd = List.range count := by
    simp [diagonal, Function.comp_def]
  exact ⟨lefts ▸ List.nodup_range, rights ▸ List.nodup_range⟩

theorem diagonal_inside (count : Nat) :
    ∀ pair ∈ diagonal count, pair.1 < count ∧ pair.2 < count := by
  intro pair member
  obtain ⟨vertex, listed, rfl⟩ := List.mem_map.mp member
  exact ⟨List.mem_range.mp listed, List.mem_range.mp listed⟩

/-- All pairs of a diagonal are matched, and the value of the flow counts them up to 2^53. -/
theorem solve_diagonal (count : Nat) :
    ∃ matching : Matching Number,
      (solve count count ((diagonal count).map fun pair => ((pair.1 : Int), (pair.2 : Int)))
        ⟨Number.int 0, false⟩).outcome = .ok matching ∧
      matching.size = count ∧
      value? matching.flow.value = some ((min count (2 ^ 53) : Nat) : Rat) := by
  have inside := diagonal_inside count
  have exact : value? (⟨.int 0, false⟩ : Options Number).tolerance = some 0 := value?_ofInt_zero
  obtain ⟨matching, joined, run, last, units, computed, -, -, entries, reads⟩ :=
    solve_reads inside exact le_rfl one_pos
  have known : ∀ pair ∈ matching.pairs, pair ∈ diagonal count := entries ▸ reads.known
  have least : count ≤ matching.pairs.length := by
    have largest := reads.largest one_pos (fun pair member => entries ▸ member)
      (isMatching_diagonal count)
    rwa [length_diagonal] at largest
  have most : matching.pairs.length ≤ count := by
    have lefts : ∀ pair ∈ matching.pairs, pair.1 ∈ Finset.range count :=
      fun pair member => Finset.mem_range.mpr (inside pair (known pair member)).1
    have card := length_le_card reads.isMatching.left lefts
    rwa [Finset.card_range] at card
  have size : matching.pairs.length = count := le_antisymm most least
  refine ⟨matching, computed, size, ?_⟩
  rw [← size, reads.length_eq]
  exact reads.value

/-- The value of the flow does not count the last of 2^53 + 1 pairs. -/
theorem solve_diagonal_uncounted :
    (∀ pair ∈ diagonal (2 ^ 53 + 1), pair.1 < 2 ^ 53 + 1 ∧ pair.2 < 2 ^ 53 + 1) ∧
      ∃ matching : Matching Number,
        (solve ((2 ^ 53 + 1 : Nat) : Int) ((2 ^ 53 + 1 : Nat) : Int)
          ((diagonal (2 ^ 53 + 1)).map fun pair => ((pair.1 : Int), (pair.2 : Int)))
          ⟨Number.int 0, false⟩).outcome = .ok matching ∧
        matching.size = 2 ^ 53 + 1 ∧
        value? matching.flow.value ≠ some (matching.size : Rat) := by
  obtain ⟨matching, computed, size, value⟩ := solve_diagonal (2 ^ 53 + 1)
  refine ⟨diagonal_inside _, matching, computed, size, ?_⟩
  rw [value, size, min_eq_right (Nat.le_succ _), Ne, Option.some.injEq, Nat.cast_inj]
  decide

end Matching
end NetworkFlow
