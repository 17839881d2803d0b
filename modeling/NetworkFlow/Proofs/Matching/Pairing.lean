import NetworkFlow.Proofs.Matching.Wiring

namespace NetworkFlow

open Quantity Network

/-- No vertex of either side occurs in two pairs of a matching. -/
structure IsMatching (pairs : List (Nat × Nat)) : Prop where
  left : (pairs.map Prod.fst).Nodup
  right : (pairs.map Prod.snd).Nodup

theorem IsMatching.filter {pairs : List (Nat × Nat)} (isMatching : IsMatching pairs)
    (keeps : Nat × Nat → Bool) : IsMatching (pairs.filter keeps) :=
  ⟨isMatching.left.sublist (List.filter_sublist.map _),
    isMatching.right.sublist (List.filter_sublist.map _)⟩

theorem IsMatching.perm {first second : List (Nat × Nat)} (isMatching : IsMatching first)
    (perm : second.Perm first) : IsMatching second :=
  ⟨(perm.map _).nodup_iff.mpr isMatching.left, (perm.map _).nodup_iff.mpr isMatching.right⟩

/-- Items with different keys in a set are no more than the set has members. -/
theorem length_le_card {ι : Type} {items : List ι} {key : ι → Nat} (nodup : (items.map key).Nodup)
    {keys : Finset Nat} (inside : ∀ item ∈ items, key item ∈ keys) :
    items.length ≤ keys.card := by
  rw [← List.length_map key, ← List.toFinset_card_of_nodup nodup]
  apply Finset.card_le_card
  intro vertex member
  obtain ⟨item, present, rfl⟩ := List.mem_map.mp (List.mem_toFinset.mp member)
  exact inside item present

/-- The items that carry one unit are counted by a sum over all items. -/
theorem count_filter_eq_sum {ι : Type} {items : List ι} {flow : ι → Int} (key : ι → Nat)
    (units : ∀ item ∈ items, flow item = 0 ∨ flow item = 1) (vertex : Nat) :
    ((((items.filter fun item => flow item = 1).map key).count vertex : Nat) : Int) =
      (items.map fun item => if key item = vertex then flow item else 0).sum := by
  induction items with
  | nil => simp
  | cons item rest inductionHypothesis =>
    have later := inductionHypothesis fun other member => units other (by simp [member])
    rw [List.map_cons, List.sum_cons, ← later]
    rcases units item (by simp) with none | one
    · simp [none]
    · by_cases same : key item = vertex
      · simp [one, same, add_comm]
      · simp [one, same]

/-- Keys below a bound are different when each of them is counted at most once. -/
theorem nodup_of_count_le {ι : Type} {items : List ι} {key : ι → Nat} {bound : Nat}
    (inside : ∀ item ∈ items, key item < bound)
    (counts : ∀ vertex < bound, (((items.map key).count vertex : Nat) : Int) ≤ 1) :
    (items.map key).Nodup := by
  rw [List.nodup_iff_count_le_one]
  intro vertex
  by_cases below : vertex < bound
  · exact_mod_cast counts vertex below
  · have missing : vertex ∉ items.map key := by
      intro member
      obtain ⟨item, present, rfl⟩ := List.mem_map.mp member
      exact below (inside item present)
    rw [List.count_eq_zero_of_not_mem missing]
    exact Nat.zero_le 1

namespace MatchingNetwork

variable {α : Type} [Quantity α] {matching : MatchingNetwork α} {flow : Nat → Int}

/-- The entries whose joints carry one unit. -/
def carried (matching : MatchingNetwork α) (flow : Nat → Int) : List (Nat × Nat × Nat) :=
  matching.pairEdges.filter fun entry => flow entry.1 = 1

/-- A pairing flow is an integer flow of a wired network that carries at most one unit
on every edge. -/
structure Pairing (matching : MatchingNetwork α) (flow : Nat → Int) : Prop extends
    matching.Wired where
  isFlow : matching.network.IsFlow matching.source matching.sink (fun _ => (1 : Int))
    fun edge => flow edge.index

namespace Pairing

theorem unit (pairing : matching.Pairing flow) {edge : Edge α}
    (member : edge ∈ matching.network.edges) : flow edge.index = 0 ∨ flow edge.index = 1 := by
  have least := pairing.isFlow.nonneg edge member
  have most := pairing.isFlow.atMost edge member
  omega

theorem entry_unit (pairing : matching.Pairing flow) :
    ∀ entry ∈ matching.pairEdges, flow entry.1 = 0 ∨ flow entry.1 = 1 :=
  fun _ member => pairing.unit (pairing.joint_mem member)

/-- As many joints at a left vertex carry a unit as the source feeds to it. -/
theorem count_left (pairing : matching.Pairing flow) {left : Nat}
    (inside : left < matching.leftCount) :
    ((((matching.carried flow).map fun entry => entry.2.1).count left : Nat) : Int) =
      flow left := by
  have conserved := pairing.isFlow.conserved left (by rw [source]; omega) (by rw [sink]; omega)
  rw [pairing.netOutflow_left _ inside, sub_eq_zero] at conserved
  rw [carried, count_filter_eq_sum (fun entry => entry.2.1) pairing.entry_unit]
  exact conserved

/-- As many joints at a right vertex carry a unit as drain from it. -/
theorem count_right (pairing : matching.Pairing flow) {right : Nat}
    (inside : right < matching.rightCount) :
    ((((matching.carried flow).map fun entry => entry.2.2).count right : Nat) : Int) =
      flow (matching.leftCount + right) := by
  have conserved := pairing.isFlow.conserved (matching.leftCount + right)
    (by rw [source]; omega) (by rw [sink]; omega)
  rw [pairing.netOutflow_right _ inside, sub_eq_zero] at conserved
  rw [carried, count_filter_eq_sum (fun entry => entry.2.2) pairing.entry_unit]
  exact conserved.symm

/-- The entries that carry a unit lie in range. -/
theorem carried_inside (pairing : matching.Pairing flow) :
    ∀ entry ∈ matching.carried flow,
      entry.2.1 < matching.leftCount ∧ entry.2.2 < matching.rightCount :=
  fun entry member => pairing.inside entry (List.mem_of_mem_filter member)

/-- The joints that carry a unit are a matching, because no feed and no drain carries more. -/
theorem isMatching (pairing : matching.Pairing flow) :
    IsMatching ((matching.carried flow).map Prod.snd) := by
  constructor
  · rw [List.map_map]
    refine nodup_of_count_le (fun entry member => (pairing.carried_inside entry member).1) ?_
    intro left inside
    exact (pairing.count_left inside).trans_le (pairing.isFlow.atMost _ (pairing.feed_mem inside))
  · rw [List.map_map]
    refine nodup_of_count_le (fun entry member => (pairing.carried_inside entry member).2) ?_
    intro right inside
    exact (pairing.count_right inside).trans_le (pairing.isFlow.atMost _ (pairing.drain_mem inside))

/-- The left vertices on the joints that carry a unit are those that the source feeds. -/
theorem lefts_perm (pairing : matching.Pairing flow) :
    (((matching.carried flow).map Prod.snd).map Prod.fst).Perm
      ((List.range matching.leftCount).filter fun left => flow left = 1) := by
  rw [List.perm_ext_iff_of_nodup pairing.isMatching.left (List.nodup_range.filter _)]
  intro left
  rw [List.mem_filter, List.mem_range, decide_eq_true_eq, List.map_map]
  constructor
  · intro member
    obtain ⟨entry, present, rfl⟩ := List.mem_map.mp member
    have inside := (pairing.carried_inside entry present).1
    have counted := List.count_pos_iff.mpr member
    have count := pairing.count_left inside
    refine ⟨inside, ?_⟩
    rcases pairing.unit (pairing.feed_mem inside) with none | one
    · exact absurd (Int.ofNat.inj (count.trans none)) counted.ne'
    · exact one
  · rintro ⟨inside, one⟩
    have count := pairing.count_left inside
    rw [one] at count
    apply List.count_pos_iff.mp
    exact (Int.ofNat.inj count).symm ▸ Nat.one_pos

/-- As many joints carry a unit as the source sends units. -/
theorem length_carried (pairing : matching.Pairing flow) :
    ((matching.carried flow).length : Int) =
      matching.network.netOutflow (fun edge => flow edge.index) matching.source := by
  have lengths := pairing.lefts_perm.length_eq
  rw [List.length_map, List.length_map] at lengths
  have ones : ∀ left ∈ Finset.range matching.leftCount,
      flow left = if flow left = 1 then 1 else 0 := by
    intro left member
    rcases pairing.unit (pairing.feed_mem (Finset.mem_range.mp member)) with none | one
    · rw [show flow left = 0 from none]
      rfl
    · rw [show flow left = 1 from one]
      rfl
  rw [pairing.netOutflow_source, lengths]
  show _ = ∑ left ∈ Finset.range matching.leftCount, flow left
  rw [Finset.sum_congr rfl ones, ← sum_map_range, ← sum_map_filter _ (fun left => flow left = 1)]
  simp

end Pairing

section Cut

variable {side : Finset Nat} {pairs : List (Nat × Nat)}

/-- The capacity of a cut counts the feeds, the drains and the joints that leave it. -/
theorem Wired.leaving_eq (wired : matching.Wired) (inside : matching.source ∈ side)
    (outside : matching.sink ∉ side) : matching.network.leaving (fun _ => (1 : Int)) side =
      (((Finset.range matching.leftCount).filter fun left => left ∉ side).card +
        ((Finset.range matching.rightCount).filter fun right =>
          matching.leftCount + right ∈ side).card +
        (matching.pairEdges.filter fun entry =>
          entry.2.1 ∈ side ∧ matching.leftCount + entry.2.2 ∉ side).length : Nat) := by
  have feeds : ∑ left ∈ Finset.range matching.leftCount,
      (if (matching.feed left).tail ∈ side ∧ (matching.feed left).head ∉ side then (1 : Int)
        else 0) = ((Finset.range matching.leftCount).filter fun left => left ∉ side).card := by
    rw [← Finset.sum_boole]
    apply Finset.sum_congr rfl
    intro left _
    exact if_congr (and_iff_right inside) rfl rfl
  have drains : ∑ right ∈ Finset.range matching.rightCount,
      (if (matching.drain right).tail ∈ side ∧ (matching.drain right).head ∉ side then (1 : Int)
        else 0) = ((Finset.range matching.rightCount).filter fun right =>
          matching.leftCount + right ∈ side).card := by
    rw [← Finset.sum_boole]
    apply Finset.sum_congr rfl
    intro right _
    exact if_congr (and_iff_left outside) rfl rfl
  have joints : (matching.pairEdges.map fun entry =>
      if (matching.joint entry).tail ∈ side ∧ (matching.joint entry).head ∉ side then (1 : Int)
        else 0).sum = (matching.pairEdges.filter fun entry =>
          entry.2.1 ∈ side ∧ matching.leftCount + entry.2.2 ∉ side).length := by
    have counted := sum_map_filter matching.pairEdges (fun entry =>
      entry.2.1 ∈ side ∧ matching.leftCount + entry.2.2 ∉ side) fun _ => (1 : Int)
    simp only [List.map_const', List.sum_replicate, nsmul_eq_mul, mul_one] at counted
    exact counted.symm
  rw [leaving, wired.edgeSum_eq, feeds, drains, joints]
  push_cast
  rfl

/-- No matching is larger than the capacity of a cut,
because the paths through its pairs leave the cut on different edges. -/
theorem Wired.length_le_leaving (wired : matching.Wired) (inside : matching.source ∈ side)
    (outside : matching.sink ∉ side) (isMatching : IsMatching pairs)
    (known : ∀ pair ∈ pairs, pair ∈ matching.pairEdges.map Prod.snd) :
    (pairs.length : Int) ≤ matching.network.leaving (fun _ => (1 : Int)) side := by
  -- A pair leaves the cut on its feed, its drain or its joint, as the sides of its ends decide.
  obtain ⟨near, nearIs⟩ : ∃ near, near = pairs.filter fun pair => pair.1 ∈ side := ⟨_, rfl⟩
  have away : (pairs.filter fun pair => !decide (pair.1 ∈ side)).length ≤
      ((Finset.range matching.leftCount).filter fun left => left ∉ side).card := by
    apply length_le_card (isMatching.filter _).left
    intro pair member
    obtain ⟨present, leaves⟩ := List.mem_filter.mp member
    obtain ⟨entry, listed, rfl⟩ := List.mem_map.mp (known pair present)
    exact Finset.mem_filter.mpr ⟨Finset.mem_range.mpr (wired.inside entry listed).1,
      by simpa using leaves⟩
  have through : (near.filter fun pair => matching.leftCount + pair.2 ∈ side).length ≤
      ((Finset.range matching.rightCount).filter fun right =>
        matching.leftCount + right ∈ side).card := by
    rw [nearIs]
    apply length_le_card ((isMatching.filter _).filter _).right
    intro pair member
    obtain ⟨present, stays⟩ := List.mem_filter.mp member
    obtain ⟨entry, listed, rfl⟩ := List.mem_map.mp (known pair (List.mem_of_mem_filter present))
    exact Finset.mem_filter.mpr ⟨Finset.mem_range.mpr (wired.inside entry listed).2,
      by simpa using stays⟩
  have across : (near.filter fun pair => !decide (matching.leftCount + pair.2 ∈ side)).length ≤
      (matching.pairEdges.filter fun entry =>
        entry.2.1 ∈ side ∧ matching.leftCount + entry.2.2 ∉ side).length := by
    refine le_of_le_of_eq (List.Subperm.length_le (List.subperm_of_subset ?_ ?_))
      (List.length_map Prod.snd)
    · rw [nearIs]
      exact ((isMatching.filter _).filter _).left.of_map _
    · intro pair member
      obtain ⟨present, leaves⟩ := List.mem_filter.mp member
      rw [nearIs] at present
      obtain ⟨listed, stays⟩ := List.mem_filter.mp present
      obtain ⟨entry, here, rfl⟩ := List.mem_map.mp (known pair listed)
      refine List.mem_map_of_mem (List.mem_filter.mpr ⟨here, ?_⟩)
      simp_all
  have split := List.length_eq_length_filter_add (l := pairs) fun pair => decide (pair.1 ∈ side)
  have splitNear := List.length_eq_length_filter_add (l := near) fun pair =>
    decide (matching.leftCount + pair.2 ∈ side)
  rw [wired.leaving_eq inside outside]
  rw [← nearIs] at split
  exact_mod_cast (by omega)

end Cut
end MatchingNetwork
end NetworkFlow
