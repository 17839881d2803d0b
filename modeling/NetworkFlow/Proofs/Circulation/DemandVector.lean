import NetworkFlow.Proofs.Circulation.Reduction

namespace NetworkFlow

open Quantity ExactQuantity Network

namespace Demands

variable {α : Type} [Quantity α] [ExactQuantity α] {count : Nat} {demand : Nat → Rat}

/-- Demands ask for an amount at every vertex. A vertex that a table leaves out asks for nothing. -/
def Ask (demands : Demands α) (count : Nat) (demand : Nat → Rat) : Prop :=
  match demands with
  | .dense values => AllStandFor values ((List.range count).map demand)
  | .sparse values => (∀ key ∈ values.keys, 0 ≤ key ∧ key < count) ∧
    ∀ vertex < count, match values.find? vertex with
      | some value => value? value = some (demand vertex)
      | none => demand vertex = 0

theorem exact_finiteDemand {given : α} {value : Rat} (known : value? given = some value)
    (fits : Fits α value) (vertex : Int) :
    ∃ real, finiteDemand vertex given = .ok real ∧ value? real = some value := by
  obtain ⟨real, computed, stands⟩ := exact_toReal known fits
  refine ⟨real, ?_, stands⟩
  rw [finiteDemand, computed, ok_bind, exact_isFinite stands fits]
  rfl

/-- A list of demands is entered exactly. -/
theorem exact_dense {values : List α} (stands : AllStandFor values ((List.range count).map demand))
    (fits : ∀ vertex < count, Fits α (demand vertex)) :
    ∃ vector, (dense values).vector count = .ok vector ∧
      AllStandFor vector ((List.range count).map demand) := by
  have length : values.length = count := by simpa using stands.length_eq
  have each : ∀ pair ∈ values.zipIdx, ∃ real, finiteDemand (pair.2 : Int) pair.1 = .ok real ∧
      value? real = some (demand pair.2) := by
    rintro ⟨given, vertex⟩ member
    obtain ⟨inside, equal⟩ := List.mem_zipIdx' member
    have known := stands.get inside (by simpa [length] using inside)
    rw [length] at inside
    simp only [List.get_eq_getElem, List.getElem_map, List.getElem_range, ← equal] at known
    exact exact_finiteDemand known (fits vertex inside) vertex
  obtain ⟨vector, computed, all⟩ := exact_mapM each
  refine ⟨vector, ?_, ?_⟩
  · rw [Demands.vector, if_neg (by simp [length])]
    exact computed
  · have indices : (values.zipIdx.map fun pair => demand pair.2) =
        (List.range count).map demand := by
      rw [← length, List.range_eq_range', ← List.zipIdx_map_snd 0 values, List.map_map]
      rfl
    rwa [indices] at all

/-- Demands of a table are entered exactly, each at its vertex. -/
theorem exact_foldlM_enter {entries : List (Int × α)}
    (each : ∀ entry ∈ entries, 0 ≤ entry.1 ∧ entry.1 < count ∧
      value? entry.2 = some (demand entry.1.toNat))
    (fits : ∀ vertex < count, Fits α (demand vertex)) (before : Array α)
    (size : before.size = count) :
    ∃ after, entries.foldlM (enter count) before = .ok after ∧ after.size = count ∧
      ∀ vertex < count, (vertex : Int) ∈ entries.map Prod.fst ∨
          (∃ real, before[vertex]? = some real ∧ value? real = some (demand vertex)) →
        ∃ real, after[vertex]? = some real ∧ value? real = some (demand vertex) := by
  induction entries generalizing before with
  | nil =>
    refine ⟨before, rfl, size, ?_⟩
    intro vertex _ entered
    simpa using entered
  | cons entry rest inductionHypothesis =>
    obtain ⟨least, most, known⟩ := each entry (by simp)
    obtain ⟨real, computed, stands⟩ := exact_finiteDemand known (fits _ (by omega)) entry.1
    have entered : enter count before entry =
        .ok (before.setIfInBounds entry.1.toNat real) := by
      simp only [enter, if_pos (And.intro least most), computed]
      rfl
    obtain ⟨after, folded, sizeAfter, filled⟩ := inductionHypothesis
      (fun other member => each other (by simp [member]))
      (before.setIfInBounds entry.1.toNat real) (by rw [Array.size_setIfInBounds, size])
    refine ⟨after, ?_, sizeAfter, ?_⟩
    · rw [List.foldlM_cons, entered]
      exact folded
    · intro vertex inside given
      apply filled vertex inside
      by_cases here : entry.1.toNat = vertex
      · right
        refine ⟨real, ?_, here ▸ stands⟩
        rw [here, Array.getElem?_setIfInBounds_self_of_lt (by omega)]
      · rw [Array.getElem?_setIfInBounds_ne here]
        rcases given with member | already
        · left
          rw [List.map_cons, List.mem_cons] at member
          rcases member with same | later
          · omega
          · exact later
        · exact Or.inr already

omit [ExactQuantity α] in
/-- A vector has an entry for each vertex. -/
theorem length_vector {demands : Demands α} {vector : List α}
    (accepted : demands.vector count = .ok vector) : vector.length = count := by
  cases demands with
  | dense values =>
    rw [Demands.vector] at accepted
    split at accepted
    · cases accepted
    · next same =>
      rw [mapM_length accepted, List.length_zipIdx]
      exact_mod_cast not_ne_iff.mp same
  | sparse values =>
    obtain ⟨filled, entered, accepted⟩ := ok_of_bind accepted
    have size : filled.size = count := by
      refine foldlM_induction (fun _ (state : Array α) => state.size = count) (by simp) ?_ entered
      intro done entry before after kept placed
      rw [enter] at placed
      split at placed
      · obtain ⟨value, -, placed⟩ := ok_of_bind placed
        rw [← Except.ok.inj placed, Array.size_setIfInBounds, kept]
      · cases placed
    rw [← Except.ok.inj accepted, Array.length_toList, size]

/-- The demands that a caller asks for enter the vector exactly. -/
theorem Ask.exact_vector {demands : Demands α} (ask : demands.Ask count demand)
    (fits : ∀ vertex < count, Fits α (demand vertex)) :
    ∃ vector, demands.vector count = .ok vector ∧
      AllStandFor vector ((List.range count).map demand) := by
  cases demands with
  | dense values => exact exact_dense ask fits
  | sparse values =>
    obtain ⟨inside, given⟩ := ask
    have each : ∀ entry ∈ values.entries, 0 ≤ entry.1 ∧ entry.1 < count ∧
        value? entry.2 = some (demand entry.1.toNat) := by
      intro entry member
      obtain ⟨least, most⟩ := inside entry.1 (List.mem_map_of_mem member)
      have known := given entry.1.toNat (by omega)
      rw [Int.toNat_of_nonneg least, Table.find?_of_mem member] at known
      exact ⟨least, most, known⟩
    obtain ⟨after, entered, size, filled⟩ := exact_foldlM_enter each fits
      (Array.replicate count zero) Array.size_replicate
    refine ⟨after.toList, ?_, ?_⟩
    · rw [Demands.vector, Int.toNat_natCast]
      simp only [entered]
      rfl
    · have stand : Folding.StandFor after count demand := by
        refine ⟨size, ?_⟩
        intro vertex early
        apply filled vertex early
        have known := given vertex early
        split at known
        · next value found =>
          left
          obtain ⟨entry, member, equal⟩ := Option.map_eq_some_iff.mp found
          have key := List.find?_some member
          rw [decide_eq_true_iff] at key
          exact List.mem_map.mpr ⟨entry, List.mem_of_find?_eq_some member, key⟩
        · right
          refine ⟨zero, ?_, by rw [known, value?_zero]⟩
          simp [early]
      exact stand.toList

end Demands
end NetworkFlow
