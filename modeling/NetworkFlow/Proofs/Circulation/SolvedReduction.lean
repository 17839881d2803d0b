import NetworkFlow.Proofs.Arithmetic.Finite
import NetworkFlow.Proofs.Arithmetic.Least
import NetworkFlow.Proofs.Circulation.Refolding
import NetworkFlow.Proofs.Network.Assembled

namespace NetworkFlow

open Quantity Network

/-- What an accepted lower bound leaves of the capacity is a weight. -/
theorem Load.exists_rest {load : Load Number} {tail head : Int}
    (capacities : load.capacity.InFormat) (lowers : load.lower.InFormat)
    (checked : load.check tail head = .ok ()) :
    ∃ rest weight, sub load.capacity load.lower = .ok rest ∧ rest.Weighs weight := by
  obtain ⟨⟨bounded, nonneg⟩, ⟨boundedToo, nonnegToo⟩, inOrder⟩ := check_eq_ok.mp checked
  obtain ⟨most, mostWeighs⟩ := Number.exists_weighs capacities bounded nonneg
  obtain ⟨least, leastWeighs⟩ := Number.exists_weighs lowers boundedToo nonnegToo
  have ordered : least ≤ most := by
    by_contra above
    have less := (mostWeighs.less_iff leastWeighs).mpr (not_le.mp above)
    exact Bool.false_ne_true (inOrder.symm.trans less)
  obtain ⟨rest, weight, left, weighs⟩ := mostWeighs.sub leastWeighs ordered
  exact ⟨rest, weight, Number.sub_eq_ok.mpr left, weighs⟩

/-- The bounds of an edge are accepted again when they are folded. -/
theorem Load.check_reduced {load : Load Number} {tail head : Int}
    (capacities : load.capacity.InFormat) (lowers : load.lower.InFormat)
    (checked : load.check tail head = .ok ())
    (noFault : ¬lessEq load.lower (ofInt 0) = true → (Folding.foldLoad load).2 = none) :
    load.reduced.check tail head = .ok () := by
  unfold reduced
  split
  · exact checked
  · have folded := noFault ‹_›
    obtain ⟨rest, weight, left, weighs⟩ := exists_rest capacities lowers checked
    obtain ⟨capacity, offset, taken, -, load⟩ := Folding.foldLoad_eq folded
    obtain rfl := Except.ok.inj (taken.symm.trans left)
    rw [load, check_eq_ok]
    exact ⟨⟨weighs.isFinite, weighs.isNegative⟩,
      ⟨Number.Weighs.zero.isFinite, Number.Weighs.zero.isNegative⟩, weighs.not_less_zero⟩

/-- A shift keeps the deltas stable when its change does. -/
theorem Folding.stable_shift {deltas after : Array Number} {vertex : Nat}
    {change : Number → Except (Fault Number) Number}
    (stable : ∀ delta ∈ deltas, delta.IsStable)
    (keeps : ∀ {before after : Number}, before.IsStable → change before = .ok after →
      after.IsStable)
    (shifted : shift deltas vertex change = .ok after) :
    after.size = deltas.size ∧ ∀ delta ∈ after, delta.IsStable := by
  rw [shift] at shifted
  cases stands : deltas[vertex]? with
  | none =>
    rw [stands] at shifted
    cases shifted
  | some delta =>
    rw [stands] at shifted
    obtain ⟨changed, computed, shifted⟩ := ok_of_bind shifted
    rw [← Except.ok.inj shifted, Array.size_setIfInBounds]
    refine ⟨rfl, ?_⟩
    intro other member
    rcases Array.mem_or_eq_of_mem_setIfInBounds member with old | rfl
    · exact stable other old
    · exact keeps (stable delta (Array.mem_of_getElem? stands)) computed

/-- An edge with a finite lower bound keeps the deltas stable. -/
theorem Folding.stable_shiftEdge {deltas after : Array Number} {edge : Edge Number}
    (stable : ∀ delta ∈ deltas, delta.IsStable) (finite : isFinite edge.lower = .ok true)
    (shifted : shiftEdge deltas edge = .ok after) :
    after.size = deltas.size ∧ ∀ delta ∈ after, delta.IsStable := by
  rw [shiftEdge] at shifted
  split at shifted
  · rw [← Except.ok.inj shifted]
    exact ⟨rfl, stable⟩
  · obtain ⟨middle, tails, shifted⟩ := ok_of_bind shifted
    obtain ⟨last, heads, shifted⟩ := ok_of_bind shifted
    have first := stable_shift stable (fun before added => before.add finite added) tails
    have second := stable_shift first.2 (fun before taken => before.sub finite taken) heads
    split at shifted
    · cases shifted
    · rw [← Except.ok.inj shifted]
      exact ⟨second.1.trans first.1, second.2⟩

/-- Edges with finite lower bounds keep the deltas stable. -/
theorem Folding.stable_shifts {edges : List (Edge Number)} {before after : Array Number}
    (stable : ∀ delta ∈ before, delta.IsStable)
    (finite : ∀ edge ∈ edges, isFinite edge.lower = .ok true)
    (shifts : edges.foldlM shiftEdge before = .ok after) :
    after.size = before.size ∧ ∀ delta ∈ after, delta.IsStable := by
  induction edges generalizing before with
  | nil =>
    rw [← Except.ok.inj shifts]
    exact ⟨rfl, stable⟩
  | cons edge rest inductionHypothesis =>
    rw [List.foldlM_cons] at shifts
    obtain ⟨middle, shifted, shifts⟩ := ok_of_bind shifts
    obtain ⟨size, next⟩ := stable_shiftEdge stable (finite edge (by simp)) shifted
    obtain ⟨same, last⟩ := inductionHypothesis next
      (fun other member => finite other (by simp [member])) shifts
    exact ⟨same.trans size, last⟩

/-- The finite reals are the binary64 numbers that are finite. -/
def Number.IsFiniteReal (number : Number) : Prop :=
  ∃ negative units, number = .real (.finite negative units)

namespace Reduction.Folds

variable {network : Network Number} {demands : List Number} {tolerance : Number}
  {reduction : Reduction Number}

/-- The adjusted demands are stable sums, one for each demand. -/
theorem stable (folds : reduction.Folds network demands tolerance)
    (finite : ∀ demand ∈ demands, demand.IsFiniteReal)
    (bounded : ∀ edge ∈ network.edges, isFinite edge.lower = .ok true) :
    reduction.adjustedDemands.length = demands.length ∧
      ∀ demand ∈ reduction.adjustedDemands, demand.IsStable := by
  have blank : ∀ delta ∈ Array.replicate demands.length (zero : Number), delta.IsStable := by
    intro delta member
    rw [Array.eq_of_mem_replicate member]
    exact Number.isStable_zero
  obtain ⟨size, deltas⟩ := Folding.stable_shifts blank
    (fun edge member => bounded edge (Array.mem_toList_iff.mp member)) folds.shifts
  have length : reduction.deltas.length = demands.length := by simpa using size
  refine ⟨?_, ?_⟩
  · rw [mapM_length folds.adjusted, List.length_zip, length, min_self]
  · intro total member
    obtain ⟨⟨demand, delta⟩, inside, added⟩ := mapM_member folds.adjusted member
    obtain ⟨given, shift⟩ := List.of_mem_zip inside
    obtain ⟨negative, units, rfl⟩ := finite demand given
    exact (deltas delta (List.mem_toArray.mpr shift)).real_add rfl added

/-- Demands of which one is unbounded are not balanced. -/
theorem unbounded (folds : reduction.Folds network demands tolerance)
    (bounded : isFinite tolerance = .ok true) {demand : Number}
    (member : demand ∈ reduction.adjustedDemands) (infinite : demand.IsUnbounded)
    (signed : isPositive demand = true ∨ isNegative demand = true) :
    reduction.balanced = false := by
  obtain ⟨gap, apart, stage⟩ := folds.after
  obtain ⟨asked, demanded, totals⟩ := ok_of_bind folds.totals
  obtain ⟨supplied, supplies, totals⟩ := ok_of_bind totals
  obtain ⟨askedSame, supplySame⟩ := Prod.mk.inj (Except.ok.inj totals)
  obtain ⟨difference, subtracted, magnitude⟩ := ok_of_bind apart
  have total : reduction.demand.IsUnbounded ∨ reduction.supply.IsUnbounded := by
    rcases signed with positive | negative
    · left
      rw [← askedSame]
      exact infinite.sum (List.mem_filter.mpr ⟨member, positive⟩) demanded
    · right
      rw [← supplySame]
      exact (infinite.sum (List.mem_filter.mpr ⟨member, negative⟩) supplies).neg
  have far : lessEq gap tolerance = false := by
    rw [← Except.ok.inj magnitude]
    exact (Number.IsUnbounded.sub total subtracted).not_lessEq bounded
  rw [Reduction.balanced, stage, far]
  rfl

/-- The adjusted demands of a balanced reduction are finite. -/
theorem finite (folds : reduction.Folds network demands tolerance)
    (bounded : isFinite tolerance = .ok true) (balanced : reduction.balanced = true)
    (stable : ∀ demand ∈ reduction.adjustedDemands, demand.IsStable) :
    ∀ demand ∈ reduction.adjustedDemands, demand.IsFiniteReal := by
  intro demand member
  rcases (stable demand member).isFinite_or with finite | ⟨infinite, signed⟩
  · obtain ⟨binary, rfl, -⟩ := stable demand member
    obtain ⟨negative, units, near⟩ := Number.toBinary_of_isFinite finite
    exact ⟨negative, units, congrArg Number.real (Except.ok.inj near)⟩
  · rw [folds.unbounded bounded member infinite signed] at balanced
    cases balanced

end Reduction.Folds

/-- Adding nothing to stable demands leaves them as they are. -/
theorem Network.adjusted_zero {demands : List Number}
    (stable : ∀ demand ∈ demands, demand.IsStable) :
    adjusted demands (List.replicate demands.length zero) = .ok demands := by
  have each : ∀ pair ∈ demands.zip (List.replicate demands.length (zero : Number)),
      add pair.1 pair.2 = .ok pair.1 := by
    rintro ⟨demand, delta⟩ member
    obtain ⟨inside, same⟩ := List.of_mem_zip member
    rw [List.eq_of_mem_replicate same]
    exact (stable demand inside).add_zero
  have firsts : (demands.zip (List.replicate demands.length (zero : Number))).map Prod.fst =
      demands := List.map_fst_zip (by simp)
  exact (mapM_ok each).trans (congrArg Except.ok firsts)

/-- Finite binary64 demands enter the vector as they are. -/
theorem Demands.vector_dense {demands : List Number}
    (finite : ∀ demand ∈ demands, demand.IsFiniteReal) {count : Nat}
    (length : demands.length = count) : (dense demands).vector count = .ok demands := by
  have each : ∀ pair ∈ demands.zipIdx, finiteDemand (pair.2 : Int) pair.1 = .ok pair.1 := by
    rintro ⟨demand, vertex⟩ member
    obtain ⟨inside, equal⟩ := List.mem_zipIdx' member
    obtain ⟨negative, units, rfl⟩ := finite demand (equal ▸ List.getElem_mem inside)
    rfl
  rw [vector, if_neg (by simp [length])]
  exact (mapM_ok each).trans (congrArg Except.ok (List.zipIdx_map_fst 0 demands))

/-- The tolerance of the options is finite. -/
theorem Options.isFinite_of_create {α : Type} [Quantity α] {tolerance : α} {recordPaths : Bool}
    {options : Options α} (created : create tolerance recordPaths = .ok options) :
    isFinite options.tolerance = .ok true := by
  obtain ⟨finite, computed, created⟩ := ok_of_bind created
  cases finite with
  | false => cases created
  | true =>
    dsimp only at created
    split at created
    · cases created
    · rw [← Except.ok.inj created]
      exact computed

/-- The network that a reduction leaves is its own copy. -/
theorem Reduction.Folds.copy_reduced {network : Network Number} {demands : List Number}
    {tolerance : Number} {reduction : Reduction Number}
    (folds : reduction.Folds network demands tolerance) (wellFormed : network.WellFormed)
    (inFormat : ∀ edge ∈ network.edges, edge.capacity.InFormat ∧ edge.lower.InFormat)
    (checked : ∀ edge ∈ network.edges, edge.toLoad.check edge.tail edge.head = .ok ()) :
    network.reduced.copy = .ok network.reduced := by
  apply copy_eq (wellFormed.ofSameShape network.sameShape_reduced)
  intro edge member
  obtain ⟨old, inside, rfl⟩ := mem_mapLoads.mp member
  obtain ⟨capacities, lowers⟩ := inFormat old inside
  apply Load.check_reduced capacities lowers (checked old inside)
  exact Folding.foldLoad_of_shifts folds.shifts (Array.mem_toList_iff.mpr inside)

namespace Circulation

/-- The solve of what a balanced reduction leaves ends as the solve of the network does,
with the same result or the same fault, and it makes the same reports.
The bounds of the edges are integers or numbers that binary64 holds. -/
theorem solve_reduced (network : Network Number) (assembled : network.Assembled)
    (inFormat : ∀ edge ∈ network.edges, edge.capacity.InFormat ∧ edge.lower.InFormat)
    (demands : List Number) (length : demands.length = network.vertexCount)
    (finite : ∀ demand ∈ demands, demand.IsFiniteReal) (tolerance : Number) (recordPaths : Bool)
    (options : Options Number) (created : Options.create tolerance recordPaths = .ok options)
    (copied reduced : Network Number) (reduction : Reduction Number)
    (copies : network.copy = .ok copied)
    (computed : copied.reduceLowerBounds demands options.tolerance = (reduced, .ok reduction))
    (balanced : reduction.balanced = true) (watch : Watch Number) :
    (solve reduced (.dense reduction.adjustedDemands) options watch).outcome =
        (solve network (.dense demands) options watch).outcome ∧
      (solve reduced (.dense reduction.adjustedDemands) options watch).reports =
        (solve network (.dense demands) options watch).reports := by
  have wellFormed := assembled.wellFormed
  have checked : ∀ edge ∈ network.edges, edge.toLoad.check edge.tail edge.head = .ok () :=
    fun edge member => (assembled.load edge member).1
  have same := copy_eq wellFormed checked
  obtain rfl := Except.ok.inj (copies.symm.trans same)
  have accepted : reduction.stage ≠ some .before := by
    intro refused
    rw [Reduction.balanced, refused] at balanced
    cases balanced
  obtain ⟨left, folds⟩ := folds_of_ok wellFormed computed accepted
  obtain ⟨count, stable⟩ := folds.stable finite fun edge member =>
    (Load.check_eq_ok.mp (checked edge member)).2.1.1
  have bounded := Options.isFinite_of_create created
  have adjusted := folds.finite bounded balanced stable
  have shape := copied.sameShape_reduced
  -- The first solve reduces the network, and the second one has nothing left to reduce.
  have first := solve_eq_solveReduced (Demands.vector_dense finite length) same wellFormed
    folds.resetFlows balanced watch
  have again := folds.again Number.zero_lessEq (adjusted_zero stable)
    (fun _ => Number.not_less_of_lessEq) balanced
  have given : (Demands.dense reduction.adjustedDemands).vector copied.reduced.vertexCount =
      .ok reduction.adjustedDemands := by
    rw [← shape.vertexCount]
    exact Demands.vector_dense adjusted (count.trans length)
  have second := solve_eq_solveReduced given (folds.copy_reduced wellFormed inFormat checked)
    (wellFormed.ofSameShape shape) again.resetFlows balanced watch
  have settled := (folds.hasNoLower Number.zero_lessEq).resetFlows.reduced_eq
  rw [left, first, second, settled, ← reduced_resetFlows, shape.edgeCount]
  exact solveReduced_congr _ _ reduction _ _ options watch

/-- The first vertex sends two to the second one. -/
def twoAcross : List Number :=
  [.real (.finite true (2 * Binary64.unitsPerOne)),
    .real (.finite false (2 * Binary64.unitsPerOne))]

/-- Two cross an edge with a lower bound of one before its reduction and after it. -/
theorem solve_reduced_single :
    ∃ reduced reduction, (single (.int 3) (.int 1) : Network Number).reduceLowerBounds twoAcross
        (.int 0) = (reduced, .ok reduction) ∧
      reduction.balanced = true ∧
      (solve reduced (.dense reduction.adjustedDemands) ⟨.int 0, false⟩
        .idle).outcome.toOption.map Result.feasible = some true := by
  have assembled : (single (.int 3) (.int 1) : Network Number).Assembled :=
    assembled_single_int (by decide) (by decide) (by decide)
  have copies := assembled.copied
  have inFormat : ∀ edge ∈ (single (.int 3) (.int 1) : Network Number).edges,
      edge.capacity.InFormat ∧ edge.lower.InFormat := by
    intro edge member
    rw [mem_single member]
    exact ⟨trivial, trivial⟩
  have created : Options.create (Number.int 0) false = .ok ⟨.int 0, false⟩ := by
    have finite : isFinite (Number.int 0) = .ok true := Number.Weighs.ofInt_zero.isFinite
    have nonneg : isNegative (Number.int 0) = false := Number.Weighs.ofInt_zero.isNegative
    rw [Options.create, finite, ok_bind, nonneg]
    rfl
  have balanced : ((single (.int 3) (.int 1) : Network Number).reduceLowerBounds twoAcross
      (.int 0)).2.toOption.map Reduction.balanced = some true := by decide +kernel
  have feasible : (solve (single (.int 3) (.int 1) : Network Number) (.dense twoAcross)
      ⟨.int 0, false⟩ .idle).outcome.toOption.map Result.feasible = some true := by
    decide +kernel
  cases computed : (single (.int 3) (.int 1) : Network Number).reduceLowerBounds twoAcross
      (.int 0) with
  | mk reduced outcome =>
    rw [computed] at balanced
    cases outcome with
    | error fault => cases balanced
    | ok reduction =>
      have even := Option.some.inj balanced
      have same := solve_reduced _ assembled inFormat twoAcross rfl
        (by simp [twoAcross, Number.IsFiniteReal]) _ _ _ created _ reduced reduction copies computed
        even .idle
      refine ⟨reduced, reduction, rfl, even, ?_⟩
      rw [same.1]
      exact feasible

end Circulation
end NetworkFlow
