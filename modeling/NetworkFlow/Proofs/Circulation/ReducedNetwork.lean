import NetworkFlow.LowerBound
import NetworkFlow.Proofs.Arithmetic.ExactQuantity
import NetworkFlow.Proofs.Network.Incidence

namespace NetworkFlow

open Quantity Network

variable {α : Type}

variable [Quantity α]

/-- The load that a reduction leaves on an edge. It is folded unless its lower bound is at most
zero. -/
def Load.reduced (load : Load α) : Load α :=
  if lessEq load.lower (ofInt 0) then load else (Folding.foldLoad load).1

/-- The network that a reduction leaves when it folds the lower bounds. -/
def Network.reduced (network : Network α) : Network α :=
  network.mapLoads fun edge => edge.toLoad.reduced

theorem Network.sameShape_reduced (network : Network α) : SameShape network network.reduced :=
  sameShape_mapLoads network _

/-- The positions of the edges that a reduction folds. -/
def Network.foldedEdges (network : Network α) (count : Nat) : List Nat :=
  ((network.edges.toList.take count).filter fun edge =>
    !lessEq edge.lower (ofInt 0)).map Edge.index

namespace Folding

/-- The deltas after one more edge, or the fault that its folding meets. -/
def shiftEdge (deltas : Array α) (edge : Edge α) : Except (Fault α) (Array α) :=
  if lessEq edge.lower (ofInt 0) then .ok deltas
  else do
    let deltas ← shift deltas edge.tail (add · edge.lower)
    let deltas ← shift deltas edge.head (sub · edge.lower)
    match (foldLoad edge.toLoad).2 with
    | some fault => throw fault
    | none => return deltas

/-- The deltas of a folding, or its fault. -/
def outcome (folding : Folding α) : Except (Fault α) (Array α) :=
  match folding.fault with
  | some fault => throw fault
  | none => .ok folding.deltas

omit [Quantity α] in
theorem outcome_eq_ok {folding : Folding α} {deltas : Array α} :
    folding.outcome = .ok deltas ↔ folding.fault = none ∧ folding.deltas = deltas := by
  rw [outcome]
  cases folding.fault with
  | none => simp
  | some fault => simp [throw, throwThe, MonadExceptOf.throw]

/-- One step changes the deltas by its edge, and folds the edge when it does not fail. -/
theorem foldEdge_cases {folding : Folding α} {position : Nat} {edge : Edge α}
    (noFault : folding.fault = none) (stands : folding.network.edges[position]? = some edge) :
    (∃ fault, shiftEdge folding.deltas edge = .error fault ∧
      (folding.foldEdge position).fault = some fault) ∨
    ∃ deltas, shiftEdge folding.deltas edge = .ok deltas ∧ folding.foldEdge position =
      { network := folding.network.modifyLoad position fun _ => edge.toLoad.reduced
        deltas
        reduced := folding.reduced ++
          ([edge].filter fun edge => !lessEq edge.lower (ofInt 0)).map Edge.index
        fault := none } := by
  obtain ⟨network, before, reduced, fault⟩ := folding
  obtain rfl : fault = none := noFault
  simp only at stands ⊢
  simp only [foldEdge, stands, shiftEdge, Load.reduced]
  by_cases zero : lessEq edge.lower (ofInt 0) = true
  · right
    simp [zero, modifyLoad_self stands]
  · simp only [zero, Bool.false_eq_true, if_false]
    cases tails : shift before edge.tail (add · edge.lower) with
    | error fault => exact Or.inl ⟨fault, rfl, rfl⟩
    | ok middle =>
      simp only [ok_bind]
      cases heads : shift middle edge.head (sub · edge.lower) with
      | error fault => exact Or.inl ⟨fault, rfl, rfl⟩
      | ok deltas =>
        simp only [ok_bind]
        cases folds : foldLoad edge.toLoad with
        | mk load fault =>
          cases fault with
          | some fault => exact Or.inl ⟨fault, rfl, rfl⟩
          | none => exact Or.inr ⟨deltas, rfl, by simp [zero]⟩

/-- A folding has treated the edges below a position. -/
structure Treats (folding : Folding α) (first : Network α) (blank : Array α) (count : Nat) :
    Prop where
  outcome : folding.outcome = (first.edges.toList.take count).foldlM shiftEdge blank
  network : folding.fault = none → folding.network = first.mapLoads fun edge =>
    if edge.index < count then edge.toLoad.reduced else edge.toLoad
  reduced : folding.fault = none → folding.reduced = first.foldedEdges count

/-- One step treats one more edge. -/
theorem Treats.foldEdge {folding : Folding α} {first : Network α} {blank : Array α} {count : Nat}
    (treats : folding.Treats first blank count) (wellFormed : first.WellFormed)
    (inside : count < first.edgeCount) :
    (folding.foldEdge count).Treats first blank (count + 1) := by
  obtain ⟨edge, stands⟩ : ∃ edge, first.edges[count]? = some edge :=
    ⟨_, Array.getElem?_eq_getElem inside⟩
  have index := wellFormed.index_eq stands
  have further : first.edges.toList.take (count + 1) = first.edges.toList.take count ++ [edge] := by
    rw [List.take_add_one, Array.getElem?_toList, stands]
    rfl
  have outcome : (first.edges.toList.take (count + 1)).foldlM shiftEdge blank =
      folding.outcome >>= fun deltas => shiftEdge deltas edge := by
    rw [further, List.foldlM_append, ← treats.outcome]
    simp
  cases failed : folding.fault with
  | some fault =>
    have same : folding.foldEdge count = folding := by simp only [Folding.foldEdge, failed]
    have faulty : folding.outcome = throw fault := by simp only [Folding.outcome, failed]
    rw [same]
    refine ⟨by rw [outcome, faulty]; rfl, ?_, ?_⟩ <;> simp [failed]
  | none =>
    have fine : folding.outcome = .ok folding.deltas := by simp only [Folding.outcome, failed]
    have untouched : folding.network.edges[count]? = some edge := by
      rw [treats.network failed, getElem?_mapLoads, stands, Option.map_some, index,
        if_neg (lt_irrefl count)]
      rfl
    rw [fine, ok_bind] at outcome
    rcases foldEdge_cases failed untouched with ⟨fault, fails, faulty⟩ | ⟨deltas, shifts, next⟩
    · refine ⟨?_, ?_, ?_⟩
      · rw [outcome, fails]
        simp only [Folding.outcome, faulty]
        rfl
      · simp [faulty]
      · simp [faulty]
    · rw [next]
      refine ⟨by rw [outcome, shifts]; rfl, fun _ => ?_, fun _ => ?_⟩
      · rw [mapLoads_succ wellFormed stands, ← treats.network failed]
      · simp only [foldedEdges, further, List.filter_append, List.map_append,
          treats.reduced failed]

/-- The folding of all edges treats each of them. -/
theorem treats_foldAll {network : Network α} (wellFormed : network.WellFormed)
    (vertexCount : Nat) : (network.foldAll vertexCount).Treats network
      (Array.replicate vertexCount zero) network.edgeCount := by
  have each (count : Nat) (inside : count ≤ network.edgeCount) :
      ((List.range count).foldl Folding.foldEdge
        ⟨network, Array.replicate vertexCount zero, [], none⟩).Treats network
          (Array.replicate vertexCount zero) count := by
    induction count with
    | zero =>
      refine ⟨rfl, fun _ => ?_, fun _ => rfl⟩
      simp [mapLoads, Edge.withLoad]
    | succ count inductionHypothesis =>
      rw [List.range_succ, List.foldl_append]
      exact (inductionHypothesis (by omega)).foldEdge wellFormed (by omega)
  exact each network.edgeCount le_rfl

/-- The deltas of a folding, or its fault, are those of the edges in their order. -/
theorem outcome_foldAll {network : Network α} (wellFormed : network.WellFormed)
    (vertexCount : Nat) : (network.foldAll vertexCount).outcome =
      network.edges.toList.foldlM shiftEdge (Array.replicate vertexCount zero) := by
  rw [(treats_foldAll wellFormed vertexCount).outcome, edgeCount, ← Array.length_toList,
    List.take_length]

/-- A folding that does not fail leaves the reduced network. -/
theorem network_foldAll {network : Network α} (wellFormed : network.WellFormed)
    {vertexCount : Nat} (noFault : (network.foldAll vertexCount).fault = none) :
    (network.foldAll vertexCount).network = network.reduced := by
  rw [(treats_foldAll wellFormed vertexCount).network noFault]
  apply mapLoads_congr
  intro edge member
  rw [if_pos (wellFormed.index_lt member)]

theorem reduced_foldAll {network : Network α} (wellFormed : network.WellFormed)
    {vertexCount : Nat} (noFault : (network.foldAll vertexCount).fault = none) :
    (network.foldAll vertexCount).reduced = network.foldedEdges network.edgeCount :=
  (treats_foldAll wellFormed vertexCount).reduced noFault

end Folding

/-- A network is left as it is when the totals are not near each other. -/
theorem reduceLowerBounds_of_far {network : Network α} {demands : List α}
    {tolerance demand supply gap : α} (totals : Demands.totals demands = .ok (demand, supply))
    (apart : Network.gap demand supply = .ok gap) (far : less tolerance gap = true) :
    network.reduceLowerBounds demands tolerance = (network, .ok {
      adjustedDemands := demands, deltas := List.replicate demands.length zero,
      reducedEdges := [], demand, supply, stage := some .before }) := by
  simp only [reduceLowerBounds, totals, apart, ok_bind, far]
  rfl

/-- A reduction folds the lower bounds of a network when the totals are near each other.
It knows the shifted demands, and whether their totals are still near each other. -/
structure Reduction.Folds (reduction : Reduction α) (network : Network α) (demands : List α)
    (tolerance : α) : Prop where
  before : ∃ demand supply gap, Demands.totals demands = .ok (demand, supply) ∧
    Network.gap demand supply = .ok gap ∧ less tolerance gap = false
  shifts : network.edges.toList.foldlM Folding.shiftEdge (Array.replicate demands.length zero) =
    .ok reduction.deltas.toArray
  adjusted : Network.adjusted demands reduction.deltas = .ok reduction.adjustedDemands
  reducedEdges : reduction.reducedEdges = network.foldedEdges network.edgeCount
  totals : Demands.totals reduction.adjustedDemands = .ok (reduction.demand, reduction.supply)
  after : ∃ gap, Network.gap reduction.demand reduction.supply = .ok gap ∧
    reduction.stage = if lessEq gap tolerance then none else some .after

/-- Every folded reduction is computed, and it leaves the reduced network. -/
theorem Reduction.Folds.computed {network : Network α} {demands : List α} {tolerance : α}
    {reduction : Reduction α} (folds : reduction.Folds network demands tolerance)
    (wellFormed : network.WellFormed) :
    network.reduceLowerBounds demands tolerance = (network.reduced, .ok reduction) := by
  obtain ⟨demand, supply, difference, total, apart, near⟩ := folds.before
  obtain ⟨rest, left, stage⟩ := folds.after
  have outcome := Folding.outcome_foldAll wellFormed demands.length
  rw [folds.shifts, Folding.outcome_eq_ok] at outcome
  obtain ⟨noFault, deltas⟩ := outcome
  have reduced := Folding.reduced_foldAll wellFormed noFault
  simp only [reduceLowerBounds, total, apart, near, ok_bind, noFault,
    Folding.network_foldAll wellFormed noFault, deltas, folds.adjusted, folds.totals, left, reduced,
    ← folds.reducedEdges, ← stage]
  rfl

/-- A reduction that does not refuse the demands before it has folded the lower bounds. -/
theorem folds_of_ok {network working : Network α} {demands : List α} {tolerance : α}
    {reduction : Reduction α} (wellFormed : network.WellFormed)
    (computed : network.reduceLowerBounds demands tolerance = (working, .ok reduction))
    (accepted : reduction.stage ≠ some .before) :
    working = network.reduced ∧ reduction.Folds network demands tolerance := by
  simp only [reduceLowerBounds] at computed
  cases total : Demands.totals demands with
  | error fault =>
    simp only [total, error_bind] at computed
    cases (Prod.mk.inj computed).2
  | ok totals =>
    cases apart : Network.gap totals.1 totals.2 with
    | error fault =>
      simp only [total, apart, ok_bind, error_bind] at computed
      cases (Prod.mk.inj computed).2
    | ok gap =>
      simp only [total, apart, ok_bind] at computed
      cases near : less tolerance gap with
      | true =>
        simp only [near] at computed
        rw [← Except.ok.inj (Prod.mk.inj computed).2] at accepted
        exact absurd rfl accepted
      | false =>
        simp only [near] at computed
        have outcome := Folding.outcome_foldAll wellFormed demands.length
        cases failed : (network.foldAll demands.length).fault with
        | some fault =>
          simp only [failed] at computed
          cases (Prod.mk.inj computed).2
        | none =>
          simp only [failed] at computed
          obtain ⟨left, computed⟩ := Prod.mk.inj computed
          obtain ⟨adjusted, shifted, computed⟩ := ok_of_bind computed
          obtain ⟨after, total', computed⟩ := ok_of_bind computed
          obtain ⟨rest, apart', computed⟩ := ok_of_bind computed
          cases computed
          rw [Folding.outcome_eq_ok.mpr ⟨failed, rfl⟩] at outcome
          exact ⟨left ▸ Folding.network_foldAll wellFormed failed,
            ⟨_, _, gap, total, apart, near⟩, outcome.symm, shifted,
            Folding.reduced_foldAll wellFormed failed, total', rest, apart', rfl⟩

end NetworkFlow
