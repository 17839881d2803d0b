import NetworkFlow.Proofs.Flow.MinCut
import NetworkFlow.Proofs.MaxFlow.Termination

namespace NetworkFlow

open Quantity ExactQuantity Network

/-- A table gives the flows of the first edges when it has exactly their indices as keys. -/
structure Gives {α : Type} [Quantity α] [ExactQuantity α] (flows : Table Int α) (count : Nat)
    (total : Nat → Rat) : Prop where
  keys : flows.keys = (List.range count).map Int.ofNat
  value : ∀ index < count, ∃ flow, flows.find? index = some flow ∧ value? flow = some (total index)

/-- The flows of the first edges are read exactly. -/
theorem exact_flows {α : Type} [Quantity α] [ExactQuantity α] {edges : List (Edge α)}
    {count : Nat} {total : Nat → Rat} (indices : edges.map Edge.index = List.range count)
    (each : ∀ edge ∈ edges, ∃ flow, edge.totalFlow = .ok flow ∧
      value? flow = some (total edge.index)) :
    ∃ pairs, (edges.mapM fun edge => do return ((edge.index : Int), ← edge.totalFlow)) =
      .ok pairs ∧ Gives (.ofList pairs) count total := by
  have read : ∃ pairs, (edges.mapM fun edge => do return ((edge.index : Int), ← edge.totalFlow)) =
      .ok pairs ∧ pairs.map Prod.fst = (edges.map Edge.index).map Int.ofNat ∧
      ∀ index ∈ edges.map Edge.index, ∃ flow, ((index : Int), flow) ∈ pairs ∧
        value? flow = some (total index) := by
    clear indices
    induction edges with
    | nil => exact ⟨[], rfl, rfl, by simp⟩
    | cons edge rest inductionHypothesis =>
      obtain ⟨flow, computed, known⟩ := each edge (by simp)
      obtain ⟨pairs, all, keys, found⟩ := inductionHypothesis fun other member =>
        each other (by simp [member])
      refine ⟨((edge.index : Int), flow) :: pairs, ?_, ?_, ?_⟩
      · rw [List.mapM_cons, computed, ok_bind]
        simp only [all]
        rfl
      · rw [List.map_cons, List.map_cons, List.map_cons, keys]
        rfl
      · intro index member
        rcases List.mem_cons.mp member with rfl | later
        · exact ⟨flow, by simp, known⟩
        · obtain ⟨value, present, stands⟩ := found index later
          exact ⟨value, by simp [present], stands⟩
  obtain ⟨pairs, computed, keys, found⟩ := read
  rw [indices] at keys found
  have different : (pairs.map Prod.fst).Nodup := by
    rw [keys]
    exact List.nodup_range.map fun first second => Int.ofNat.inj
  have entries := Table.entries_ofList different
  refine ⟨pairs, computed, ?_, ?_⟩
  · rw [Table.keys, entries, keys]
  · intro index inside
    obtain ⟨flow, present, known⟩ := found index (List.mem_range.mpr inside)
    rw [← entries] at present
    exact ⟨flow, Table.find?_of_mem present, known⟩

namespace MaxFlow

variable {α : Type} [Quantity α] [ExactQuantity α] {network : Network α}
  {exact last : Network Rat} {bound total : Rat} {source sink : Nat}

/-- A settled run leaves a flow that leaves no residual path from the source to the sink. -/
structure Run.Settled (run : Run α) (bound : Rat) (source sink : Nat) (exact last : Network Rat)
    (value : Rat) : Prop where
  bounds : exact.SameBounds last
  network : run.network.StandsFor last
  wellFormed : last.WellFormed
  carries : last.Carries source sink value
  onLattice : last.OnLattice α
  fits : last.RoomFits α
  ended : run.Ended bound source sink last

/-- A finished run started without a value, so that its total is the value of its flow. -/
structure Run.Finished (run : Run α) (bound : Rat) (source sink : Nat) (exact last : Network Rat)
    (total : Rat) : Prop extends run.Settled bound source sink exact last total where
  measured : last.Measured α
  total : value? run.total = some total

variable {start : Rat}

/-- A run from a measured flow has no fault unless its watch halts it. -/
theorem run_noFault {tolerance : α} {watch : Watch α} (quiet : ∀ report, watch.halts report = false)
    (differ : source ≠ sink) (nonneg : 0 ≤ bound) (standsFor : network.StandsFor exact)
    (wellFormed : network.WellFormed) (tolerances : value? tolerance = some bound)
    (sourceInside : source < network.vertexCount) (sinkInside : sink < network.vertexCount)
    (carries : exact.Carries source sink start) (measured : exact.Measured α) :
    (run network source sink tolerance watch).fault = none := by
  rw [standsFor.shape.vertexCount] at sourceInside sinkInside
  obtain ⟨steps, last, -, -, -, ending⟩ := run_follows watch
    (keepsExact_carries nonneg differ carries measured) differ nonneg standsFor wellFormed
    tolerances sourceInside sinkInside
    ⟨standsFor.wellFormed wellFormed, .refl exact, by rwa [add_zero], measured⟩
  rcases ending with ended | ⟨_, report, -, halts⟩
  · exact ended.noFault
  · rw [quiet report] at halts
    cases halts

/-- A run from a measured flow that has no fault is settled,
and its total is what it adds to the value of the flow. -/
theorem run_settled {tolerance : α} {watch : Watch α} (differ : source ≠ sink)
    (nonneg : 0 ≤ bound) (standsFor : network.StandsFor exact) (wellFormed : network.WellFormed)
    (tolerances : value? tolerance = some bound) (sourceInside : source < network.vertexCount)
    (sinkInside : sink < network.vertexCount) (carries : exact.Carries source sink start)
    (measured : exact.Measured α)
    (noFault : (run network source sink tolerance watch).fault = none) :
    ∃ last total, (run network source sink tolerance watch).Settled bound source sink exact last
        (start + total) ∧ last.Measured α ∧
      value? (run network source sink tolerance watch).total = some total := by
  rw [standsFor.shape.vertexCount] at sourceInside sinkInside
  obtain ⟨steps, last, follows, ⟨stays, bounds, kept, measures⟩, total, ending⟩ :=
    run_follows watch (keepsExact_carries nonneg differ carries measured) differ nonneg standsFor
      wellFormed tolerances sourceInside sinkInside
      ⟨standsFor.wellFormed wellFormed, .refl exact, by rwa [add_zero], measured⟩
  rcases ending with ended | ⟨_, report, halted, -⟩
  · exact ⟨last, _, ⟨bounds, follows.network, stays, kept, measures.toOnLattice,
      kept.roomFits measures, ended⟩, measures, total⟩
  · rw [noFault] at halted
    cases halted

/-- A run from a measured flow without a value is finished when it has no fault. -/
theorem run_finished {tolerance : α} {watch : Watch α} (differ : source ≠ sink)
    (nonneg : 0 ≤ bound) (standsFor : network.StandsFor exact) (wellFormed : network.WellFormed)
    (tolerances : value? tolerance = some bound) (sourceInside : source < network.vertexCount)
    (sinkInside : sink < network.vertexCount) (carries : exact.Carries source sink 0)
    (measured : exact.Measured α)
    (noFault : (run network source sink tolerance watch).fault = none) :
    ∃ last total, (run network source sink tolerance watch).Finished bound source sink exact last
      total := by
  obtain ⟨last, total, settled, measures, known⟩ := run_settled differ nonneg standsFor wellFormed
    tolerances sourceInside sinkInside carries measured noFault
  rw [zero_add] at settled
  exact ⟨last, total, settled, measures, known⟩

omit [ExactQuantity α] in
/-- A run gives a result when it has no fault and the total flows can be computed. -/
theorem Run.result_eq_ok_iff {run : Run α} {recordPaths : Bool} {result : Result α} :
    run.result source sink recordPaths = .ok result ↔
      run.fault = none ∧ ∃ flows, run.network.totalFlows = .ok flows ∧ result = {
        value := run.total
        source
        sink
        minCut := run.finder.reachable.map Int.ofNat
        flows
        augmentations := run.augmentations.length
        bottlenecks := run.augmentations.map Augmentation.bottleneck
        paths := if recordPaths then run.augmentations.map fun augmentation =>
          (augmentation.vertices sink).map Int.ofNat else [] } := by
  unfold Run.result
  cases run.fault with
  | some fault => exact ⟨nofun, nofun⟩
  | none =>
    cases run.network.totalFlows with
    | error fault => exact ⟨nofun, nofun⟩
    | ok flows =>
      constructor
      · intro ok
        exact ⟨rfl, flows, rfl, (Except.ok.inj ok).symm⟩
      · rintro ⟨-, _, read, rfl⟩
        rw [← Except.ok.inj read]
        rfl

omit [ExactQuantity α] in
/-- A warm solve that gives a result had a run without a fault. -/
theorem solveWarm_ok {options : Options α} {watch : Watch α} {result : Result α}
    (sourceInside : source < network.vertexCount) (sinkInside : sink < network.vertexCount)
    (differ : source ≠ sink)
    (ok : (solveWarm network source sink options watch).outcome = .ok result) :
    0 < watch.interval ∧ (run network source sink options.tolerance watch).fault = none := by
  by_cases interval : 0 < watch.interval
  · rw [solveWarm_eq options sourceInside sinkInside differ interval] at ok
    exact ⟨interval, (Run.result_eq_ok_iff.mp ok).1⟩
  · simp only [solveWarm, checkTerminals_natCast sourceInside sinkInside differ, solveFrom,
      if_pos (not_lt.mp interval)] at ok
    cases ok

omit [ExactQuantity α] in
/-- A result counts the augmentations of its run and lists their bottlenecks. -/
theorem Run.result_eq_ok {run : Run α} {recordPaths : Bool} {result : Result α}
    (ok : run.result source sink recordPaths = .ok result) :
    result.augmentations = run.augmentations.length ∧
      result.bottlenecks = run.augmentations.map Augmentation.bottleneck := by
  obtain ⟨-, flows, -, rfl⟩ := Run.result_eq_ok_iff.mp ok
  exact ⟨rfl, rfl⟩

namespace Run.Settled

variable {run : Run α} {value : Rat}

/-- The network that a settled run leaves is well-formed. -/
theorem leftForm (settled : run.Settled bound source sink exact last value) :
    run.network.WellFormed :=
  settled.wellFormed.ofSameShape settled.network.shape.symm

/-- The value of the flow that a settled run leaves is the capacity of its cut. -/
theorem total_eq (settled : run.Settled bound source sink exact last value)
    (differ : source ≠ sink) (discrete : Discrete α bound) :
    value = last.leaving (fun edge => edge.capacity) run.finder.side :=
  settled.ended.found.total_eq settled.ended.unreached differ discrete settled.carries
    settled.onLattice

theorem source_mem (settled : run.Settled bound source sink exact last value) :
    source ∈ run.finder.side :=
  Finder.mem_side_iff.mpr settled.ended.found.root

theorem sink_not_mem (settled : run.Settled bound source sink exact last value) :
    sink ∉ run.finder.side :=
  fun member => settled.ended.unreached (Finder.mem_side_iff.mp member)

/-- Every total flow is computed exactly when it fits. -/
theorem exact_totalFlow (settled : run.Settled bound source sink exact last value)
    (fits : ∀ edge ∈ last.edges, Fits α edge.offset ∧ Fits α (edge.flow + edge.offset)) :
    ∀ edge ∈ run.network.edges, ∃ flow, edge.totalFlow = .ok flow ∧
      value? flow = some (last.totalAt edge.index) := by
  intro edge member
  have stands := settled.leftForm.getElem?_index member
  obtain ⟨other, found, -, loads⟩ := settled.network.edge stands
  have inside := Array.mem_of_getElem? found
  have fitsFlow := (settled.fits other inside).flow
  obtain ⟨fitsOffset, fitsTotal⟩ := fits other inside
  obtain ⟨flow, added, known⟩ := exact_add loads.flow loads.offset fitsFlow fitsOffset fitsTotal
  exact ⟨flow, added, by rw [known, totalAt_eq found]⟩

/-- The result of a settled run is read from the edges that it left. -/
theorem exact_result (settled : run.Settled bound source sink exact last value)
    (fits : ∀ edge ∈ last.edges, Fits α edge.offset ∧ Fits α (edge.flow + edge.offset))
    (recordPaths : Bool) :
    ∃ result, run.result source sink recordPaths = .ok result ∧ result.value = run.total ∧
      result.minCut = run.finder.reachable.map Int.ofNat ∧
      Gives result.flows run.network.edgeCount last.totalAt := by
  obtain ⟨pairs, read, gives⟩ := exact_flows settled.leftForm.map_index fun edge member =>
    settled.exact_totalFlow fits edge (Array.mem_toList_iff.mp member)
  have computed : run.result source sink recordPaths = .ok {
      value := run.total
      source := source
      sink := sink
      minCut := run.finder.reachable.map Int.ofNat
      flows := .ofList pairs
      augmentations := run.augmentations.length
      bottlenecks := run.augmentations.map Augmentation.bottleneck
      paths := if recordPaths then run.augmentations.map fun augmentation =>
        (augmentation.vertices sink).map Int.ofNat else [] } := by
    simp only [Run.result, settled.ended.noFault, totalFlows, read]
    rfl
  exact ⟨_, computed, rfl, rfl, gives⟩

end Run.Settled
end MaxFlow
end NetworkFlow
