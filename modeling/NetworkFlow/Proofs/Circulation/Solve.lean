import NetworkFlow.Proofs.Circulation.WiredFlow
import NetworkFlow.Proofs.MaxFlow.Finished

namespace NetworkFlow

open Quantity ExactQuantity Network

/-- The first numbers below a limit are those below a smaller one. -/
theorem filter_range_lt {count limit : Nat} (fewer : count ≤ limit) :
    (List.range limit).filter (fun index => index < count) = List.range count := by
  obtain ⟨rest, rfl⟩ := Nat.exists_eq_add_of_le fewer
  rw [List.range_add, List.filter_append, List.filter_eq_self.mpr, List.filter_eq_nil_iff.mpr,
    List.append_nil]
  · simp
  · simp

namespace Circulation

variable {α : Type} [Quantity α] [ExactQuantity α]

/-- A result settles a circulation when it is read from a finished run on the wired network. -/
structure Settles (result : Result α) (run : MaxFlow.Run α) (tolerance : α) (exact : Network Rat)
    (demand : Nat → Rat) (bound : Rat) (last : Network Rat) (total : Rat) : Prop where
  finished : run.Finished bound exact.vertexCount (exact.vertexCount + 1)
    (exact.circulation demand bound) last total
  value : value? result.value = some total
  demand : value? result.demand =
    some (demandTotal exact.vertexCount (exact.shiftedDemand demand))
  verdict : verdict tolerance result.demand result.value = .ok result.feasible
  status : result.status = if result.feasible then .feasible else .insufficientCapacity
  flows : Gives result.flows exact.edgeCount last.totalAt
  minCut : result.minCut = run.finder.reachable.map Int.ofNat
  source : result.source = some (exact.vertexCount : Int)

/-- A settled circulation is not refused. -/
theorem Settles.status_ne {result : Result α} {run : MaxFlow.Run α} {tolerance : α}
    {exact last : Network Rat} {demand : Nat → Rat} {bound total : Rat}
    (settles : Settles result run tolerance exact demand bound last total) :
    result.status ≠ .unbalanced := by
  rw [settles.status]
  split <;> exact fun other => nomatch other

/-- A settled circulation whose edges are too small is infeasible. -/
theorem Settles.infeasible {result : Result α} {run : MaxFlow.Run α} {tolerance : α}
    {exact last : Network Rat} {demand : Nat → Rat} {bound total : Rat}
    (settles : Settles result run tolerance exact demand bound last total)
    (status : result.status = .insufficientCapacity) : result.feasible = false := by
  rw [settles.status] at status
  split at status
  · cases status
  · exact Bool.eq_false_iff.mpr ‹_›

variable {network : Network α} {exact : Network Rat} {demand : Nat → Rat} {demands : Demands α}
  {vector : List α} {options : Options α} {bound : Rat}

/-- A circulation is refused when its demands do not cancel up to the tolerance.
Otherwise its wired network is solved. -/
theorem exact_solve (posed : Posed α exact demand) (standsFor : network.resetFlows.StandsFor exact)
    (copied : network.copy = .ok network)
    (accepted : demands.vector network.vertexCount = .ok vector)
    (stands : AllStandFor vector ((List.range exact.vertexCount).map demand))
    (tolerances : value? options.tolerance = some bound) (nonneg : 0 ≤ bound) (watch : Watch α) :
    (bound < |∑ vertex ∈ Finset.range exact.vertexCount, demand vertex| ∧
      ∃ result, (solve network demands options watch).outcome = .ok result ∧
        result.status = .unbalanced ∧ result.feasible = false) ∨
    (|∑ vertex ∈ Finset.range exact.vertexCount, demand vertex| ≤ bound ∧
      ∃ working reduction wiring, solve network demands options watch =
          solveWired working exact.edgeCount reduction wiring options watch ∧
        working.StandsFor (exact.circulation demand bound) ∧
        wiring.source = exact.vertexCount ∧ wiring.sink = exact.vertexCount + 1 ∧
        value? reduction.demand =
          some (demandTotal exact.vertexCount (exact.shiftedDemand demand))) := by
  have edges : network.edgeCount = exact.edgeCount :=
    (sameShape_resetFlows network).edgeCount.trans standsFor.shape.edgeCount
  rcases posed.exact_reduceLowerBounds standsFor stands tolerances with
    ⟨wide, working, reduction, reduced, stage⟩ |
    ⟨balanced, working, reduction, reduced, stage, folded, adjusted, demandKnown, -⟩
  · left
    refine ⟨wide, unbalanced working reduction, ?_, rfl, rfl⟩
    simp only [solve, accepted, copied, ok_bind, pure, Except.pure, reduced, Reduction.balanced,
      stage, Option.isNone_some, Bool.not_false, if_true]
  · right
    obtain ⟨fitsDemand, fitsSupply, -⟩ := posed.fits_totals posed.shiftedDemand_mem
      posed.demandTotal_shifted_le posed.supplyTotal_shifted_le
    obtain ⟨wired, wiring, built, wiredStands, source, sink⟩ := exact_buildCirculation folded
      adjusted tolerances nonneg posed.shiftedDemand_mem fitsSupply fitsDemand
    refine ⟨balanced, wired, reduction, wiring, ?_, wiredStands, source, sink, demandKnown⟩
    simp only [solve, accepted, copied, ok_bind, pure, Except.pure, reduced, Reduction.balanced,
      stage, Option.isNone_none, Bool.not_true, Bool.false_eq_true, if_false, built, edges]

/-- The flow on an edge of the solved network fits with what its folded lower bound forces. -/
theorem fits_last {last : Network Rat} {total : Rat} {source sink : Nat}
    (posed : Posed α exact demand) (bounds : (exact.circulation demand bound).SameBounds last)
    (carries : last.Carries source sink total) (measured : last.Measured α) :
    ∀ edge ∈ last.edges, Fits α edge.offset ∧ Fits α (edge.flow + edge.offset) := by
  intro edge member
  obtain ⟨position, stands⟩ := Array.mem_iff_getElem?.mp member
  obtain ⟨twin, found, -⟩ := bounds.shape.symm.getElem? stands
  obtain ⟨capacity, -, offset⟩ := bounds.bounds found stands
  have flowMember := measured.flow edge member
  have flowLeast := carries.nonneg edge member
  have flowMost := carries.atMost edge member
  have wire (load : twin.offset = 0) :
      Fits α edge.offset ∧ Fits α (edge.flow + edge.offset) := by
    rw [offset, load, add_zero]
    exact ⟨fits_zero, (carries.roomFits measured edge member).flow⟩
  rcases circulation_cases (Array.mem_of_getElem? found) with
    ⟨old, inside, rfl⟩ | ⟨-, -, _, -, -, -, load⟩ | ⟨-, -, _, -, -, -, load⟩
  · have lower : edge.offset = old.lower := by
      rw [offset]
      show old.offset + old.lower = old.lower
      rw [posed.offset old inside, zero_add]
    have room : edge.capacity = old.capacity - old.lower := capacity
    have least := posed.least old inside
    have lowerMember := posed.lowers old inside
    rw [lower]
    refine ⟨posed.fits_capacity inside lowerMember least (posed.most old inside), ?_⟩
    exact posed.fits_capacity inside (add_mem flowMember lowerMember) (by linarith) (by linarith)
  · exact wire (by rw [load])
  · exact wire (by rw [load])

/-- The total flows on the edges of the caller are read exactly. -/
theorem exact_flowsBelow {run : MaxFlow.Run α} {first last : Network Rat} {total : Rat}
    {source sink count : Nat} (finished : run.Finished bound source sink first last total)
    (fits : ∀ edge ∈ last.edges, Fits α edge.offset ∧ Fits α (edge.flow + edge.offset))
    (fewer : count ≤ last.edgeCount) :
    ∃ flows, flowsBelow run.network count = .ok flows ∧ Gives flows count last.totalAt := by
  have wellFormed := finished.wellFormed.ofSameShape finished.network.shape.symm
  have indices : (run.network.edges.toList.filter fun edge => edge.index < count).map Edge.index =
      List.range count := by
    have kept : (run.network.edges.toList.filter fun edge => edge.index < count).map Edge.index =
        (run.network.edges.toList.map Edge.index).filter fun index => index < count := by
      rw [List.filter_map]
      rfl
    rw [kept, wellFormed.map_index, finished.network.shape.edgeCount]
    exact filter_range_lt fewer
  obtain ⟨pairs, read, gives⟩ := exact_flows indices fun edge member =>
    finished.exact_totalFlow fits edge (Array.mem_toList_iff.mp (List.mem_filter.mp member).1)
  refine ⟨.ofList pairs, ?_, gives⟩
  simp only [flowsBelow, read]
  rfl

section Wired

variable {working : Network α} {reduction : Reduction α} {wiring : Wiring α} {watch : Watch α}

/-- The new source and the new sink are vertices of the wired network. -/
theorem terminals_inside
    (standsFor : working.StandsFor (exact.circulation demand bound)) :
    exact.vertexCount < working.vertexCount ∧ exact.vertexCount + 1 < working.vertexCount := by
  have count : working.vertexCount = exact.vertexCount + 2 := by
    rw [standsFor.shape.vertexCount, vertexCount_circulation]
  omega

/-- A finished run on the wired network is judged and read into a result. -/
theorem exact_solveWired {last : Network Rat} {total : Rat} {feasible : Bool}
    (posed : Posed α exact demand) (standsFor : working.StandsFor (exact.circulation demand bound))
    (source : wiring.source = exact.vertexCount) (sink : wiring.sink = exact.vertexCount + 1)
    (known : value? reduction.demand =
      some (demandTotal exact.vertexCount (exact.shiftedDemand demand)))
    (interval : 0 < watch.interval)
    (finished : (MaxFlow.run working exact.vertexCount (exact.vertexCount + 1) options.tolerance
      watch).Finished bound exact.vertexCount (exact.vertexCount + 1)
      (exact.circulation demand bound) last total)
    (judged : verdict options.tolerance reduction.demand (MaxFlow.run working exact.vertexCount
      (exact.vertexCount + 1) options.tolerance watch).total = .ok feasible) :
    ∃ result, (solveWired working exact.edgeCount reduction wiring options watch).outcome =
        .ok result ∧
      Settles result (MaxFlow.run working exact.vertexCount (exact.vertexCount + 1)
        options.tolerance watch) options.tolerance exact demand bound last total := by
  obtain ⟨sourceInside, sinkInside⟩ := terminals_inside standsFor
  have warm := MaxFlow.solveWarm_eq options sourceInside sinkInside (by omega) interval
  have fits := fits_last posed finished.bounds finished.carries finished.measured
  have fewer : exact.edgeCount ≤ last.edgeCount := by
    by_contra more
    have inside : last.edgeCount < exact.edges.size := not_le.mp more
    obtain ⟨twin, found, -⟩ := own_edge finished.bounds posed.offset
      (Array.getElem?_eq_getElem inside)
    exact absurd (Array.getElem?_eq_some_iff.mp found).1 (lt_irrefl _)
  obtain ⟨flow, computed, valued, cut, -⟩ := finished.exact_result fits options.recordPaths
  obtain ⟨flows, read, gives⟩ := exact_flowsBelow finished fits fewer
  refine ⟨⟨feasible, flow.value, reduction.demand, reduction.supply,
    if feasible then .feasible else .insufficientCapacity, none, flow.minCut, flows,
    reduction.adjustedDemands, some exact.vertexCount, some (exact.vertexCount + 1 : Nat),
    flow.augmentations, some (MaxFlow.run working exact.vertexCount (exact.vertexCount + 1)
      options.tolerance watch).network⟩, ?_, finished, ?_, known, ?_, rfl, gives, cut, rfl⟩
  · simp only [solveWired, source, sink, warm, computed, ok_bind, valued, judged, pure,
      Except.pure, read]
  · rw [valued, finished.total]
  · rw [valued, judged]

/-- A result of a wired solve settles the circulation. -/
theorem solveWired_settles {result : Result α} (posed : Posed α exact demand) (nonneg : 0 ≤ bound)
    (standsFor : working.StandsFor (exact.circulation demand bound))
    (source : wiring.source = exact.vertexCount) (sink : wiring.sink = exact.vertexCount + 1)
    (known : value? reduction.demand =
      some (demandTotal exact.vertexCount (exact.shiftedDemand demand)))
    (tolerances : value? options.tolerance = some bound)
    (ok : (solveWired working exact.edgeCount reduction wiring options watch).outcome =
      .ok result) :
    ∃ run last total, Settles result run options.tolerance exact demand bound last total := by
  obtain ⟨sourceInside, sinkInside⟩ := terminals_inside standsFor
  have differ : exact.vertexCount ≠ exact.vertexCount + 1 := by omega
  cases outcome : (MaxFlow.solveWarm working exact.vertexCount (exact.vertexCount + 1 : Nat)
      options watch).outcome with
  | error fault =>
    simp only [solveWired, source, sink, outcome, error_bind] at ok
    cases ok
  | ok flow =>
    obtain ⟨interval, noFault⟩ := MaxFlow.solveWarm_ok sourceInside sinkInside differ outcome
    have warm := MaxFlow.solveWarm_eq options sourceInside sinkInside differ interval
    obtain ⟨last, total, finished⟩ := MaxFlow.run_finished differ nonneg standsFor
      ((wellFormed_circulation posed.wellFormed).ofSameShape standsFor.shape.symm) tolerances
      sourceInside sinkInside (posed.carries_circulation nonneg _ _)
      (posed.measured_circulation nonneg) noFault
    obtain ⟨given, computed, valued, -⟩ := finished.exact_result
      (fits_last posed finished.bounds finished.carries finished.measured) options.recordPaths
    cases judged : verdict options.tolerance reduction.demand (MaxFlow.run working
        exact.vertexCount (exact.vertexCount + 1) options.tolerance watch).total with
    | error fault =>
      simp only [solveWired, source, sink, warm, computed, ok_bind, valued, judged,
        error_bind] at ok
      cases ok
    | ok feasible =>
      obtain ⟨other, settled, settles⟩ := exact_solveWired posed standsFor source sink known
        interval finished judged
      rw [ok] at settled
      rw [← Except.ok.inj settled] at settles
      exact ⟨_, last, total, settles⟩

omit [ExactQuantity α] in
/-- The verdict compares the value of the flow with what it must reach. -/
theorem verdict_eq {tolerance demand room : α} (spared : sub demand tolerance = .ok room)
    (value : α) : verdict tolerance demand value = .ok (lessEq room value) := by
  rw [verdict, spared]
  rfl

/-- A wired solve gives a result when its watch is quiet and the verdict can be computed. -/
theorem solveWired_ok {room : α} (posed : Posed α exact demand) (nonneg : 0 ≤ bound)
    (standsFor : working.StandsFor (exact.circulation demand bound))
    (source : wiring.source = exact.vertexCount) (sink : wiring.sink = exact.vertexCount + 1)
    (known : value? reduction.demand =
      some (demandTotal exact.vertexCount (exact.shiftedDemand demand)))
    (tolerances : value? options.tolerance = some bound) (interval : 0 < watch.interval)
    (quiet : ∀ report, watch.halts report = false)
    (spared : sub reduction.demand options.tolerance = .ok room) :
    ∃ result, (solveWired working exact.edgeCount reduction wiring options watch).outcome =
      .ok result := by
  obtain ⟨sourceInside, sinkInside⟩ := terminals_inside standsFor
  have differ : exact.vertexCount ≠ exact.vertexCount + 1 := by omega
  have wellFormed := (wellFormed_circulation posed.wellFormed).ofSameShape standsFor.shape.symm
  have carries := posed.carries_circulation nonneg exact.vertexCount (exact.vertexCount + 1)
  have measured := posed.measured_circulation nonneg
  obtain ⟨last, total, finished⟩ := MaxFlow.run_finished differ nonneg standsFor wellFormed
    tolerances sourceInside sinkInside carries measured
    (MaxFlow.run_noFault quiet differ nonneg standsFor wellFormed tolerances sourceInside
      sinkInside carries measured)
  obtain ⟨result, settled, -⟩ := exact_solveWired posed standsFor source sink known interval
    finished (verdict_eq spared _)
  exact ⟨result, settled⟩

end Wired

variable {watch : Watch α}

/-- A result tells that the demands do not cancel, or it settles the circulation. -/
theorem solve_settles {result : Result α} (posed : Posed α exact demand)
    (standsFor : network.resetFlows.StandsFor exact) (copied : network.copy = .ok network)
    (accepted : demands.vector network.vertexCount = .ok vector)
    (stands : AllStandFor vector ((List.range exact.vertexCount).map demand))
    (tolerances : value? options.tolerance = some bound) (nonneg : 0 ≤ bound)
    (ok : (solve network demands options watch).outcome = .ok result) :
    (bound < |∑ vertex ∈ Finset.range exact.vertexCount, demand vertex| ∧
      result.status = .unbalanced ∧ result.feasible = false) ∨
    (|∑ vertex ∈ Finset.range exact.vertexCount, demand vertex| ≤ bound ∧
      ∃ run last total, Settles result run options.tolerance exact demand bound last total) := by
  rcases exact_solve posed standsFor copied accepted stands tolerances nonneg watch with
    ⟨wide, refusal, refused, status, verdict⟩ |
    ⟨balanced, working, reduction, wiring, same, wired, source, sink, known⟩
  · left
    rw [refused] at ok
    rw [← Except.ok.inj ok]
    exact ⟨wide, status, verdict⟩
  · right
    rw [same] at ok
    exact ⟨balanced, solveWired_settles posed nonneg wired source sink known tolerances ok⟩

/-- A result settles the circulation when the demands cancel. -/
theorem solve_settles_of_cancels {result : Result α} (posed : Posed α exact demand)
    (standsFor : network.resetFlows.StandsFor exact) (copied : network.copy = .ok network)
    (accepted : demands.vector network.vertexCount = .ok vector)
    (stands : AllStandFor vector ((List.range exact.vertexCount).map demand))
    (tolerances : value? options.tolerance = some bound) (nonneg : 0 ≤ bound)
    (cancels : ∑ vertex ∈ Finset.range exact.vertexCount, demand vertex = 0)
    (ok : (solve network demands options watch).outcome = .ok result) :
    ∃ run last total, Settles result run options.tolerance exact demand bound last total := by
  rcases solve_settles posed standsFor copied accepted stands tolerances nonneg ok with
    ⟨wide, -⟩ | ⟨-, settles⟩
  · rw [cancels, abs_zero] at wide
    exact absurd nonneg (not_le.mpr wide)
  · exact settles

/-- A solve with a quiet watch gives a result when the verdict can be computed. -/
theorem solve_ok (posed : Posed α exact demand)
    (standsFor : network.resetFlows.StandsFor exact) (copied : network.copy = .ok network)
    (accepted : demands.vector network.vertexCount = .ok vector)
    (stands : AllStandFor vector ((List.range exact.vertexCount).map demand))
    (tolerances : value? options.tolerance = some bound) (nonneg : 0 ≤ bound)
    (interval : 0 < watch.interval) (quiet : ∀ report, watch.halts report = false)
    (spared : ∀ total, value? total =
        some (demandTotal exact.vertexCount (exact.shiftedDemand demand)) →
      ∃ room, sub total options.tolerance = .ok room) :
    ∃ result, (solve network demands options watch).outcome = .ok result := by
  rcases exact_solve posed standsFor copied accepted stands tolerances nonneg watch with
    ⟨-, refusal, refused, -⟩ |
    ⟨-, working, reduction, wiring, same, wired, source, sink, known⟩
  · exact ⟨refusal, refused⟩
  · rw [same]
    obtain ⟨room, subtracted⟩ := spared reduction.demand known
    exact solveWired_ok posed nonneg wired source sink known tolerances interval quiet subtracted

end Circulation
end NetworkFlow
