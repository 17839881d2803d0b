import NetworkFlow.Proofs.MaxFlow.Run

namespace NetworkFlow.MaxFlow

open Quantity ExactQuantity Network

section

variable {α : Type} [Quantity α]

/-- A run that does not run out of fuel is the same with more fuel. -/
theorem augmentAll_of_le (watch : Watch α) (source sink : Nat) :
    ∀ (fuel count : Nat) (total : α) (network : Network α) (finder : Finder α),
      (augmentAll watch source sink fuel count total network finder).fault ≠ some .unfinished →
      ∀ more, fuel ≤ more → augmentAll watch source sink more count total network finder =
        augmentAll watch source sink fuel count total network finder := by
  intro fuel
  induction fuel with
  | zero =>
    intro count total network finder finished
    exact absurd rfl finished
  | succ fuel inductionHypothesis =>
    intro count total network finder finished more enough
    obtain ⟨more, rfl⟩ : ∃ rest, more = rest + 1 := ⟨more - 1, by omega⟩
    simp only [augmentAll] at finished ⊢
    cases attempted : attempt network finder source sink total with
    | saturated next => rfl
    | failed after next fault => rfl
    | augmented after next augmentation =>
      simp only [attempted] at finished ⊢
      by_cases halted : (isReported watch (count + 1) && watch.halts
          (augmentation.report (count + 1))) = true
      · rw [if_pos halted, if_pos halted]
      · rw [if_neg halted] at finished
        rw [if_neg halted, if_neg halted,
          inductionHypothesis (count + 1) _ after next finished more (by omega)]

/-- Runs that do not run out of fuel do not depend on it. -/
theorem augmentAll_eq (watch : Watch α) {source sink count fuel more : Nat} {total : α}
    {network : Network α} {finder : Finder α}
    (first : (augmentAll watch source sink fuel count total network finder).fault ≠
      some .unfinished)
    (second : (augmentAll watch source sink more count total network finder).fault ≠
      some .unfinished) :
    augmentAll watch source sink fuel count total network finder =
      augmentAll watch source sink more count total network finder := by
  rcases Nat.le_total fuel more with less | less
  · exact (augmentAll_of_le watch source sink fuel count total network finder first more less).symm
  · exact augmentAll_of_le watch source sink more count total network finder second fuel less

omit [Quantity α] in
/-- Different vertices are accepted as terminals. -/
theorem checkTerminals_natCast {network : Network α} {source sink : Nat}
    (sourceInside : source < network.vertexCount) (sinkInside : sink < network.vertexCount)
    (differ : source ≠ sink) : checkTerminals network source sink = .ok (source, sink) := by
  have unequal : ¬(source : Int) = sink := by exact_mod_cast differ
  simp only [checkTerminals, checkVertex_natCast _ sourceInside, checkVertex_natCast _ sinkInside,
    ok_bind, if_neg unequal]
  rfl

/-- A warm solve with terminals and an interval that are accepted has a run. -/
theorem solveWarm_eq {network : Network α} {source sink : Nat} (options : Options α)
    {watch : Watch α} (sourceInside : source < network.vertexCount)
    (sinkInside : sink < network.vertexCount) (differ : source ≠ sink)
    (interval : 0 < watch.interval) : solveWarm network source sink options watch =
      let run := run network source sink options.tolerance watch
      ⟨run.network, some run.finder, some run, run.result source sink options.recordPaths⟩ := by
  simp only [solveWarm, checkTerminals_natCast sourceInside sinkInside differ, solveFrom,
    if_neg (not_le.mpr interval)]

/-- A solve with terminals and an interval that are accepted has a run from no flow. -/
theorem solve_eq {network : Network α} {source sink : Nat} (options : Options α)
    {watch : Watch α} (accepted : network.hasLowerBounds = false)
    (sourceInside : source < network.vertexCount) (sinkInside : sink < network.vertexCount)
    (differ : source ≠ sink) (interval : 0 < watch.interval) :
    solve network source sink options watch =
      let run := run network.resetFlows source sink options.tolerance watch
      ⟨run.network, some run.finder, some run, run.result source sink options.recordPaths⟩ := by
  simp only [solve, accepted, Bool.false_eq_true, if_false,
    checkTerminals_natCast sourceInside sinkInside differ, solveFrom, if_neg (not_le.mpr interval)]

end

/-- In exact arithmetic the loop ends within as many augmentations as vertices times edges,
whatever flow is on the edges. Any fuel above that bound gives the same run. -/
theorem solveWarm_terminates (network : Network Rat) (source sink : Nat) (options : Options Rat)
    (watch : Watch Rat) (wellFormed : network.WellFormed)
    (sourceInside : source < network.vertexCount) (sinkInside : sink < network.vertexCount)
    (differ : source ≠ sink) (nonneg : 0 ≤ options.tolerance) (interval : 0 < watch.interval) :
    ∃ run, (solveWarm network source sink options watch).run = some run ∧
      run.augmentations.length ≤ network.vertexCount * network.edgeCount ∧
      (run.fault = none ∨
        ∃ number report, run.fault = some (.halted number) ∧ watch.halts report) ∧
      ∀ fuel, network.vertexCount * network.edgeCount < fuel →
        augmentAll watch source sink fuel 0 0 network (.create network options.tolerance) =
          run := by
  have loop (fuel : Nat) (enough : network.vertexCount * network.edgeCount < fuel) :
      let run := augmentAll watch source sink fuel 0 zero network
        (.create network options.tolerance)
      run.augmentations.length ≤ network.vertexCount * network.edgeCount ∧
        (run.fault = none ∨
          ∃ number report, run.fault = some (.halted number) ∧ watch.halts report) := by
    have created : value? (Finder.create network options.tolerance).tolerance =
        some options.tolerance := rfl
    obtain ⟨steps, last, follows, -, -, ending⟩ := augmentAll_follows watch
      (keepsExact_rat options.tolerance source sink) differ fuel 0 (standsFor_self network)
      wellFormed created sourceInside sinkInside value?_zero trivial
    have short := follows.chain.length_le nonneg wellFormed
    refine ⟨?_, ?_⟩
    · rw [follows.augmentations.length_eq]
      exact short
    · rcases ending with ended | halted | ⟨-, length⟩
      · exact Or.inl ended.noFault
      · exact Or.inr halted
      · omega
  have finished (fuel : Nat) (enough : network.vertexCount * network.edgeCount < fuel) :
      (augmentAll watch source sink fuel 0 zero network
        (.create network options.tolerance)).fault ≠ some .unfinished := by
    rcases (loop fuel enough).2 with none | ⟨number, report, halted, -⟩
    · simp [none]
    · simp [halted]
  have enough : network.vertexCount * network.edgeCount < enoughFuel network := by
    rw [enoughFuel]
    omega
  refine ⟨run network source sink options.tolerance watch, ?_, (loop _ enough).1,
    (loop _ enough).2, ?_⟩
  · rw [solveWarm_eq options sourceInside sinkInside differ interval]
  · intro fuel more
    exact augmentAll_eq watch (finished fuel more) (finished _ enough)

/-- This network leads its second path back over an edge of the first one. Another edge carries
more than its capacity. -/
def switchback : Network Rat :=
  let lane : Load Rat := ⟨1, 0, 0, 0⟩
  (((((((Network.empty 6).attach 0 1 lane).attach 1 4 lane).attach 4 5 lane).attach 2 0
    ⟨1, 0, 3, 0⟩).attach 2 4 lane).attach 1 3 lane).attach 3 5 lane

/-- The second path crosses the edges between 2 and 0 and between 1 and 4
against their direction. -/
theorem solveWarm_terminates_switchback :
    ∃ run, (solveWarm switchback 0 5 ⟨0, false⟩ .idle).run = some run ∧
      run.augmentations.map (fun augmentation => augmentation.vertices 5) =
        [[0, 1, 4, 5], [0, 2, 4, 1, 3, 5]] ∧
      run.augmentations.length ≤ switchback.vertexCount * switchback.edgeCount ∧
      run.fault = none := by
  have wellFormed : switchback.WellFormed :=
    (((((((wellFormed_empty 6).attach (by simp) (by simp) _).attach (by simp) (by simp) _).attach
      (by simp) (by simp) _).attach (by simp) (by simp) _).attach (by simp) (by simp) _).attach
      (by simp) (by simp) _).attach (by simp) (by simp) _
  have known : (solveWarm switchback 0 5 ⟨0, false⟩ .idle).run.map (fun run =>
      run.augmentations.map fun augmentation => augmentation.vertices 5) =
        some [[0, 1, 4, 5], [0, 2, 4, 1, 3, 5]] := by decide +kernel
  obtain ⟨run, found, short, ending, -⟩ := solveWarm_terminates switchback 0 5 ⟨0, false⟩ .idle
    wellFormed (by decide) (by decide) (by decide) le_rfl (by decide)
  have ran : (solveWarm switchback 0 5 ⟨0, false⟩ .idle).run = some run := found
  rw [ran] at known
  refine ⟨run, ran, Option.some.inj known, short, ?_⟩
  rcases ending with none | ⟨_, _, _, halts⟩
  · exact none
  · exact absurd halts (by simp [Watch.idle])

end NetworkFlow.MaxFlow
