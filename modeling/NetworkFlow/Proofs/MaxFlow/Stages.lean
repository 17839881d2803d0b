import NetworkFlow.Proofs.MaxFlow.Optimality

namespace NetworkFlow

open Quantity ExactQuantity Network

namespace MaxFlow

section

variable {α : Type} [Quantity α]

/-- A stage is what the loop holds between two augmentations. -/
structure Stage (α : Type) where
  network : Network α
  finder : Finder α
  total : α

/-- A run starts without a total, and its finder has not searched. -/
def Stage.start (network : Network α) (tolerance : α) : Stage α :=
  ⟨network, .create network tolerance, zero⟩

/-- The augmentations that the loop makes lead from one stage to another. -/
inductive Passes (source sink : Nat) : Stage α → List (Augmentation α) → Stage α → Prop where
  | stop (stage : Stage α) : Passes source sink stage [] stage
  | step {stage last : Stage α} {network : Network α} {finder : Finder α}
      {augmentation : Augmentation α} {rest : List (Augmentation α)}
      (augmented : attempt stage.network stage.finder source sink stage.total =
        .augmented network finder augmentation)
      (passes : Passes source sink ⟨network, finder, augmentation.total⟩ rest last) :
      Passes source sink stage (augmentation :: rest) last

/-- The loop is at some stage after each part of its augmentations, and goes on from there. -/
theorem Passes.of_append {source sink : Nat} {made rest : List (Augmentation α)}
    {stage last : Stage α} (passes : Passes source sink stage (made ++ rest) last) :
    ∃ middle, Passes source sink stage made middle ∧ Passes source sink middle rest last := by
  induction made generalizing stage with
  | nil => exact ⟨stage, .stop stage, passes⟩
  | cons first made inductionHypothesis =>
    cases passes with
    | step augmented passes =>
      obtain ⟨middle, earlier, later⟩ := inductionHypothesis passes
      exact ⟨middle, .step augmented earlier, later⟩

/-- The total of a stage is the total of the last augmentation that led there. -/
theorem Passes.total_eq {source sink : Nat} {made : List (Augmentation α)} {stage last : Stage α}
    (passes : Passes source sink stage made last) :
    (made.getLast?.map Augmentation.total).getD stage.total = last.total := by
  induction passes with
  | stop stage => rfl
  | step augmented passes inductionHypothesis =>
    rw [← inductionHypothesis, List.getLast?_cons]
    cases List.getLast? _ <;> rfl

/-- A loop that does not fail ends at a stage, whether it ends by itself, is halted
or runs out of fuel. -/
theorem augmentAll_passes (watch : Watch α) (source sink : Nat) {sound : Stage α → Prop}
    (steps : ∀ {stage network finder augmentation}, sound stage →
      attempt stage.network stage.finder source sink stage.total =
        .augmented network finder augmentation → sound ⟨network, finder, augmentation.total⟩)
    (succeeds : ∀ {stage network finder fault}, sound stage →
      attempt stage.network stage.finder source sink stage.total ≠ .failed network finder fault) :
    ∀ (fuel count : Nat) (stage : Stage α), sound stage →
      ∃ last, Passes source sink stage
          (augmentAll watch source sink fuel count stage.total stage.network
            stage.finder).augmentations last ∧
        (augmentAll watch source sink fuel count stage.total stage.network
          stage.finder).network = last.network := by
  intro fuel
  induction fuel with
  | zero =>
    intro count stage _
    exact ⟨stage, .stop stage, rfl⟩
  | succ fuel inductionHypothesis =>
    intro count stage holds
    simp only [augmentAll]
    cases attempted : attempt stage.network stage.finder source sink stage.total with
    | saturated next => exact ⟨stage, .stop stage, rfl⟩
    | failed after next fault => exact absurd attempted (succeeds holds)
    | augmented after next augmentation =>
      dsimp only
      split
      · exact ⟨_, .step attempted (.stop _), rfl⟩
      · obtain ⟨last, passes, network⟩ :=
          inductionHypothesis (count + 1) ⟨after, next, augmentation.total⟩ (steps holds attempted)
        exact ⟨last, .step attempted passes, network⟩

omit [Quantity α] in
/-- A report tells of an augmentation of its run, with the number that it has there. -/
theorem Run.mem_reports {run : Run α} {watch : Watch α} {report : Report α}
    (member : report ∈ run.reports watch) :
    ∃ (position : Nat) (augmentation : Augmentation α),
      run.augmentations[position]? = some augmentation ∧
      report = augmentation.report (position + 1) := by
  obtain ⟨⟨augmentation, number⟩, numbered, reported⟩ := List.mem_filterMap.mp member
  obtain ⟨positive, stands⟩ := List.mk_mem_zipIdx_iff_le_and_getElem?_sub.mp numbered
  dsimp only at reported
  split at reported
  · refine ⟨number - 1, augmentation, stands, ?_⟩
    rw [Nat.sub_add_cancel positive]
    exact (Option.some.inj reported).symm
  · cases reported

/-- A report tells the number and the total of the stage that the run is at. -/
theorem Passes.of_report {source sink : Nat} {stage last : Stage α} {run : Run α}
    (passes : Passes source sink stage run.augmentations last) {watch : Watch α}
    {report : Report α} (member : report ∈ run.reports watch) :
    report.augmentation ≤ run.augmentations.length ∧ ∃ middle,
      Passes source sink stage (run.augmentations.take report.augmentation) middle ∧
      middle.total = report.total := by
  obtain ⟨position, augmentation, stands, rfl⟩ := Run.mem_reports member
  obtain ⟨inside, -⟩ := List.getElem?_eq_some_iff.mp stands
  rw [← List.take_append_drop (position + 1) run.augmentations] at passes
  obtain ⟨middle, earlier, -⟩ := passes.of_append
  refine ⟨Nat.succ_le_of_lt inside, middle, earlier, ?_⟩
  rw [← earlier.total_eq, List.getLast?_take, if_neg (Nat.succ_ne_zero position),
    Nat.add_sub_cancel, stands]
  rfl

end

/-- A stage is sound when its network keeps the bounds of a first one and carries its total. -/
structure Stage.Sound (first : Network Rat) (source sink : Nat) (bound : Rat) (stage : Stage Rat) :
    Prop where
  bounds : first.SameBounds stage.network
  tolerance : stage.finder.tolerance = bound
  carries : stage.network.Carries source sink stage.total

section Exact

variable {first network : Network Rat} {source sink : Nat} {bound : Rat} {stage : Stage Rat}

/-- An attempt in exact arithmetic ends the loop or augments along a shortest residual path. -/
theorem Stage.attempt_cases (wellFormed : stage.network.WellFormed)
    (sourceInside : source < stage.network.vertexCount)
    (sinkInside : sink < stage.network.vertexCount) (differ : source ≠ sink) :
    (∃ next, attempt stage.network stage.finder source sink stage.total = .saturated next) ∨
      ∃ arcs amount next,
        Augments stage.finder.tolerance source sink stage.network arcs amount ∧
        next.tolerance = stage.finder.tolerance ∧
        attempt stage.network stage.finder source sink stage.total =
          .augmented (stage.network.shifted amount arcs) next
            ⟨arcs, amount, stage.total + amount⟩ := by
  rcases exact_attempt stage.finder (standsFor_self stage.network) (roomFits_rat stage.network)
    wellFormed (show value? stage.finder.tolerance = some _ from rfl) sourceInside sinkInside
    differ stage.total with
    ⟨next, attempted, -⟩ | ⟨arcs, value, amount, augments, known, effect⟩
  · exact Or.inl ⟨next, attempted⟩
  · obtain ⟨after, next, stands, tolerance, attempted⟩ := effect trivial fun _ _ => trivial
    obtain rfl := stands.eq
    obtain rfl := Option.some.inj known
    exact Or.inr ⟨arcs, amount, next, augments, tolerance, attempted _ rfl⟩

/-- An attempt from a sound stage ends the loop or augments within the tolerance of the solve. -/
theorem Stage.Sound.attempt_cases (sound : stage.Sound first source sink bound)
    (wellFormed : first.WellFormed) (sourceInside : source < first.vertexCount)
    (sinkInside : sink < first.vertexCount) (differ : source ≠ sink) :
    (∃ next, attempt stage.network stage.finder source sink stage.total = .saturated next) ∨
      ∃ arcs amount next, Augments bound source sink stage.network arcs amount ∧
        next.tolerance = bound ∧
        attempt stage.network stage.finder source sink stage.total =
          .augmented (stage.network.shifted amount arcs) next
            ⟨arcs, amount, stage.total + amount⟩ := by
  have count := sound.bounds.shape.vertexCount
  rw [← sound.tolerance]
  exact Stage.attempt_cases (wellFormed.ofSameShape sound.bounds.shape) (count ▸ sourceInside)
    (count ▸ sinkInside) differ

/-- An augmentation leads from a sound stage to a sound one. -/
theorem Stage.Sound.step (sound : stage.Sound first source sink bound)
    (wellFormed : first.WellFormed) (sourceInside : source < first.vertexCount)
    (sinkInside : sink < first.vertexCount) (differ : source ≠ sink) (nonneg : 0 ≤ bound)
    {after : Network Rat} {next : Finder Rat} {augmentation : Augmentation Rat}
    (augmented : attempt stage.network stage.finder source sink stage.total =
      .augmented after next augmentation) :
    Stage.Sound first source sink bound ⟨after, next, augmentation.total⟩ := by
  rcases sound.attempt_cases wellFormed sourceInside sinkInside differ with
    ⟨other, saturated⟩ | ⟨arcs, amount, other, augments, tolerance, attempted⟩
  · rw [saturated] at augmented
    cases augmented
  · rw [attempted] at augmented
    cases augmented
    refine ⟨sound.bounds.trans (sameBounds_shifted _ _ _), tolerance, ?_⟩
    exact augments.carries (wellFormed.ofSameShape sound.bounds.shape) nonneg sound.carries

/-- Every stage that is passed from a sound one is sound. -/
theorem Stage.Sound.passes (sound : stage.Sound first source sink bound)
    (wellFormed : first.WellFormed) (sourceInside : source < first.vertexCount)
    (sinkInside : sink < first.vertexCount) (differ : source ≠ sink) (nonneg : 0 ≤ bound)
    {made : List (Augmentation Rat)} {last : Stage Rat}
    (passes : Passes source sink stage made last) : last.Sound first source sink bound := by
  induction passes with
  | stop stage => exact sound
  | step augmented passes inductionHypothesis =>
    exact inductionHypothesis
      (sound.step wellFormed sourceInside sinkInside differ nonneg augmented)

/-- A run without flow starts at a sound stage. -/
theorem sound_start (source sink : Nat) (bound : Rat)
    (capacities : ∀ edge ∈ network.edges, 0 ≤ edge.capacity) :
    (Stage.start network.resetFlows bound).Sound network source sink bound := by
  have cleared : ∀ edge ∈ network.resetFlows.edges, ∃ old ∈ network.edges,
      { old with flow := 0 } = edge := by
    intro edge member
    exact Array.mem_map.mp member
  refine ⟨⟨sameShape_resetFlows network, ?_⟩, rfl, carries_zero source sink ?_ ?_⟩
  · intro position edge other stands standsToo
    simp only [Stage.start, resetFlows, Array.getElem?_map, stands, Option.map_some,
      Option.some.injEq] at standsToo
    rw [← standsToo]
    exact ⟨rfl, rfl, rfl⟩
  · intro edge member
    obtain ⟨old, -, rfl⟩ := cleared edge member
    rfl
  · intro edge member
    obtain ⟨old, inside, rfl⟩ := cleared edge member
    exact capacities old inside

/-- A run without flow ends at a stage, and only its watch can halt it. -/
theorem run_passes (wellFormed : network.WellFormed)
    (capacities : ∀ edge ∈ network.edges, 0 ≤ edge.capacity)
    (sourceInside : source < network.vertexCount) (sinkInside : sink < network.vertexCount)
    (differ : source ≠ sink) (nonneg : 0 ≤ bound) (watch : Watch Rat) :
    ∃ last, Passes source sink (.start network.resetFlows bound)
        (run network.resetFlows source sink bound watch).augmentations last ∧
      (run network.resetFlows source sink bound watch).network = last.network ∧
      (run network.resetFlows source sink bound watch).total = last.total ∧
      ((run network.resetFlows source sink bound watch).fault = none ∨
        ∃ number report, (run network.resetFlows source sink bound watch).fault =
          some (.halted number) ∧ watch.halts report) := by
  have same := sameShape_resetFlows network
  obtain ⟨last, passes, left⟩ := augmentAll_passes watch source sink
    (fun sound augmented =>
      sound.step wellFormed sourceInside sinkInside differ nonneg augmented)
    (by
      intro stage after next fault sound failed
      rcases sound.attempt_cases wellFormed sourceInside sinkInside differ with
        ⟨other, saturated⟩ | ⟨arcs, amount, other, -, -, augmented⟩
      · rw [saturated] at failed
        cases failed
      · rw [augmented] at failed
        cases failed)
    (enoughFuel network.resetFlows) 0 _ (sound_start source sink bound capacities)
  obtain ⟨_, _, -, -, -, ending⟩ := run_follows watch (keepsExact_rat bound source sink) differ
    nonneg (standsFor_self network.resetFlows) (wellFormed.ofSameShape same)
    (show value? bound = some bound from rfl) (same.vertexCount ▸ sourceInside)
    (same.vertexCount ▸ sinkInside) trivial
  refine ⟨last, passes, left, passes.total_eq, ?_⟩
  rcases ending with ended | halted
  · exact Or.inl ended.noFault
  · exact Or.inr halted

end Exact

/-- In exact arithmetic every stage of a solve has the bounds of the network and a feasible flow
whose value is the total so far. The watch sees the totals of stages,
and the network that a solve leaves behind is that of a stage, also when the watch halts it. -/
theorem solve_keeps_flow (network : Network Rat) (wellFormed : network.WellFormed)
    (capacities : ∀ edge ∈ network.edges, 0 ≤ edge.capacity)
    (lowers : ∀ edge ∈ network.edges, edge.lower = 0)
    (offsets : ∀ edge ∈ network.edges, edge.offset = 0) (source sink : Nat)
    (sourceInside : source < network.vertexCount) (sinkInside : sink < network.vertexCount)
    (differ : source ≠ sink) (options : Options Rat) (nonneg : 0 ≤ options.tolerance)
    (watch : Watch Rat) :
    (∀ made stage,
      Passes source sink (.start network.resetFlows options.tolerance) made stage →
      network.SameBounds stage.network ∧
      (∀ edge ∈ stage.network.edges, 0 ≤ edge.flow ∧ edge.flow ≤ edge.capacity) ∧
      (∀ vertex, vertex ≠ source → vertex ≠ sink →
        stage.network.inflow (fun edge => edge.flow) vertex =
          stage.network.outflow (fun edge => edge.flow) vertex) ∧
      stage.network.outflow (fun edge => edge.flow) source -
        stage.network.inflow (fun edge => edge.flow) source = stage.total ∧
      stage.network.inflow (fun edge => edge.flow) sink -
        stage.network.outflow (fun edge => edge.flow) sink = stage.total) ∧
    ∃ made last, Passes source sink (.start network.resetFlows options.tolerance) made last ∧
      (solve network source sink options watch).network = last.network ∧
      (∀ run, (solve network source sink options watch).run = some run →
        run.augmentations = made ∧ run.total = last.total ∧
        (run.fault = none ∨
          ∃ number report, run.fault = some (.halted number) ∧ watch.halts report)) ∧
      ∀ report ∈ (solve network source sink options watch).reports watch,
        report.augmentation ≤ made.length ∧ ∃ stage,
          Passes source sink (.start network.resetFlows options.tolerance)
            (made.take report.augmentation) stage ∧ stage.total = report.total := by
  have sound := sound_start source sink options.tolerance capacities
  refine ⟨?_, ?_⟩
  · intro made stage passes
    have reached := sound.passes wellFormed sourceInside sinkInside differ nonneg passes
    have balance := reached.carries.balance
    refine ⟨reached.bounds, fun edge member => ⟨reached.carries.nonneg edge member,
      reached.carries.atMost edge member⟩, ?_, ?_, ?_⟩
    · intro vertex notSource notSink
      have conserved := balance vertex
      rw [if_neg (Ne.symm notSource), if_neg (Ne.symm notSink), sub_zero, netOutflow,
        sub_eq_zero] at conserved
      exact conserved.symm
    · have sends := balance source
      rwa [if_pos rfl, if_neg differ.symm, sub_zero] at sends
    · have receives := balance sink
      rw [if_neg differ, if_pos rfl, zero_sub, netOutflow] at receives
      rw [← neg_sub, receives, neg_neg]
  · have accepted : network.hasLowerBounds = false := hasLowerBounds_eq_false
      (fun edge member => congrArg some (lowers edge member))
      (fun edge member => congrArg some (offsets edge member))
    by_cases interval : watch.interval ≤ 0
    · refine ⟨[], .start network.resetFlows options.tolerance, .stop _, ?_, ?_, ?_⟩ <;>
        simp [solve, accepted, checkTerminals_natCast sourceInside sinkInside differ, solveFrom,
          interval, Stage.start, Solve.reports]
    · have solved : solve network source sink options watch =
          let run := run network.resetFlows source sink options.tolerance watch
          ⟨run.network, some run.finder, some run,
            run.result source sink options.recordPaths⟩ := by
        simp only [solve, accepted, Bool.false_eq_true, if_false,
          checkTerminals_natCast sourceInside sinkInside differ, solveFrom, if_neg interval]
      obtain ⟨last, passes, left, total, ending⟩ := run_passes wellFormed capacities sourceInside
        sinkInside differ nonneg watch
      rw [solved]
      refine ⟨_, last, passes, left, ?_, fun report => passes.of_report⟩
      rintro run ⟨⟩
      exact ⟨rfl, total, ending⟩

theorem solve_keeps_flow_triangle :
    ∃ last : Network Rat, (solve ((((Network.empty 3).attach 0 2 ⟨1, 0, 0, 0⟩).attach 0 1
        ⟨2, 0, 0, 0⟩).attach 1 2 ⟨1, 0, 0, 0⟩) 0 2 ⟨0, false⟩
          ⟨1, fun report => report.augmentation = 1⟩).network = last ∧
      (∀ edge ∈ last.edges, 0 ≤ edge.flow ∧ edge.flow ≤ edge.capacity) ∧
      last.inflow (fun edge => edge.flow) 1 = last.outflow (fun edge => edge.flow) 1 := by
  have wellFormed : ((((Network.empty 3).attach 0 2 ⟨1, 0, 0, 0⟩).attach 0 1
      ⟨2, 0, 0, 0⟩).attach 1 2 ⟨1, 0, 0, 0⟩ : Network Rat).WellFormed :=
    (((wellFormed_empty 3).attach (by simp) (by simp) _).attach (by simp) (by simp) _).attach
      (by simp) (by simp) _
  obtain ⟨stages, made, last, passes, left, -⟩ := solve_keeps_flow _ wellFormed (by decide)
    (by decide) (by decide) 0 2 (by simp) (by simp) (by decide) ⟨0, false⟩ le_rfl
    ⟨1, fun report => report.augmentation = 1⟩
  obtain ⟨-, bounded, conserved, -⟩ := stages made last passes
  exact ⟨last.network, left, bounded, conserved 1 (by decide) (by decide)⟩

end MaxFlow
end NetworkFlow
