import NetworkFlow.Proofs.Arithmetic.Finite
import NetworkFlow.Proofs.MaxFlow.FlowsOnly
import NetworkFlow.Proofs.MaxFlow.Stages

namespace NetworkFlow

open Quantity Network

variable {α : Type} [Quantity α]

/-- A push changes no place. -/
theorem Network.sameShape_pushAlong (amount : α) (arcs : List Arc) (network : Network α) :
    SameShape network (network.pushAlong amount arcs).1 := by
  induction arcs generalizing network with
  | nil => exact .refl network
  | cons arc rest inductionHypothesis =>
    rw [pushAlong]
    split
    · exact .refl network
    · split
      · exact .refl network
      · exact (sameShape_modifyLoad network _ _).trans (inductionHypothesis _)

/-- A finder carries nothing but its tolerance into a search. -/
theorem Finder.search_congr {first second : Finder α} (same : first.tolerance = second.tolerance)
    (network : Network α) (source sink : Int) :
    first.search network source sink = second.search network source sink := by
  simp only [search, treeFrom, hasPathTo, same]

theorem Finder.tolerance_search (finder : Finder α) (network : Network α) (source sink : Int) :
    (finder.search network source sink).2.tolerance = finder.tolerance := by
  unfold search
  dsimp only
  split <;> rfl

namespace MaxFlow

section Attempt

variable {network after : Network α} {finder next : Finder α} {source sink : Nat}
  {total : α} {augmentation : Augmentation α}

/-- A finder carries nothing but its tolerance into an attempt. -/
theorem attempt_congr {first second : Finder α} (same : first.tolerance = second.tolerance) :
    attempt network first source sink total = attempt network second source sink total := by
  simp only [attempt, Finder.search_congr same]

/-- The total plays no part in an attempt that finds no path. -/
theorem attempt_saturated (saturated : attempt network finder source sink total = .saturated next)
    (other : α) : attempt network finder source sink other = .saturated next := by
  simp only [attempt] at saturated ⊢
  split at saturated
  · cases saturated
  · assumption
  · split at saturated
    · cases saturated
    · split at saturated
      · cases saturated
      · split at saturated <;> cases saturated

/-- An attempt augments the flow when it finds a path, pushes the smallest room along it
and adds that amount to the total. -/
theorem attempt_eq_augmented :
    attempt network finder source sink total = .augmented after next augmentation ↔
      finder.search network source sink = (.ok true, next) ∧
      next.pathArcs network sink = .ok augmentation.arcs ∧
      bottleneck network augmentation.arcs = .ok augmentation.bottleneck ∧
      network.pushAlong augmentation.bottleneck augmentation.arcs = (after, none) ∧
      add total augmentation.bottleneck = .ok augmentation.total := by
  constructor
  · intro augmented
    simp only [attempt] at augmented
    split at augmented
    · cases augmented
    · cases augmented
    · next searched =>
      split at augmented
      · cases augmented
      · next path =>
        obtain ⟨arcs, found, path⟩ := ok_of_bind path
        obtain ⟨amount, least, path⟩ := ok_of_bind path
        obtain ⟨rfl, rfl⟩ := Prod.mk.inj (Except.ok.inj path)
        split at augmented
        · cases augmented
        · next pushed =>
          split at augmented
          · cases augmented
          · next added =>
            cases augmented
            exact ⟨searched, found, least, pushed, added⟩
  · rintro ⟨searched, found, least, pushed, added⟩
    simp only [attempt, searched, found, ok_bind, least, pure, Except.pure, pushed, added]

end Attempt

/-- What an augmentation pushes, and along which path. -/
def Augmentation.step (augmentation : Augmentation α) : List Arc × α :=
  (augmentation.arcs, augmentation.bottleneck)

/-- Totals accumulate when an amount can be added to all of them or to none. -/
structure Accumulates (isTotal : α → Prop) : Prop where
  zero : isTotal Quantity.zero
  add : ∀ {total amount after : α}, isTotal total → Quantity.add total amount = .ok after →
    isTotal after
  other : ∀ {total other amount after : α}, isTotal total → isTotal other →
    Quantity.add total amount = .ok after → ∃ sum, Quantity.add other amount = .ok sum

/-- Stages are alike when they have the same flows and search with the same tolerance.
Their totals may differ. -/
structure Stage.Alike (isTotal : α → Prop) (first second : Stage α) : Prop where
  network : second.network = first.network
  tolerance : second.finder.tolerance = first.finder.tolerance
  firstTotal : isTotal first.total
  secondTotal : isTotal second.total

section Alike

variable {isTotal : α → Prop} {first second stage last : Stage α} {source sink : Nat}
  {made : List (Augmentation α)}

/-- Stages that are alike end together. -/
theorem Stage.Alike.saturated (alike : first.Alike isTotal second) {next : Finder α}
    (saturated : attempt first.network first.finder source sink first.total = .saturated next) :
    attempt second.network second.finder source sink second.total = .saturated next := by
  rw [alike.network, attempt_congr alike.tolerance]
  exact attempt_saturated saturated _

/-- Stages that are alike make the same augmentation and are alike again. -/
theorem Stage.Alike.augmented (alike : first.Alike isTotal second)
    (accumulates : Accumulates isTotal) {after : Network α} {next : Finder α}
    {augmentation : Augmentation α}
    (augmented : attempt first.network first.finder source sink first.total =
      .augmented after next augmentation) :
    ∃ twin : Augmentation α, twin.step = augmentation.step ∧
      attempt second.network second.finder source sink second.total =
        .augmented after next twin ∧
      Stage.Alike isTotal ⟨after, next, augmentation.total⟩ ⟨after, next, twin.total⟩ := by
  obtain ⟨searched, found, least, pushed, added⟩ := attempt_eq_augmented.mp augmented
  obtain ⟨sum, addedToo⟩ := accumulates.other alike.firstTotal alike.secondTotal added
  refine ⟨{ augmentation with total := sum }, rfl, ?_, rfl, rfl,
    accumulates.add alike.firstTotal added, accumulates.add alike.secondTotal addedToo⟩
  rw [alike.network, attempt_congr alike.tolerance]
  exact attempt_eq_augmented.mpr ⟨searched, found, least, pushed, addedToo⟩

/-- From stages that are alike the loop pushes the same amounts along the same paths. -/
theorem Passes.alike (passes : Passes source sink stage made last)
    (accumulates : Accumulates isTotal) {twin : Stage α} (alike : stage.Alike isTotal twin) :
    ∃ again final, Passes source sink twin again final ∧
      again.map Augmentation.step = made.map Augmentation.step ∧ last.Alike isTotal final := by
  induction passes generalizing twin with
  | stop stage => exact ⟨[], twin, .stop twin, rfl, alike⟩
  | step augmented passes inductionHypothesis =>
    obtain ⟨augmentation, same, augmentedToo, next⟩ := alike.augmented accumulates augmented
    obtain ⟨again, final, passesToo, steps, last⟩ := inductionHypothesis next
    refine ⟨augmentation :: again, final, .step augmentedToo passesToo, ?_, last⟩
    rw [List.map_cons, List.map_cons, same, steps]

/-- The loop keeps the places of the edges and the tolerance. -/
theorem Passes.keeps (passes : Passes source sink stage made last) :
    SameShape stage.network last.network ∧ last.finder.tolerance = stage.finder.tolerance := by
  induction passes with
  | stop stage => exact ⟨.refl _, rfl⟩
  | @step stage last network finder augmentation rest augmented passes inductionHypothesis =>
    obtain ⟨searched, -, -, pushed, -⟩ := attempt_eq_augmented.mp augmented
    have shape := sameShape_pushAlong augmentation.bottleneck augmentation.arcs stage.network
    have tolerance := stage.finder.tolerance_search stage.network source sink
    rw [pushed] at shape
    rw [searched] at tolerance
    exact ⟨shape.trans inductionHypothesis.1, inductionHypothesis.2.trans tolerance⟩

/-- A stage has terminals when its network is well formed and has the source and the sink
as different vertices. -/
structure Stage.HasTerminals (source sink : Nat) (stage : Stage α) : Prop where
  wellFormed : stage.network.WellFormed
  sourceInside : source < stage.network.vertexCount
  sinkInside : sink < stage.network.vertexCount
  differ : source ≠ sink

/-- The stages of a run have the same terminals. -/
theorem Stage.HasTerminals.passes (terminals : stage.HasTerminals source sink)
    (passes : Passes source sink stage made last) : last.HasTerminals source sink := by
  have shape : SameShape stage.network last.network := passes.keeps.1
  exact ⟨terminals.wellFormed.ofSameShape shape, shape.vertexCount ▸ terminals.sourceInside,
    shape.vertexCount ▸ terminals.sinkInside, terminals.differ⟩

theorem Passes.total_last (passes : Passes source sink stage made last)
    (accumulates : Accumulates isTotal) (total : isTotal stage.total) : isTotal last.total := by
  induction passes with
  | stop stage => exact total
  | step augmented passes inductionHypothesis =>
    obtain ⟨-, -, -, -, added⟩ := attempt_eq_augmented.mp augmented
    exact inductionHypothesis (accumulates.add total added)

end Alike

section Loop

variable {watch : Watch α} {stage last : Stage α} {source sink count : Nat}
  {made : List (Augmentation α)}

/-- A loop that fails nowhere ends at a stage without a path. -/
theorem Passes.of_augmentAll (stage : Stage α) {fuel : Nat} {run : Run α}
    (ran : augmentAll watch source sink fuel count stage.total stage.network stage.finder = run)
    (noFault : run.fault = none) :
    ∃ last, Passes source sink stage run.augmentations last ∧ run.augmentations.length < fuel ∧
      run.network = last.network ∧
      attempt last.network last.finder source sink last.total = .saturated run.finder := by
  induction fuel generalizing count stage run with
  | zero =>
    subst ran
    cases noFault
  | succ fuel inductionHypothesis =>
    rw [augmentAll] at ran
    cases attempted : attempt stage.network stage.finder source sink stage.total with
    | saturated next =>
      rw [attempted] at ran
      subst ran
      exact ⟨stage, .stop stage, Nat.succ_pos fuel, rfl, attempted⟩
    | failed after next fault =>
      rw [attempted] at ran
      subst ran
      cases noFault
    | augmented after next augmentation =>
      simp only [attempted] at ran
      split at ran
      · subst ran
        cases noFault
      · subst ran
        obtain ⟨last, passes, short, left, saturated⟩ :=
          inductionHypothesis ⟨after, next, augmentation.total⟩ rfl noFault
        exact ⟨last, .step attempted passes, Nat.succ_lt_succ short, left, saturated⟩

/-- A loop makes its augmentations before it goes on, when its watch does not halt it. -/
theorem Passes.augmentAll_eq (passes : Passes source sink stage made last)
    (going : ∀ report, report.augmentation ≤ count + made.length → watch.halts report = false)
    (fuel : Nat) :
    augmentAll watch source sink (made.length + fuel) count stage.total stage.network
        stage.finder =
      let rest := augmentAll watch source sink fuel (count + made.length) last.total last.network
        last.finder
      { rest with augmentations := made ++ rest.augmentations } := by
  induction passes generalizing count with
  | stop stage => simp
  | @step stage last network finder augmentation rest augmented passes inductionHypothesis =>
    have less : rest.length + 1 + fuel = rest.length + fuel + 1 := by omega
    have more : count + (rest.length + 1) = count + 1 + rest.length := by omega
    have quiet : watch.halts (augmentation.report (count + 1)) = false := by
      apply going
      change count + 1 ≤ count + (rest.length + 1)
      omega
    -- The later augmentations have the same numbers when they are counted from one more.
    rw [List.length_cons, more] at going
    rw [List.length_cons, less, more, augmentAll]
    simp only [augmented, quiet, Bool.and_false, Bool.false_eq_true, if_false]
    rw [inductionHypothesis going]
    rfl

/-- A loop ends where there is no path, when its watch does not halt it. -/
theorem Passes.augmentAll_ended (passes : Passes source sink stage made last)
    {next : Finder α}
    (saturated : attempt last.network last.finder source sink last.total = .saturated next)
    (quiet : ∀ report, watch.halts report = false) {fuel : Nat} (enough : made.length < fuel) :
    augmentAll watch source sink fuel count stage.total stage.network stage.finder =
      ⟨last.network, next, made, none⟩ := by
  obtain ⟨rest, rfl⟩ := Nat.exists_eq_add_of_lt enough
  rw [Nat.add_assoc, passes.augmentAll_eq fun report _ => quiet report]
  simp only [augmentAll, saturated, List.append_nil]

/-- A watch that sees every report halts the loop where it wants to. -/
theorem Passes.augmentAll_halted (passes : Passes source sink stage made last) {limit : Nat}
    (reaches : count + made.length = limit) (nonempty : made ≠ []) (interval : watch.interval = 1)
    (going : ∀ report, report.augmentation < limit → watch.halts report = false)
    (halts : ∀ report, report.augmentation = limit → watch.halts report = true)
    {fuel : Nat} (enough : made.length ≤ fuel) :
    augmentAll watch source sink fuel count stage.total stage.network stage.finder =
      ⟨last.network, last.finder, made, some (.halted limit)⟩ := by
  obtain ⟨init, final, rfl⟩ : ∃ init final, made = init ++ [final] :=
    ⟨_, _, (List.dropLast_append_getLast nonempty).symm⟩
  rw [List.length_append, List.length_singleton] at reaches enough
  obtain ⟨rest, rfl⟩ : ∃ rest, fuel = init.length + (rest + 1) :=
    ⟨fuel - (init.length + 1), by omega⟩
  obtain rfl : limit = count + init.length + 1 := by omega
  obtain ⟨middle, before, after⟩ := passes.of_append
  have quiet : ∀ report, report.augmentation ≤ count + init.length →
      watch.halts report = false := fun report early => going report (by omega)
  have heard : watch.halts (final.report (count + init.length + 1)) = true := halts _ rfl
  rw [before.augmentAll_eq quiet, augmentAll]
  cases after with
  | step augmented stop =>
    cases stop
    simp [augmented, isReported, interval, heard]

end Loop

/-- A loop that is halted goes on from the flows that it left as if it had not been halted. -/
theorem augmentAll_resumed {isTotal : α → Prop} (accumulates : Accumulates isTotal)
    {watch stopping resuming : Watch α} {source sink fuel count : Nat} {network : Network α}
    {tolerance : α} {run : Run α}
    (ran : augmentAll watch source sink fuel 0 zero network (.create network tolerance) = run)
    (noFault : run.fault = none) (positive : 0 < count) (most : count ≤ run.augmentations.length)
    (interval : stopping.interval = 1)
    (going : ∀ report, report.augmentation < count → stopping.halts report = false)
    (halts : ∀ report, report.augmentation = count → stopping.halts report = true)
    (quiet : ∀ report, resuming.halts report = false) :
    ∃ (left : Network α) (finder : Finder α) (made again : List (Augmentation α)),
      augmentAll stopping source sink fuel 0 zero network (.create network tolerance) =
        ⟨left, finder, made, some (.halted count)⟩ ∧
      augmentAll resuming source sink fuel 0 zero left (.create left tolerance) =
        ⟨run.network, run.finder, again, none⟩ ∧
      SameShape network left ∧ made.length = count ∧
      (made ++ again).map Augmentation.step = run.augmentations.map Augmentation.step := by
  obtain ⟨last, passes, short, ended, saturated⟩ :=
    Passes.of_augmentAll (.start network tolerance) ran noFault
  rw [← List.take_append_drop count run.augmentations] at passes
  obtain ⟨middle, before, after⟩ := passes.of_append
  have length : (run.augmentations.take count).length = count := List.length_take_of_le most
  have nonempty : run.augmentations.take count ≠ [] := by
    rw [← List.length_pos_iff, length]
    exact positive
  obtain ⟨shape, same⟩ := before.keeps
  -- The new run starts from the flows in the middle, but its total starts from zero again.
  have alike : middle.Alike isTotal (.start middle.network tolerance) :=
    ⟨rfl, same.symm, before.total_last accumulates accumulates.zero, accumulates.zero⟩
  obtain ⟨again, final, afterToo, steps, lastAlike⟩ := after.alike accumulates alike
  have fewer : again.length < fuel := by
    have lengths := congrArg List.length steps
    rw [List.length_map, List.length_map, List.length_drop] at lengths
    omega
  refine ⟨middle.network, middle.finder, run.augmentations.take count, again, ?_, ?_, shape, length,
    ?_⟩
  · exact before.augmentAll_halted (by rw [length, Nat.zero_add]) nonempty interval going halts
      (by omega)
  · rw [ended, ← lastAlike.network]
    exact afterToo.augmentAll_ended (lastAlike.saturated saturated) quiet fewer
  · rw [List.map_append, steps, ← List.map_append, List.take_append_drop]

section Solve

/-- The solve that ends with a run. -/
def Run.toSolve (run : Run α) (source sink : Nat) (recordPaths : Bool) : Solve α :=
  ⟨run.network, some run.finder, some run, run.result source sink recordPaths⟩

/-- A warm solve whose loop gets this much fuel. -/
def solveWithin (fuel : Nat) (network : Network α) (source sink : Int) (options : Options α)
    (watch : Watch α) : Solve α :=
  match checkTerminals network source sink with
  | .error fault => ⟨network, none, none, throw fault⟩
  | .ok (source, sink) =>
    let finder := Finder.create network options.tolerance
    if watch.interval ≤ 0 then
      ⟨network, some finder, none, throw (.configuration (.interval watch.interval))⟩
    else (augmentAll watch source sink fuel 0 zero network finder).toSolve source sink
      options.recordPaths

/-- A warm solve gets enough fuel for its network. -/
theorem solveWarm_eq_solveWithin (network : Network α) (source sink : Int) (options : Options α)
    (watch : Watch α) : solveWarm network source sink options watch =
      solveWithin (enoughFuel network) network source sink options watch := rfl

variable {fuel first last : Nat} {network other : Network α} {source sink : Int}
  {options : Options α} {watch : Watch α}

theorem solveWithin_eq (terminals : checkTerminals network source sink = .ok (first, last))
    (interval : 0 < watch.interval) : solveWithin fuel network source sink options watch =
      (augmentAll watch first last fuel 0 zero network
        (.create network options.tolerance)).toSolve first last options.recordPaths := by
  simp only [solveWithin, terminals, if_neg (not_le.mpr interval)]

/-- A solve that gives a result accepted its terminals and its interval. -/
theorem terminals_of_ok {result : Result α}
    (ok : (solveWithin fuel network source sink options watch).outcome = .ok result) :
    0 < watch.interval ∧ ∃ first last, checkTerminals network source sink = .ok (first, last) := by
  unfold solveWithin at ok
  split at ok
  · cases ok
  · next first last terminals =>
    split at ok
    · cases ok
    · exact ⟨not_le.mp ‹_›, first, last, terminals⟩

omit [Quantity α] in
/-- The accepted terminals are different vertices, and the caller names them. -/
theorem checkTerminals_eq_ok
    (terminals : checkTerminals network source sink = .ok (first, last)) :
    source = first ∧ sink = last ∧ first < network.vertexCount ∧ last < network.vertexCount ∧
      first ≠ last := by
  obtain ⟨left, sources, terminals⟩ := ok_of_bind terminals
  obtain ⟨right, sinks, terminals⟩ := ok_of_bind terminals
  obtain ⟨sourceNamed, sourceInside⟩ := checkVertex_eq_ok sources
  obtain ⟨sinkNamed, sinkInside⟩ := checkVertex_eq_ok sinks
  split at terminals
  · cases terminals
  · next differ =>
    cases terminals
    refine ⟨sourceNamed, sinkNamed, sourceInside, sinkInside, fun same => differ ?_⟩
    rw [sourceNamed, sinkNamed, same]

/-- The paths of a run, from its first augmentation to its last. -/
def Run.paths (run : Run α) (sink : Nat) (recordPaths : Bool) : List (List Int) :=
  if recordPaths then run.augmentations.map fun augmentation =>
    (augmentation.vertices sink).map Int.ofNat else []

/-- A solve that was halted is resumed when a later solve makes the augmentations that were
missing from a whole result, and ends with its flows and its cut. -/
structure Resumes (whole stopped resumed : Solve α) (result : Result α) (sink : Int)
    (recordPaths : Bool) (count : Nat) : Prop where
  halted : stopped.outcome = throw (.halted count)
  completed : ∃ run rest, stopped.run = some run ∧ resumed.outcome = .ok rest ∧
    run.augmentations.length = count ∧
    run.augmentations.map Augmentation.bottleneck ++ rest.bottlenecks = result.bottlenecks ∧
    run.paths sink.toNat recordPaths ++ rest.paths = result.paths ∧
    rest.flows = result.flows ∧ rest.minCut = result.minCut
  network : resumed.network = whole.network

/-- A halted solve is resumed from the flows that it left, when totals accumulate. -/
theorem Accumulates.resumes {isTotal : α → Prop} (accumulates : Accumulates isTotal)
    {result : Result α}
    (ok : (solveWithin fuel network source sink options watch).outcome = .ok result)
    {count : Nat} (positive : 0 < count) (most : count ≤ result.augmentations)
    {stopping resuming : Watch α} (interval : stopping.interval = 1)
    (going : ∀ report, report.augmentation < count → stopping.halts report = false)
    (halts : ∀ report, report.augmentation = count → stopping.halts report = true)
    (accepted : 0 < resuming.interval) (quiet : ∀ report, resuming.halts report = false) :
    SameShape network (solveWithin fuel network source sink options stopping).network ∧
      Resumes (solveWithin fuel network source sink options watch)
        (solveWithin fuel network source sink options stopping)
        (solveWithin fuel (solveWithin fuel network source sink options stopping).network source
          sink options resuming) result sink options.recordPaths count := by
  obtain ⟨steady, first, last, terminals⟩ := terminals_of_ok ok
  have whole : solveWithin fuel network source sink options watch = _ :=
    solveWithin_eq terminals steady
  generalize ran : augmentAll watch first last fuel 0 Quantity.zero network
    (.create network options.tolerance) = run at whole
  rw [whole] at ok ⊢
  obtain ⟨noFault, flows, read, rfl⟩ := Run.result_eq_ok_iff.mp ok
  obtain ⟨left, finder, made, again, stopped, resumed, shape, length, steps⟩ :=
    augmentAll_resumed accumulates ran noFault positive (Int.ofNat_le.mp most) interval going halts
      quiet
  have terminalsToo := (checkTerminals_congr shape.vertexCount.symm source sink).trans terminals
  have halted : solveWithin fuel network source sink options stopping = _ :=
    solveWithin_eq terminals (by omega)
  have finished : solveWithin fuel left source sink options resuming = _ :=
    solveWithin_eq terminalsToo accepted
  rw [stopped] at halted
  rw [resumed] at finished
  have amounts := congrArg (List.map Prod.snd) steps
  have paths := congrArg (List.map fun step : List Arc × α =>
    ((last :: step.1.map Arc.origin).reverse).map Int.ofNat) steps
  rw [List.map_map, List.map_map, List.map_append] at amounts paths
  have settled : (⟨run.network, run.finder, again, none⟩ : Run α).result first last
      options.recordPaths = .ok _ := Run.result_eq_ok_iff.mpr ⟨rfl, flows, read, rfl⟩
  have sinks : sink.toNat = last := by
    rw [(checkTerminals_eq_ok terminals).2.1, Int.toNat_natCast]
  rw [halted]
  refine ⟨shape, ?_⟩
  change Resumes _ _ (solveWithin fuel left source sink options resuming) _ _ _ _
  rw [finished]
  refine ⟨rfl, ⟨_, _, rfl, settled, length, amounts, ?_, rfl, rfl⟩, rfl⟩
  rw [sinks, Run.paths]
  cases options.recordPaths with
  | false => rfl
  | true => exact paths

end Solve

/-- The totals of the program accumulate: an amount is added to a binary64 number
when it is near one itself. -/
theorem accumulates_real : Accumulates fun total : Number => ∃ binary, total = .real binary := by
  refine ⟨⟨_, rfl⟩, ?_, ?_⟩
  · rintro total amount after ⟨binary, rfl⟩ added
    obtain ⟨_, _, -, -, rfl⟩ :=
      Number.combine_eq_ok (Or.inl ⟨binary, rfl⟩) (Number.add_eq_ok.mp added)
    exact ⟨_, rfl⟩
  · rintro total other amount after ⟨binary, rfl⟩ ⟨twin, rfl⟩ added
    obtain ⟨_, near, -, close, -⟩ :=
      Number.combine_eq_ok (Or.inl ⟨binary, rfl⟩) (Number.add_eq_ok.mp added)
    refine ⟨.real (twin.add near), Number.add_eq_ok.mpr ?_⟩
    rw [Number.add, Number.combine_of_inr (Or.inl ⟨twin, rfl⟩), close]
    rfl

/-- A warm solve that its watch halts is resumed by a warm solve from the flows that it left.
Both make the augmentations of the solve that is not halted, one after the other,
and end with its flows and its cut. The same holds of solves with any other fuel. -/
theorem solveWarm_resumed (network : Network Number) (source sink : Int)
    (options : Options Number) (steady stopping resuming : Watch Number) (count : Nat)
    (positive : 0 < count) (interval : stopping.interval = 1)
    (going : ∀ report, report.augmentation < count → stopping.halts report = false)
    (halts : ∀ report, report.augmentation = count → stopping.halts report = true)
    (accepted : 0 < resuming.interval) (quiet : ∀ report, resuming.halts report = false) :
    (∀ result, (solveWarm network source sink options steady).outcome = .ok result →
      count ≤ result.augmentations →
      Resumes (solveWarm network source sink options steady)
        (solveWarm network source sink options stopping)
        (solveWarm (solveWarm network source sink options stopping).network source sink options
          resuming) result sink options.recordPaths count) ∧
    ∀ fuel result, (solveWithin fuel network source sink options steady).outcome = .ok result →
      count ≤ result.augmentations →
      Resumes (solveWithin fuel network source sink options steady)
        (solveWithin fuel network source sink options stopping)
        (solveWithin fuel (solveWithin fuel network source sink options stopping).network source
          sink options resuming) result sink options.recordPaths count := by
  refine ⟨?_, ?_⟩
  · intro result ok most
    rw [solveWarm_eq_solveWithin] at ok
    obtain ⟨shape, resumes⟩ := accumulates_real.resumes ok positive most interval going halts
      accepted quiet
    have fuel : enoughFuel (solveWithin (enoughFuel network) network source sink options
        stopping).network = enoughFuel network := by
      rw [enoughFuel, ← shape.vertexCount, ← shape.edgeCount, enoughFuel]
    rw [solveWarm_eq_solveWithin, solveWarm_eq_solveWithin, solveWarm_eq_solveWithin, fuel]
    exact resumes
  · intro fuel result ok most
    exact (accumulates_real.resumes ok positive most interval going halts accepted quiet).2

/-- This network has a short path and a detour. -/
def detour : Network Number :=
  (((Network.empty 3).attach 0 2 ⟨.int 1, .int 0, zero, zero⟩).attach 0 1
    ⟨.int 1, .int 0, zero, zero⟩).attach 1 2 ⟨.int 1, .int 0, zero, zero⟩

/-- A solve that is halted after the short path is resumed along the detour. -/
theorem solveWarm_resumed_detour :
    ∃ run rest, (solveWarm detour 0 2 ⟨.int 0, true⟩
        ⟨1, fun report => report.augmentation = 1⟩).run = some run ∧
      (solveWarm (solveWarm detour 0 2 ⟨.int 0, true⟩
        ⟨1, fun report => report.augmentation = 1⟩).network 0 2 ⟨.int 0, true⟩ .idle).outcome =
          .ok rest ∧
      run.augmentations.length = 1 ∧ run.paths 2 true ++ rest.paths = [[0, 2], [0, 1, 2]] := by
  have whole : (solveWarm detour 0 2 ⟨.int 0, true⟩ .idle).outcome.toOption.map
      (fun result => (result.augmentations, result.paths)) =
        some (2, [[0, 2], [0, 1, 2]]) := by decide +kernel
  cases ok : (solveWarm detour 0 2 ⟨.int 0, true⟩ .idle).outcome with
  | error fault =>
    rw [ok] at whole
    cases whole
  | ok result =>
    rw [ok] at whole
    obtain ⟨augmentations, paths⟩ := Prod.mk.inj (Option.some.inj whole)
    obtain ⟨-, ⟨run, rest, ran, ended, length, -, joined, -⟩, -⟩ :=
      (solveWarm_resumed detour 0 2 ⟨.int 0, true⟩ .idle
        ⟨1, fun report => report.augmentation = 1⟩ .idle 1 (by decide) rfl
        (fun report early => decide_eq_false (by omega)) (fun report here => decide_eq_true here)
        (by decide) fun _ => rfl).1 result ok (by rw [augmentations]; decide)
    exact ⟨run, rest, ran, ended, length, joined.trans paths⟩

end MaxFlow
end NetworkFlow
