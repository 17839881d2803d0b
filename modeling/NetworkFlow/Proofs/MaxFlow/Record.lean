import NetworkFlow.Proofs.Arithmetic.Least
import NetworkFlow.Proofs.MaxFlow.Resume
import NetworkFlow.Proofs.Residual.ShortestPaths

namespace NetworkFlow

open Quantity Network

/-- An edge joins its ends, whichever of them comes first. -/
def Network.Joins {α : Type} (network : Network α) (here next : Int) : Prop :=
  ∃ edge ∈ network.edges,
    here = edge.tail ∧ next = edge.head ∨ here = edge.head ∧ next = edge.tail

/-- A route goes from a source to a sink along edges and comes to no vertex twice. -/
structure Network.Route {α : Type} (network : Network α) (source sink : Int) (path : List Int) :
    Prop where
  starts : path.head? = some source
  ends : path.getLast? = some sink
  simple : path.Nodup
  joined : path.IsChain network.Joins

/-- A route stays a route while the edges keep their places. -/
theorem Network.Route.ofSameShape {α : Type} {network other : Network α} {source sink : Int}
    {path : List Int} (route : network.Route source sink path) (shape : SameShape network other) :
    other.Route source sink path := by
  refine ⟨route.starts, route.ends, route.simple, route.joined.imp ?_⟩
  rintro here next ⟨edge, member, joins⟩
  obtain ⟨twin, inside, place⟩ := shape.symm.exists_place member
  refine ⟨twin, inside, ?_⟩
  rwa [Edge.place_tail place, Edge.place_head place]

/-- Consecutive stops of a path are the ends of its arcs. -/
theorem ArcPath.isChain_stops {source target : Nat} {arcs : List Arc} {joins : Nat → Nat → Prop}
    (path : ArcPath source arcs target) (joined : ∀ arc ∈ arcs, joins arc.target arc.origin) :
    (stops target arcs).IsChain joins := by
  induction path with
  | start => exact List.isChain_singleton _
  | @extend rest arc path inductionHypothesis =>
    refine List.isChain_cons_cons.mpr ⟨joined arc (by simp), ?_⟩
    exact inductionHypothesis fun other member => joined other (by simp [member])

namespace MaxFlow

variable {α : Type} [Quantity α]

/-- The smallest room on a path is the room of one of its arcs. -/
theorem room_of_bottleneck {network : Network α} {arcs : List Arc} {amount : α}
    (least : bottleneck network arcs = .ok amount) :
    ∃ arc ∈ arcs, network.room arc = .ok amount := by
  obtain ⟨rooms, computed, least⟩ := ok_of_bind least
  split at least
  · next room found =>
    rw [← Except.ok.inj least]
    exact mapM_member computed (mem_of_least? found)
  · cases least

/-- The room of a passable arc exceeds the tolerance. -/
theorem less_room {network : Network α} {tolerance amount : α} {arc : Arc}
    (passable : network.Passable tolerance arc) (room : network.room arc = .ok amount) :
    less tolerance amount = true := by
  obtain ⟨edge, wide, stands, joins, toward, exceeds⟩ := passable
  have ends : edge.tail = arc.origin ∨ edge.head = arc.origin := joins.imp And.left And.left
  have target : edge.otherEnd arc.origin = arc.target := (Edge.otherEnd_eq_iff ends).mpr joins
  rw [← target, Edge.roomToward_otherEnd, target] at toward
  rw [Network.room, stands] at room
  obtain rfl := Except.ok.inj (toward.symm.trans room)
  exact exceeds

/-- An augmentation is proper when its amount exceeds the tolerance and its path is a route
with an edge at least. -/
structure Augmentation.Proper (network : Network α) (tolerance : α) (source sink : Nat)
    (augmentation : Augmentation α) : Prop where
  wide : less tolerance augmentation.bottleneck = true
  nonempty : augmentation.arcs ≠ []
  route : network.Route source sink ((augmentation.vertices sink).map Int.ofNat)

/-- The arcs of a shortest path of passable arcs are those of a route. -/
theorem route_of_shortestPath {network : Network α} {tolerance : α} {source sink : Nat}
    {augmentation : Augmentation α}
    (shortest : ShortestPath (network.Passable tolerance) network.vertexCount source sink
      augmentation.arcs) :
    network.Route source sink ((augmentation.vertices sink).map Int.ofNat) := by
  have listed : augmentation.vertices sink = (stops sink augmentation.arcs).reverse := rfl
  rw [listed]
  constructor
  case starts =>
    rw [List.head?_map, shortest.path.head?_vertices]
    rfl
  case ends =>
    rw [List.getLast?_map, getLast?_vertices]
    rfl
  case simple =>
    exact (List.nodup_reverse.mpr shortest.nodup_stops).map Int.ofNat_injective
  case joined =>
    rw [List.isChain_map, List.isChain_reverse]
    refine shortest.path.isChain_stops fun arc member => ?_
    obtain ⟨edge, -, stands, joins, -⟩ := shortest.crossed arc member
    refine ⟨edge, Array.mem_of_getElem? stands, ?_⟩
    rcases joins with ⟨tail, head⟩ | ⟨head, tail⟩
    · exact Or.inl ⟨congrArg Int.ofNat tail.symm, congrArg Int.ofNat head.symm⟩
    · exact Or.inr ⟨congrArg Int.ofNat head.symm, congrArg Int.ofNat tail.symm⟩

section Passes

variable {stage last : Stage α} {source sink : Nat} {made : List (Augmentation α)}

/-- An attempt that augments the flow makes a proper augmentation. -/
theorem Stage.HasTerminals.proper (terminals : stage.HasTerminals source sink) {after : Network α}
    {next : Finder α} {augmentation : Augmentation α}
    (augmented : attempt stage.network stage.finder source sink stage.total =
      .augmented after next augmentation) :
    augmentation.Proper stage.network stage.finder.tolerance source sink := by
  obtain ⟨searched, found, least, -, -⟩ := attempt_eq_augmented.mp augmented
  obtain ⟨explored, answer⟩ :=
    Finder.explored_of_search terminals.wellFormed terminals.sourceInside searched
  have marked := (Finder.hasPathTo_natCast next sink).mp answer
  obtain ⟨arcs, foundToo, shortest⟩ := explored.pathArcs terminals.wellFormed marked
  obtain rfl := Except.ok.inj (found.symm.trans foundToo)
  obtain ⟨arc, member, room⟩ := room_of_bottleneck least
  exact ⟨less_room (shortest.crossed arc member) room, shortest.path.ne_nil terminals.differ,
    route_of_shortestPath shortest⟩

/-- Every augmentation of a run is proper, for the places of the edges do not change. -/
theorem Passes.proper (passes : Passes source sink stage made last)
    (terminals : stage.HasTerminals source sink) :
    ∀ augmentation ∈ made,
      augmentation.Proper stage.network stage.finder.tolerance source sink := by
  induction passes with
  | stop stage => simp
  | @step stage last after next augmentation rest augmented passes inductionHypothesis =>
    have once : Passes source sink stage [augmentation] ⟨after, next, augmentation.total⟩ :=
      .step augmented (.stop _)
    obtain ⟨shape, tolerance⟩ := once.keeps
    intro other member
    rcases List.mem_cons.mp member with rfl | later
    · exact terminals.proper augmented
    · obtain ⟨wide, nonempty, route⟩ := inductionHypothesis (terminals.passes once) other later
      exact ⟨tolerance ▸ wide, nonempty, route.ofSameShape shape.symm⟩

/-- The total of a stage is the sum of the amounts that led there, from the first to the last. -/
theorem Passes.sum_eq (passes : Passes source sink stage made last) :
    (made.map Augmentation.bottleneck).foldlM add stage.total = .ok last.total := by
  induction passes with
  | stop stage => rfl
  | step augmented passes inductionHypothesis =>
    obtain ⟨-, -, -, -, added⟩ := attempt_eq_augmented.mp augmented
    rw [List.map_cons, List.foldlM_cons, added]
    exact inductionHypothesis

end Passes

section Reports

variable {watch : Watch α} {interval : Nat}

omit [Quantity α] in
/-- The numbers of the reports are the multiples of the interval, as far as the run goes. -/
theorem Run.numbers_reports (run : Run α) (every : watch.interval = interval) :
    (run.reports watch).map Report.augmentation =
      (List.range (run.augmentations.length / interval)).map fun call => (call + 1) * interval := by
  unfold Run.reports
  induction run.augmentations using List.reverseRecOn with
  | nil => simp
  | append_singleton made augmentation inductionHypothesis =>
    have numbered : (made ++ [augmentation]).zipIdx 1 =
        made.zipIdx 1 ++ [(augmentation, made.length + 1)] := by
      rw [List.zipIdx_append, Nat.add_comm]
      rfl
    rw [numbered, List.filterMap_append, List.map_append, inductionHypothesis,
      List.length_append, List.length_singleton]
    have reported : isReported watch (made.length + 1) = decide (interval ∣ made.length + 1) := by
      rw [isReported, every, ← Int.natCast_mod, decide_eq_decide, Nat.dvd_iff_mod_eq_zero]
      exact Int.natCast_eq_zero
    by_cases divides : interval ∣ made.length + 1
    · rw [Nat.succ_div_of_dvd divides, List.range_succ, List.map_append]
      have last : (made.length / interval + 1) * interval = made.length + 1 := by
        rw [← Nat.succ_div_of_dvd divides, Nat.div_mul_cancel divides]
      simp [reported, divides, last, Augmentation.report]
    · rw [Nat.succ_div_of_not_dvd divides]
      simp [reported, divides]

end Reports

/-- A call of the watch agrees with the lists of a result. It tells the amount at its number,
the sum of the amounts so far and one vertex less than the path has. -/
structure Result.Tells (result : Result α) (report : Report α) : Prop where
  bottleneck : result.bottlenecks[report.augmentation - 1]? = some report.bottleneck
  total : (result.bottlenecks.take report.augmentation).foldlM add zero = .ok report.total
  positive : 1 ≤ report.length
  length : ∀ path, result.paths[report.augmentation - 1]? = some path →
    path.length = report.length + 1

/-- The record of a solve is consistent when the lists of its result, its value and the reports
to its watch tell of the same augmentations. -/
structure Recorded (network : Network α) (source sink : Int) (options : Options α)
    (watch : Watch α) (reports : List (Report α)) (result : Result α) : Prop where
  count : result.augmentations = result.bottlenecks.length
  wide : ∀ amount ∈ result.bottlenecks, less options.tolerance amount = true
  value : result.bottlenecks.foldlM add zero = .ok result.value
  calls : (reports.length : Int) = result.augmentations / watch.interval
  numbers : ∀ (call : Nat) (report : Report α), reports[call]? = some report →
    (report.augmentation : Int) = (call + 1) * watch.interval
  tells : ∀ report ∈ reports, result.Tells report
  paths : result.paths.length = if options.recordPaths then result.bottlenecks.length else 0
  routes : ∀ path ∈ result.paths, network.Route source sink path

/-- Every report of a run that ended by itself agrees with the lists of its result. -/
theorem Passes.tells {network : Network α} {source sink : Nat} {options : Options α}
    {watch : Watch α} {run : Run α} {last : Stage α} {result : Result α}
    (passes : Passes source sink (.start network options.tolerance) run.augmentations last)
    (terminals : (Stage.start network options.tolerance).HasTerminals source sink)
    (settled : run.result source sink options.recordPaths = .ok result) {report : Report α}
    (member : report ∈ run.reports watch) : result.Tells report := by
  obtain ⟨most, middle, earlier, total⟩ := passes.of_report member
  obtain ⟨position, augmentation, stands, rfl⟩ := Run.mem_reports member
  have nonempty :=
    (passes.proper terminals augmentation (List.mem_of_getElem? stands)).nonempty
  obtain ⟨-, flows, -, rfl⟩ := Run.result_eq_ok_iff.mp settled
  constructor
  case bottleneck =>
    rw [List.getElem?_map]
    exact congrArg (Option.map Augmentation.bottleneck) stands
  case total =>
    rw [← List.map_take, ← total]
    exact earlier.sum_eq
  case positive => exact List.length_pos_iff.mpr nonempty
  case length =>
    intro path listed
    split at listed
    · have recorded : (augmentation.vertices sink).map Int.ofNat = path := by
        rw [List.getElem?_map] at listed
        exact Option.some.inj ((congrArg (Option.map _) stands).symm.trans listed)
      rw [← recorded, List.length_map, Augmentation.vertices, List.length_reverse,
        List.length_cons, List.length_map]
      rfl
    · cases listed

/-- A run that ended by itself has a consistent record. -/
theorem Passes.recorded {network : Network α} {source sink : Nat} {options : Options α}
    {watch : Watch α} {run : Run α} {last : Stage α} {result : Result α}
    (passes : Passes source sink (.start network options.tolerance) run.augmentations last)
    (terminals : (Stage.start network options.tolerance).HasTerminals source sink)
    (interval : 0 < watch.interval)
    (settled : run.result source sink options.recordPaths = .ok result) :
    Recorded network source sink options watch (run.reports watch) result := by
  obtain ⟨every, known⟩ : ∃ every : Nat, watch.interval = every :=
    ⟨watch.interval.toNat, (Int.toNat_of_nonneg interval.le).symm⟩
  have numbers := run.numbers_reports known
  have proper := passes.proper terminals
  obtain ⟨-, flows, -, rfl⟩ := Run.result_eq_ok_iff.mp settled
  constructor
  case count => rw [List.length_map]
  case wide =>
    intro amount member
    obtain ⟨augmentation, inside, rfl⟩ := List.mem_map.mp member
    exact (proper augmentation inside).wide
  case value =>
    have total : run.total = last.total := passes.total_eq
    rw [total]
    exact passes.sum_eq
  case calls =>
    have lengths := congrArg List.length numbers
    rw [List.length_map, List.length_map, List.length_range] at lengths
    rw [lengths, known]
    exact Int.natCast_ediv _ _
  case numbers =>
    intro call report stands
    have entry := congrArg (fun entries => entries[call]?) numbers
    simp only [List.getElem?_map, stands, Option.map_some] at entry
    obtain ⟨place, ranged, number⟩ := Option.map_eq_some_iff.mp entry.symm
    obtain ⟨inside, same⟩ := List.getElem?_eq_some_iff.mp ranged
    rw [List.getElem_range] at same
    rw [← number, ← same, known]
    push_cast
    rfl
  case tells => exact fun report member => passes.tells terminals settled member
  case paths =>
    split <;> simp
  case routes =>
    intro path member
    split at member
    · obtain ⟨augmentation, inside, rfl⟩ := List.mem_map.mp member
      exact (proper augmentation inside).route
    · cases member

section Record

variable {fuel : Nat} {network : Network α} {source sink : Int} {options : Options α}
  {watch : Watch α} {result : Result α}

/-- The record of a solve that gives a result is consistent. No other watch and no other choice
to record paths changes anything but the paths. -/
theorem solveWithin_recorded (wellFormed : network.WellFormed)
    (ok : (solveWithin fuel network source sink options watch).outcome = .ok result) :
    Recorded network source sink options watch
        ((solveWithin fuel network source sink options watch).reports watch) result ∧
      ∀ (other : Watch α) (recordPaths : Bool), 0 < other.interval →
        (∀ report, other.halts report = false) →
        ∃ paths, (solveWithin fuel network source sink { options with recordPaths } other).outcome =
          .ok { result with paths } := by
  obtain ⟨interval, first, last, terminals⟩ := terminals_of_ok ok
  obtain ⟨rfl, rfl, sourceInside, sinkInside, differ⟩ := checkTerminals_eq_ok terminals
  have whole : solveWithin fuel network first last options watch = _ :=
    solveWithin_eq terminals interval
  generalize ran : augmentAll watch first last fuel 0 zero network
    (.create network options.tolerance) = run at whole
  rw [whole] at ok ⊢
  obtain ⟨noFault, flows, read, equal⟩ := Run.result_eq_ok_iff.mp ok
  obtain ⟨final, passes, short, ended, saturated⟩ :=
    Passes.of_augmentAll (.start network options.tolerance) ran noFault
  refine ⟨passes.recorded ⟨wellFormed, sourceInside, sinkInside, differ⟩ interval ok, ?_⟩
  intro other recordPaths accepted quiet
  have again : augmentAll other first last fuel 0 zero network
      (.create network options.tolerance) = ⟨run.network, run.finder, run.augmentations, none⟩ := by
    rw [ended]
    exact passes.augmentAll_ended saturated quiet short
  have twin : solveWithin fuel network first last { options with recordPaths } other = _ :=
    solveWithin_eq terminals accepted
  rw [again] at twin
  have settled : (⟨run.network, run.finder, run.augmentations, none⟩ : Run α).result first last
      recordPaths = .ok _ := Run.result_eq_ok_iff.mpr ⟨rfl, flows, read, rfl⟩
  rw [twin, equal]
  exact ⟨_, settled⟩

end Record

/-- The record of a warm solve is consistent whenever the solve gives a result. Its watch
and the choice to record paths have no influence on its value, its flows, its cut and its amounts.
The same holds of solves with any other fuel. -/
theorem solveWarm_recorded (network : Network Number) (wellFormed : network.WellFormed)
    (source sink : Int) (options : Options Number) (watch : Watch Number) :
    (∀ result, (solveWarm network source sink options watch).outcome = .ok result →
      Recorded network source sink options watch
        ((solveWarm network source sink options watch).reports watch) result ∧
      ∀ (other : Watch Number) (recordPaths : Bool), 0 < other.interval →
        (∀ report, other.halts report = false) →
        ∃ paths, (solveWarm network source sink { options with recordPaths } other).outcome =
          .ok { result with paths }) ∧
    ∀ fuel result, (solveWithin fuel network source sink options watch).outcome = .ok result →
      Recorded network source sink options watch
        ((solveWithin fuel network source sink options watch).reports watch) result ∧
      ∀ (other : Watch Number) (recordPaths : Bool), 0 < other.interval →
        (∀ report, other.halts report = false) →
        ∃ paths, (solveWithin fuel network source sink { options with recordPaths } other).outcome =
          .ok { result with paths } := by
  refine ⟨fun result ok => ?_, fun fuel result ok => solveWithin_recorded wellFormed ok⟩
  rw [solveWarm_eq_solveWithin] at ok
  exact solveWithin_recorded wellFormed ok

/-- Three lanes with a tenth, two tenths and three tenths of room. -/
def tenths : Network Number :=
  (((Network.empty 2).attach 0 1 ⟨.real (.ofDecimal false 1 (-1)), .int 0, zero, zero⟩).attach 0 1
    ⟨.real (.ofDecimal false 2 (-1)), .int 0, zero, zero⟩).attach 0 1
      ⟨.real (.ofDecimal false 3 (-1)), .int 0, zero, zero⟩

/-- The value is rounded after each lane, and a watch of every second report is called once. -/
theorem solveWarm_recorded_tenths :
    ∃ result, (solveWarm tenths 0 1 ⟨.int 0, true⟩ ⟨2, fun _ => false⟩).outcome = .ok result ∧
      result.bottlenecks.length = 3 ∧ result.paths = [[0, 1], [0, 1], [0, 1]] ∧
      result.value = .real (.ofDecimal false 6000000000000001 (-16)) ∧
      result.bottlenecks.foldlM add zero = .ok result.value ∧
      ((solveWarm tenths 0 1 ⟨.int 0, true⟩ ⟨2, fun _ => false⟩).reports
        ⟨2, fun _ => false⟩).length = 1 := by
  have wellFormed : tenths.WellFormed :=
    (((wellFormed_empty 2).attach (by decide) (by decide) _).attach (by decide) (by decide)
      _).attach (by decide) (by decide) _
  have whole : (solveWarm tenths 0 1 ⟨.int 0, true⟩ ⟨2, fun _ => false⟩).outcome.toOption.map
      (fun result => (result.bottlenecks.length, result.augmentations, result.paths,
        result.value)) = some (3, 3, [[0, 1], [0, 1], [0, 1]],
          .real (.ofDecimal false 6000000000000001 (-16))) := by decide +kernel
  cases ok : (solveWarm tenths 0 1 ⟨.int 0, true⟩ ⟨2, fun _ => false⟩).outcome with
  | error fault =>
    rw [ok] at whole
    cases whole
  | ok result =>
    rw [ok] at whole
    obtain ⟨length, rest⟩ := Prod.mk.inj (Option.some.inj whole)
    obtain ⟨augmentations, rest⟩ := Prod.mk.inj rest
    obtain ⟨paths, value⟩ := Prod.mk.inj rest
    obtain ⟨recorded, -⟩ := (solveWarm_recorded tenths wellFormed 0 1 ⟨.int 0, true⟩
      ⟨2, fun _ => false⟩).1 result ok
    have calls := recorded.calls
    rw [augmentations] at calls
    exact ⟨result, rfl, length, paths, value, recorded.value, Int.natCast_inj.mp calls⟩

end MaxFlow
end NetworkFlow
