import NetworkFlow.Proofs.MaxFlow.Resume
import NetworkFlow.Proofs.Residual.Depth

namespace NetworkFlow.MaxFlow

open Quantity ExactQuantity Network

/-- How far the search of a stage finds a vertex from the source. -/
def Stage.depth {α : Type} [Quantity α] (stage : Stage α) (source sink vertex : Nat) : ℕ∞ :=
  (stage.finder.search stage.network source sink).2.depth stage.network vertex

section Exact

variable {stage last : Stage Rat} {source sink : Nat} {made : List (Augmentation Rat)}

/-- The search of a stage finds every vertex at the length of a shortest walk. -/
theorem Stage.depth_eq (terminals : stage.HasTerminals source sink) (vertex : Nat) :
    stage.depth source sink vertex =
      reachLength (Leads (stage.network.Passable stage.finder.tolerance)) source vertex := by
  have rooms : stage.network.HasRooms := fun edge _ forward => by
    cases forward <;> exact ⟨_, rfl⟩
  obtain ⟨found, returned⟩ := stage.finder.search_returns rooms terminals.wellFormed
    terminals.sourceInside terminals.sinkInside
  obtain ⟨explored, -⟩ :=
    Finder.explored_of_search terminals.wellFormed terminals.sourceInside returned
  rw [Stage.depth, returned]
  exact explored.depth_eq terminals.wellFormed vertex

/-- An augmentation has a path as long as the depth of the sink, and no depth falls after it. -/
theorem Stage.depth_step (terminals : stage.HasTerminals source sink)
    {after : Network Rat} {next : Finder Rat} {augmentation : Augmentation Rat}
    (augmented : attempt stage.network stage.finder source sink stage.total =
      .augmented after next augmentation) :
    (augmentation.arcs.length : ℕ∞) = stage.depth source sink sink ∧
      ∀ vertex, stage.depth source sink vertex ≤
        Stage.depth ⟨after, next, augmentation.total⟩ source sink vertex := by
  have later : Stage.HasTerminals source sink ⟨after, next, augmentation.total⟩ :=
    terminals.passes (.step augmented (.stop _))
  rcases Stage.attempt_cases terminals.wellFormed terminals.sourceInside terminals.sinkInside
    terminals.differ with
    ⟨other, saturated⟩ | ⟨arcs, amount, other, augments, tolerance, attempted⟩
  · rw [saturated] at augmented
    cases augmented
  · rw [attempted] at augmented
    cases augmented
    refine ⟨?_, fun vertex => ?_⟩
    · rw [Stage.depth_eq terminals]
      exact augments.length_eq terminals.wellFormed terminals.sourceInside
    · rw [Stage.depth_eq terminals, Stage.depth_eq later, tolerance]
      exact augments.reachLength_le_shifted terminals.wellFormed terminals.sourceInside vertex

/-- No depth falls while the loop goes on, and no path is shorter than an earlier one. -/
theorem Passes.depth_le (passes : Passes source sink stage made last)
    (terminals : stage.HasTerminals source sink) :
    (∀ vertex, stage.depth source sink vertex ≤ last.depth source sink vertex) ∧
      (∀ augmentation ∈ made,
        stage.depth source sink sink ≤ (augmentation.arcs.length : ℕ∞)) ∧
      made.Pairwise fun earlier later => earlier.arcs.length ≤ later.arcs.length := by
  induction passes with
  | stop stage => exact ⟨fun _ => le_rfl, by simp, List.Pairwise.nil⟩
  | @step stage last after next augmentation rest augmented passes inductionHypothesis =>
    obtain ⟨length, deeper⟩ := Stage.depth_step terminals augmented
    obtain ⟨deepest, longer, ordered⟩ :=
      inductionHypothesis (terminals.passes (.step augmented (.stop _)))
    have later : ∀ other ∈ rest, stage.depth source sink sink ≤ (other.arcs.length : ℕ∞) :=
      fun other member => (deeper sink).trans (longer other member)
    refine ⟨fun vertex => (deeper vertex).trans (deepest vertex), ?_, ?_⟩
    · exact List.forall_mem_cons.mpr ⟨length.ge, later⟩
    · refine List.pairwise_cons.mpr ⟨fun other member => ?_, ordered⟩
      exact Nat.cast_le.mp (length.trans_le (later other member))

end Exact

/-- The watch sees the paths in the order in which they were augmented. -/
theorem Run.pairwise_reports {α : Type} {run : Run α} {shorter : Nat → Nat → Prop}
    (ordered : run.augmentations.Pairwise fun earlier later =>
      shorter earlier.arcs.length later.arcs.length) (watch : Watch α) :
    (run.reports watch).Pairwise fun earlier later => shorter earlier.length later.length := by
  have first : (run.augmentations.zipIdx 1).map Prod.fst = run.augmentations :=
    List.zipIdx_map_fst 1 run.augmentations
  rw [← first, List.pairwise_map] at ordered
  refine ordered.filterMap _ ?_
  rintro ⟨earlier, number⟩ ⟨later, other⟩ before report reported next reportedNext
  dsimp only at reported reportedNext
  split at reported
  · split at reportedNext
    · rw [← Option.some.inj reported, ← Option.some.inj reportedNext]
      exact before
    · cases reportedNext
  · cases reported

/-- In exact arithmetic no augmenting path of a run is shorter than an earlier one, whatever flow
is on the edges. Each search finds every vertex at the length of a shortest walk of passable arcs,
and from one search to a later one this length never falls. -/
theorem solveWarm_lengths_rise (network : Network Rat) (wellFormed : network.WellFormed)
    (source sink : Nat) (sourceInside : source < network.vertexCount)
    (sinkInside : sink < network.vertexCount) (differ : source ≠ sink) (options : Options Rat)
    (watch : Watch Rat) (interval : 0 < watch.interval) :
    ∃ run last, (solveWarm network source sink options watch).run = some run ∧
      Passes source sink (.start network options.tolerance) run.augmentations last ∧
      (run.augmentations.Pairwise fun earlier later =>
        earlier.arcs.length ≤ later.arcs.length) ∧
      ((run.reports watch).Pairwise fun earlier later => earlier.length ≤ later.length) ∧
      ∀ made stage, Passes source sink (.start network options.tolerance) made stage →
        (∀ vertex, stage.depth source sink vertex =
          reachLength (Leads (stage.network.Passable options.tolerance)) source vertex) ∧
        ∀ more later, Passes source sink stage more later →
          ∀ vertex, stage.depth source sink vertex ≤ later.depth source sink vertex := by
  have terminals : (Stage.start network options.tolerance).HasTerminals source sink :=
    ⟨wellFormed, sourceInside, sinkInside, differ⟩
  obtain ⟨last, passes, -⟩ := augmentAll_passes watch source sink
    (fun {_ _ _ _} holds augmented => Stage.HasTerminals.passes holds (.step augmented (.stop _)))
    (fun {stage _ _ _} (holds : stage.HasTerminals source sink) failed => by
      rcases Stage.attempt_cases holds.wellFormed holds.sourceInside holds.sinkInside
        holds.differ with
        ⟨other, saturated⟩ | ⟨arcs, amount, other, -, -, augmented⟩
      · rw [saturated] at failed
        cases failed
      · rw [augmented] at failed
        cases failed)
    (enoughFuel network) 0 _ terminals
  obtain ⟨-, -, ordered⟩ := passes.depth_le terminals
  have solved := solveWarm_eq options sourceInside sinkInside differ interval
  refine ⟨_, last, congrArg Solve.run solved, passes, ordered,
    Run.pairwise_reports ordered watch, ?_⟩
  intro made stage earlier
  refine ⟨fun vertex => ?_, fun more later passesMore => ?_⟩
  · have tolerance : stage.finder.tolerance = options.tolerance := earlier.keeps.2
    rw [Stage.depth_eq (terminals.passes earlier), tolerance]
  · exact (passesMore.depth_le (terminals.passes earlier)).1

/-- This network has a short lane to the sink, and a long one that goes against a flow. -/
def twoLanes : Network Rat :=
  ((((Network.empty 4).attach 0 1 ⟨4, 0, 1, 0⟩).attach 2 1 ⟨4, 0, 2, 0⟩).attach 2 3
    ⟨3, 0, 0, 0⟩).attach 0 3 ⟨2, 0, 1, 0⟩

/-- The short lane is augmented before the long one. -/
theorem solveWarm_lengths_rise_twoLanes :
    ∃ run, (solveWarm twoLanes 0 3 ⟨0, false⟩ .idle).run = some run ∧
      run.augmentations.map (fun augmentation => augmentation.arcs.length) = [1, 3] ∧
      run.augmentations.Pairwise fun earlier later =>
        earlier.arcs.length ≤ later.arcs.length := by
  have wellFormed : twoLanes.WellFormed :=
    ((((wellFormed_empty 4).attach (by simp) (by simp) _).attach (by simp) (by simp) _).attach
      (by simp) (by simp) _).attach (by simp) (by simp) _
  have computed : (solveWarm twoLanes 0 3 ⟨0, false⟩ .idle).run.map (fun run =>
      run.augmentations.map fun augmentation => augmentation.arcs.length) = some [1, 3] := by
    decide +kernel
  obtain ⟨run, last, ran, -, ordered, -, -⟩ := solveWarm_lengths_rise twoLanes wellFormed 0 3
    (by decide) (by decide) (by decide) ⟨0, false⟩ .idle (by decide)
  have ranAlso : (solveWarm twoLanes 0 3 ⟨0, false⟩ .idle).run = some run := ran
  rw [ranAlso] at computed
  exact ⟨run, ranAlso, Option.some.inj computed, ordered⟩

end NetworkFlow.MaxFlow
