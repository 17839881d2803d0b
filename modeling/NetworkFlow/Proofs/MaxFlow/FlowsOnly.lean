import NetworkFlow.MaxFlow
import NetworkFlow.Proofs.Network.Incidence

namespace NetworkFlow

open Quantity

variable {α : Type} [Quantity α]

namespace Network

/-- Networks that agree once their flows are cleared differ in their flows only. -/
theorem sameShape_of_resetFlows {first second : Network α}
    (same : first.resetFlows = second.resetFlows) : SameShape first second := by
  have cleared := sameShape_resetFlows first
  rw [same] at cleared
  exact cleared.trans (sameShape_resetFlows second).symm

@[simp] theorem resetFlows_resetFlows (network : Network α) :
    network.resetFlows.resetFlows = network.resetFlows := by
  simp [resetFlows, Function.comp_def]

@[simp] theorem hasLowerBounds_resetFlows (network : Network α) :
    network.resetFlows.hasLowerBounds = network.hasLowerBounds := by
  simp [hasLowerBounds, resetFlows]

/-- A load that differs from the old one in its flow only is cleared to the same load. -/
theorem resetFlows_modifyLoad {network : Network α} {position : Nat} {edge : Edge α}
    (stands : network.edges[position]? = some edge) {load : Load α}
    (cleared : { load with flow := zero } = { edge.toLoad with flow := zero }) :
    (network.modifyLoad position fun _ => load).resetFlows = network.resetFlows := by
  refine congrArg (Network.mk network.adjacency) (Array.ext_getElem? fun other => ?_)
  simp only [Array.getElem?_map, modifyLoad, Array.getElem?_modify]
  split
  · next same =>
    rw [← same, stands]
    simp only [Option.map_some, Edge.withLoad]
    rw [cleared]
  · rfl

end Network

/-- A push changes the flow of a load and keeps its bounds. -/
theorem Load.push_cleared {load pushed : Load α} {forward : Bool} {amount : α}
    (push : load.push forward amount = .ok pushed) :
    { pushed with flow := zero } = { load with flow := zero } := by
  unfold Load.push at push
  split at push
  · cases added : add load.flow amount with
    | error fault =>
      rw [added] at push
      cases push
    | ok flow =>
      rw [added] at push
      cases push
      rfl
  · cases subtracted : sub load.flow amount with
    | error fault =>
      rw [subtracted] at push
      cases push
    | ok flow =>
      rw [subtracted] at push
      cases push
      rfl

/-- A push along a path changes flows only, also when it stops on the way. -/
theorem Network.resetFlows_pushAlong (amount : α) (arcs : List Arc) (network : Network α) :
    (network.pushAlong amount arcs).1.resetFlows = network.resetFlows := by
  induction arcs generalizing network with
  | nil => rfl
  | cons arc rest inductionHypothesis =>
    rw [pushAlong]
    split
    · rfl
    · next edge stands =>
      split
      · rfl
      · next load pushed =>
        rw [inductionHypothesis, resetFlows_modifyLoad stands (Load.push_cleared pushed)]

namespace MaxFlow

/-- The network that an attempt leaves. -/
def Attempt.left (network : Network α) : Attempt α → Network α
  | .saturated _ => network
  | .failed after _ _ => after
  | .augmented after _ _ => after

section Kept

variable (kept : Network α → Prop)

/-- What every push keeps is kept by an attempt, however it ends. -/
theorem attempt_keeps
    (pushes : ∀ network amount arcs, kept network → kept (network.pushAlong amount arcs).1)
    {network : Network α} (holds : kept network) (finder : Finder α) (source sink : Nat)
    (total : α) :
    kept ((attempt network finder source sink total).left network) := by
  simp only [attempt]
  split
  · exact holds
  · exact holds
  · split
    · exact holds
    · next arcs amount path =>
      have pushed := pushes network amount arcs holds
      split
      · next along =>
        rw [along] at pushed
        exact pushed
      · next along =>
        rw [along] at pushed
        split <;> exact pushed

/-- What every push keeps is kept by the whole loop, however it ends. -/
theorem augmentAll_keeps (watch : Watch α)
    (pushes : ∀ network amount arcs, kept network → kept (network.pushAlong amount arcs).1)
    (source sink fuel count : Nat) (total : α) (network : Network α) (finder : Finder α)
    (holds : kept network) :
    kept (augmentAll watch source sink fuel count total network finder).network := by
  induction fuel generalizing count total network finder with
  | zero => exact holds
  | succ fuel inductionHypothesis =>
    have left := attempt_keeps kept pushes holds finder source sink total
    rw [augmentAll]
    cases attempted : attempt network finder source sink total with
    | saturated next => exact holds
    | failed after next fault =>
      rw [attempted] at left
      exact left
    | augmented after next augmentation =>
      rw [attempted] at left
      dsimp only
      split
      · exact left
      · exact inductionHypothesis _ _ _ _ left

end Kept

/-- A run from accepted terminals changes flows only. -/
theorem resetFlows_solveFrom (network : Network α) (source sink : Nat) (options : Options α)
    (watch : Watch α) :
    (solveFrom network source sink options watch).network.resetFlows = network.resetFlows := by
  have pushes (other : Network α) (amount : α) (arcs : List Arc)
      (same : other.resetFlows = network.resetFlows) :
      (other.pushAlong amount arcs).1.resetFlows = network.resetFlows :=
    (Network.resetFlows_pushAlong amount arcs other).trans same
  unfold solveFrom
  dsimp only
  split
  · rfl
  · exact augmentAll_keeps (fun other => other.resetFlows = network.resetFlows) watch pushes
      _ _ _ _ _ _ _ rfl

/-- A warm solve changes flows only, whether it succeeds, is refused or is halted. -/
theorem resetFlows_solveWarm (network : Network α) (source sink : Int) (options : Options α)
    (watch : Watch α) :
    (solveWarm network source sink options watch).network.resetFlows = network.resetFlows := by
  unfold solveWarm
  split
  · rfl
  · exact resetFlows_solveFrom _ _ _ _ _

/-- A solve changes flows only, whether it succeeds, is refused or is halted. -/
theorem resetFlows_solve (network : Network α) (source sink : Int) (options : Options α)
    (watch : Watch α) :
    (solve network source sink options watch).network.resetFlows = network.resetFlows := by
  unfold solve
  split
  · rfl
  · split
    · rfl
    · rw [resetFlows_solveFrom, Network.resetFlows_resetFlows]

omit [Quantity α] in
/-- The terminals are accepted by the number of vertices alone. -/
theorem checkTerminals_congr {first second : Network α}
    (same : first.vertexCount = second.vertexCount) (source sink : Int) :
    checkTerminals first source sink = checkTerminals second source sink := by
  simp only [checkTerminals, Network.checkVertex, same]

/-- A solve gives the same result, or the same fault, from any flows. -/
theorem solve_congr {first second : Network α} (same : first.resetFlows = second.resetFlows)
    (source sink : Int) (options : Options α) (watch : Watch α) :
    (solve first source sink options watch).outcome =
      (solve second source sink options watch).outcome := by
  have bounds : first.hasLowerBounds = second.hasLowerBounds := by
    rw [← first.hasLowerBounds_resetFlows, same, second.hasLowerBounds_resetFlows]
  have vertices : first.vertexCount = second.vertexCount :=
    (Network.sameShape_of_resetFlows same).vertexCount
  unfold solve
  rw [bounds, checkTerminals_congr vertices, same]
  split
  · rfl
  · split <;> rfl

end MaxFlow
end NetworkFlow
