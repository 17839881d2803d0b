import NetworkFlow.Network.WellFormed
import NetworkFlow.Search
import Mathlib.Tactic

namespace NetworkFlow

variable {α : Type}

namespace Crossing

/-- A rule crosses an arc when its edge stands at its origin, leads to its target
and is admitted. -/
def Crosses (rule : Crossing α) (network : Network α) (arc : Arc) : Prop :=
  arc.edge ∈ network.incident arc.origin ∧
    ∃ edge, network.edges[arc.edge]? = some edge ∧
      rule.next arc.origin edge = some arc.target ∧ rule.admits arc.origin edge = .ok true

/-- A rule decides a network when it gives a verdict on every edge at every vertex,
and leads to vertices of the network only. -/
def Decides (rule : Crossing α) (network : Network α) : Prop :=
  ∀ vertex < network.vertexCount, ∀ position ∈ network.incident vertex,
    ∃ edge, network.edges[position]? = some edge ∧
      ∀ next, rule.next vertex edge = some next →
        next < network.vertexCount ∧ ∃ admitted, rule.admits vertex edge = .ok admitted

end Crossing

/-- The arcs lead from a vertex to another when one of them goes from it to there. -/
def Leads (crosses : Arc → Prop) (origin target : Nat) : Prop :=
  ∃ position, crosses ⟨position, origin, target⟩

theorem leads_of_crosses {crosses : Arc → Prop} {arc : Arc} (crossed : crosses arc) :
    Leads crosses arc.origin arc.target :=
  ⟨arc.edge, crossed⟩

/-- A walk of a given length starts at the source and takes one step at a time. -/
inductive Walk (step : Nat → Nat → Prop) (source : Nat) : Nat → Nat → Prop where
  | start : Walk step source 0 source
  | extend {length origin target : Nat} (walk : Walk step source length origin)
      (leads : step origin target) : Walk step source (length + 1) target

/-- The arcs of a path, with the last arc first, lead from the source to a target. -/
inductive ArcPath (source : Nat) : List Arc → Nat → Prop where
  | start : ArcPath source [] source
  | extend {rest : List Arc} (arc : Arc) (path : ArcPath source rest arc.origin) :
      ArcPath source (arc :: rest) arc.target

theorem ArcPath.ne_nil {source target : Nat} {arcs : List Arc} (path : ArcPath source arcs target)
    (differ : source ≠ target) : arcs ≠ [] := by
  cases path with
  | start => exact absurd rfl differ
  | extend arc path => exact List.cons_ne_nil _ _

/-- The distance of a vertex is the length of a shortest walk,
or the bound when no walk is shorter than that. -/
noncomputable def distance (step : Nat → Nat → Prop) (source bound vertex : Nat) : Nat :=
  sInf {length | length = bound ∨ Walk step source length vertex}

section Distance

variable {step : Nat → Nat → Prop} {source bound : Nat}

theorem distance_le_bound (vertex : Nat) : distance step source bound vertex ≤ bound :=
  Nat.sInf_le (Or.inl rfl)

theorem distance_le_length {length vertex : Nat} (walk : Walk step source length vertex) :
    distance step source bound vertex ≤ length :=
  Nat.sInf_le (Or.inr walk)

/-- A vertex below the bound is reached by a walk as long as its distance. -/
theorem walk_of_distance_lt {vertex : Nat} (near : distance step source bound vertex < bound) :
    Walk step source (distance step source bound vertex) vertex := by
  have attained : distance step source bound vertex ∈
      {length | length = bound ∨ Walk step source length vertex} :=
    Nat.sInf_mem ⟨bound, Or.inl rfl⟩
  rcases attained with equal | walk
  · omega
  · exact walk

/-- One step raises the distance by at most one. -/
theorem distance_step {origin target : Nat} (leads : step origin target) :
    distance step source bound target ≤ distance step source bound origin + 1 := by
  by_cases near : distance step source bound origin < bound
  · exact distance_le_length ((walk_of_distance_lt near).extend leads)
  · have far : distance step source bound target ≤ bound := distance_le_bound target
    omega

/-- A function below every walk is below the distance. -/
theorem le_distance {value : Nat → Nat} (vertex : Nat) (small : value vertex ≤ bound)
    (below : ∀ length, Walk step source length vertex → value vertex ≤ length) :
    value vertex ≤ distance step source bound vertex := by
  by_cases near : distance step source bound vertex < bound
  · exact below _ (walk_of_distance_lt near)
  · omega

end Distance

end NetworkFlow
