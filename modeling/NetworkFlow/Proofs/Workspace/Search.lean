import NetworkFlow.Proofs.Flow.LeastCut
import NetworkFlow.Proofs.Pool.Insertion
import NetworkFlow.Proofs.Residual.Reachability
import NetworkFlow.Workspace

namespace NetworkFlow

open Network

namespace Workspace

/-- An action gives its outcome and leaves a workspace. -/
def perform {β : Type} (action : Action β) (workspace : Workspace) :
    Except (Fault Number) β × Workspace :=
  action.run.run workspace

variable {workspace : Workspace} {number : Nat} {finder : Finder Number}
  {network : Network Number}

theorem perform_bind {β γ : Type} (first : Action β) (next : β → Action γ)
    (workspace : Workspace) : perform (first >>= next) workspace =
      match perform first workspace with
      | (.ok value, after) => perform (next value) after
      | (.error fault, after) => (.error fault, after) := by
  unfold perform ExceptT.run StateT.run
  simp only [Bind.bind, ExceptT.bind, ExceptT.mk, StateT.bind, ExceptT.bindCont]
  cases first workspace with
  | mk outcome after => cases outcome <;> rfl

theorem perform_get (workspace : Workspace) :
    perform (get : Action Workspace) workspace = (.ok workspace, workspace) := rfl

theorem perform_pooled {β : Type} (action : Pooled Number β) (workspace : Workspace) :
    perform (pooled action) workspace =
      (action.outcome workspace.pool, { workspace with pool := action.after workspace.pool }) := by
  have known : perform (pooled action) workspace =
      perform (liftM (action.perform workspace.pool).1 : Action β)
        { workspace with pool := (action.perform workspace.pool).2 } := rfl
  rw [known, Pooled.outcome, Pooled.after]
  cases (action.perform workspace.pool).1 <;> rfl

/-- A network is read without a change. -/
theorem perform_networkAt (read : (Pool.networkAt number).outcome workspace.pool = .ok network) :
    perform (networkAt number) workspace = (.ok network, workspace) := by
  cases framed : workspace.pool.frames[number]? with
  | none =>
    rw [Pooled.outcome, Pool.perform_networkAt_none framed] at read
    cases read
  | some frame =>
    rw [networkAt, perform_pooled, read, Pooled.after, Pool.perform_networkAt framed]

/-- A search changes nothing but the finder. -/
theorem perform_search (held : workspace.finder = some (number, finder))
    (read : (Pool.networkAt number).outcome workspace.pool = .ok network) {source sink : Int}
    {found : Bool} {next : Finder Number}
    (returned : finder.search network source sink = (.ok found, next)) :
    perform (search source sink) workspace =
      (.ok (found, next.tree), { workspace with finder := some (number, next) }) := by
  have last : perform lastFinder workspace = (.ok (number, finder, network), workspace) := by
    rw [lastFinder, perform_bind, perform_get]
    simp only [held, perform_bind, perform_networkAt read]
    rfl
  simp only [search, perform_bind, last, returned]
  rfl

/-- A search marks exactly the vertices that passable arcs lead to from the source, and says
whether the sink is one of them. It does not matter which sink is asked for or what earlier
searches left in the finder, and every network of the workspace stays as it is. -/
theorem search_marks_reached (held : workspace.finder = some (number, finder))
    (read : (Pool.networkAt number).outcome workspace.pool = .ok network)
    (wellFormed : network.WellFormed) (inRange : network.InDoubleRange) {source sink : Nat}
    (sourceInside : source < network.vertexCount) (sinkInside : sink < network.vertexCount) :
    ∃ found next, perform (search source sink) workspace =
        (.ok (found, next.tree), { workspace with finder := some (number, next) }) ∧
      (∀ vertex : Nat, next.hasPathTo vertex = .ok true ↔
        network.Reaches finder.tolerance source vertex) ∧
      (found = true ↔ network.Reaches finder.tolerance source sink) ∧
      (∀ vertex, vertex ∈ next.reachable ↔ network.Reaches finder.tolerance source vertex) ∧
      ∀ (earlier : Finder Number) (goal : Nat), earlier.tolerance = finder.tolerance →
        goal < network.vertexCount →
        (earlier.search network source goal).2.reachable = next.reachable := by
  obtain ⟨found, returned⟩ := finder.search_returns inRange.hasRooms wellFormed sourceInside
    sinkInside
  obtain ⟨explored, answer⟩ := Finder.explored_of_search wellFormed sourceInside returned
  have marks (vertex : Nat) := explored.isMarked_iff wellFormed vertex
  refine ⟨found, finder.after network source, perform_search held read returned, ?_, ?_, ?_, ?_⟩
  · exact fun vertex => (Finder.hasPathTo_natCast _ vertex).trans (marks vertex)
  · rw [← marks sink, ← Finder.hasPathTo_natCast, answer]
    exact ⟨congrArg Except.ok, Except.ok.inj⟩
  · exact fun vertex => Finder.mem_reachable_iff.trans (marks vertex)
  · intro earlier goal tolerance goalInside
    obtain ⟨other, returnedToo⟩ := earlier.search_returns inRange.hasRooms wellFormed sourceInside
      goalInside
    obtain ⟨exploredToo, -⟩ := Finder.explored_of_search wellFormed sourceInside returnedToo
    rw [returnedToo]
    refine Finder.reachable_eq (exploredToo.size.trans explored.size.symm) ?_
    ext vertex
    rw [Finder.mem_side_iff, Finder.mem_side_iff, exploredToo.isMarked_iff wellFormed, marks,
      tolerance]

/-- A lane without a bound, a lane whose flow is no number, and a loaded lane back to the start. -/
def detours : Network Number :=
  (((Network.empty 4).attach 0 1 ⟨.real (.infinity false), .int 0, .int 0, .int 0⟩).attach 1 3
    ⟨.int 5, .int 0, .real .nan, .int 0⟩).attach 2 0 ⟨.int 7, .int 0, .int 3, .int 0⟩

def surveyed : Workspace :=
  { empty with
    pool := (Pool.addNetwork detours).after .empty
    finder := some (0, .create detours (.int 0)) }

theorem search_marks_reached_detours :
    detours.Reaches (.int 0) 0 1 ∧ detours.Reaches (.int 0) 0 2 ∧
      ¬detours.Reaches (.int 0) 0 3 := by
  have wellFormed : detours.WellFormed :=
    (((wellFormed_empty 4).attach (by decide) (by decide) _).attach (by decide) (by decide)
      _).attach (by decide) (by decide) _
  have inRange : detours.InDoubleRange := by
    have known : ∀ edge ∈ detours.edges, edge.capacity.toBinary.isOk = true ∧
        edge.flow.toBinary.isOk = true := by decide +kernel
    exact fun edge member => (known edge member).imp exists_of_isOk exists_of_isOk
  obtain ⟨found, next, performed, -, -, reaches, -⟩ := @search_marks_reached surveyed 0
    (.create detours (.int 0)) detours rfl (by decide +kernel) wellFormed inRange 0 3 (by decide)
    (by decide)
  have marks : next.reachable = [0, 1, 2] := by
    have tree : (perform (search 0 3) surveyed).1.map (·.2.reachable) = .ok [0, 1, 2] := by
      decide +kernel
    have same := congrArg (fun after => after.1.map (·.2.reachable)) performed
    exact Except.ok.inj (same.symm.trans tree)
  rw [marks] at reaches
  exact ⟨(reaches 1).mp (by decide), (reaches 2).mp (by decide),
    fun reached => absurd ((reaches 3).mpr reached) (by decide)⟩

end Workspace
end NetworkFlow
