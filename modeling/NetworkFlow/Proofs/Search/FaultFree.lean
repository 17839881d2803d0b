import NetworkFlow.Proofs.Search.TreePath

namespace NetworkFlow

variable {α : Type}

namespace Crossing

/-- The rule that refuses every edge on which the given rule fails. -/
def decided (rule : Crossing α) : Crossing α where
  next := rule.next
  admits vertex edge :=
    match rule.admits vertex edge with
    | .ok admitted => .ok admitted
    | .error _ => .ok false

theorem decided_of_ok {rule : Crossing α} {vertex : Nat} {edge : Edge α} {admitted : Bool}
    (decides : rule.admits vertex edge = .ok admitted) :
    rule.decided.admits vertex edge = .ok admitted := by
  simp only [decided, decides]

/-- Refusing the undecided edges crosses the same arcs. -/
theorem crosses_decided (rule : Crossing α) (network : Network α) :
    rule.decided.Crosses network = rule.Crosses network := by
  funext arc
  have admitted (edge : Edge α) : rule.decided.admits arc.origin edge = .ok true ↔
      rule.admits arc.origin edge = .ok true := by
    simp only [decided]
    cases rule.admits arc.origin edge with
    | ok admitted => rfl
    | error fault => constructor <;> intro admitted <;> cases admitted
  simp only [Crosses, admitted]
  rfl

/-- A rule stays in a network when every edge leads from a vertex of the network to another. -/
def StaysIn (rule : Crossing α) (network : Network α) : Prop :=
  ∀ vertex < network.vertexCount, ∀ position ∈ network.incident vertex,
    ∃ edge, network.edges[position]? = some edge ∧
      ∀ next, rule.next vertex edge = some next → next < network.vertexCount

theorem StaysIn.decides {rule : Crossing α} {network : Network α} (stays : rule.StaysIn network) :
    rule.decided.Decides network := by
  intro vertex inside position incident
  obtain ⟨edge, stands, within⟩ := stays vertex inside position incident
  refine ⟨edge, stands, fun next leads => ⟨within next leads, ?_⟩⟩
  simp only [decided]
  cases rule.admits vertex edge with
  | ok admitted => exact ⟨admitted, rfl⟩
  | error fault => exact ⟨false, rfl⟩

end Crossing

namespace Search

variable {rule : Crossing α} {network : Network α}

/-- A search that failed crosses nothing more. -/
theorem cross_of_fault {search : Search α} {fault : Fault α} (failed : search.fault = some fault)
    (vertex position : Nat) : cross network rule vertex search position = search := by
  simp only [cross, failed]

theorem foldl_cross_of_fault {search : Search α} {fault : Fault α}
    (failed : search.fault = some fault) (vertex : Nat) (positions : List Nat) :
    positions.foldl (cross network rule vertex) search = search := by
  induction positions with
  | nil => rfl
  | cons position rest inductionHypothesis =>
    rw [List.foldl_cons, cross_of_fault failed, inductionHypothesis]

theorem explore_of_fault {search : Search α} {fault : Fault α}
    (failed : search.fault = some fault) (goal : Option Nat) (fuel : Nat) :
    explore network rule goal fuel search = search := by
  cases fuel with
  | zero => rfl
  | succ fuel => rw [explore, if_pos (by simp [hasEnded, failed])]

/-- An edge that leaves no fault is crossed alike by both rules. -/
theorem cross_decided {search : Search α} {vertex position : Nat}
    (noFault : (cross network rule vertex search position).fault = none) :
    cross network rule.decided vertex search position =
      cross network rule vertex search position := by
  cases failed : search.fault with
  | some fault => rw [cross_of_fault failed, cross_of_fault failed]
  | none =>
    cases stands : network.edges[position]? with
    | none => simp only [cross, failed, stands]
    | some edge =>
      cases leads : rule.next vertex edge with
      | none => simp only [cross, failed, stands, leads, Crossing.decided]
      | some next =>
        by_cases fresh : search.tree.marked[next]? = some false
        · cases verdict : rule.admits vertex edge with
          | error fault => simp [cross, failed, stands, leads, fresh, verdict] at noFault
          | ok admitted =>
            simp only [cross, failed, stands, Crossing.decided_of_ok verdict, verdict]
            rfl
        · simp only [cross, failed, stands, leads, fresh, Crossing.decided, if_false]

theorem foldl_cross_decided {vertex : Nat} (positions : List Nat) {search : Search α}
    (noFault : (positions.foldl (cross network rule vertex) search).fault = none) :
    positions.foldl (cross network rule.decided vertex) search =
      positions.foldl (cross network rule vertex) search := by
  induction positions generalizing search with
  | nil => rfl
  | cons position rest inductionHypothesis =>
    rw [List.foldl_cons] at noFault
    have first : (cross network rule vertex search position).fault = none := by
      by_contra failed
      obtain ⟨fault, failed⟩ := Option.ne_none_iff_exists'.mp failed
      rw [foldl_cross_of_fault failed, failed] at noFault
      cases noFault
    rw [List.foldl_cons, List.foldl_cons, cross_decided first, inductionHypothesis noFault]

theorem explore_decided (goal : Option Nat) (fuel : Nat) {search : Search α}
    (noFault : (explore network rule goal fuel search).fault = none) :
    explore network rule.decided goal fuel search = explore network rule goal fuel search := by
  induction fuel generalizing search with
  | zero => rfl
  | succ fuel inductionHypothesis =>
    rw [explore] at noFault ⊢
    rw [explore]
    by_cases ended : search.hasEnded goal = true
    · rw [if_pos ended, if_pos ended]
    · rw [if_neg ended] at noFault ⊢
      rw [if_neg ended]
      cases queue : search.queue with
      | nil => rfl
      | cons vertex rest =>
        simp only [queue] at noFault ⊢
        have first : (scan network rule { search with queue := rest } vertex).fault = none := by
          by_contra failed
          obtain ⟨fault, failed⟩ := Option.ne_none_iff_exists'.mp failed
          rw [explore_of_fault failed, failed] at noFault
          cases noFault
        have same := foldl_cross_decided (network.incident vertex) first
        rw [show scan network rule.decided { search with queue := rest } vertex =
          scan network rule { search with queue := rest } vertex from same]
        exact inductionHypothesis noFault

/-- A search from a vertex that ends without a fault reaches everything that the rule leads to,
whatever the rule does elsewhere. -/
theorem spans_of_noFault (stays : rule.StaysIn network) {source : Nat}
    (inRange : source < network.vertexCount)
    (noFault : (run network rule none source).fault = none) :
    ∃ level, (run network rule none source).tree.Spans rule network source level := by
  obtain ⟨-, level, spans⟩ := run_spans stays.decides inRange
  have same := rule.crosses_decided network
  have equal : run network rule.decided none source = run network rule none source :=
    explore_decided none network.vertexCount noFault
  rw [equal] at spans
  exact ⟨level, { spans with parent := same ▸ spans.parent, closed := same ▸ spans.closed }⟩

end Search
end NetworkFlow
