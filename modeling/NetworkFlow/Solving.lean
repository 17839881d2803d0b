import NetworkFlow.Summary

namespace NetworkFlow

/-- A solve of a query leaves a network behind. -/
structure QuerySolve (α : Type) where
  network : Network α
  events : List (Event α)
  reports : List (Report α)
  outcome : Except (Fault α) (Solution α)

variable {α : Type} [Quantity α]

/-- A query with both terminals is solved as a maximum flow, and any other as a circulation. -/
def Query.solve (query : Query α) (network : Network α) (options : Options α)
    (watch : Watch α) : QuerySolve α :=
  match query.source, query.sink with
  | some source, some sink =>
    let solve := MaxFlow.solve network source sink options watch
    ⟨solve.network, solve.events source sink, solve.reports watch,
      solve.outcome.map .maxFlow⟩
  | _, _ =>
    let solve := Circulation.solve network (.dense query.demands) options watch
    ⟨network, solve.events, solve.reports, solve.outcome.map .circulation⟩

end NetworkFlow
