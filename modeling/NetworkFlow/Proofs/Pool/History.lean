import NetworkFlow.Proofs.Pool.Separation

namespace NetworkFlow

open Network

variable {α : Type} [Quantity α]

/-- A network is copied only when the bounds of all its edges are accepted. -/
theorem Network.check_of_copy {network clone : Network α} (copied : network.copy = .ok clone) :
    ∀ edge ∈ network.edges, edge.toLoad.check edge.tail edge.head = .ok () := by
  rw [Network.copy, ← Array.foldlM_toList] at copied
  simp only [← Array.mem_toList_iff]
  revert copied
  generalize Network.empty network.vertexCount = first
  generalize network.edges.toList = edges
  induction edges generalizing first with
  | nil => exact fun _ edge member => absurd member List.not_mem_nil
  | cons edge rest inductionHypothesis =>
    intro folded
    rw [List.foldlM_cons] at folded
    obtain ⟨next, inserted, folded⟩ := ok_of_bind folded
    obtain ⟨object, created, -⟩ := ok_of_bind inserted
    obtain ⟨⟨⟩, checked, -⟩ := ok_of_bind created
    intro other member
    rcases List.mem_cons.mp member with rfl | later
    · exact checked
    · exact inductionHypothesis next folded other later

/-- A network that can be copied is its own copy, from any flows. -/
theorem Network.copy_of_resetFlows {network other clone : Network α}
    (wellFormed : network.WellFormed) (copied : network.copy = .ok clone)
    (same : other.resetFlows = network.resetFlows) : other.copy = .ok other := by
  refine copy_eq (wellFormed.ofSameShape (sameShape_of_resetFlows same).symm) fun edge member => ?_
  have cleared : { edge with flow := Quantity.zero } ∈ network.resetFlows.edges := by
    rw [← same]
    exact Array.mem_map_of_mem member
  obtain ⟨twin, inside, equal⟩ := Array.mem_map.mp cleared
  have checked := check_of_copy copied twin inside
  rw [Load.check_eq_ok] at checked ⊢
  have capacity : twin.capacity = edge.capacity := congrArg (fun edge => edge.capacity) equal
  have lower : twin.lower = edge.lower := congrArg (fun edge => edge.lower) equal
  rwa [capacity, lower] at checked

/-- A circulation gives the same result, or the same fault, from any flows. -/
theorem Circulation.solve_congr {first second : Network α}
    (same : first.resetFlows = second.resetFlows) (copied : first.copy = .ok first)
    (copiedToo : second.copy = .ok second) (demands : Demands α) (options : Options α)
    (watch : Watch α) :
    solve first demands options watch = solve second demands options watch := by
  have shape := sameShape_of_resetFlows same
  simp only [solve, copied, copiedToo, shape.vertexCount, shape.edgeCount]
  cases demands.vector second.vertexCount with
  | error fault => rfl
  | ok vector => simp only [ok_bind, pure, Except.pure, same]

/-- A call of a solver on a network. -/
inductive Call (α : Type) where
  | maxFlow (source sink : Int) (options : Options α) (watch : Watch α)
  | warmMaxFlow (source sink : Int) (options : Options α) (watch : Watch α)
  | circulation (demands : Demands α) (options : Options α) (watch : Watch α)

namespace Call

/-- The operation that a call makes on the network with a number. -/
def on (number : Nat) : Call α → Operation α
  | .maxFlow source sink options watch => .maxFlow number source sink options watch
  | .warmMaxFlow source sink options watch => .warmMaxFlow number source sink options watch
  | .circulation demands options watch => .circulation number demands options watch

/-- The pool after calls on one network, each of which may have failed. -/
def makeAll (number : Nat) (calls : List (Call α)) (pool : Pool α) : Pool α :=
  (calls.map (on number)).foldl Operation.after pool

end Call

namespace Pool.Represents

variable {pool : Pool α} {networks : Array (Network α)} {network : Network α} {number : Nat}

/-- A copy that succeeds comes last and equals the network, because its bounds were accepted
once more. -/
theorem exists_copied (represents : pool.Represents networks) {clone : Nat}
    (copied : (copy number).outcome pool = .ok clone) :
    ∃ network, networks[number]? = some network ∧ networks.size = clone ∧
      network.copy = .ok network ∧
      (copy number).Leads pool (.ok networks.size) (networks.push network) networks.size := by
  cases found : networks[number]? with
  | none =>
    have missing := represents.frame_eq_none found
    simp [Pooled.outcome, copy, Pooled.perform_bind, perform_frameAt_none missing] at copied
  | some network =>
    obtain ⟨outcome, last, leads, separate⟩ := represents.leads_copy found
    rw [leads.outcome] at copied
    cases outcome with
    | error fault => cases copied
    | ok value =>
      have same := copy_eq (represents.wellFormed _ _ found) (check_of_copy separate)
      obtain rfl : last = network := Except.ok.inj (separate.symm.trans same)
      exact ⟨last, rfl, Except.ok.inj copied, same, leads⟩

/-- A call changes the flows of its network at most, and no other network. -/
theorem exists_call (represents : pool.Represents networks)
    (found : networks[number]? = some network) (call : Call α) :
    ∃ later next, ((call.on number).after pool).Represents later ∧ later[number]? = some next ∧
      next.resetFlows = network.resetFlows ∧
      ∀ other < networks.size, other ≠ number → later[other]? = networks[other]? := by
  have below : number < networks.size := (Array.getElem?_eq_some_iff.mp found).1
  have written (next : Network α) : (networks.setIfInBounds number next)[number]? = some next :=
    Array.getElem?_setIfInBounds_self_of_lt below
  have elsewhere (next : Network α) (other : Nat) (different : other ≠ number) :
      (networks.setIfInBounds number next)[other]? = networks[other]? :=
    Array.getElem?_setIfInBounds_ne (Ne.symm different)
  cases call with
  | maxFlow source sink options watch =>
    have leads := represents.leads_maxFlow found source sink options watch
    exact ⟨_, _, leads.represents, written _, MaxFlow.resetFlows_solve _ _ _ _ _,
      fun other _ => elsewhere _ other⟩
  | warmMaxFlow source sink options watch =>
    have leads := represents.leads_warmMaxFlow found source sink options watch
    exact ⟨_, _, leads.represents, written _, MaxFlow.resetFlows_solveWarm _ _ _ _ _,
      fun other _ => elsewhere _ other⟩
  | circulation demands options watch =>
    obtain ⟨later, leads, kept⟩ := represents.leads_circulation found demands options watch
    exact ⟨later, network, leads.represents, (kept number below).trans found, rfl,
      fun other inside _ => kept other inside⟩

/-- Calls change the flows of their network at most, and no network from before. -/
theorem exists_calls (represents : pool.Represents networks)
    (found : networks[number]? = some network) (calls : List (Call α)) :
    ∃ later next, (Call.makeAll number calls pool).Represents later ∧ later[number]? = some next ∧
      next.resetFlows = network.resetFlows ∧
      ∀ other < networks.size, other ≠ number → later[other]? = networks[other]? := by
  induction calls generalizing pool networks network with
  | nil => exact ⟨networks, network, represents, found, rfl, fun _ _ _ => rfl⟩
  | cons call rest inductionHypothesis =>
    obtain ⟨middle, current, called, foundToo, same, kept⟩ := represents.exists_call found call
    obtain ⟨later, next, calledAll, known, sameToo, keptToo⟩ :=
      inductionHypothesis called foundToo
    refine ⟨later, next, calledAll, known, sameToo.trans same, fun other below different => ?_⟩
    have inside : other < middle.size := by
      have stands := kept other below different
      rw [Array.getElem?_eq_getElem below] at stands
      exact (Array.getElem?_eq_some_iff.mp stands).1
    rw [keptToo other inside different, kept other below different]

/-- A circulation keeps the frame of its network and every edge that the frame lists. -/
theorem circulation_keeps (represents : pool.Represents networks)
    (found : networks[number]? = some network) (demands : Demands α) (options : Options α)
    (watch : Watch α) :
    let next := (circulation number demands options watch).after pool
    next.frames[number]? = pool.frames[number]? ∧
      ∀ frame, pool.frames[number]? = some frame → ∀ reference ∈ frame.edges,
        next.objects[reference]? = pool.objects[reference]? := by
  have below : number < networks.size := (Array.getElem?_eq_some_iff.mp found).1
  obtain ⟨later, leads, kept⟩ := represents.leads_circulation found demands options watch
  exact ⟨leads.frames number below, fun frame framed =>
    (represents.keeps_of_leads framed leads kept).objects⟩

end Pool.Represents

/-- A network and a copy of it give the same maximum flows and the same circulations after any
calls on the network, which may have been refused or halted. A circulation changes no field of
an edge of the network, no list of a vertex and not the number of the vertices. -/
theorem Pool.solves_independent_of_history (operations : List (Operation α)) {number clone : Nat}
    (copied : (copy number).outcome (run operations) = .ok clone) (calls : List (Call α)) :
    let before := (copy number).after (run operations)
    let after := Call.makeAll number calls before
    (∀ (source sink : Int) (options : Options α) (watch : Watch α),
      (maxFlow number source sink options watch).outcome after =
        (maxFlow clone source sink options watch).outcome after) ∧
    (∀ (demands : Demands α) (options : Options α) (watch : Watch α),
      (circulation number demands options watch).outcome after =
        (circulation clone demands options watch).outcome after) ∧
    ∀ (earlier later : List (Call α)) (demands : Demands α) (options : Options α)
      (watch : Watch α), calls = earlier ++ .circulation demands options watch :: later →
      let pool := Call.makeAll number earlier before
      let next := (circulation number demands options watch).after pool
      next.frames[number]? = pool.frames[number]? ∧
        ∀ frame, pool.frames[number]? = some frame → ∀ reference ∈ frame.edges,
          next.objects[reference]? = pool.objects[reference]? := by
  obtain ⟨networks, represents⟩ := exists_run operations
  obtain ⟨network, found, rfl, separate, copies⟩ := represents.exists_copied copied
  have wellFormed := represents.wellFormed _ _ found
  have below : number < networks.size := (Array.getElem?_eq_some_iff.mp found).1
  have foundToo : (networks.push network)[number]? = some network :=
    (getElem?_push_of_lt below).trans found
  have different : networks.size ≠ number := Nat.ne_of_gt below
  intro before after
  refine ⟨fun source sink options watch => ?_, fun demands options watch => ?_, ?_⟩
  · obtain ⟨later, next, called, known, same, kept⟩ :=
      copies.represents.exists_calls foundToo calls
    have knownToo := (kept networks.size (by simp) different).trans Array.getElem?_push_size
    rw [(called.leads_maxFlow known ..).outcome, (called.leads_maxFlow knownToo ..).outcome,
      MaxFlow.solve_congr same]
  · obtain ⟨later, next, called, known, same, kept⟩ :=
      copies.represents.exists_calls foundToo calls
    have knownToo := (kept networks.size (by simp) different).trans Array.getElem?_push_size
    obtain ⟨_, leads, -⟩ := called.leads_circulation known demands options watch
    obtain ⟨_, leadsToo, -⟩ := called.leads_circulation knownToo demands options watch
    rw [leads.outcome, leadsToo.outcome, Circulation.solve_congr same
      (copy_of_resetFlows wellFormed separate same)
      (copy_of_resetFlows wellFormed separate rfl)]
  · rintro earlier later demands options watch -
    obtain ⟨middle, next, called, known, -, -⟩ :=
      copies.represents.exists_calls foundToo earlier
    exact called.circulation_keeps known demands options watch

namespace Pool

/-- A network with one edge, of capacity three. -/
def lane : List (Operation Number) :=
  [.create 2, .addEdge 0 0 1 (.int 3) (.int 0)]

/-- The calls are halted after one augmentation, refused, resumed and about a circulation. -/
def laneCalls : List (Call Number) :=
  [.maxFlow 0 1 .usual ⟨1, fun _ => true⟩, .maxFlow 0 7 .usual .idle,
    .warmMaxFlow 0 1 .usual .idle, .circulation (.dense [.int (-2), .int 2]) .usual .idle]

theorem solves_independent_of_history_lane :
    (copy 0).outcome (run lane) = .ok 1 ∧
    let after := Call.makeAll 0 laneCalls ((copy 0).after (run lane))
    (maxFlow 0 0 1 .usual .idle).outcome after = (maxFlow 1 0 1 .usual .idle).outcome after ∧
    (circulation 0 (.dense [.int (-2), .int 2]) .usual .idle).outcome after =
      (circulation 1 (.dense [.int (-2), .int 2]) .usual .idle).outcome after := by
  have copied : (copy 0).outcome (run lane) = .ok 1 := by decide +kernel
  obtain ⟨flows, circulations, -⟩ := solves_independent_of_history lane copied laneCalls
  exact ⟨copied, flows 0 1 .usual .idle, circulations (.dense [.int (-2), .int 2]) .usual .idle⟩

end Pool
end NetworkFlow
