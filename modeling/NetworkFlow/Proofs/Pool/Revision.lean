import NetworkFlow.Proofs.MaxFlow.FlowsOnly
import NetworkFlow.Proofs.Pool.Copying

namespace NetworkFlow

open Network

variable {α β : Type}

/-- The frame that a network is written over. Its old references come first. -/
def Frame.rewritten (frame : Frame) (size : Nat) (network : Network α) : Frame :=
  let fresh := network.edges.toList.drop frame.edges.size
  let references := frame.edges ++ (List.range' size fresh.length).toArray
  ⟨network.adjacency.map fun incident => incident.filterMap (references[·]?), references⟩

namespace Pool

variable {pool : Pool α} {networks : Array (Network α)} {network changed : Network α}
  {number : Nat} {frame : Frame}

theorem replace_eq (pool : Pool α) (number : Nat) (frame : Frame) (network : Network α) :
    pool.replace number frame network =
      ⟨write pool.objects (frame.edges.toList.zip network.edges.toList) ++
          ((network.edges.toList.drop frame.edges.size).map Edge.loose).toArray,
        pool.frames.setIfInBounds number (frame.rewritten pool.objects.size network)⟩ := rfl

/-- What was written is read, also when objects were added. -/
theorem map_write_append {objects : Array (LooseEdge α)} (edges : List (Nat × Edge α))
    (nodup : (edges.map Prod.fst).Nodup) (inside : ∀ entry ∈ edges, entry.1 < objects.size)
    (added : Array (LooseEdge α)) :
    (edges.map Prod.fst).map ((write objects edges ++ added)[·]?) =
      (edges.map Prod.snd).map (some ·.loose) := by
  rw [List.map_map, List.map_map]
  refine List.map_congr_left fun entry member => ?_
  have below := inside entry member
  rw [Function.comp_apply, Function.comp_apply,
    Array.getElem?_append_left (by rwa [size_write]), getElem?_write_of_mem nodup member below]

/-- Added objects are read at the references that come next. -/
theorem map_range_append (objects : Array β) (added : List β) :
    (List.range' objects.size added.length).map ((objects ++ added.toArray)[·]?) =
      added.map some := by
  apply List.ext_getElem
  · simp
  · intro position below _
    rw [List.length_map, List.length_range'] at below
    rw [List.getElem_map, List.getElem_range', one_mul, List.getElem_map,
      Array.getElem?_append_right (Nat.le_add_right _ _), Nat.add_sub_cancel_left,
      List.getElem?_toArray, List.getElem?_eq_getElem below]

/-- Every reference of the rewritten frame leads to the edge at its position. -/
theorem stores_rewritten {objects : Array (LooseEdge α)} (nodup : frame.edges.toList.Nodup)
    (inside : ∀ reference ∈ frame.edges, reference < objects.size)
    (fewer : frame.edges.size ≤ changed.edges.size) :
    (frame.rewritten objects.size changed).Stores
      (write objects (frame.edges.toList.zip changed.edges.toList) ++
        ((changed.edges.toList.drop frame.edges.size).map Edge.loose).toArray) changed := by
  have lengths : frame.edges.toList.length ≤ changed.edges.toList.length := by simpa using fewer
  have keys := List.map_fst_zip lengths
  have entries : (frame.edges.toList.zip changed.edges.toList).map Prod.snd =
      changed.edges.toList.take frame.edges.size := by
    apply List.ext_getElem
    · simp
    · intro position _ _
      simp
  have old := map_write_append (frame.edges.toList.zip changed.edges.toList) (by rwa [keys])
    (fun entry member => inside entry.1
      (Array.mem_toList_iff.mp (keys ▸ List.mem_map_of_mem member)))
    ((changed.edges.toList.drop frame.edges.size).map Edge.loose).toArray
  have new := map_range_append (write objects (frame.edges.toList.zip changed.edges.toList))
    ((changed.edges.toList.drop frame.edges.size).map Edge.loose)
  rw [keys, entries] at old
  rw [size_write, List.length_map, List.map_map] at new
  refine ⟨?_, rfl⟩
  simp only [Frame.rewritten, Array.toList_append, List.map_append, old, new]
  rw [← Function.comp_def, ← List.map_append, List.take_append_drop]

theorem perform_revise (framed : pool.frames[number]? = some frame)
    (operation : Network α → Network α × Except (Fault α) β) :
    (revise number operation).perform pool =
      ((operation (frame.network pool.objects)).2,
        pool.replace number frame (operation (frame.network pool.objects)).1) := by
  simp [revise, Pooled.perform_bind, perform_frameAt framed]

theorem perform_revise_none (missing : pool.frames[number]? = none)
    (operation : Network α → Network α × Except (Fault α) β) :
    (revise number operation).perform pool = (.error .noPosition, pool) := by
  simp [revise, Pooled.perform_bind, perform_frameAt_none missing]

/-- The outcome of a solve in place. -/
theorem runMaxFlow_outcome (number : Nat) (solver : Network α → MaxFlow.Solve α) :
    (do
      let solve ← runMaxFlow number solver
      solve.outcome : Pooled α (MaxFlow.Result α)) =
      revise number fun network => ((solver network).network, (solver network).outcome) := by
  refine Pooled.ext fun pool => ?_
  cases framed : pool.frames[number]? with
  | none =>
    rw [Pooled.perform_bind, runMaxFlow, perform_revise_none framed, perform_revise_none framed]
  | some frame =>
    rw [Pooled.perform_bind, runMaxFlow, perform_revise framed, perform_revise framed]
    exact Pooled.perform_lift _ _

namespace Represents

/-- An operation that keeps the parts of a network in step and loses no edge may run in place.
No other network changes. -/
theorem leads_revise (represents : pool.Represents networks)
    (found : networks[number]? = some network)
    (operation : Network α → Network α × Except (Fault α) β)
    (grows : network.Grows (operation network).1) :
    (revise number operation).Leads pool (operation network).2
      (networks.setIfInBounds number (operation network).1) number := by
  obtain ⟨frame, framed, stores⟩ := represents.exists_frame found
  have wellFormed := represents.wellFormed _ _ found
  have fewer : frame.edges.size ≤ (operation network).1.edges.size := by
    rw [stores.size]
    exact grows.edges
  have keys : (frame.edges.toList.zip (operation network).1.edges.toList).map Prod.fst =
      frame.edges.toList := List.map_fst_zip (by simpa using fewer)
  have inside (reference : Nat) (member : reference ∈ frame.edges) :
      reference < pool.objects.size := represents.lt_size framed member
  have performs := perform_revise framed operation
  rw [stores.network_eq wellFormed, replace_eq] at performs
  refine .of_perform _ performs ?_ fun other below => ?_
  · refine represents.update framed (grows.wellFormed wellFormed)
      (stores_rewritten (stores.nodup wellFormed) inside fewer) ?_ ?_
    · intro reference below unlisted
      have old : reference ∉ frame.edges := fun member =>
        unlisted (Array.mem_append_left _ member)
      rw [Array.getElem?_append_left (by rwa [size_write]),
        getElem?_write_of_not_mem (by rwa [keys, Array.mem_toList_iff])]
    · intro reference member
      rcases Array.mem_append.mp member with old | new
      · exact Or.inl old
      · right
        intro other framed listed
        obtain ⟨position, framed⟩ := Array.mem_iff_getElem?.mp framed
        have below := represents.lt_size framed listed
        simp only [List.mem_toArray, List.mem_range'_1] at new
        omega
  · exact Array.getElem?_setIfInBounds_ne (Nat.ne_of_gt below)

/-- The last network may be changed while the earlier ones stay. -/
theorem leads_revise_last {last : Network α} (represents : pool.Represents (networks.push last))
    (operation : Network α → Network α × Except (Fault α) β)
    (grows : last.Grows (operation last).1) :
    (revise networks.size operation).Leads pool (operation last).2
      (networks.push (operation last).1) networks.size := by
  have leads := represents.leads_revise Array.getElem?_push_size operation grows
  rwa [setIfInBounds_push_size] at leads

/-- A network that was built apart comes last. -/
theorem leads_addNetwork (represents : pool.Represents networks) (wellFormed : network.WellFormed) :
    (addNetwork network).Leads pool (.ok networks.size) (networks.push network)
      networks.size := by
  have added := represents.leads_addFrame 0
  have filled := added.represents.leads_revise_last
    (fun _ => (network, (.ok () : Except (Fault α) Unit))) ⟨fun _ => wellFormed, Nat.zero_le _⟩
  exact added.bind (filled.bind (.of_same filled.represents rfl))

end Represents

section Solvers

variable [Quantity α]

theorem grows_solve (network : Network α) (source sink : Int) (options : Options α)
    (watch : Watch α) : network.Grows (MaxFlow.solve network source sink options watch).network :=
  (sameShape_of_resetFlows (MaxFlow.resetFlows_solve network source sink options watch)).symm.grows

theorem grows_solveWarm (network : Network α) (source sink : Int) (options : Options α)
    (watch : Watch α) :
    network.Grows (MaxFlow.solveWarm network source sink options watch).network :=
  (sameShape_of_resetFlows
    (MaxFlow.resetFlows_solveWarm network source sink options watch)).symm.grows

theorem maxFlow_eq (number : Nat) (source sink : Int) (options : Options α) (watch : Watch α) :
    maxFlow number source sink options watch = revise number fun network =>
      ((MaxFlow.solve network source sink options watch).network,
        (MaxFlow.solve network source sink options watch).outcome) :=
  runMaxFlow_outcome number _

theorem warmMaxFlow_eq (number : Nat) (source sink : Int) (options : Options α)
    (watch : Watch α) :
    warmMaxFlow number source sink options watch = revise number fun network =>
      ((MaxFlow.solveWarm network source sink options watch).network,
        (MaxFlow.solveWarm network source sink options watch).outcome) :=
  runMaxFlow_outcome number _

namespace Represents

/-- A maximum flow gives what it gives on a separate network, and changes no other network. -/
theorem leads_maxFlow (represents : pool.Represents networks)
    (found : networks[number]? = some network) (source sink : Int) (options : Options α)
    (watch : Watch α) :
    (maxFlow number source sink options watch).Leads pool
      (MaxFlow.solve network source sink options watch).outcome
      (networks.setIfInBounds number (MaxFlow.solve network source sink options watch).network)
      number := by
  rw [maxFlow_eq]
  exact represents.leads_revise found _ (grows_solve network source sink options watch)

theorem leads_warmMaxFlow (represents : pool.Represents networks)
    (found : networks[number]? = some network) (source sink : Int) (options : Options α)
    (watch : Watch α) :
    (warmMaxFlow number source sink options watch).Leads pool
      (MaxFlow.solveWarm network source sink options watch).outcome
      (networks.setIfInBounds number
        (MaxFlow.solveWarm network source sink options watch).network) number := by
  rw [warmMaxFlow_eq]
  exact represents.leads_revise found _ (grows_solveWarm network source sink options watch)

/-- The last network is solved while the earlier ones stay. -/
theorem leads_warmMaxFlow_last {last : Network α}
    (represents : pool.Represents (networks.push last)) (source sink : Int)
    (options : Options α) (watch : Watch α) :
    (warmMaxFlow networks.size source sink options watch).Leads pool
      (MaxFlow.solveWarm last source sink options watch).outcome
      (networks.push (MaxFlow.solveWarm last source sink options watch).network)
      networks.size := by
  have leads := represents.leads_warmMaxFlow Array.getElem?_push_size source sink options watch
  rwa [setIfInBounds_push_size] at leads

/-- The wired network is solved in place. -/
theorem leads_solveWired {last : Network α} (represents : pool.Represents (networks.push last))
    (edgeCount : Nat) (reduction : Reduction α) (wiring : Wiring α) (options : Options α)
    (watch : Watch α) :
    (solveWired networks.size edgeCount reduction wiring options watch).Leads pool
      (Circulation.solveWired last edgeCount reduction wiring options watch).outcome
      (networks.push (MaxFlow.solveWarm last wiring.source wiring.sink options watch).network)
      networks.size := by
  have solves := represents.leads_warmMaxFlow_last wiring.source wiring.sink options watch
  have read := solves.represents.perform_networkAt Array.getElem?_push_size
  simp only [Circulation.solveWired]
  cases outcome : (MaxFlow.solveWarm last wiring.source wiring.sink options watch).outcome with
  | error fault =>
    simp only [outcome] at solves
    exact solves.bind_error
  | ok result =>
    simp only [outcome] at solves
    refine solves.bind ?_
    rw [ok_bind]
    cases judged : Circulation.verdict options.tolerance reduction.demand result.value with
    | error fault =>
      rw [error_bind]
      exact (Pooled.Leads.lift solves.represents _).bind_error
    | ok feasible =>
      rw [ok_bind]
      refine .bind_same (Pooled.perform_lift _ _) (.bind_same read ?_)
      cases measured : Circulation.flowsBelow
          (MaxFlow.solveWarm last wiring.source wiring.sink options watch).network edgeCount with
      | error fault => exact (Pooled.Leads.lift solves.represents _).bind_error
      | ok flows =>
        exact .bind_same (Pooled.perform_lift _ _) (.of_same solves.represents rfl)

/-- A copy of a network is folded, wired and solved in place. -/
theorem leads_solveWorking {clone : Network α} (represents : pool.Represents (networks.push clone))
    {demands : Demands α} {vector : List α}
    (accepted : demands.vector network.vertexCount = .ok vector)
    (copied : network.copy = .ok clone) (options : Options α) (watch : Watch α) :
    ∃ last, (solveWorking networks.size network.edgeCount vector options watch).Leads pool
      (Circulation.solve network demands options watch).outcome (networks.push last)
      networks.size := by
  have reset := represents.leads_revise_last
    (fun network => (network.resetFlows, .ok ())) (sameShape_resetFlows clone).grows
  have reduces := reset.represents.leads_revise_last
    (fun network => network.reduceLowerBounds vector options.tolerance)
    (sameShape_reduceLowerBounds _ _ _).grows
  simp only [Circulation.solve, accepted, copied, ok_bind, pure, Except.pure]
  cases reduced : clone.resetFlows.reduceLowerBounds vector options.tolerance with
  | mk working outcome =>
    simp only [reduced] at reduces
    cases outcome with
    | error fault => exact ⟨working, reset.bind reduces.bind_error⟩
    | ok reduction =>
      cases balanced : reduction.balanced with
      | false =>
        refine ⟨working, reset.bind (reduces.bind ?_)⟩
        have read := reduces.represents.perform_networkAt Array.getElem?_push_size
        simp only [balanced, Bool.false_eq_true, if_false]
        exact .bind_same read (.of_same reduces.represents rfl)
      | true =>
        have builds := reduces.represents.leads_revise_last
          (fun network => network.buildCirculation
            (.dense reduction.adjustedDemands) options.tolerance)
          (grows_buildCirculation _ _ _)
        cases built : working.buildCirculation (.dense reduction.adjustedDemands)
            options.tolerance with
        | mk wired outcome =>
          simp only [built] at builds
          cases outcome with
          | error fault =>
            refine ⟨wired, reset.bind (reduces.bind ?_)⟩
            simp only [balanced, if_true, Bool.not_true, Bool.false_eq_true, if_false, built]
            exact builds.bind_error
          | ok wiring =>
            have solves := builds.represents.leads_solveWired network.edgeCount reduction wiring
              options watch
            refine ⟨(MaxFlow.solveWarm wired wiring.source wiring.sink options watch).network,
              reset.bind (reduces.bind ?_)⟩
            simp only [balanced, if_true, Bool.not_true, Bool.false_eq_true, if_false, built]
            exact builds.bind solves

/-- A circulation gives what it gives on separate networks, and works on a network of its own. -/
theorem leads_circulation (represents : pool.Represents networks)
    (found : networks[number]? = some network) (demands : Demands α) (options : Options α)
    (watch : Watch α) :
    ∃ later, (circulation number demands options watch).Leads pool
        (Circulation.solve network demands options watch).outcome later networks.size ∧
      ∀ other < networks.size, later[other]? = networks[other]? := by
  have read := represents.perform_networkAt found
  cases accepted : demands.vector network.vertexCount with
  | error fault =>
    refine ⟨networks, .bind_same read ?_, fun _ _ => rfl⟩
    simp only [Circulation.solve, accepted]
    exact (Pooled.Leads.lift represents _).bind_error
  | ok vector =>
    obtain ⟨outcome, clone, copies, copied⟩ := represents.leads_copy found
    cases outcome with
    | error fault =>
      refine ⟨networks.push clone, .bind_same read ?_, fun _ => getElem?_push_of_lt⟩
      simp only [Circulation.solve, accepted, copied]
      exact .bind_same (Pooled.perform_lift _ _) copies.bind_error
    | ok value =>
      obtain ⟨last, solves⟩ :=
        copies.represents.leads_solveWorking accepted copied options watch
      refine ⟨networks.push last, .bind_same read (.bind_same ?_ (copies.bind solves)),
        fun _ => getElem?_push_of_lt⟩
      rw [accepted, Pooled.perform_lift]

/-- A matching is solved in a network of its own. -/
theorem leads_matching (represents : pool.Represents networks) (left right : Int)
    (pairs : List (Int × Int)) (options : Options α) :
    ∃ later, (matching left right pairs options).Leads pool
        (Matching.solve left right pairs options).outcome later networks.size ∧
      ∀ other < networks.size, later[other]? = networks[other]? := by
  simp only [Matching.solve]
  cases built : (MatchingNetwork.build left right pairs :
      Except (Fault α) (MatchingNetwork α)) with
  | error fault =>
    refine ⟨networks, ?_, fun _ _ => rfl⟩
    rw [matching, built]
    exact (Pooled.Leads.lift represents _).bind_error
  | ok matching =>
    have added := represents.leads_addNetwork (MatchingNetwork.wired_of_build built).wellFormed
    have solves := added.represents.leads_warmMaxFlow_last matching.source matching.sink options
      .idle
    have read := solves.represents.perform_networkAt Array.getElem?_push_size
    refine ⟨networks.push (MaxFlow.solveWarm matching.network matching.source matching.sink options
      .idle).network, ?_, fun _ => getElem?_push_of_lt⟩
    rw [Pool.matching, built]
    refine .bind_same (Pooled.perform_lift _ _) (added.bind ?_)
    cases outcome : (MaxFlow.solveWarm matching.network matching.source matching.sink options
        .idle).outcome with
    | error fault =>
      simp only [outcome] at solves ⊢
      exact solves.bind_error
    | ok result =>
      simp only [outcome] at solves ⊢
      exact solves.bind (.bind_same read (.of_same solves.represents rfl))

end Represents
end Solvers

/-! ## Vertices and flows -/

/-- A new vertex is a new list without references. -/
theorem stores_addVertex {objects : Array (LooseEdge α)}
    (stores : frame.Stores objects network) : frame.addVertex.Stores objects network.addVertex := by
  refine ⟨stores.objects, ?_⟩
  simp only [Frame.addVertex, Network.addVertex, stores.adjacency, Array.map_push,
    List.filterMap_nil]

namespace Represents

theorem leads_addVertex (represents : pool.Represents networks)
    (found : networks[number]? = some network) :
    (Pool.addVertex number).Leads pool (.ok ()) (networks.setIfInBounds number network.addVertex)
      number := by
  obtain ⟨frame, framed, stores⟩ := represents.exists_frame found
  have performs : (Pool.addVertex number).perform pool =
      (.ok (), ⟨pool.objects, pool.frames.setIfInBounds number frame.addVertex⟩) := by
    simp [Pool.addVertex, Pooled.perform_bind, perform_frameAt framed, setFrame]
  refine .of_perform _ performs ?_ fun other below => ?_
  · exact represents.update framed (represents.wellFormed _ _ found).addVertex
      (stores_addVertex stores)
      (fun _ _ _ => rfl) fun _ member => Or.inl member
  · exact Array.getElem?_setIfInBounds_ne (Nat.ne_of_gt below)

end Represents

/-- A frame whose object changes its load stores the network whose edge changes its load. -/
theorem stores_modifyLoad {objects : Array (LooseEdge α)} (stores : frame.Stores objects network)
    (wellFormed : network.WellFormed) {position reference : Nat}
    (listed : frame.edges[position]? = some reference) {object : LooseEdge α}
    (found : objects[reference]? = some object) (load : Load α) :
    frame.Stores (objects.setIfInBounds reference { object with toLoad := load })
      (network.modifyLoad position fun _ => load) := by
  have inside := (Array.getElem?_eq_some_iff.mp found).1
  refine ⟨List.ext_getElem? fun other => ?_, stores.adjacency⟩
  have entry := congrArg (·[other]?) stores.objects
  simp only [List.getElem?_map, Array.getElem?_toList, modifyLoad, Array.getElem?_modify] at entry ⊢
  by_cases same : position = other
  · obtain ⟨edge, stands, known⟩ := stores.stands listed
    rw [found] at known
    rw [if_pos same, ← same, listed, stands, Option.some.inj known]
    simp only [Option.map_some]
    rw [Array.getElem?_setIfInBounds_self_of_lt inside]
    rfl
  · rw [if_neg same, ← entry]
    cases listedToo : frame.edges[other]? with
    | none => rfl
    | some twin =>
      have different : reference ≠ twin := by
        rintro rfl
        exact same (stores.position_eq wellFormed listed listedToo)
      simp only [Option.map_some, Array.getElem?_setIfInBounds_ne different]

/-- A frame is written over itself without effect. -/
theorem setIfInBounds_self {frames : Array Frame} (framed : frames[number]? = some frame) :
    frames.setIfInBounds number frame = frames := by
  refine Array.ext_getElem? fun other => ?_
  rw [Array.getElem?_setIfInBounds]
  split
  · next same => rw [← same, framed, if_pos (Array.getElem?_eq_some_iff.mp framed).1]
  · rfl

namespace Represents

/-- The load of an object may change. -/
theorem exists_setLoad (represents : pool.Represents networks) {reference : Nat}
    {object : LooseEdge α} (listed : pool.objects[reference]? = some object) (load : Load α) :
    ∃ later, (⟨pool.objects.setIfInBounds reference { object with toLoad := load },
      pool.frames⟩ : Pool α).Represents later := by
  have elsewhere (other : Nat) (different : other ≠ reference) :
      (pool.objects.setIfInBounds reference { object with toLoad := load })[other]? =
        pool.objects[other]? := Array.getElem?_setIfInBounds_ne (Ne.symm different)
  by_cases owned : ∃ (number : Nat) (frame : Frame), pool.frames[number]? = some frame ∧
      reference ∈ frame.edges
  · obtain ⟨number, frame, framed, member⟩ := owned
    obtain ⟨network, found, stores⟩ := represents.exists_network framed
    obtain ⟨position, listedToo⟩ := Array.mem_iff_getElem?.mp member
    have wellFormed := represents.wellFormed _ _ found
    have update := represents.update framed
      (wellFormed.ofSameShape (sameShape_modifyLoad network position fun _ => load))
      (stores_modifyLoad stores wellFormed listedToo listed load)
      (fun other _ unlisted => elsewhere other fun same => unlisted (same ▸ member))
      fun _ member => Or.inl member
    rw [setIfInBounds_self framed] at update
    exact ⟨_, update⟩
  · refine ⟨networks, represents.size, represents.wellFormed, ?_, represents.disjoint⟩
    intro number frame network framed found
    refine (represents.stores _ _ _ framed found).congr fun other member => elsewhere other ?_
    rintro rfl
    exact owned ⟨number, frame, framed, member⟩

end Represents
end Pool
end NetworkFlow
