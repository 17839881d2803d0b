import NetworkFlow.Proofs.Pool.Revision

namespace NetworkFlow

open Network

variable {α : Type}

/-- Whether the edge of a reference has a vertex as an end. -/
def Pool.touches (pool : Pool α) (vertex reference : Nat) : Bool :=
  match pool.objects[reference]? with
  | some object => object.tail = vertex ∨ object.head = vertex
  | none => false

/-- The number that an edge has in its network. -/
def Pool.idOf (pool : Pool α) (reference : Nat) : Option Int :=
  pool.objects[reference]?.map LooseEdge.index

/-- A pool is consistent when its frames and its objects agree. -/
structure Pool.Consistent (pool : Pool α) : Prop where
  /-- The edge at a position knows the position and joins two vertices. -/
  edge : ∀ frame ∈ pool.frames, ∀ position reference : Nat,
    frame.edges[position]? = some reference → ∃ object, pool.objects[reference]? = some object ∧
      object.index = position ∧ (0 ≤ object.tail ∧ object.tail < frame.vertexCount) ∧
      0 ≤ object.head ∧ object.head < frame.vertexCount
  /-- A vertex lists the edges that have it as an end, each of them once. -/
  incident : ∀ frame ∈ pool.frames, ∀ vertex < frame.vertexCount,
    frame.incident vertex = frame.edges.toList.filter (pool.touches vertex)
  /-- The edges at a vertex are listed in the order of their numbers. -/
  increasing : ∀ frame ∈ pool.frames, ∀ vertex < frame.vertexCount,
    ((frame.incident vertex).filterMap pool.idOf).Pairwise (· < ·)
  /-- An edge is in one network at most. -/
  owner : ∀ (first second : Nat) (one other : Frame) (reference : Nat),
    pool.frames[first]? = some one → pool.frames[second]? = some other →
    reference ∈ one.edges → reference ∈ other.edges → first = second

namespace Frame.Stores

variable {frame : Frame} {pool : Pool α} {network : Network α} {vertex : Nat}

/-- The references of a frame come in pairs with the edges of its network. -/
theorem exists_pairs (stores : frame.Stores pool.objects network)
    (wellFormed : network.WellFormed) :
    ∃ pairs : List (Nat × Edge α), pairs.map Prod.fst = frame.edges.toList ∧
      pairs.map Prod.snd = network.edges.toList ∧
      ∀ pair ∈ pairs, pool.objects[pair.1]? = some pair.2.loose ∧
        frame.edges[pair.2.index]? = some pair.1 := by
  have lengths : frame.edges.toList.length = network.edges.toList.length := by
    simpa using stores.size
  refine ⟨frame.edges.toList.zip network.edges.toList, List.map_fst_zip lengths.le,
    List.map_snd_zip lengths.ge, fun pair member => ?_⟩
  obtain ⟨position, inside, rfl⟩ := List.mem_iff_getElem.mp member
  rw [List.length_zip, lengths, min_self, Array.length_toList] at inside
  have insideToo : position < frame.edges.size := by rwa [stores.size]
  obtain ⟨edge, stands, object⟩ := stores.stands (Array.getElem?_eq_getElem insideToo)
  obtain ⟨_, same⟩ := Array.getElem?_eq_some_iff.mp stands
  simp only [List.getElem_zip, Array.getElem_toList, same]
  exact ⟨object, by rw [wellFormed.index_eq stands, Array.getElem?_eq_getElem insideToo]⟩

/-- A vertex lists the references where the network lists the positions. -/
theorem incident_eq (stores : frame.Stores pool.objects network)
    (inside : vertex < network.vertexCount) :
    frame.incident vertex = (network.incident vertex).filterMap (frame.edges[·]?) := by
  have known : vertex < network.adjacency.size := inside
  simp [Frame.incident, Network.incident, stores.adjacency, known]

/-- The references at a vertex are those of the edges that have it as an end. -/
theorem incident_eq_filter (stores : frame.Stores pool.objects network)
    (wellFormed : network.WellFormed) (inside : vertex < network.vertexCount) :
    frame.incident vertex = frame.edges.toList.filter (pool.touches vertex) := by
  obtain ⟨pairs, references, edges, each⟩ := stores.exists_pairs wellFormed
  have same : pairs.filter (pool.touches vertex ∘ Prod.fst) =
      pairs.filter ((fun edge => decide (edge.tail = vertex ∨ edge.head = vertex)) ∘ Prod.snd) := by
    refine List.filter_congr fun pair member => ?_
    simp [Pool.touches, (each pair member).1, Edge.loose]
  rw [stores.incident_eq inside, wellFormed.incident vertex inside, edgesAt, ← edges, ← references,
    List.filter_map, List.filter_map, List.map_map, List.filterMap_map, same,
    ← List.filterMap_eq_map]
  refine List.filterMap_congr fun pair member => ?_
  exact (each pair (List.mem_of_mem_filter member)).2

/-- The numbers at a vertex are its positions. -/
theorem filterMap_idOf (stores : frame.Stores pool.objects network)
    (wellFormed : network.WellFormed) (inside : vertex < network.vertexCount) :
    (frame.incident vertex).filterMap pool.idOf =
      (network.incident vertex).map fun position : Nat => (position : Int) := by
  rw [stores.incident_eq inside, List.filterMap_filterMap, ← List.filterMap_eq_map]
  refine List.filterMap_congr fun position member => ?_
  obtain ⟨edge, found, -⟩ := wellFormed.mem_incident_iff.mp member
  obtain ⟨reference, listed, object⟩ := stores.reference found
  simp [listed, Pool.idOf, object, Edge.loose, wellFormed.index_eq found]

end Frame.Stores

/-- The positions at a vertex increase. -/
theorem Network.WellFormed.pairwise_incident {network : Network α}
    (wellFormed : network.WellFormed) {vertex : Nat} (inside : vertex < network.vertexCount) :
    (network.incident vertex).Pairwise (· < ·) := by
  rw [wellFormed.incident vertex inside, edgesAt]
  have sublist := (List.filter_sublist (p := fun edge : Edge α =>
    decide (edge.tail = vertex ∨ edge.head = vertex)) (l := network.edges.toList)).map Edge.index
  rw [wellFormed.map_index] at sublist
  exact List.pairwise_lt_range.sublist sublist

/-- A pool that represents networks is consistent. -/
theorem Pool.Represents.consistent {pool : Pool α} {networks : Array (Network α)}
    (represents : pool.Represents networks) : pool.Consistent := by
  have known (frame : Frame) (member : frame ∈ pool.frames) :
      ∃ network : Network α, network.WellFormed ∧ frame.Stores pool.objects network := by
    obtain ⟨number, framed⟩ := Array.mem_iff_getElem?.mp member
    obtain ⟨network, found, stores⟩ := represents.exists_network framed
    exact ⟨network, represents.wellFormed _ _ found, stores⟩
  constructor
  · intro frame member position reference listed
    obtain ⟨network, wellFormed, stores⟩ := known frame member
    obtain ⟨edge, found, object⟩ := stores.stands listed
    have tail := wellFormed.tail edge (Array.mem_of_getElem? found)
    have head := wellFormed.head edge (Array.mem_of_getElem? found)
    refine ⟨edge.loose, object, ?_, ?_, ?_⟩
    · rw [← wellFormed.index_eq found]
      rfl
    · rw [stores.vertexCount]
      exact ⟨Int.natCast_nonneg edge.tail, Int.ofNat_lt.mpr tail⟩
    · rw [stores.vertexCount]
      exact ⟨Int.natCast_nonneg edge.head, Int.ofNat_lt.mpr head⟩
  · intro frame member vertex inside
    obtain ⟨network, wellFormed, stores⟩ := known frame member
    rw [stores.vertexCount] at inside
    exact stores.incident_eq_filter wellFormed inside
  · intro frame member vertex inside
    obtain ⟨network, wellFormed, stores⟩ := known frame member
    rw [stores.vertexCount] at inside
    rw [stores.filterMap_idOf wellFormed inside, List.pairwise_map]
    exact (wellFormed.pairwise_incident inside).imp fun below => by exact_mod_cast below
  · exact represents.disjoint

/-! ## Operations -/

namespace Pool

variable {β : Type} {pool : Pool α} {networks : Array (Network α)} {number : Nat}

namespace Represents

/-- An action on a network changes nothing where there is none. -/
theorem exists_of_network (represents : pool.Represents networks) (number : Nat)
    {action : Pooled α β} (missing : pool.frames[number]? = none → action.after pool = pool)
    (present : ∀ network, networks[number]? = some network →
      ∃ later, (action.after pool).Represents later) :
    ∃ later, (action.after pool).Represents later := by
  cases found : networks[number]? with
  | none =>
    refine ⟨networks, ?_⟩
    rwa [missing (represents.frame_eq_none found)]
  | some network => exact present network found

theorem exists_revise (represents : pool.Represents networks) (number : Nat)
    (operation : Network α → Network α × Except (Fault α) β)
    (grows : ∀ network : Network α, network.Grows (operation network).1) :
    ∃ later, ((revise number operation).after pool).Represents later :=
  represents.exists_of_network number (fun missing => after_frameAt_bind missing _)
    fun network found => ⟨_, (represents.leads_revise found operation (grows network)).represents⟩

theorem exists_insertEdge (represents : pool.Represents networks) (number reference : Nat) :
    ∃ later, ((insertEdge number reference).after pool).Represents later := by
  refine represents.exists_of_network number (fun missing => after_networkAt_bind missing _)
    fun network found => ?_
  cases listed : pool.objects[reference]? with
  | none =>
    refine ⟨networks, ?_⟩
    rwa [after_insertEdge_none listed]
  | some object =>
    cases inserted : network.insert object with
    | error fault =>
      refine ⟨networks, ?_⟩
      rwa [Pooled.after, represents.insertEdge_refused found listed inserted]
    | ok extended => exact ⟨_, (represents.leads_insertEdge found listed inserted).represents⟩

/-- A network is created behind the earlier ones, or nothing is. -/
theorem leads_create (represents : pool.Represents networks) (vertexCount : Int) :
    ∃ outcome later, (create vertexCount).Leads pool outcome later networks.size ∧
      ∀ other < networks.size, later[other]? = networks[other]? := by
  rw [create]
  cases (Network.create vertexCount : Except (Fault α) (Network α)) with
  | error fault =>
    exact ⟨_, networks, (Pooled.Leads.lift represents _).bind_error, fun _ _ => rfl⟩
  | ok blank =>
    have added := represents.leads_addFrame blank.vertexCount
    exact ⟨_, _, .bind_same (Pooled.perform_lift _ _) added, fun _ => getElem?_push_of_lt⟩

theorem exists_addVertex (represents : pool.Represents networks) (number : Nat) :
    ∃ later, ((Pool.addVertex number).after pool).Represents later :=
  represents.exists_of_network number (fun missing => after_frameAt_bind missing _)
    fun _ found => ⟨_, (represents.leads_addVertex found).represents⟩

variable [Quantity α]

theorem exists_makeEdge (represents : pool.Represents networks) (tail head : Int) (load : Load α)
    (index : Int) : ∃ later, ((makeEdge tail head load index).after pool).Represents later := by
  refine ⟨networks, ?_⟩
  cases created : LooseEdge.create tail head load index with
  | error fault => rwa [Pooled.after, makeEdge_refused pool created]
  | ok object => exact (represents.leads_makeEdge 0 created).1.represents

theorem exists_addEdge (represents : pool.Represents networks) (number : Nat) (tail head : Int)
    (capacity lower : α) :
    ∃ later, ((addEdge number tail head capacity lower).after pool).Represents later := by
  refine represents.exists_of_network number (fun missing => after_networkAt_bind missing _)
    fun network found => ?_
  cases added : network.addEdge tail head capacity lower with
  | error fault =>
    refine ⟨networks, ?_⟩
    rwa [Pooled.after, represents.addEdge_refused found added]
  | ok extended => exact ⟨_, (represents.leads_addEdge found added).represents⟩

theorem exists_push (represents : pool.Represents networks) (reference : Nat) (vertex : Int)
    (amount : α) : ∃ later, ((push reference vertex amount).after pool).Represents later := by
  cases listed : pool.objects[reference]? with
  | none =>
    refine ⟨networks, ?_⟩
    simpa [Pooled.after, push, Pooled.perform_bind, perform_objectAt_none listed]
  | some object =>
    cases pushed : object.toLoad.push (vertex = object.head) amount with
    | error fault =>
      refine ⟨networks, ?_⟩
      simpa [Pooled.after, push, Pooled.perform_bind, perform_objectAt listed, pushed]
    | ok load =>
      obtain ⟨later, changed⟩ := represents.exists_setLoad listed load
      refine ⟨later, ?_⟩
      simpa [Pooled.after, push, Pooled.perform_bind, perform_objectAt listed, pushed, setObject]

theorem exists_copy (represents : pool.Represents networks) (number : Nat) :
    ∃ later, ((copy number).after pool).Represents later := by
  refine represents.exists_of_network number (fun missing => after_frameAt_bind missing _)
    fun network found => ?_
  obtain ⟨outcome, last, copied, -⟩ := represents.leads_copy found
  exact ⟨_, copied.represents⟩

theorem exists_circulation (represents : pool.Represents networks) (number : Nat)
    (demands : Demands α) (options : Options α) (watch : Watch α) :
    ∃ later, ((circulation number demands options watch).after pool).Represents later := by
  refine represents.exists_of_network number (fun missing => after_networkAt_bind missing _)
    fun network found => ?_
  obtain ⟨later, leads, -⟩ := represents.leads_circulation found demands options watch
  exact ⟨later, leads.represents⟩

/-- Every operation leaves a pool that represents networks. -/
theorem exists_after (represents : pool.Represents networks) (operation : Operation α) :
    ∃ later, (operation.after pool).Represents later := by
  cases operation with
  | create vertexCount =>
    obtain ⟨outcome, later, leads, -⟩ := represents.leads_create vertexCount
    exact ⟨later, leads.represents⟩
  | addVertex number => exact represents.exists_addVertex number
  | makeEdge tail head load index => exact represents.exists_makeEdge tail head load index
  | addEdge number tail head capacity lower =>
    exact represents.exists_addEdge number tail head capacity lower
  | insertEdge number reference => exact represents.exists_insertEdge number reference
  | push reference vertex amount => exact represents.exists_push reference vertex amount
  | copy number => exact represents.exists_copy number
  | resetFlows number =>
    exact represents.exists_revise number _ fun network => (sameShape_resetFlows network).grows
  | reduceLowerBounds number demands tolerance =>
    exact represents.exists_revise number _ fun network =>
      (sameShape_reduceLowerBounds network demands tolerance).grows
  | buildCirculation number demands tolerance =>
    exact represents.exists_revise number _ fun network =>
      grows_buildCirculation network demands tolerance
  | maxFlow number source sink options watch =>
    rw [Operation.after, maxFlow_eq]
    exact represents.exists_revise number _ fun network =>
      grows_solve network source sink options watch
  | warmMaxFlow number source sink options watch =>
    rw [Operation.after, warmMaxFlow_eq]
    exact represents.exists_revise number _ fun network =>
      grows_solveWarm network source sink options watch
  | circulation number demands options watch =>
    exact represents.exists_circulation number demands options watch
  | matching left right pairs options =>
    obtain ⟨later, leads, -⟩ := represents.leads_matching left right pairs options
    exact ⟨later, leads.represents⟩

end Represents
end Pool

theorem Pool.represents_empty : (empty : Pool α).Represents #[] :=
  ⟨rfl, fun _ _ found => absurd found (by simp),
    fun _ _ _ framed => absurd framed (by simp [empty]),
    fun _ _ _ _ _ framed => absurd framed (by simp [empty])⟩

/-- Every sequence of operations leaves a pool that represents networks. -/
theorem Pool.exists_run [Quantity α] (operations : List (Operation α)) :
    ∃ networks, (run operations).Represents networks := by
  induction operations using List.reverseRecOn with
  | nil => exact ⟨#[], represents_empty⟩
  | append_singleton earlier operation inductionHypothesis =>
    obtain ⟨networks, represents⟩ := inductionHypothesis
    rw [run, List.foldl_append]
    exact represents.exists_after operation

/-- After any operations, failed ones among them, the edges and the lists of every network are in
step and no edge is in two networks. An addition or an insertion that fails changes nothing. -/
theorem Pool.run_consistent [Quantity α] (operations : List (Operation α)) :
    (run operations).Consistent ∧
    (∀ (number : Nat) (tail head : Int) (capacity lower : α) (fault : Fault α),
      (addEdge number tail head capacity lower).outcome (run operations) = .error fault →
      (addEdge number tail head capacity lower).after (run operations) = run operations) ∧
    ∀ (number reference : Nat) (fault : Fault α),
      (insertEdge number reference).outcome (run operations) = .error fault →
      (insertEdge number reference).after (run operations) = run operations := by
  obtain ⟨networks, represents⟩ := exists_run operations
  refine ⟨represents.consistent, ?_, ?_⟩
  · intro number tail head capacity lower fault failed
    exact represents.after_addEdge_of_error failed
  · intro number reference fault failed
    exact after_insertEdge_of_error failed

namespace Pool

/-- Two networks, of which the first one has an edge. -/
def pair : List (Operation Rat) :=
  [.create 2, .create 2, .addEdge 0 0 1 3 0]

/-- The edge of the first network does not enter the second one. -/
theorem run_consistent_pair :
    (insertEdge 1 0).outcome (run pair) = .error (.structural (.alreadyInserted 0 1 0)) ∧
    (insertEdge 1 0).after (run pair) = run pair := by
  have refused : (insertEdge 1 0).outcome (run pair) =
      .error (.structural (.alreadyInserted 0 1 0)) := by decide +kernel
  obtain ⟨-, -, unchanged⟩ := run_consistent pair
  exact ⟨refused, unchanged 1 0 _ refused⟩

end Pool
end NetworkFlow
