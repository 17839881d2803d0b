import NetworkFlow.Proofs.Network.Growth
import NetworkFlow.Proofs.Pool.Representation

namespace NetworkFlow

open Network

variable {α β γ : Type}

/-! ## Actions on represented networks -/

/-- An action leads to networks when it has an outcome and leaves a pool that represents them.
The frames below a limit stay. -/
structure Pooled.Leads (action : Pooled α β) (pool : Pool α) (outcome : Except (Fault α) β)
    (networks : Array (Network α)) (limit : Nat) : Prop where
  outcome : action.outcome pool = outcome
  represents : (action.after pool).Represents networks
  frames : ∀ number < limit, (action.after pool).frames[number]? = pool.frames[number]?

namespace Pooled

variable {pool : Pool α} {networks middle : Array (Network α)} {limit : Nat}

theorem Leads.of_perform {action : Pooled α β} {outcome : Except (Fault α) β} (after : Pool α)
    (performs : action.perform pool = (outcome, after)) (represents : after.Represents networks)
    (frames : ∀ number < limit, after.frames[number]? = pool.frames[number]?) :
    action.Leads pool outcome networks limit := by
  have left : action.after pool = after := congrArg Prod.snd performs
  refine ⟨congrArg Prod.fst performs, ?_, ?_⟩
  · rwa [left]
  · rwa [left]

/-- An action that changes nothing leads to the same networks. -/
theorem Leads.of_same {action : Pooled α β} {outcome : Except (Fault α) β}
    (represents : pool.Represents networks) (performs : action.perform pool = (outcome, pool)) :
    action.Leads pool outcome networks limit :=
  .of_perform _ performs represents fun _ _ => rfl

theorem Leads.lift (represents : pool.Represents networks) (outcome : Except (Fault α) β) :
    (liftM outcome : Pooled α β).Leads pool outcome networks limit :=
  .of_same represents (perform_lift outcome pool)

theorem Leads.perform {action : Pooled α β} {outcome : Except (Fault α) β}
    (leads : action.Leads pool outcome networks limit) :
    action.perform pool = (outcome, action.after pool) :=
  Prod.ext leads.outcome rfl

/-- An action goes on from the networks to which its first part leads. -/
theorem Leads.bind {first : Pooled α β} {next : β → Pooled α γ} {value : β}
    {outcome : Except (Fault α) γ} (leads : first.Leads pool (.ok value) middle limit)
    (rest : (next value).Leads (first.after pool) outcome networks limit) :
    (first >>= next : Pooled α γ).Leads pool outcome networks limit := by
  refine .of_perform ((next value).after (first.after pool)) ?_ rest.represents
    fun number below => ?_
  · rw [perform_bind, leads.perform]
    exact rest.perform
  · rw [rest.frames number below, leads.frames number below]

/-- A first part that changes nothing may be left out. -/
theorem Leads.bind_same {first : Pooled α β} {next : β → Pooled α γ} {value : β}
    {outcome : Except (Fault α) γ} (performs : first.perform pool = (.ok value, pool))
    (rest : (next value).Leads pool outcome networks limit) :
    (first >>= next : Pooled α γ).Leads pool outcome networks limit := by
  refine .of_perform ((next value).after pool) ?_ rest.represents rest.frames
  rw [perform_bind, performs]
  exact rest.perform

/-- An action ends where its first part fails. -/
theorem Leads.bind_error {first : Pooled α β} {next : β → Pooled α γ} {fault : Fault α}
    (leads : first.Leads pool (.error fault) networks limit) :
    (first >>= next : Pooled α γ).Leads pool (.error fault) networks limit := by
  refine .of_perform (first.after pool) ?_ leads.represents leads.frames
  rw [perform_bind, leads.perform]

end Pooled

namespace Pool

variable {pool : Pool α} {networks : Array (Network α)} {network extended : Network α}
  {number reference : Nat} {frame : Frame} {object : LooseEdge α}

theorem perform_frameAt (framed : pool.frames[number]? = some frame) :
    (frameAt number).perform pool = (.ok frame, pool) := by
  simp [frameAt, Pooled.perform_bind, framed]

theorem perform_frameAt_none (missing : pool.frames[number]? = none) :
    (frameAt number).perform pool = (.error .noPosition, pool) := by
  simp [frameAt, Pooled.perform_bind, missing]

theorem perform_objectAt (listed : pool.objects[reference]? = some object) :
    (objectAt reference).perform pool = (.ok object, pool) := by
  simp [objectAt, Pooled.perform_bind, listed]

theorem perform_networkAt (framed : pool.frames[number]? = some frame) :
    (networkAt number).perform pool = (.ok (frame.network pool.objects), pool) := by
  simp [networkAt, Pooled.perform_bind, Pooled.perform_map, perform_frameAt framed]

theorem perform_networkAt_none (missing : pool.frames[number]? = none) :
    (networkAt number).perform pool = (.error .noPosition, pool) := by
  simp [networkAt, Pooled.perform_bind, perform_frameAt_none missing]

theorem perform_objectAt_none (missing : pool.objects[reference]? = none) :
    (objectAt reference).perform pool = (.error .noPosition, pool) := by
  simp [objectAt, Pooled.perform_bind, missing]

/-- An action that starts from a frame changes nothing where there is none. -/
theorem after_frameAt_bind (missing : pool.frames[number]? = none)
    (next : Frame → Pooled α β) : (frameAt number >>= next : Pooled α β).after pool = pool := by
  rw [Pooled.after, Pooled.perform_bind, perform_frameAt_none missing]

theorem after_networkAt_bind (missing : pool.frames[number]? = none)
    (next : Network α → Pooled α β) :
    (networkAt number >>= next : Pooled α β).after pool = pool := by
  rw [Pooled.after, Pooled.perform_bind, perform_networkAt_none missing]

/-- A network that is represented is read. -/
theorem Represents.perform_networkAt (represents : pool.Represents networks)
    (found : networks[number]? = some network) :
    (networkAt number).perform pool = (.ok network, pool) := by
  obtain ⟨frame, framed, stores⟩ := represents.exists_frame found
  rw [Pool.perform_networkAt framed, stores.network_eq (represents.wellFormed _ _ found)]

theorem perform_makeEdge [Quantity α] (tail head : Int) (load : Load α) (index : Int) :
    (makeEdge tail head load index).perform pool =
      match LooseEdge.create tail head load index with
      | .ok object => (.ok pool.objects.size, ⟨pool.objects.push object, pool.frames⟩)
      | .error fault => (.error fault, pool) := by
  cases created : LooseEdge.create tail head load index with
  | error fault => simp [makeEdge, Pooled.perform_bind, created]
  | ok object => simp [makeEdge, addObject, Pooled.perform_bind, Pooled.perform_map, created]

end Pool

/-! ## Insertion -/

/-- The positions of the old edges keep their references. -/
theorem Frame.Stores.filterMap_push {frame : Frame} {objects : Array (LooseEdge α)}
    {network : Network α} (stores : frame.Stores objects network)
    (wellFormed : network.WellFormed) (vertex reference : Nat) :
    (network.incident vertex).filterMap ((frame.edges.push reference)[·]?) =
      (network.incident vertex).filterMap (frame.edges[·]?) := by
  refine List.filterMap_congr fun position member => ?_
  obtain ⟨edge, found, -⟩ := wellFormed.mem_incident_iff.mp member
  obtain ⟨old, listed, -⟩ := stores.reference found
  rw [listed, Array.getElem?_push_lt (Array.getElem?_eq_some_iff.mp listed).1]
  exact congrArg some (Array.getElem?_eq_some_iff.mp listed).2

/-- A reference at the end of the lists of a vertex stands for the position of the new edge. -/
theorem Frame.Stores.map_modify {frame : Frame} {objects : Array (LooseEdge α)}
    {network : Network α} (stores : frame.Stores objects network) (reference : Nat)
    (lists : Array (List Nat)) (vertex : Nat) :
    (lists.map fun incident => incident.filterMap
      ((frame.edges.push reference)[·]?)).modify vertex (· ++ [reference]) =
    (lists.modify vertex (· ++ [network.edges.size])).map fun incident =>
      incident.filterMap ((frame.edges.push reference)[·]?) := by
  have last (incident : List Nat) : (incident ++ [network.edges.size]).filterMap
      ((frame.edges.push reference)[·]?) =
      incident.filterMap ((frame.edges.push reference)[·]?) ++ [reference] := by
    rw [List.filterMap_append, ← stores.size]
    simp
  refine Array.ext_getElem? fun other => ?_
  simp only [Array.getElem?_modify, Array.getElem?_map]
  split
  · cases lists[other]? with
    | none => rfl
    | some incident => simp only [Option.map_some, last]
  · rfl

/-- The lists of a frame stand for those of its network also with one more reference. -/
theorem Frame.Stores.adjacency_push {frame : Frame} {objects : Array (LooseEdge α)}
    {network : Network α} (stores : frame.Stores objects network)
    (wellFormed : network.WellFormed) (reference : Nat) :
    frame.adjacency = network.adjacency.map fun incident =>
      incident.filterMap ((frame.edges.push reference)[·]?) := by
  rw [stores.adjacency]
  refine Array.ext_getElem? fun vertex => ?_
  simp only [Array.getElem?_map]
  cases known : network.adjacency[vertex]? with
  | none => rfl
  | some incident =>
    have entry : network.incident vertex = incident := by simp [Network.incident, known]
    have same := stores.filterMap_push wellFormed vertex reference
    rw [entry] at same
    simp only [Option.map_some]
    rw [same]

/-- A frame with one more reference stores the network with one more edge. -/
theorem Frame.Stores.attach {frame : Frame} {objects : Array (LooseEdge α)} {network : Network α}
    (stores : frame.Stores objects network) (wellFormed : network.WellFormed) {reference : Nat}
    {object : LooseEdge α} (fresh : reference ∉ frame.edges)
    (listed : objects[reference]? = some object) {tail head : Nat} (tails : object.tail = tail)
    (heads : object.head = head) :
    (frame.attach tail head reference).Stores
      (objects.setIfInBounds reference { object with index := frame.edges.size })
      (network.attach tail head object.toLoad) := by
  have inside := (Array.getElem?_eq_some_iff.mp listed).1
  constructor
  · have old : frame.edges.toList.map ((objects.setIfInBounds reference
        { object with index := frame.edges.size })[·]?) =
        network.edges.toList.map (some ·.loose) := by
      rw [← stores.objects]
      refine List.map_congr_left fun other member => ?_
      refine Array.getElem?_setIfInBounds_ne fun same => fresh ?_
      rw [same]
      exact Array.mem_toList_iff.mp member
    simp only [Frame.attach, Network.attach, Array.toList_push, List.map_append, old]
    congr 1
    simp [inside, Edge.loose, tails, heads, stores.size]
  · simp only [Frame.attach, Network.attach, stores.adjacency_push wellFormed reference]
    split
    · rw [stores.map_modify]
    · rw [stores.map_modify, stores.map_modify]

namespace Pool

variable {pool : Pool α} {networks : Array (Network α)} {network extended : Network α}
  {number reference : Nat} {frame : Frame} {object : LooseEdge α}

/-- An insertion is refused before anything is changed, or makes the edge the last one. -/
theorem perform_insertEdge (framed : pool.frames[number]? = some frame)
    (listed : pool.objects[reference]? = some object) :
    (insertEdge number reference).perform pool =
      match (frame.network pool.objects).insert object with
      | .error fault => (.error fault, pool)
      | .ok _ => (.ok (), ⟨pool.objects.setIfInBounds reference
            { object with index := frame.edges.size },
          pool.frames.setIfInBounds number
            (frame.attach object.tail.toNat object.head.toNat reference)⟩) := by
  simp only [insertEdge, Network.insert, Pooled.perform_bind, perform_networkAt framed,
    perform_objectAt listed]
  by_cases known : 0 ≤ object.index
  · simp only [known, if_true]
    rfl
  · simp only [known, if_false]
    cases tails : (frame.network pool.objects).checkVertex "Edge tail" object.tail with
    | error fault => rfl
    | ok tail =>
      cases heads : (frame.network pool.objects).checkVertex "Edge head" object.head with
      | error fault => rfl
      | ok head =>
        rw [(checkVertex_eq_ok tails).1, (checkVertex_eq_ok heads).1]
        simp only [Pooled.perform_bind, Pooled.perform_lift, perform_frameAt framed, setObject,
          setFrame, Pooled.perform_modify, Int.toNat_natCast]
        rfl

/-- A loose edge between two vertices of a network enters it. -/
theorem insert_eq_ok (inserted : network.insert object = .ok extended) :
    object.index < 0 ∧ ∃ tail head : Nat, object.tail = tail ∧ object.head = head ∧
      tail < network.vertexCount ∧ head < network.vertexCount ∧
      extended = network.attach tail head object.toLoad := by
  unfold Network.insert at inserted
  by_cases known : 0 ≤ object.index
  · rw [if_pos known] at inserted
    cases inserted
  · rw [if_neg known] at inserted
    obtain ⟨tail, tails, inserted⟩ := ok_of_bind inserted
    obtain ⟨head, heads, inserted⟩ := ok_of_bind inserted
    obtain ⟨tailEqual, tailInside⟩ := checkVertex_eq_ok tails
    obtain ⟨headEqual, headInside⟩ := checkVertex_eq_ok heads
    exact ⟨not_le.mp known, tail, head, tailEqual, headEqual, tailInside, headInside,
      (Except.ok.inj inserted).symm⟩

namespace Represents

/-- An edge that may enter a network enters it, and no other network changes. -/
theorem leads_insertEdge (represents : pool.Represents networks)
    (found : networks[number]? = some network) (listed : pool.objects[reference]? = some object)
    (inserted : network.insert object = .ok extended) :
    (insertEdge number reference).Leads pool (.ok ())
      (networks.setIfInBounds number extended) number := by
  obtain ⟨frame, framed, stores⟩ := represents.exists_frame found
  have wellFormed := represents.wellFormed _ _ found
  obtain ⟨loose, tail, head, tails, heads, tailInside, headInside, rfl⟩ := insert_eq_ok inserted
  have fresh {other : Nat} {unlisted : Frame} (framed : pool.frames[other]? = some unlisted) :
      reference ∉ unlisted.edges := represents.not_mem_of_index framed listed loose
  have performs := perform_insertEdge framed listed
  rw [stores.network_eq wellFormed, inserted, tails, heads, Int.toNat_natCast,
    Int.toNat_natCast] at performs
  have attached := stores.attach wellFormed (fresh framed) listed tails heads
  rw [tails, heads] at attached
  refine .of_perform _ performs ?_ fun other below => ?_
  · refine represents.update framed (wellFormed.attach tailInside headInside _) attached ?_ ?_
    · intro other _ unlisted
      refine Array.getElem?_setIfInBounds_ne fun same => unlisted ?_
      rw [← same]
      exact Array.mem_push_self
    · intro other member
      rcases Array.mem_push.mp member with old | rfl
      · exact Or.inl old
      · right
        intro unlisted member
        obtain ⟨position, framed⟩ := Array.mem_iff_getElem?.mp member
        exact fresh framed
  · exact Array.getElem?_setIfInBounds_ne (Nat.ne_of_gt below)

/-- An edge that may not enter a network changes nothing. -/
theorem insertEdge_refused (represents : pool.Represents networks)
    (found : networks[number]? = some network) (listed : pool.objects[reference]? = some object)
    {fault : Fault α} (refused : network.insert object = .error fault) :
    (insertEdge number reference).perform pool = (.error fault, pool) := by
  obtain ⟨frame, framed, stores⟩ := represents.exists_frame found
  rw [perform_insertEdge framed listed, stores.network_eq (represents.wellFormed _ _ found),
    refused]

end Represents

/-- An insertion of an edge that was never made changes nothing. -/
theorem after_insertEdge_none (missing : pool.objects[reference]? = none) :
    (insertEdge number reference).after pool = pool := by
  cases framed : pool.frames[number]? with
  | none => exact after_networkAt_bind framed _
  | some frame =>
    simp [insertEdge, Pooled.after, Pooled.perform_bind, perform_networkAt framed,
      perform_objectAt_none missing]

/-- An insertion that fails changes nothing. -/
theorem after_insertEdge_of_error {fault : Fault α}
    (failed : (insertEdge number reference).outcome pool = .error fault) :
    (insertEdge number reference).after pool = pool := by
  cases framed : pool.frames[number]? with
  | none => exact after_networkAt_bind framed _
  | some frame =>
    cases listed : pool.objects[reference]? with
    | none => exact after_insertEdge_none listed
    | some object =>
      rw [Pooled.outcome, perform_insertEdge framed listed] at failed
      rw [Pooled.after, perform_insertEdge framed listed]
      split at failed
      · rfl
      · cases failed

end Pool
end NetworkFlow
