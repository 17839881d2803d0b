/-
This file says when a pool of shared edges stands for a list of separate networks.
Every frame lists objects of its own, which are the edges of its network,
so what is written through one frame is never seen through another one.
-/
import NetworkFlow.Pool
import NetworkFlow.Proofs.Network.Incidence

namespace NetworkFlow

open Network

variable {α β γ : Type}

/-! ## Actions -/

namespace Pooled

/-- Actions are equal when they do the same to every pool. -/
theorem ext {first second : Pooled α β}
    (same : ∀ pool, first.perform pool = second.perform pool) : first = second :=
  funext same

@[simp] theorem perform_pure (value : β) (pool : Pool α) :
    (pure value : Pooled α β).perform pool = (.ok value, pool) := rfl

/-- A fault ends an action with what was changed before it. -/
theorem perform_bind (first : Pooled α β) (next : β → Pooled α γ) (pool : Pool α) :
    (first >>= next : Pooled α γ).perform pool = match first.perform pool with
      | (.ok value, after) => (next value).perform after
      | (.error fault, after) => (.error fault, after) := by
  unfold perform ExceptT.run StateT.run
  simp only [bind, ExceptT.bind, ExceptT.mk, StateT.bind, ExceptT.bindCont]
  cases first pool with
  | mk outcome after => cases outcome <;> rfl

/-- An action leaves what its second part leaves after the first one. -/
theorem after_bind {first : Pooled α β} {next : β → Pooled α γ} {value : β} {pool middle : Pool α}
    (performs : first.perform pool = (.ok value, middle)) :
    (first >>= next : Pooled α γ).after pool = (next value).after middle := by
  rw [after, perform_bind, performs]
  rfl

/-- The value of an action does not change what the action leaves. -/
theorem after_bind_pure (action : Pooled α β) (value : γ) (pool : Pool α) :
    (action >>= fun _ => pure value : Pooled α γ).after pool = action.after pool := by
  rw [after, after, perform_bind]
  cases action.perform pool with
  | mk outcome last => cases outcome <;> rfl

theorem perform_map (change : β → γ) (action : Pooled α β) (pool : Pool α) :
    (change <$> action : Pooled α γ).perform pool = match action.perform pool with
      | (.ok value, after) => (.ok (change value), after)
      | (.error fault, after) => (.error fault, after) := by
  rw [map_eq_pure_bind, perform_bind]
  rfl

@[simp] theorem perform_throw (fault : Fault α) (pool : Pool α) :
    (throw fault : Pooled α β).perform pool = (.error fault, pool) := rfl

@[simp] theorem perform_lift (outcome : Except (Fault α) β) (pool : Pool α) :
    (liftM outcome : Pooled α β).perform pool = (outcome, pool) := by
  cases outcome <;> rfl

@[simp] theorem perform_get (pool : Pool α) : (get : Pooled α (Pool α)).perform pool =
    (.ok pool, pool) := rfl

@[simp] theorem perform_modify (change : Pool α → Pool α) (pool : Pool α) :
    (modify change : Pooled α PUnit).perform pool = (.ok ⟨⟩, change pool) := rfl

end Pooled

/-! ## Frames -/

/-- An edge of a network is read back from its object. -/
@[simp] theorem LooseEdge.placed_loose (edge : Edge α) : edge.loose.placed = edge := by
  simp [placed, Edge.loose]

/-- A frame stores a network when its references lead to the edges of the network in order,
and its lists have references where those of the network have positions. -/
structure Frame.Stores (frame : Frame) (objects : Array (LooseEdge α)) (network : Network α) :
    Prop where
  objects : frame.edges.toList.map (objects[·]?) = network.edges.toList.map (some ·.loose)
  adjacency : frame.adjacency =
    network.adjacency.map fun incident => incident.filterMap (frame.edges[·]?)

namespace Frame.Stores

variable {frame : Frame} {objects : Array (LooseEdge α)} {network : Network α}
  {position : Nat}

theorem size (stores : frame.Stores objects network) :
    frame.edges.size = network.edges.size := by
  simpa using congrArg List.length stores.objects

theorem vertexCount (stores : frame.Stores objects network) :
    frame.vertexCount = network.vertexCount := by
  rw [Frame.vertexCount, stores.adjacency, Array.size_map, Network.vertexCount]

/-- The object of a reference is the edge at the same position. -/
theorem stands (stores : frame.Stores objects network) {reference : Nat}
    (listed : frame.edges[position]? = some reference) :
    ∃ edge, network.edges[position]? = some edge ∧ objects[reference]? = some edge.loose := by
  have entry := congrArg (·[position]?) stores.objects
  simp only [List.getElem?_map, Array.getElem?_toList, listed, Option.map_some] at entry
  obtain ⟨edge, found, equal⟩ := Option.map_eq_some_iff.mp entry.symm
  exact ⟨edge, found, equal.symm⟩

/-- The edge at a position has a reference. -/
theorem reference (stores : frame.Stores objects network) {edge : Edge α}
    (stands : network.edges[position]? = some edge) :
    ∃ reference, frame.edges[position]? = some reference ∧
      objects[reference]? = some edge.loose := by
  have entry := congrArg (·[position]?) stores.objects
  simp only [List.getElem?_map, Array.getElem?_toList, stands, Option.map_some] at entry
  exact Option.map_eq_some_iff.mp entry

theorem mem_stands (stores : frame.Stores objects network) {reference : Nat}
    (member : reference ∈ frame.edges) :
    ∃ edge ∈ network.edges, objects[reference]? = some edge.loose := by
  obtain ⟨position, listed⟩ := Array.mem_iff_getElem?.mp member
  obtain ⟨edge, found, object⟩ := stores.stands listed
  exact ⟨edge, Array.mem_of_getElem? found, object⟩

theorem lt_size (stores : frame.Stores objects network) {reference : Nat}
    (member : reference ∈ frame.edges) :
    reference < objects.size := by
  obtain ⟨edge, -, object⟩ := stores.mem_stands member
  exact (Array.getElem?_eq_some_iff.mp object).1

/-- A frame stores the same network while its own objects stay. -/
theorem congr (stores : frame.Stores objects network) {others : Array (LooseEdge α)}
    (same : ∀ reference ∈ frame.edges, others[reference]? = objects[reference]?) :
    frame.Stores others network := by
  refine ⟨?_, stores.adjacency⟩
  rw [← stores.objects]
  exact List.map_congr_left fun reference member => same reference (Array.mem_toList_iff.mp member)

/-- No edge is listed at two positions, because it knows its position. -/
theorem position_eq (stores : frame.Stores objects network) (wellFormed : network.WellFormed)
    {other reference : Nat} (listed : frame.edges[position]? = some reference)
    (listedToo : frame.edges[other]? = some reference) : position = other := by
  obtain ⟨edge, found, object⟩ := stores.stands listed
  obtain ⟨twin, foundToo, objectToo⟩ := stores.stands listedToo
  rw [object] at objectToo
  have index : (edge.index : Int) = twin.index :=
    congrArg LooseEdge.index (Option.some.inj objectToo)
  rw [← wellFormed.index_eq found, ← wellFormed.index_eq foundToo]
  exact_mod_cast index

theorem nodup (stores : frame.Stores objects network) (wellFormed : network.WellFormed) :
    frame.edges.toList.Nodup := by
  rw [List.nodup_iff_injective_get]
  intro first second equal
  have listed : frame.edges[first.val]? = some (frame.edges.toList.get first) := by simp
  have listedToo : frame.edges[second.val]? = some (frame.edges.toList.get first) := by
    rw [equal]
    simp
  exact Fin.ext (stores.position_eq wellFormed listed listedToo)

/-- The network is read back through the references. -/
theorem network_eq (stores : frame.Stores objects network) (wellFormed : network.WellFormed) :
    frame.network objects = network := by
  have edges : (frame.network objects).edges = network.edges := by
    apply Array.toList_inj.mp
    have placed (reference : Nat) : (objects[reference]?).map LooseEdge.placed =
        (Option.map LooseEdge.placed ∘ (objects[·]?)) reference := rfl
    simp only [Frame.network, Array.toList_filterMap, placed]
    rw [← List.filterMap_map, stores.objects, List.filterMap_map]
    simp
  have adjacency : (frame.network objects).adjacency = network.adjacency := by
    simp only [Frame.network]
    rw [stores.adjacency, Array.map_map]
    refine Array.ext_getElem? fun vertex => ?_
    rw [Array.getElem?_map]
    cases listed : network.adjacency[vertex]? with
    | none => rfl
    | some incident =>
      have inside : network.incident vertex = incident := by simp [Network.incident, listed]
      simp only [Option.map_some, Function.comp_apply, List.filterMap_filterMap]
      congr 1
      rw [List.filterMap_congr (g := some), List.filterMap_some]
      intro position member
      obtain ⟨edge, found, -⟩ := wellFormed.mem_incident_iff.mp (inside ▸ member)
      obtain ⟨reference, known, object⟩ := stores.reference found
      rw [known, Option.bind_some, object, Option.map_some]
      simp [Edge.loose, wellFormed.index_eq found]
  exact congrArg₂ Network.mk adjacency edges

end Frame.Stores

/-! ## Writing -/

namespace Pool

variable {objects : Array (LooseEdge α)} {edges : List (Nat × Edge α)} {reference : Nat}

@[simp] theorem size_write (objects : Array (LooseEdge α)) (edges : List (Nat × Edge α)) :
    (write objects edges).size = objects.size := by
  induction edges generalizing objects with
  | nil => rfl
  | cons entry rest inductionHypothesis =>
    rw [write, List.foldl_cons]
    exact (inductionHypothesis _).trans (Array.size_setIfInBounds ..)

/-- An object without a written edge stays as it is. -/
theorem getElem?_write_of_not_mem (outside : reference ∉ edges.map Prod.fst) :
    (write objects edges)[reference]? = objects[reference]? := by
  induction edges generalizing objects with
  | nil => rfl
  | cons entry rest inductionHypothesis =>
    rw [List.map_cons, List.mem_cons, not_or] at outside
    rw [write, List.foldl_cons]
    refine (inductionHypothesis outside.2).trans ?_
    exact Array.getElem?_setIfInBounds_ne (Ne.symm outside.1)

/-- An edge is found where it was written. -/
theorem getElem?_write_of_mem (nodup : (edges.map Prod.fst).Nodup) {edge : Edge α}
    (member : (reference, edge) ∈ edges) (inside : reference < objects.size) :
    (write objects edges)[reference]? = some edge.loose := by
  induction edges generalizing objects with
  | nil => cases member
  | cons entry rest inductionHypothesis =>
    rw [List.map_cons, List.nodup_cons] at nodup
    rw [write, List.foldl_cons]
    rcases List.mem_cons.mp member with rfl | later
    · refine (getElem?_write_of_not_mem nodup.1).trans ?_
      exact Array.getElem?_setIfInBounds_self_of_lt inside
    · exact inductionHypothesis nodup.2 later (by simpa using inside)

end Pool

/-! ## Pools -/

/-- A pool represents networks when every frame stores its network in objects of its own. -/
structure Pool.Represents (pool : Pool α) (networks : Array (Network α)) : Prop where
  size : pool.frames.size = networks.size
  wellFormed : ∀ (number : Nat) (network : Network α), networks[number]? = some network →
    network.WellFormed
  stores : ∀ (number : Nat) (frame : Frame) (network : Network α),
    pool.frames[number]? = some frame → networks[number]? = some network →
    frame.Stores pool.objects network
  disjoint : ∀ (first second : Nat) (one other : Frame) (reference : Nat),
    pool.frames[first]? = some one → pool.frames[second]? = some other →
    reference ∈ one.edges → reference ∈ other.edges → first = second

namespace Pool.Represents

variable {pool : Pool α} {networks : Array (Network α)} {network : Network α} {number : Nat}

theorem exists_frame (represents : pool.Represents networks)
    (found : networks[number]? = some network) :
    ∃ frame, pool.frames[number]? = some frame ∧ frame.Stores pool.objects network := by
  have inside : number < pool.frames.size := by
    rw [represents.size]
    exact (Array.getElem?_eq_some_iff.mp found).1
  have framed := Array.getElem?_eq_getElem inside
  exact ⟨_, framed, represents.stores _ _ _ framed found⟩

theorem exists_network (represents : pool.Represents networks) {frame : Frame}
    (framed : pool.frames[number]? = some frame) :
    ∃ network, networks[number]? = some network ∧ frame.Stores pool.objects network := by
  have inside : number < networks.size := by
    rw [← represents.size]
    exact (Array.getElem?_eq_some_iff.mp framed).1
  have found := Array.getElem?_eq_getElem inside
  exact ⟨_, found, represents.stores _ _ _ framed found⟩

/-- A number without a network has no frame. -/
theorem frame_eq_none (represents : pool.Represents networks)
    (missing : networks[number]? = none) : pool.frames[number]? = none := by
  rw [Array.getElem?_eq_none_iff, represents.size]
  exact Array.getElem?_eq_none_iff.mp missing

/-- Every listed reference leads to an object. -/
theorem lt_size (represents : pool.Represents networks) {frame : Frame}
    (framed : pool.frames[number]? = some frame) {reference : Nat}
    (member : reference ∈ frame.edges) : reference < pool.objects.size := by
  obtain ⟨network, -, stores⟩ := represents.exists_network framed
  exact stores.lt_size member

/-- An edge that is in no network is in no frame. -/
theorem not_mem_of_index (represents : pool.Represents networks) {frame : Frame}
    (framed : pool.frames[number]? = some frame) {reference : Nat} {object : LooseEdge α}
    (found : pool.objects[reference]? = some object) (loose : object.index < 0) :
    reference ∉ frame.edges := by
  intro member
  obtain ⟨network, -, stores⟩ := represents.exists_network framed
  obtain ⟨edge, -, same⟩ := stores.mem_stands member
  rw [found] at same
  rw [Option.some.inj same] at loose
  exact absurd (Int.natCast_nonneg edge.index) (not_le.mpr loose)

/-- New objects change no network. -/
theorem append (represents : pool.Represents networks) (objects : Array (LooseEdge α)) :
    (⟨pool.objects ++ objects, pool.frames⟩ : Pool α).Represents networks := by
  refine ⟨represents.size, represents.wellFormed, ?_, represents.disjoint⟩
  intro number frame network framed found
  refine (represents.stores number frame network framed found).congr fun reference member => ?_
  exact Array.getElem?_append_left (represents.lt_size framed member)

/-- A new frame is an empty network. -/
theorem addFrame (represents : pool.Represents networks) (vertexCount : Nat) :
    (⟨pool.objects, pool.frames.push (.blank vertexCount)⟩ : Pool α).Represents
      (networks.push (.empty vertexCount)) := by
  have stored : (Frame.blank vertexCount).Stores pool.objects
      (Network.empty vertexCount : Network α) :=
    ⟨rfl, by simp [Frame.blank, Network.empty]⟩
  have none (reference : Nat) : reference ∉ (Frame.blank vertexCount).edges := by
    simp [Frame.blank]
  refine ⟨by simp [represents.size], ?_, ?_, ?_⟩
  · intro number network found
    rw [Array.getElem?_push] at found
    split at found
    · rw [← Option.some.inj found]
      exact wellFormed_empty vertexCount
    · exact represents.wellFormed number network found
  · intro number frame network framed found
    rw [Array.getElem?_push, represents.size] at framed
    rw [Array.getElem?_push] at found
    split at framed
    · rw [if_pos ‹_›] at found
      rw [← Option.some.inj framed, ← Option.some.inj found]
      exact stored
    · rw [if_neg ‹_›] at found
      exact represents.stores number frame network framed found
  · intro first second one other reference framed framedToo member memberToo
    rw [Array.getElem?_push] at framed framedToo
    split at framed
    · rw [← Option.some.inj framed] at member
      exact absurd member (none reference)
    · split at framedToo
      · rw [← Option.some.inj framedToo] at memberToo
        exact absurd memberToo (none reference)
      · exact represents.disjoint first second one other reference framed framedToo member
          memberToo

/-- A frame may be rewritten when no other frame lists what it writes to. -/
theorem update (represents : pool.Represents networks) {frame next : Frame}
    (framed : pool.frames[number]? = some frame) {changed : Network α}
    (wellFormed : changed.WellFormed) {objects : Array (LooseEdge α)}
    (stores : next.Stores objects changed)
    (kept : ∀ reference < pool.objects.size, reference ∉ next.edges →
      objects[reference]? = pool.objects[reference]?)
    (own : ∀ reference ∈ next.edges, reference ∈ frame.edges ∨
      ∀ other ∈ pool.frames, reference ∉ other.edges) :
    (⟨objects, pool.frames.setIfInBounds number next⟩ : Pool α).Represents
      (networks.setIfInBounds number changed) := by
  have inside := (Array.getElem?_eq_some_iff.mp framed).1
  have insideToo : number < networks.size := represents.size ▸ inside
  -- What the rewritten frame lists is listed by no other frame.
  have apart {second : Nat} {other : Frame} {reference : Nat}
      (framedToo : pool.frames[second]? = some other) (memberToo : reference ∈ other.edges)
      (member : reference ∈ next.edges) : number = second := by
    rcases own reference member with old | new
    · exact represents.disjoint _ _ _ _ _ framed framedToo old memberToo
    · exact absurd memberToo (new other (Array.mem_of_getElem? framedToo))
  refine ⟨by simp [represents.size], ?_, ?_, ?_⟩
  · intro other network found
    rw [Array.getElem?_setIfInBounds, if_pos insideToo] at found
    split at found
    · rwa [← Option.some.inj found]
    · exact represents.wellFormed other network found
  · intro second other network framedToo found
    rw [Array.getElem?_setIfInBounds, if_pos inside] at framedToo
    rw [Array.getElem?_setIfInBounds, if_pos insideToo] at found
    by_cases same : number = second
    · rw [if_pos same] at framedToo found
      rwa [← Option.some.inj framedToo, ← Option.some.inj found]
    · rw [if_neg same] at framedToo found
      refine (represents.stores second other network framedToo found).congr ?_
      intro reference member
      exact kept reference (represents.lt_size framedToo member) fun memberToo =>
        same (apart framedToo member memberToo)
  · intro first second one other reference framedOne framedOther member memberToo
    rw [Array.getElem?_setIfInBounds, if_pos inside] at framedOne framedOther
    split at framedOne
    · split at framedOther
      · exact (‹number = first›).symm.trans ‹number = second›
      · rw [← Option.some.inj framedOne] at member
        exact (‹number = first›).symm.trans (apart framedOther memberToo member)
    · split at framedOther
      · rw [← Option.some.inj framedOther] at memberToo
        exact (apart framedOne member memberToo).symm.trans ‹number = second›
      · exact represents.disjoint _ _ _ _ _ framedOne framedOther member memberToo

end Pool.Represents
end NetworkFlow
