import NetworkFlow.Proofs.Pool.Consistency

namespace NetworkFlow

open Network

variable {α β : Type}

/-- A pool keeps a network when the frame stays and so do the edges that it lists. -/
structure Pool.Keeps (before after : Pool α) (number : Nat) (frame : Frame) : Prop where
  framed : after.frames[number]? = some frame
  objects : ∀ reference ∈ frame.edges, after.objects[reference]? = before.objects[reference]?

/-- An operation is on a network when it may change the network or an edge of it. -/
def Operation.On (number : Nat) (frame : Frame) : Operation α → Prop
  | .addVertex other | .addEdge other .. | .insertEdge other _ | .resetFlows other
  | .reduceLowerBounds other .. | .buildCirculation other .. | .maxFlow other ..
  | .warmMaxFlow other .. => other = number
  | .push reference .. => reference ∈ frame.edges
  | .create _ | .makeEdge .. | .copy _ | .circulation .. | .matching .. => False

variable {pool : Pool α} {networks later : Array (Network α)} {number other reference : Nat}
  {frame : Frame}

namespace Pool.Keeps

variable {before middle after : Pool α}

theorem refl (framed : pool.frames[number]? = some frame) : pool.Keeps pool number frame :=
  ⟨framed, fun _ _ => rfl⟩

theorem trans (first : before.Keeps middle number frame)
    (second : middle.Keeps after number frame) : before.Keeps after number frame :=
  ⟨second.framed, fun reference member =>
    (second.objects reference member).trans (first.objects reference member)⟩

/-- An action that changes nothing keeps every network. -/
theorem of_same {action : Pooled α β} (same : action.after pool = pool)
    (framed : pool.frames[number]? = some frame) :
    pool.Keeps (action.after pool) number frame := by
  rw [same]
  exact refl framed

end Pool.Keeps

/-- An action that leads to the same network keeps its edges. -/
theorem Pooled.Leads.keeps {action : Pooled α β} {outcome : Except (Fault α) β} {limit : Nat}
    (leads : action.Leads pool outcome later limit) (represents : pool.Represents networks)
    (framed : pool.frames[number]? = some frame) (below : number < limit)
    (same : later[number]? = networks[number]?) :
    pool.Keeps (action.after pool) number frame := by
  have stays := (leads.frames number below).trans framed
  refine ⟨stays, fun reference member => ?_⟩
  obtain ⟨network, found, stores⟩ := represents.exists_network framed
  have storesToo := leads.represents.stores _ _ _ stays (same.trans found)
  obtain ⟨position, listed⟩ := Array.mem_iff_getElem?.mp member
  obtain ⟨edge, stands, object⟩ := stores.stands listed
  obtain ⟨twin, standsToo, objectToo⟩ := storesToo.stands listed
  rw [stands] at standsToo
  rw [objectToo, object, Option.some.inj standsToo]

namespace Pool.Represents

/-! ## Actions on other networks -/

/-- An action that leaves the earlier networks keeps each of them. -/
theorem keeps_of_leads (represents : pool.Represents networks)
    (framed : pool.frames[number]? = some frame) {action : Pooled α β}
    {outcome : Except (Fault α) β} (leads : action.Leads pool outcome later networks.size)
    (same : ∀ other < networks.size, later[other]? = networks[other]?) :
    pool.Keeps (action.after pool) number frame := by
  obtain ⟨network, found, -⟩ := represents.exists_network framed
  have below := (Array.getElem?_eq_some_iff.mp found).1
  exact leads.keeps represents framed below (same number below)

/-- A change of one network in place keeps the other ones. -/
theorem keeps_revise (represents : pool.Represents networks)
    (framed : pool.frames[number]? = some frame) (different : other ≠ number)
    (operation : Network α → Network α × Except (Fault α) β) :
    pool.Keeps ((revise other operation).after pool) number frame := by
  cases framedToo : pool.frames[other]? with
  | none => exact .of_same (after_frameAt_bind framedToo _) framed
  | some changed =>
    rw [Pooled.after, perform_revise framedToo, replace_eq]
    refine ⟨(Array.getElem?_setIfInBounds_ne different).trans framed, fun reference member => ?_⟩
    rw [Array.getElem?_append_left (by simpa using represents.lt_size framed member)]
    refine getElem?_write_of_not_mem fun written => different ?_
    obtain ⟨entry, listed, rfl⟩ := List.mem_map.mp written
    exact represents.disjoint _ _ _ _ _ framedToo framed
      (Array.mem_toList_iff.mp (List.of_mem_zip listed).1) member

theorem keeps_addVertex (framed : pool.frames[number]? = some frame) (different : other ≠ number) :
    pool.Keeps ((Pool.addVertex other).after pool) number frame := by
  cases framedToo : pool.frames[other]? with
  | none => exact .of_same (after_frameAt_bind framedToo _) framed
  | some changed =>
    have performs : (Pool.addVertex other).perform pool =
        (.ok (), ⟨pool.objects, pool.frames.setIfInBounds other changed.addVertex⟩) := by
      simp [Pool.addVertex, Pooled.perform_bind, perform_frameAt framedToo, setFrame]
    rw [Pooled.after, performs]
    exact ⟨(Array.getElem?_setIfInBounds_ne different).trans framed, fun _ _ => rfl⟩

/-- An edge that enters a network was in no other one. -/
theorem keeps_insertEdge (represents : pool.Represents networks)
    (framed : pool.frames[number]? = some frame) (different : other ≠ number) :
    pool.Keeps ((insertEdge other reference).after pool) number frame := by
  cases framedToo : pool.frames[other]? with
  | none => exact .of_same (after_networkAt_bind framedToo _) framed
  | some changed =>
    cases listed : pool.objects[reference]? with
    | none => exact .of_same (after_insertEdge_none listed) framed
    | some object =>
      rw [Pooled.after, perform_insertEdge framedToo listed]
      cases inserted : (changed.network pool.objects).insert object with
      | error fault => exact .refl framed
      | ok extended =>
        have fresh := represents.not_mem_of_index framed listed (insert_eq_ok inserted).1
        refine ⟨(Array.getElem?_setIfInBounds_ne different).trans framed, fun twin member => ?_⟩
        refine Array.getElem?_setIfInBounds_ne fun same => fresh ?_
        rwa [same]

variable [Quantity α]

theorem keeps_makeEdge (represents : pool.Represents networks)
    (framed : pool.frames[number]? = some frame) (tail head : Int) (load : Load α) (index : Int) :
    pool.Keeps ((makeEdge tail head load index).after pool) number frame := by
  cases created : LooseEdge.create tail head load index with
  | error fault => exact .of_same (congrArg Prod.snd (makeEdge_refused pool created)) framed
  | ok object =>
    exact represents.keeps_of_leads framed (represents.leads_makeEdge _ created).1 fun _ _ => rfl

/-- An edge that is added is made first and inserted then. -/
theorem keeps_addEdge (represents : pool.Represents networks)
    (framed : pool.frames[number]? = some frame) (different : other ≠ number) (tail head : Int)
    (capacity lower : α) :
    pool.Keeps ((addEdge other tail head capacity lower).after pool) number frame := by
  cases found : networks[other]? with
  | none => exact .of_same (after_networkAt_bind (represents.frame_eq_none found) _) framed
  | some network =>
    cases added : network.addEdge tail head capacity lower with
    | error fault =>
      exact .of_same (congrArg Prod.snd (represents.addEdge_refused found added)) framed
    | ok extended =>
      rw [addEdge_eq] at added
      obtain ⟨first, tails, added⟩ := ok_of_bind added
      obtain ⟨second, heads, added⟩ := ok_of_bind added
      obtain ⟨object, created, -⟩ := ok_of_bind added
      -- The new edge is in no network yet when it is inserted.
      have made := (represents.leads_makeEdge 0 created).1
      have kept := represents.keeps_makeEdge framed tail head
        ⟨capacity, lower, Quantity.zero, Quantity.zero⟩ (-1)
      have performs : (addEdge other tail head capacity lower).after pool =
          (insertEdge other pool.objects.size).after ((makeEdge tail head
            ⟨capacity, lower, Quantity.zero, Quantity.zero⟩ (-1)).after pool) := by
        rw [addEdge, Pooled.after_bind (represents.perform_networkAt found),
          Pooled.after_bind (by rw [Pooled.perform_lift, tails]),
          Pooled.after_bind (by rw [Pooled.perform_lift, heads]), Pooled.after_bind made.perform,
          Pooled.after_bind_pure]
      rw [performs]
      exact kept.trans (made.represents.keeps_insertEdge kept.framed different)

theorem keeps_push (framed : pool.frames[number]? = some frame) (apart : reference ∉ frame.edges)
    (vertex : Int) (amount : α) :
    pool.Keeps ((push reference vertex amount).after pool) number frame := by
  cases listed : pool.objects[reference]? with
  | none =>
    refine .of_same ?_ framed
    simp [Pooled.after, push, Pooled.perform_bind, perform_objectAt_none listed]
  | some object =>
    cases pushed : object.toLoad.push (vertex = object.head) amount with
    | error fault =>
      refine .of_same ?_ framed
      simp [Pooled.after, push, Pooled.perform_bind, perform_objectAt listed, pushed]
    | ok load =>
      have performs : (push reference vertex amount).perform pool =
          (.ok (), ⟨pool.objects.setIfInBounds reference { object with toLoad := load },
            pool.frames⟩) := by
        simp [push, Pooled.perform_bind, perform_objectAt listed, pushed, setObject]
      rw [Pooled.after, performs]
      refine ⟨framed, fun twin member => ?_⟩
      refine Array.getElem?_setIfInBounds_ne fun same => apart ?_
      rwa [same]

/-! ## Operations -/

/-- Every operation keeps the networks that it is not on. -/
theorem keeps_after (represents : pool.Represents networks)
    (framed : pool.frames[number]? = some frame) {operation : Operation α}
    (apart : ¬operation.On number frame) : pool.Keeps (operation.after pool) number frame := by
  cases operation with
  | create vertexCount =>
    obtain ⟨outcome, later, leads, same⟩ := represents.leads_create vertexCount
    exact represents.keeps_of_leads framed leads same
  | addVertex other => exact keeps_addVertex framed apart
  | makeEdge tail head load index => exact represents.keeps_makeEdge framed tail head load index
  | addEdge other tail head capacity lower =>
    exact represents.keeps_addEdge framed apart tail head capacity lower
  | insertEdge other reference => exact represents.keeps_insertEdge framed apart
  | push reference vertex amount => exact keeps_push framed apart vertex amount
  | copy other =>
    cases found : networks[other]? with
    | none => exact .of_same (after_frameAt_bind (represents.frame_eq_none found) _) framed
    | some network =>
      obtain ⟨outcome, last, leads, -⟩ := represents.leads_copy found
      exact represents.keeps_of_leads framed leads fun _ => getElem?_push_of_lt
  | resetFlows other => exact represents.keeps_revise framed apart _
  | reduceLowerBounds other demands tolerance => exact represents.keeps_revise framed apart _
  | buildCirculation other demands tolerance => exact represents.keeps_revise framed apart _
  | maxFlow other source sink options watch =>
    rw [Operation.after, maxFlow_eq]
    exact represents.keeps_revise framed apart _
  | warmMaxFlow other source sink options watch =>
    rw [Operation.after, warmMaxFlow_eq]
    exact represents.keeps_revise framed apart _
  | circulation other demands options watch =>
    cases found : networks[other]? with
    | none => exact .of_same (after_networkAt_bind (represents.frame_eq_none found) _) framed
    | some network =>
      obtain ⟨later, leads, same⟩ := represents.leads_circulation found demands options watch
      exact represents.keeps_of_leads framed leads same
  | matching left right pairs options =>
    obtain ⟨later, leads, same⟩ := represents.leads_matching left right pairs options
    exact represents.keeps_of_leads framed leads same

/-- Operations that are not on a network keep it, however many they are. -/
theorem keeps_foldl (represents : pool.Represents networks)
    (framed : pool.frames[number]? = some frame) {operations : List (Operation α)}
    (apart : ∀ operation ∈ operations, ¬operation.On number frame) :
    pool.Keeps (operations.foldl Operation.after pool) number frame := by
  induction operations generalizing pool networks with
  | nil => exact .refl framed
  | cons operation rest inductionHypothesis =>
    have kept := represents.keeps_after framed (apart operation (by simp))
    obtain ⟨later, next⟩ := represents.exists_after operation
    exact kept.trans (inductionHypothesis next kept.framed fun other member =>
      apart other (by simp [member]))

end Pool.Represents
end NetworkFlow
