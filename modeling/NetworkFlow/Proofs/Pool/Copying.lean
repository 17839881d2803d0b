import NetworkFlow.Proofs.Pool.Insertion

namespace NetworkFlow

open Network

variable {α : Type} [Quantity α]

/-- An edge between two vertices is added when its ends and its bounds are accepted in turn. -/
theorem Network.addEdge_eq (network : Network α) (tail head : Int) (capacity lower : α) :
    network.addEdge tail head capacity lower = (do
      let _ ← network.checkVertex "Edge tail" tail
      let _ ← network.checkVertex "Edge head" head
      network.insert (← LooseEdge.create tail head
        ⟨capacity, lower, Quantity.zero, Quantity.zero⟩ (-1))) := by
  have loose : ¬(0 : Int) ≤ -1 := by decide
  cases tails : network.checkVertex "Edge tail" tail with
  | error fault => simp only [addEdge, tails, error_bind]
  | ok first =>
    cases heads : network.checkVertex "Edge head" head with
    | error fault => simp only [addEdge, tails, heads, ok_bind, error_bind]
    | ok second =>
      cases checked : Load.check ⟨capacity, lower, Quantity.zero, Quantity.zero⟩ tail head with
      | error fault =>
        simp only [addEdge, LooseEdge.create, tails, heads, checked, ok_bind, error_bind]
      | ok accepted =>
        simp only [addEdge, LooseEdge.create, insert, if_neg loose, tails, heads, checked, ok_bind,
          pure, Except.pure]

namespace Pool

variable {pool : Pool α} {networks : Array (Network α)} {network extended : Network α}
  {number reference : Nat} {tail head index : Int} {load : Load α}

/-- A new edge is the last object and in no network. -/
theorem Represents.leads_makeEdge (represents : pool.Represents networks) (limit : Nat)
    {object : LooseEdge α} (created : LooseEdge.create tail head load index = .ok object) :
    (makeEdge tail head load index).Leads pool (.ok pool.objects.size) networks limit ∧
      ((makeEdge tail head load index).after pool).objects[pool.objects.size]? = some object := by
  have performs : (makeEdge tail head load index).perform pool =
      (.ok pool.objects.size, ⟨pool.objects.push object, pool.frames⟩) := by
    rw [perform_makeEdge, created]
  constructor
  · refine .of_perform _ performs ?_ fun _ _ => rfl
    rw [← Array.append_singleton]
    exact represents.append _
  · rw [Pooled.after, performs]
    exact Array.getElem?_push_size

theorem makeEdge_refused (pool : Pool α) {fault : Fault α}
    (refused : LooseEdge.create tail head load index = .error fault) :
    (makeEdge tail head load index).perform pool = (.error fault, pool) := by
  rw [perform_makeEdge, refused]

section Addition

variable {capacity lower : α}

/-- An edge that a network accepts is added to it, and no other network changes. -/
theorem Represents.leads_addEdge (represents : pool.Represents networks)
    (found : networks[number]? = some network)
    (added : network.addEdge tail head capacity lower = .ok extended) :
    (addEdge number tail head capacity lower).Leads pool (.ok pool.objects.size)
      (networks.setIfInBounds number extended) number := by
  rw [addEdge_eq] at added
  obtain ⟨first, tails, added⟩ := ok_of_bind added
  obtain ⟨second, heads, added⟩ := ok_of_bind added
  obtain ⟨object, created, inserted⟩ := ok_of_bind added
  obtain ⟨made, listed⟩ := represents.leads_makeEdge number created
  have entered := made.represents.leads_insertEdge found listed inserted
  refine .bind_same (represents.perform_networkAt found) ?_
  refine .bind_same (by rw [Pooled.perform_lift, tails]) ?_
  refine .bind_same (by rw [Pooled.perform_lift, heads]) ?_
  exact made.bind (entered.bind (.of_same entered.represents rfl))

/-- An edge that a network refuses changes nothing. -/
theorem Represents.addEdge_refused (represents : pool.Represents networks)
    (found : networks[number]? = some network) {fault : Fault α}
    (refused : network.addEdge tail head capacity lower = .error fault) :
    (addEdge number tail head capacity lower).perform pool = (.error fault, pool) := by
  rw [addEdge_eq] at refused
  have read := represents.perform_networkAt found
  cases tails : network.checkVertex "Edge tail" tail with
  | error other =>
    rw [tails, error_bind] at refused
    simp [addEdge, Pooled.perform_bind, read, tails, Except.error.inj refused]
  | ok first =>
    cases heads : network.checkVertex "Edge head" head with
    | error other =>
      rw [tails, heads, ok_bind, error_bind] at refused
      simp [addEdge, Pooled.perform_bind, read, tails, heads, Except.error.inj refused]
    | ok second =>
      cases created : LooseEdge.create tail head
          ⟨capacity, lower, Quantity.zero, Quantity.zero⟩ (-1) with
      | error other =>
        rw [tails, heads, created, ok_bind, ok_bind, error_bind] at refused
        simp [addEdge, Pooled.perform_bind, read, tails, heads, makeEdge_refused pool created,
          Except.error.inj refused]
      | ok object =>
        -- The ends were accepted, so the new edge enters.
        rw [tails, heads, created, ok_bind, ok_bind, ok_bind] at refused
        obtain ⟨-, -, made⟩ := ok_of_bind created
        have loose : ¬(0 : Int) ≤ -1 := by decide
        rw [← Except.ok.inj made] at refused
        simp only [Network.insert, if_neg loose, tails, heads, ok_bind] at refused
        cases refused

/-- An addition that fails changes nothing. -/
theorem Represents.after_addEdge_of_error (represents : pool.Represents networks)
    {fault : Fault α}
    (failed : (addEdge number tail head capacity lower).outcome pool = .error fault) :
    (addEdge number tail head capacity lower).after pool = pool := by
  cases found : networks[number]? with
  | none => exact after_networkAt_bind (represents.frame_eq_none found) _
  | some network =>
    cases added : network.addEdge tail head capacity lower with
    | error other => rw [Pooled.after, represents.addEdge_refused found added]
    | ok extended =>
      rw [(represents.leads_addEdge found added).outcome] at failed
      cases failed

end Addition

omit [Quantity α] in
/-- An earlier entry stays when a last one is added. -/
theorem getElem?_push_of_lt {β : Type} {entries : Array β} {last : β} {position : Nat}
    (below : position < entries.size) : (entries.push last)[position]? = entries[position]? := by
  rw [Array.getElem?_push, if_neg below.ne]

omit [Quantity α] in
theorem Represents.leads_addFrame (represents : pool.Represents networks) (vertexCount : Nat) :
    (Pool.addFrame vertexCount).Leads pool (.ok networks.size)
      (networks.push (.empty vertexCount)) networks.size := by
  rw [← represents.size]
  refine .of_perform ⟨pool.objects, pool.frames.push (.blank vertexCount)⟩ ?_
    (represents.addFrame vertexCount) fun number below => getElem?_push_of_lt below
  simp [Pool.addFrame, Pooled.perform_bind, Pooled.perform_map]

section Copy

omit [Quantity α] in
/-- The last network is the one that is changed. -/
theorem setIfInBounds_push_size (networks : Array (Network α)) (last changed : Network α) :
    (networks.push last).setIfInBounds networks.size changed = networks.push changed := by
  refine Array.ext_getElem? fun number => ?_
  rw [Array.getElem?_setIfInBounds, Array.getElem?_push, Array.getElem?_push]
  by_cases last : number = networks.size
  · simp [last]
  · rw [if_neg (Ne.symm last), if_neg last, if_neg last]

/-- An edge is copied into a network that is not the one it is in. -/
theorem Represents.leads_copyEdge (represents : pool.Represents networks)
    (found : networks[number]? = some network) {edge : Edge α}
    (listed : pool.objects[reference]? = some edge.loose) :
    (∃ extended,
      (do network.insert (← LooseEdge.create edge.tail edge.head edge.toLoad (-1))) =
        .ok extended ∧
      (copyEdge number reference).Leads pool (.ok ()) (networks.setIfInBounds number extended)
        number) ∨
    ∃ fault, (do network.insert (← LooseEdge.create edge.tail edge.head edge.toLoad (-1))) =
        .error fault ∧
      (copyEdge number reference).Leads pool (.error fault) networks number := by
  have read := perform_objectAt listed
  cases created : LooseEdge.create edge.tail edge.head edge.toLoad (-1) with
  | error fault =>
    right
    refine ⟨fault, rfl, .bind_same read ?_⟩
    exact (Pooled.Leads.of_same represents (makeEdge_refused pool created)).bind_error
  | ok object =>
    obtain ⟨made, listedToo⟩ := represents.leads_makeEdge number created
    rw [ok_bind]
    cases inserted : network.insert object with
    | error fault =>
      right
      refine ⟨fault, rfl, .bind_same read (made.bind ?_)⟩
      exact .of_same made.represents (made.represents.insertEdge_refused found listedToo inserted)
    | ok extended =>
      left
      refine ⟨extended, rfl, .bind_same read (made.bind ?_)⟩
      exact made.represents.leads_insertEdge found listedToo inserted

/-- The edges of a network are copied in turn until one of them is refused.
The network that is copied stays as it is. -/
theorem Represents.leads_copyEdges (edges : List (Nat × Edge α)) {frame : Frame}
    (found : networks[number]? = some network) {clone : Network α}
    (represents : pool.Represents (networks.push clone))
    (framed : pool.frames[number]? = some frame)
    (each : ∀ entry ∈ edges, ∃ position : Nat, frame.edges[position]? = some entry.1 ∧
      network.edges[position]? = some entry.2) :
    ∃ (outcome : Except (Fault α) Unit) (last : Network α),
      ((edges.map Prod.fst).forM (copyEdge networks.size)).Leads pool outcome
        (networks.push last) networks.size ∧
      (edges.map Prod.snd).foldlM (fun clone edge => do
        clone.insert (← LooseEdge.create edge.tail edge.head edge.toLoad (-1))) clone =
        outcome.map fun _ => last := by
  induction edges generalizing pool clone with
  | nil => exact ⟨.ok (), clone, .of_same represents rfl, rfl⟩
  | cons entry rest inductionHypothesis =>
    obtain ⟨reference, edge⟩ := entry
    obtain ⟨position, listed, stands⟩ := each (reference, edge) (by simp)
    have below : number < networks.size := (Array.getElem?_eq_some_iff.mp found).1
    have old : (networks.push clone)[number]? = some network :=
      (getElem?_push_of_lt below).trans found
    obtain ⟨twin, same, object⟩ := (represents.stores _ _ _ framed old).stands listed
    rw [stands] at same
    rw [← Option.some.inj same] at object
    rw [List.map_cons, List.map_cons, List.forM, List.foldlM_cons]
    rcases represents.leads_copyEdge (Array.getElem?_push_size) object with
      ⟨extended, inserted, leads⟩ | ⟨fault, refused, leads⟩
    · rw [setIfInBounds_push_size] at leads
      have framedToo := leads.frames number below
      obtain ⟨outcome, last, rest, folded⟩ := inductionHypothesis leads.represents
        (framedToo.trans framed) fun entry member => each entry (by simp [member])
      refine ⟨outcome, last, leads.bind rest, ?_⟩
      rw [inserted]
      exact folded
    · refine ⟨.error fault, clone, leads.bind_error, ?_⟩
      rw [refused]
      rfl

/-- A copy gives what the copy of the separate network gives, in edges of its own. -/
theorem Represents.leads_copy (represents : pool.Represents networks)
    (found : networks[number]? = some network) :
    ∃ (outcome : Except (Fault α) Unit) (last : Network α),
      (copy number).Leads pool (outcome.map fun _ => networks.size) (networks.push last)
        networks.size ∧ network.copy = outcome.map fun _ => last := by
  obtain ⟨frame, framed, stores⟩ := represents.exists_frame found
  have below : number < networks.size := (Array.getElem?_eq_some_iff.mp found).1
  have added := represents.leads_addFrame frame.vertexCount
  have lengths : frame.edges.toList.length = network.edges.toList.length := by
    simpa using stores.size
  obtain ⟨outcome, last, copied, folded⟩ := Represents.leads_copyEdges
    (frame.edges.toList.zip network.edges.toList) found added.represents
    ((added.frames number below).trans framed) (by
      intro entry member
      obtain ⟨position, inside, rfl⟩ := List.mem_iff_getElem.mp member
      rw [List.length_zip, lengths, min_self] at inside
      exact ⟨position, by simp [stores.size, show position < network.edges.size from inside],
        by simp [show position < network.edges.size from inside]⟩)
  rw [List.map_fst_zip lengths.le] at copied
  rw [List.map_snd_zip lengths.ge] at folded
  refine ⟨outcome, last, .bind_same (perform_frameAt framed) (added.bind ?_), ?_⟩
  · cases outcome with
    | error fault => exact copied.bind_error
    | ok value => exact copied.bind (.of_same copied.represents rfl)
  · rw [Network.copy, ← Array.foldlM_toList, ← stores.vertexCount]
    exact folded

end Copy

end Pool
end NetworkFlow
