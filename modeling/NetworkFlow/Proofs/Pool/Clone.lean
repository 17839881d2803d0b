import NetworkFlow.Proofs.Pool.Bounds
import NetworkFlow.Proofs.Pool.History

namespace NetworkFlow

open Network

variable {α : Type}

/-- A network is cloned when it stays and another one has equal edges in objects of its own. -/
structure Pool.Clones (before after : Pool α) (number clone : Nat) (frame twin : Frame) :
    Prop where
  original : before.Keeps after number frame
  framed : after.frames[clone]? = some twin
  different : clone ≠ number
  apart : ∀ reference ∈ twin.edges, reference ∉ frame.edges
  /-- An edge has the ends, the load and the number of the edge at the same position. -/
  edges : twin.edges.toList.map (after.objects[·]?) = frame.edges.toList.map (after.objects[·]?)
  /-- The vertices are as many, and each of them lists the same numbers in the same order. -/
  network : twin.network after.objects = frame.network after.objects

/-- Two networks answer alike when nothing that reads or solves them tells them apart. -/
structure Pool.AnswersAlike [Quantity α] (pool : Pool α) (first second : Nat) : Prop where
  read : ∀ {β : Type} (reading : Network α → Except (Fault α) β),
    (do reading (← networkAt first) : Pooled α β).outcome pool =
      (do reading (← networkAt second) : Pooled α β).outcome pool
  maxFlow : ∀ (source sink : Int) (options : Options α) (watch : Watch α),
    (maxFlow first source sink options watch).outcome pool =
      (maxFlow second source sink options watch).outcome pool
  warmMaxFlow : ∀ (source sink : Int) (options : Options α) (watch : Watch α),
    (warmMaxFlow first source sink options watch).outcome pool =
      (warmMaxFlow second source sink options watch).outcome pool
  circulation : ∀ (demands : Demands α) (options : Options α) (watch : Watch α),
    (circulation first demands options watch).outcome pool =
      (circulation second demands options watch).outcome pool

namespace Pool.Represents

variable [Quantity α] {pool : Pool α} {networks : Array (Network α)} {network : Network α}
  {number first second : Nat} {frame : Frame}

/-- Numbers that stand for equal networks answer alike. -/
theorem answersAlike (represents : pool.Represents networks)
    (found : networks[first]? = some network) (foundToo : networks[second]? = some network) :
    pool.AnswersAlike first second := by
  refine ⟨fun reading => ?_, fun source sink options watch => ?_,
    fun source sink options watch => ?_, fun demands options watch => ?_⟩
  · rw [Pooled.outcome, Pooled.outcome, Pooled.perform_bind, Pooled.perform_bind,
      represents.perform_networkAt found, represents.perform_networkAt foundToo]
  · rw [(represents.leads_maxFlow found ..).outcome,
      (represents.leads_maxFlow foundToo ..).outcome]
  · rw [(represents.leads_warmMaxFlow found ..).outcome,
      (represents.leads_warmMaxFlow foundToo ..).outcome]
  · obtain ⟨_, leads, -⟩ := represents.leads_circulation found demands options watch
    obtain ⟨_, leadsToo, -⟩ := represents.leads_circulation foundToo demands options watch
    rw [leads.outcome, leadsToo.outcome]

/-- A copy that succeeds is a clone. -/
theorem exists_clones (represents : pool.Represents networks)
    (framed : pool.frames[number]? = some frame) {clone : Nat}
    (copied : (copy number).outcome pool = .ok clone) :
    ∃ twin, pool.Clones ((copy number).after pool) number clone frame twin ∧
      ((copy number).after pool).AnswersAlike number clone := by
  obtain ⟨network, found, rfl, -, leads⟩ := represents.exists_copied copied
  have below : number < networks.size := (Array.getElem?_eq_some_iff.mp found).1
  have foundToo : (networks.push network)[number]? = some network :=
    (getElem?_push_of_lt below).trans found
  have last : (networks.push network)[networks.size]? = some network := Array.getElem?_push_size
  have after := leads.represents
  have keeps := represents.keeps_of_leads framed leads fun _ => getElem?_push_of_lt
  obtain ⟨twin, framedToo, stores⟩ := after.exists_frame last
  have original := after.stores _ _ _ keeps.framed foundToo
  have wellFormed := represents.wellFormed _ _ found
  have different : networks.size ≠ number := Nat.ne_of_gt below
  refine ⟨twin, ⟨keeps, framedToo, different, fun reference member memberToo => ?_, ?_, ?_⟩,
    after.answersAlike foundToo last⟩
  · exact different (after.disjoint _ _ _ _ _ framedToo keeps.framed member memberToo)
  · rw [stores.objects, original.objects]
  · rw [stores.network_eq wellFormed, original.network_eq wellFormed]

end Pool.Represents

/-- A network is copied when its loads are sound. -/
theorem Pool.Sound.exists_copy {pool : Pool Number} {networks : Array (Network Number)}
    (sound : pool.Sound) (represents : pool.Represents networks) {number : Nat} {frame : Frame}
    (framed : pool.frames[number]? = some frame) :
    ∃ clone, (copy number).outcome pool = .ok clone := by
  obtain ⟨network, found, stores⟩ := represents.exists_network framed
  have wellFormed := represents.wellFormed _ _ found
  have loads := sound.network frame
  rw [stores.network_eq wellFormed] at loads
  obtain ⟨outcome, last, leads, separate⟩ := represents.leads_copy found
  rw [loads.copied wellFormed] at separate
  cases outcome with
  | error fault => cases separate
  | ok value => exact ⟨networks.size, leads.outcome⟩

/-- After any operations a copy that succeeds is a faithful clone, and it succeeds after regular
operations. Whatever is done that is not on one of the two, on the other one for instance,
leaves it as it is. -/
theorem Pool.copy_faithful (operations : List (Operation Number)) {number : Nat} {frame : Frame}
    (framed : (run operations).frames[number]? = some frame) :
    ((∀ operation ∈ operations, operation.Regular) →
      ∃ clone, (copy number).outcome (run operations) = .ok clone) ∧
    ∀ clone, (copy number).outcome (run operations) = .ok clone →
      let after := (copy number).after (run operations)
      ∃ twin, (run operations).Clones after number clone frame twin ∧
        after.AnswersAlike number clone ∧
        ∀ later : List (Operation Number),
          ((∀ operation ∈ later, ¬operation.On number frame) →
            after.Keeps (later.foldl Operation.after after) number frame) ∧
          ((∀ operation ∈ later, ¬operation.On clone twin) →
            after.Keeps (later.foldl Operation.after after) clone twin) := by
  obtain ⟨networks, represents⟩ := exists_run operations
  constructor
  · intro regular
    exact (run_sound operations regular).exists_copy represents framed
  · intro clone copied after
    obtain ⟨twin, clones, alike⟩ := represents.exists_clones framed copied
    obtain ⟨networksToo, next⟩ := represents.exists_copy number
    exact ⟨twin, clones, alike, fun later =>
      ⟨next.keeps_foldl clones.original.framed, next.keeps_foldl clones.framed⟩⟩

namespace Pool

/-- The edges of a network were made apart, added and folded, and one more vertex was added
between them. Then the network was wired and solved. -/
def worn : List (Operation Number) :=
  [.create 2, .makeEdge 0 1 ⟨.int 5, .int 2, .int 1, .int 7⟩ (-1), .insertEdge 0 0, .addVertex 0,
    .addEdge 0 1 2 (.int 4) (.int 0),
    .reduceLowerBounds 0 [.int (-3), .int 0, .int 3] (.int 0),
    .buildCirculation 0 (.dense [.int (-1), .int (-2), .int 3]) (.int 0),
    .warmMaxFlow 0 3 4 .usual .idle]

/-- More vertices, other flows and no flows at all on the network that was copied. -/
def wear : List (Operation Number) :=
  [.addVertex 0, .push 0 1 (.int 1), .maxFlow 0 0 2 .usual .idle, .resetFlows 0]

theorem copy_faithful_worn :
    ∃ frame twin, (run worn).frames[0]? = some frame ∧ frame.edges = #[0, 1, 2, 3, 4] ∧
      (copy 0).outcome (run worn) = .ok 1 ∧
      let after := (copy 0).after (run worn)
      (run worn).Clones after 0 1 frame twin ∧ after.AnswersAlike 0 1 ∧
        after.Keeps (wear.foldl Operation.after after) 1 twin := by
  obtain ⟨frame, framed⟩ : ∃ frame, (run worn).frames[0]? = some frame :=
    Option.isSome_iff_exists.mp (by decide +kernel)
  have edges : (run worn).frames[0]?.map Frame.edges = some #[0, 1, 2, 3, 4] := by decide +kernel
  rw [framed, Option.map_some, Option.some.injEq] at edges
  have folds : Load.Foldable ⟨.int 5, .int 2, .int 1, .int 7⟩ :=
    .inr ⟨trivial, trivial, .int 9, rfl⟩
  have regular : ∀ operation ∈ worn, operation.Regular := by
    simp [worn, Operation.Regular, folds, Number.InFormat]
  obtain ⟨succeeds, faithful⟩ := copy_faithful worn framed
  obtain ⟨clone, copied⟩ := succeeds regular
  obtain rfl : clone = 1 := by
    have first : (copy 0).outcome (run worn) = .ok 1 := by decide +kernel
    exact Except.ok.inj (copied.symm.trans first)
  obtain ⟨twin, clones, alike, independent⟩ := faithful 1 copied
  refine ⟨frame, twin, framed, edges, copied, clones, alike, (independent wear).2 ?_⟩
  have own : 0 ∉ twin.edges := fun member => clones.apart 0 member (by simp [edges])
  simp [wear, Operation.On, own]

/-- The lower bound is a binary64 number and the offset an integer beyond the binary64 range,
so the lower bound cannot be added to the offset. -/
def overflowing : List (Operation Number) :=
  [.create 2,
    .makeEdge 0 1 ⟨.int 5, .real (.finite false (4 * Binary64.unitsPerOne)), .int 0,
      .int (10 ^ 400)⟩ (-1),
    .insertEdge 0 0]

/-- A reduction that fails between the capacity and the lower bound leaves them out of order,
and the network is not copied any more. -/
theorem copy_refused_overflowing :
    (copy 0).outcome (run overflowing) = .ok 1 ∧
    ((reduceLowerBounds 0 [.int 0, .int 0] (.int 0)).outcome (run overflowing)).map
      Reduction.balanced = .error (.overflow .conversion) ∧
    (copy 0).outcome (run (overflowing ++ [.reduceLowerBounds 0 [.int 0, .int 0] (.int 0)])) =
      .error (.structural (.lowerAboveCapacity 0 1
        (.real (.finite false Binary64.unitsPerOne))
        (.real (.finite false (4 * Binary64.unitsPerOne))))) := by
  decide +kernel

end Pool
end NetworkFlow
