import NetworkFlow.Proofs.Network.Bounds
import NetworkFlow.Proofs.Pool.Revision

namespace NetworkFlow

open Quantity Network

variable {β γ : Type}

/-- A sound pool has sound loads on the edges inside the networks and outside of them. -/
def Pool.Sound (pool : Pool Number) : Prop :=
  ∀ object ∈ pool.objects, object.toLoad.Sound

namespace Pool.Sound

variable {pool : Pool Number}

/-- Every network of a sound pool is sound. -/
theorem network (sound : pool.Sound) (frame : Frame) : (frame.network pool.objects).Sound := by
  intro edge member
  obtain ⟨reference, -, placed⟩ := Array.mem_filterMap.mp member
  obtain ⟨object, found, rfl⟩ := Option.map_eq_some_iff.mp placed
  exact sound object (Array.mem_of_getElem? found)

theorem push (sound : pool.Sound) {object : LooseEdge Number} (added : object.toLoad.Sound)
    (frames : Array Frame) : Sound ⟨pool.objects.push object, frames⟩ := by
  intro other member
  rcases Array.mem_push.mp member with old | rfl
  · exact sound other old
  · exact added

theorem set (sound : pool.Sound) (reference : Nat) (object : LooseEdge Number)
    (written : object.toLoad.Sound) (frames : Array Frame) :
    Sound ⟨pool.objects.setIfInBounds reference object, frames⟩ := by
  intro other member
  rcases Array.mem_or_eq_of_mem_setIfInBounds member with old | rfl
  · exact sound other old
  · exact written

/-- Edges of sound loads may be written. -/
theorem write (sound : pool.Sound) {edges : List (Nat × Edge Number)}
    (written : ∀ entry ∈ edges, entry.2.toLoad.Sound) :
    ∀ object ∈ Pool.write pool.objects edges, object.toLoad.Sound := by
  induction edges generalizing pool with
  | nil => exact sound
  | cons entry rest inductionHypothesis =>
    have first := sound.set entry.1 entry.2.loose (written entry (by simp)) pool.frames
    exact inductionHypothesis first fun other member => written other (by simp [member])

/-- A sound network may be written over a frame. -/
theorem replace (sound : pool.Sound) (number : Nat) (frame : Frame) {network : Network Number}
    (written : network.Sound) : (pool.replace number frame network).Sound := by
  intro object member
  rcases Array.mem_append.mp member with old | new
  · refine sound.write (fun entry listed => ?_) object old
    exact written entry.2 (Array.mem_toList_iff.mp (List.of_mem_zip listed).2)
  · obtain ⟨edge, listed, rfl⟩ := List.mem_map.mp (List.mem_toArray.mp new)
    exact written edge (Array.mem_toList_iff.mp (List.mem_of_mem_drop listed))

end Pool.Sound

/-! ## Actions -/

/-- An action keeps every pool sound, also when it fails, and gives values with a property. -/
def Pooled.KeepsSoundGiving (action : Pooled Number β) (gives : β → Prop) : Prop :=
  ∀ pool : Pool Number, pool.Sound → (action.after pool).Sound ∧
    ∀ value, action.outcome pool = .ok value → gives value

/-- An action keeps every pool sound, whatever it gives. -/
abbrev Pooled.KeepsSound (action : Pooled Number β) : Prop :=
  action.KeepsSoundGiving fun _ => True

namespace Pooled

variable {gives : β → Prop} {gets : γ → Prop}

theorem keepsSound_of_after {action : Pooled Number β}
    (keeps : ∀ pool : Pool Number, pool.Sound → (action.after pool).Sound) : action.KeepsSound :=
  fun pool sound => ⟨keeps pool sound, fun _ _ => trivial⟩

theorem keepsSound_pure (value : β) : (pure value : Pooled Number β).KeepsSound :=
  keepsSound_of_after fun _ => id

theorem keepsSound_lift (outcome : Except (Fault Number) β) :
    (liftM outcome : Pooled Number β).KeepsSoundGiving fun value => outcome = .ok value := by
  intro pool sound
  rw [after, Pooled.outcome, perform_lift]
  exact ⟨sound, fun _ => id⟩

/-- The second of two actions starts from what the first one leaves and gives. -/
theorem KeepsSoundGiving.bind {first : Pooled Number β} {next : β → Pooled Number γ}
    (keeps : first.KeepsSoundGiving gives)
    (rest : ∀ value, gives value → (next value).KeepsSoundGiving gets) :
    (first >>= next : Pooled Number γ).KeepsSoundGiving gets := by
  intro pool sound
  obtain ⟨kept, given⟩ := keeps pool sound
  rw [after, outcome] at *
  rw [perform_bind]
  cases performs : first.perform pool with
  | mk outcome left =>
    rw [performs] at kept given
    cases outcome with
    | error fault => exact ⟨kept, fun _ same => absurd same (by simp)⟩
    | ok value => exact rest value (given value rfl) left kept

/-- An action on every member of a list keeps what it keeps on each of them. -/
theorem keepsSound_forM {action : γ → Pooled Number PUnit}
    (each : ∀ member, (action member).KeepsSound) (members : List γ) :
    (members.forM action).KeepsSound := by
  induction members with
  | nil => exact keepsSound_pure _
  | cons member rest inductionHypothesis =>
    exact (each member).bind fun _ _ => inductionHypothesis

end Pooled

namespace Pool

open Pooled

variable {number reference : Nat}

theorem keepsSound_frameAt : (frameAt number : Pooled Number Frame).KeepsSound := by
  refine keepsSound_of_after fun pool sound => ?_
  cases framed : pool.frames[number]? with
  | none => rwa [after, perform_frameAt_none framed]
  | some frame => rwa [after, perform_frameAt framed]

theorem keepsSound_networkAt : (networkAt number : Pooled Number (Network Number)).KeepsSound := by
  refine keepsSound_of_after fun pool sound => ?_
  cases framed : pool.frames[number]? with
  | none => rwa [after, perform_networkAt_none framed]
  | some frame => rwa [after, perform_networkAt framed]

/-- An edge that is read has a sound load. -/
theorem keepsSound_objectAt :
    (objectAt reference).KeepsSoundGiving fun object : LooseEdge Number => object.toLoad.Sound := by
  intro pool sound
  cases listed : pool.objects[reference]? with
  | none =>
    rw [after, outcome, perform_objectAt_none listed]
    exact ⟨sound, fun _ same => absurd same (by simp)⟩
  | some object =>
    rw [after, outcome, perform_objectAt listed]
    refine ⟨sound, fun value same => ?_⟩
    rw [← Except.ok.inj same]
    exact sound object (Array.mem_of_getElem? listed)

theorem keepsSound_setFrame (frame : Frame) :
    (setFrame number frame : Pooled Number Unit).KeepsSound :=
  keepsSound_of_after fun _ => id

theorem keepsSound_addFrame (vertexCount : Nat) :
    (addFrame vertexCount : Pooled Number Nat).KeepsSound :=
  keepsSound_of_after fun _ => id

theorem keepsSound_setObject {object : LooseEdge Number} (written : object.toLoad.Sound) :
    (setObject reference object).KeepsSound :=
  keepsSound_of_after fun pool sound => sound.set reference object written pool.frames

/-- An operation that keeps networks sound may run in place. -/
theorem keepsSound_revise
    {operation : Network Number → Network Number × Except (Fault Number) β}
    (keeps : ∀ network : Network Number, network.Sound → (operation network).1.Sound) :
    (revise number operation).KeepsSound := by
  refine keepsSound_of_after fun pool sound => ?_
  cases framed : pool.frames[number]? with
  | none => rwa [after, perform_revise_none framed]
  | some frame =>
    rw [after, perform_revise framed]
    exact sound.replace number frame (keeps _ (sound.network frame))

/-- An edge is made with a sound load when its lower bound can be folded. -/
theorem keepsSound_makeEdge {tail head : Int} {load : Load Number} (index : Int)
    (foldable : load.check tail head = .ok () → load.Foldable) :
    (makeEdge tail head load index).KeepsSound := by
  refine keepsSound_of_after fun pool sound => ?_
  rw [after, perform_makeEdge]
  cases created : LooseEdge.create tail head load index with
  | error fault => exact sound
  | ok object =>
    obtain ⟨⟨⟩, checked, made⟩ := ok_of_bind created
    rw [← Except.ok.inj made]
    exact sound.push (.of_check checked (foldable checked)) pool.frames

theorem keepsSound_insertEdge : (insertEdge number reference : Pooled Number Unit).KeepsSound := by
  refine keepsSound_of_after fun pool sound => ?_
  cases framed : pool.frames[number]? with
  | none => rwa [insertEdge, after_networkAt_bind framed]
  | some frame =>
    cases listed : pool.objects[reference]? with
    | none => rwa [after_insertEdge_none listed]
    | some object =>
      rw [after, perform_insertEdge framed listed]
      split
      · exact sound
      · exact sound.set reference { object with index := frame.edges.size }
          (sound object (Array.mem_of_getElem? listed)) _

/-- A new edge has a sound load, because it has no offset. -/
theorem keepsSound_addEdge (tail head : Int) {capacity lower : Number}
    (capacities : capacity.InFormat) (lowers : lower.InFormat) :
    (addEdge number tail head capacity lower).KeepsSound := by
  refine keepsSound_networkAt.bind fun network _ => ?_
  refine (keepsSound_lift _).bind fun _ _ => (keepsSound_lift _).bind fun _ _ => ?_
  refine (keepsSound_makeEdge (-1) fun checked => ?_).bind fun reference _ => ?_
  · exact Load.foldable_fresh capacities lowers (Load.check_eq_ok.mp checked).2.1.1
  · exact keepsSound_insertEdge.bind fun _ _ => keepsSound_pure _

theorem keepsSound_push (vertex : Int) (amount : Number) :
    (push reference vertex amount).KeepsSound := by
  refine keepsSound_objectAt.bind fun object sound => ?_
  refine (keepsSound_lift _).bind fun load pushed => ?_
  exact keepsSound_setObject (sound.of_cleared (Load.push_cleared pushed))

/-- The copy of a sound edge is sound. -/
theorem keepsSound_copyEdge (clone : Nat) :
    (copyEdge clone reference : Pooled Number Unit).KeepsSound :=
  keepsSound_objectAt.bind fun _ sound =>
    (keepsSound_makeEdge (-1) fun _ => sound.foldable).bind fun _ _ => keepsSound_insertEdge

theorem keepsSound_copy : (copy number : Pooled Number Nat).KeepsSound :=
  keepsSound_frameAt.bind fun _ _ => (keepsSound_addFrame _).bind fun clone _ =>
    (keepsSound_forM (fun _ => keepsSound_copyEdge clone) _).bind fun _ _ => keepsSound_pure _

theorem keepsSound_reduceLowerBounds (demands : List Number) (tolerance : Number) :
    (reduceLowerBounds number demands tolerance).KeepsSound :=
  keepsSound_revise fun _ sound => sound.reduceLowerBounds demands tolerance

theorem keepsSound_buildCirculation (demands : Demands Number) (tolerance : Number) :
    (buildCirculation number demands tolerance).KeepsSound :=
  keepsSound_revise fun _ sound => sound.buildCirculation demands tolerance

theorem keepsSound_resetFlows : (resetFlows number : Pooled Number Unit).KeepsSound :=
  keepsSound_revise fun _ sound => sound.resetFlows

theorem keepsSound_maxFlow (source sink : Int) (options : Options Number) (watch : Watch Number) :
    (maxFlow number source sink options watch).KeepsSound := by
  rw [maxFlow_eq]
  exact keepsSound_revise fun network sound =>
    sound.of_resetFlows (MaxFlow.resetFlows_solve network source sink options watch)

theorem keepsSound_warmMaxFlow (source sink : Int) (options : Options Number)
    (watch : Watch Number) :
    (warmMaxFlow number source sink options watch).KeepsSound := by
  rw [warmMaxFlow_eq]
  exact keepsSound_revise fun network sound =>
    sound.of_resetFlows (MaxFlow.resetFlows_solveWarm network source sink options watch)

theorem keepsSound_solveWired (edgeCount : Nat) (reduction : Reduction Number)
    (wiring : Wiring Number) (options : Options Number) (watch : Watch Number) :
    (solveWired number edgeCount reduction wiring options watch).KeepsSound := by
  refine (keepsSound_warmMaxFlow _ _ options watch).bind fun flow _ => ?_
  refine (keepsSound_lift _).bind fun feasible _ => keepsSound_networkAt.bind fun solved _ => ?_
  exact (keepsSound_lift _).bind fun flows _ => keepsSound_pure _

theorem keepsSound_solveWorking (edgeCount : Nat) (vector : List Number)
    (options : Options Number) (watch : Watch Number) :
    (solveWorking number edgeCount vector options watch).KeepsSound := by
  refine keepsSound_resetFlows.bind fun _ _ => ?_
  refine (keepsSound_reduceLowerBounds vector options.tolerance).bind fun reduction _ => ?_
  dsimp only
  split
  · exact (keepsSound_buildCirculation _ _).bind fun wiring _ =>
      keepsSound_solveWired edgeCount reduction wiring options watch
  · exact keepsSound_networkAt.bind fun _ _ => keepsSound_pure _

theorem keepsSound_circulation (demands : Demands Number) (options : Options Number)
    (watch : Watch Number) :
    (circulation number demands options watch).KeepsSound :=
  keepsSound_networkAt.bind fun network _ => (keepsSound_lift _).bind fun vector _ =>
    keepsSound_copy.bind fun _ _ =>
      keepsSound_solveWorking network.edgeCount vector options watch

theorem keepsSound_matching (left right : Int) (pairs : List (Int × Int))
    (options : Options Number) :
    (matching left right pairs options).KeepsSound := by
  refine (keepsSound_lift _).bind fun built made => ?_
  have added : (addNetwork built.network).KeepsSound :=
    (keepsSound_addFrame 0).bind fun _ _ =>
      (keepsSound_revise fun _ _ => sound_of_build made).bind fun _ _ => keepsSound_pure _
  exact added.bind fun _ _ => (keepsSound_warmMaxFlow _ _ options .idle).bind fun _ _ =>
    keepsSound_networkAt.bind fun _ _ => keepsSound_pure _

end Pool

/-! ## Operations -/

/-- An operation is regular unless the lower bound of an edge that it makes cannot be folded. -/
def Operation.Regular : Operation Number → Prop
  | .makeEdge _ _ load _ => load.Foldable
  | .addEdge _ _ _ capacity lower => capacity.InFormat ∧ lower.InFormat
  | _ => True

/-- A regular operation keeps every pool sound. -/
theorem Pool.Sound.after {pool : Pool Number} (sound : pool.Sound) {operation : Operation Number}
    (regular : operation.Regular) : (operation.after pool).Sound := by
  cases operation with
  | create vertexCount =>
    exact (((Pooled.keepsSound_lift _).bind fun blank _ =>
      keepsSound_addFrame _ : (Pool.create vertexCount).KeepsSound) pool sound).1
  | addVertex number =>
    exact ((keepsSound_frameAt.bind fun frame _ => keepsSound_setFrame frame.addVertex :
      (Pool.addVertex number).KeepsSound) pool sound).1
  | makeEdge tail head load index =>
    exact (keepsSound_makeEdge index (fun _ => regular) pool sound).1
  | addEdge number tail head capacity lower =>
    exact (keepsSound_addEdge tail head regular.1 regular.2 pool sound).1
  | insertEdge number reference => exact (keepsSound_insertEdge pool sound).1
  | push reference vertex amount => exact (keepsSound_push vertex amount pool sound).1
  | copy number => exact (keepsSound_copy pool sound).1
  | resetFlows number => exact (keepsSound_resetFlows pool sound).1
  | reduceLowerBounds number demands tolerance =>
    exact (keepsSound_reduceLowerBounds demands tolerance pool sound).1
  | buildCirculation number demands tolerance =>
    exact (keepsSound_buildCirculation demands tolerance pool sound).1
  | maxFlow number source sink options watch =>
    exact (keepsSound_maxFlow source sink options watch pool sound).1
  | warmMaxFlow number source sink options watch =>
    exact (keepsSound_warmMaxFlow source sink options watch pool sound).1
  | circulation number demands options watch =>
    exact (keepsSound_circulation demands options watch pool sound).1
  | matching left right pairs options =>
    exact (keepsSound_matching left right pairs options pool sound).1

/-- Regular operations leave a sound pool, also when some of them fail. -/
theorem Pool.run_sound (operations : List (Operation Number))
    (regular : ∀ operation ∈ operations, operation.Regular) : (run operations).Sound := by
  induction operations using List.reverseRecOn with
  | nil => exact fun object member => absurd member (by simp [run, empty])
  | append_singleton earlier operation inductionHypothesis =>
    rw [run, List.foldl_append]
    exact (inductionHypothesis fun other member => regular other (by simp [member])).after
      (regular operation (by simp))

end NetworkFlow
