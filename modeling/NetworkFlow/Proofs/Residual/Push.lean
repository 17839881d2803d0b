import NetworkFlow.MaxFlow
import NetworkFlow.Proofs.Residual.Arc

namespace NetworkFlow

open Quantity ExactQuantity Network

/-- How often arcs cross an edge toward its head, less how often toward its tail. -/
def crossings {α : Type} : List Arc → Edge α → Rat
  | [], _ => 0
  | arc :: rest, edge =>
    (if arc.edge = edge.index then if arc.target = edge.head then 1 else -1 else 0) +
      crossings rest edge

/-- The network after an amount went along arcs. -/
def Network.shifted (network : Network Rat) (amount : Rat) (arcs : List Arc) : Network Rat :=
  network.mapLoads fun edge => { edge.toLoad with flow := edge.flow + amount * crossings arcs edge }

theorem crossings_of_place {α β : Type} {first : Edge α} {second : Edge β}
    (same : first.place = second.place) (arcs : List Arc) :
    crossings arcs first = crossings arcs second := by
  induction arcs with
  | nil => rfl
  | cons arc rest inductionHypothesis =>
    rw [crossings, crossings, inductionHypothesis, Edge.place_index same, Edge.place_head same]

@[simp] theorem crossings_withLoad {α : Type} (arcs : List Arc) (edge : Edge α) (load : Load α) :
    crossings arcs (edge.withLoad load) = crossings arcs edge :=
  crossings_of_place (show (edge.withLoad load).place = edge.place from rfl) arcs

theorem crossings_eq_zero {α : Type} {arcs : List Arc} {edge : Edge α}
    (absent : ∀ arc ∈ arcs, arc.edge ≠ edge.index) : crossings arcs edge = 0 := by
  induction arcs with
  | nil => rfl
  | cons arc rest inductionHypothesis =>
    rw [crossings, if_neg (absent arc (by simp)),
      inductionHypothesis fun other member => absent other (by simp [member]), zero_add]

/-- An edge that one arc crosses is crossed once. -/
theorem crossings_of_mem {α : Type} {arcs : List Arc} {edge : Edge α} {arc : Arc}
    (distinct : (arcs.map Arc.edge).Nodup) (member : arc ∈ arcs) (crosses : arc.edge = edge.index) :
    crossings arcs edge = if arc.target = edge.head then 1 else -1 := by
  induction arcs with
  | nil => exact absurd member List.not_mem_nil
  | cons first rest inductionHypothesis =>
    rw [List.map_cons, List.nodup_cons] at distinct
    rcases List.mem_cons.mp member with rfl | later
    · have others : crossings rest edge = 0 := by
        apply crossings_eq_zero
        intro other otherMember same
        exact distinct.1 (List.mem_map.mpr ⟨other, otherMember, same.trans crosses.symm⟩)
      rw [crossings, if_pos crosses, others, add_zero]
    · have different : first.edge ≠ edge.index := by
        intro same
        exact distinct.1 (List.mem_map.mpr ⟨arc, later, crosses.trans same.symm⟩)
      rw [crossings, if_neg different, zero_add, inductionHypothesis distinct.2 later]

section Shifted

variable {network : Network Rat} {amount : Rat} {arcs : List Arc}

theorem sameShape_shifted (network : Network Rat) (amount : Rat) (arcs : List Arc) :
    SameShape network (network.shifted amount arcs) :=
  sameShape_mapLoads network _

@[simp] theorem vertexCount_shifted (network : Network Rat) (amount : Rat) (arcs : List Arc) :
    (network.shifted amount arcs).vertexCount = network.vertexCount := rfl

theorem getElem?_shifted (network : Network Rat) (amount : Rat) (arcs : List Arc)
    (position : Nat) : (network.shifted amount arcs).edges[position]? =
      (network.edges[position]?).map fun edge =>
        edge.withLoad { edge.toLoad with flow := edge.flow + amount * crossings arcs edge } :=
  getElem?_mapLoads network _ position

theorem mem_shifted {edge : Edge Rat} : edge ∈ (network.shifted amount arcs).edges ↔
    ∃ old ∈ network.edges, old.withLoad
      { old.toLoad with flow := old.flow + amount * crossings arcs old } = edge :=
  mem_mapLoads

/-- Pushing along the first arc and then along the others pushes along all of them. -/
theorem shifted_cons (wellFormed : network.WellFormed) {arc : Arc} {edge : Edge Rat}
    (stands : network.edges[arc.edge]? = some edge) (amount : Rat) (arcs : List Arc) :
    (network.modifyLoad arc.edge fun load => load.pushed (arc.target = edge.head) amount).shifted
      amount arcs = network.shifted amount (arc :: arcs) := by
  have edges : ((network.modifyLoad arc.edge fun load =>
      load.pushed (arc.target = edge.head) amount).shifted amount arcs).edges =
        (network.shifted amount (arc :: arcs)).edges := by
    apply Array.ext_getElem?
    intro position
    rw [getElem?_shifted, getElem?_shifted]
    simp only [modifyLoad, Array.getElem?_modify]
    by_cases here : arc.edge = position
    · subst here
      have index := wellFormed.index_eq stands
      simp only [if_true, stands, Option.map_some, crossings, index, crossings_withLoad]
      refine congrArg some (congrArg edge.withLoad ?_)
      by_cases forward : arc.target = edge.head
      · simp only [Edge.withLoad, Load.pushed, forward, decide_true, if_true]
        ring_nf
      · simp only [Edge.withLoad, Load.pushed, forward, decide_false, Bool.false_eq_true, if_false]
        ring_nf
    · rw [if_neg here]
      cases found : network.edges[position]? with
      | none => rfl
      | some other =>
        have index := wellFormed.index_eq found
        have different : arc.edge ≠ other.index := index ▸ here
        simp only [Option.map_some, crossings, if_neg different, zero_add]
  exact congrArg (Network.mk network.adjacency) edges

end Shifted

/-- The flow on the edge of the first arc is final after the push along it. -/
theorem pushed_flow_eq {arc : Arc} {other : Edge Rat} {rest : List Arc}
    (index : other.index = arc.edge) (distinct : arc.edge ∉ rest.map Arc.edge) (value : Rat) :
    (other.toLoad.pushed (arc.target = other.head) value).flow =
      other.flow + value * crossings (arc :: rest) other := by
  have alone : crossings rest other = 0 := by
    apply crossings_eq_zero
    intro later member same
    exact distinct (List.mem_map.mpr ⟨later, member, same.trans index⟩)
  rw [crossings, if_pos index.symm, alone, add_zero, Load.pushed]
  by_cases forward : arc.target = other.head <;> simp [forward]

/-- A push along arcs with different edges is exact while the flows fit before and after. -/
theorem exact_pushAlong {α : Type} [Quantity α] [ExactQuantity α] {amount : α} {value : Rat}
    (amounts : value? amount = some value) (fitsAmount : Fits α value) {arcs : List Arc} :
    ∀ {network : Network α} {exact : Network Rat}, network.StandsFor exact →
      exact.WellFormed → (∀ arc ∈ arcs, arc.edge < exact.edgeCount) →
      (arcs.map Arc.edge).Nodup → (∀ edge ∈ exact.edges, Fits α edge.flow) →
      (∀ edge ∈ (exact.shifted value arcs).edges, Fits α edge.flow) →
      ∃ pushed, network.pushAlong amount arcs = (pushed, none) ∧
        pushed.StandsFor (exact.shifted value arcs) := by
  induction arcs with
  | nil =>
    intro network exact standsFor _ _ _ _ _
    refine ⟨network, rfl, ?_⟩
    have same : exact.shifted value [] = exact := by
      simp [shifted, mapLoads, crossings, Edge.withLoad]
    rwa [same]
  | cons arc rest inductionHypothesis =>
    intro network exact standsFor wellFormed inRange distinct before after
    have inside := inRange arc (by simp)
    obtain ⟨other, found⟩ : ∃ other, exact.edges[arc.edge]? = some other :=
      ⟨_, Array.getElem?_eq_getElem inside⟩
    obtain ⟨edge, stands, place, loads⟩ := standsFor.exactEdge found
    have index := wellFormed.index_eq found
    have shift := shifted_cons wellFormed found value rest
    rw [List.map_cons, List.nodup_cons] at distinct
    have fits := before other (Array.mem_of_getElem? found)
    have fitsAfter : Fits α (other.toLoad.pushed (arc.target = other.head) value).flow := by
      have flow := after _ (Array.mem_of_getElem?
        (show (exact.shifted value (arc :: rest)).edges[arc.edge]? = some _ by
          rw [getElem?_shifted, found, Option.map_some]))
      rw [pushed_flow_eq index distinct.1]
      exact flow
    have forward : decide (arc.target = edge.head) = decide (arc.target = other.head) := by
      rw [Edge.place_head place]
    obtain ⟨load, pushed, loaded⟩ := loads.push amounts fits fitsAmount _ fitsAfter
    have next : (network.modifyLoad arc.edge fun _ => load).StandsFor
        (exact.modifyLoad arc.edge fun old => old.pushed (arc.target = other.head) value) := by
      apply standsFor.modifyLoad
      intro one another _ same
      rw [found] at same
      rw [← Option.some.inj same]
      exact loaded
    have wellFormedNext := wellFormed.ofSameShape (sameShape_modifyLoad exact arc.edge
      fun old => old.pushed (arc.target = other.head) value)
    rw [← shift] at after
    obtain ⟨last, rests, lastStands⟩ := inductionHypothesis next wellFormedNext
      (fun later member => by simpa using inRange later (by simp [member])) distinct.2
      (by
        intro changed member
        obtain ⟨position, stands⟩ := Array.mem_iff_getElem?.mp member
        simp only [modifyLoad, Array.getElem?_modify] at stands
        by_cases here : arc.edge = position
        · subst here
          simp only [if_true, found, Option.map_some] at stands
          rw [← Option.some.inj stands]
          exact fitsAfter
        · rw [if_neg here] at stands
          exact before changed (Array.mem_of_getElem? stands))
      after
    refine ⟨last, ?_, shift ▸ lastStands⟩
    simp only [pushAlong, stands, forward, pushed]
    exact rests

end NetworkFlow
