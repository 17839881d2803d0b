/-
This file follows a run by a chain of exact augmentations.
An invariant of the chain keeps the arithmetic of the run exact.
-/
import NetworkFlow.Proofs.Residual.Bound

namespace NetworkFlow

open Quantity ExactQuantity Network

/-- The sum of the amounts of a chain. -/
def amountOf (steps : List (List Arc × Rat)) : Rat :=
  (steps.map Prod.snd).sum

@[simp] theorem amountOf_nil : amountOf [] = 0 := by
  simp [amountOf]

@[simp] theorem amountOf_cons (step : List Arc × Rat) (rest : List (List Arc × Rat)) :
    amountOf (step :: rest) = step.2 + amountOf rest := rfl

/-- An invariant of a network and a total keeps the arithmetic exact
when the rooms and the total fit, and every augmentation keeps it. -/
structure KeepsExact (α : Type) [Quantity α] [ExactQuantity α] (bound : Rat) (source sink : Nat)
    (invariant : Network Rat → Rat → Prop) : Prop where
  rooms : ∀ {network total}, invariant network total → network.RoomFits α
  total : ∀ {network total}, invariant network total → Fits α total
  step : ∀ {network total arcs amount}, invariant network total →
    Augments bound source sink network arcs amount →
    invariant (network.shifted amount arcs) (total + amount)

/-- An invariant of a network, an exact total and the total of a run keeps the run going
when the rooms fit, and the amount of every augmentation can be added and keeps it. -/
structure KeepsGoing (α : Type) [Quantity α] [ExactQuantity α] (bound : Rat) (source sink : Nat)
    (invariant : Network Rat → Rat → α → Prop) : Prop where
  rooms : ∀ {network sum total}, invariant network sum total → network.RoomFits α
  step : ∀ {network sum total arcs value amount}, invariant network sum total →
    Augments bound source sink network arcs value → value? amount = some value →
    ∃ after, add total amount = .ok after ∧
      invariant (network.shifted value arcs) (sum + value) after

/-- In rational arithmetic nothing has to be kept. -/
theorem keepsExact_rat (bound : Rat) (source sink : Nat) :
    KeepsExact Rat bound source sink fun _ _ => True :=
  ⟨fun _ => roomFits_rat _, fun _ => trivial, fun _ _ => trivial⟩

/-- The amount of an augmentation fits because it is the room of an edge. -/
theorem Augments.fits_amount {α : Type} [Quantity α] [ExactQuantity α] {bound amount : Rat}
    {source sink : Nat} {network : Network Rat} {arcs : List Arc}
    (augments : Augments bound source sink network arcs amount) (fits : network.RoomFits α) :
    Fits α amount := by
  obtain ⟨arc, member, equal⟩ := augments.tight
  obtain ⟨edge, stands, -⟩ := augments.shortest.crossed arc member
  have rooms := fits edge (Array.mem_of_getElem? stands)
  rw [equal, arcSpace_eq stands, Load.space]
  split
  · exact rooms.rest
  · exact rooms.flow

/-- Totals that fit are added exactly. -/
theorem KeepsExact.keepsGoing {α : Type} [Quantity α] [ExactQuantity α] {bound : Rat}
    {source sink : Nat} {invariant : Network Rat → Rat → Prop}
    (keeps : KeepsExact α bound source sink invariant) :
    KeepsGoing α bound source sink fun network sum total =>
      invariant network sum ∧ value? total = some sum := by
  refine ⟨fun holds => keeps.rooms holds.1, ?_⟩
  rintro network sum total arcs value amount ⟨holds, totals⟩ augments amounts
  have after := keeps.step holds augments
  obtain ⟨totalAfter, added, known⟩ := exact_add totals amounts (keeps.total holds)
    (augments.fits_amount (keeps.rooms holds)) (keeps.total after)
  exact ⟨totalAfter, added, after, known⟩

namespace MaxFlow

variable {α : Type} [Quantity α] [ExactQuantity α]

/-- An augmentation of a run follows a step of a chain. -/
def Augmentation.Follows (augmentation : Augmentation α) (step : List Arc × Rat) : Prop :=
  augmentation.arcs = step.1 ∧ value? augmentation.bottleneck = some step.2

/-- A run follows a chain when its augmentations do, one after the other. -/
structure Run.Follows (run : Run α) (bound : Rat) (source sink : Nat) (exact : Network Rat)
    (steps : List (List Arc × Rat)) (last : Network Rat) : Prop where
  chain : Chain bound source sink exact steps last
  network : run.network.StandsFor last
  augmentations : List.Forall₂ Augmentation.Follows run.augmentations steps

/-- A run ended by itself when its last search did not reach the sink. -/
structure Run.Ended (run : Run α) (bound : Rat) (source sink : Nat) (last : Network Rat) :
    Prop where
  noFault : run.fault = none
  found : run.finder.Found run.network last bound source
  unreached : ¬run.finder.tree.isMarked sink

/-- The total after the augmentations of a run that started with a total. -/
def Run.totalFrom (run : Run α) (total : α) : α :=
  (run.augmentations.getLast?.map Augmentation.total).getD total

variable {bound : Rat} {source sink : Nat} {invariant : Network Rat → Rat → Prop}

/-- The loop follows a chain while it can add up the amounts.
It ends by itself, is halted by its watch, or runs out of fuel. -/
theorem augmentAll_goes {invariant : Network Rat → Rat → α → Prop} (watch : Watch α)
    (keeps : KeepsGoing α bound source sink invariant) (differ : source ≠ sink) :
    ∀ (fuel count : Nat) {network : Network α} {exact : Network Rat} {total : α} {sum : Rat}
      {finder : Finder α}, network.StandsFor exact → network.WellFormed →
      value? finder.tolerance = some bound → source < exact.vertexCount →
      sink < exact.vertexCount → invariant exact sum total →
      ∃ steps last, (augmentAll watch source sink fuel count total network finder).Follows
          bound source sink exact steps last ∧
        invariant last (sum + amountOf steps)
          ((augmentAll watch source sink fuel count total network finder).totalFrom total) ∧
        ((augmentAll watch source sink fuel count total network finder).Ended bound source sink
            last ∨
          (∃ number report, (augmentAll watch source sink fuel count total network finder).fault =
            some (.halted number) ∧ watch.halts report) ∨
          (augmentAll watch source sink fuel count total network finder).fault =
            some .unfinished ∧ steps.length = fuel) := by
  intro fuel
  induction fuel with
  | zero =>
    intro count network exact total sum finder standsFor _ _ _ _ holds
    refine ⟨[], exact, ⟨.stop exact, standsFor, .nil⟩, ?_, Or.inr (Or.inr ⟨rfl, rfl⟩)⟩
    simpa [augmentAll, Run.totalFrom] using holds
  | succ fuel inductionHypothesis =>
    intro count network exact total sum finder standsFor wellFormed tolerances sourceInside
      sinkInside holds
    rcases exact_attempt finder standsFor (keeps.rooms holds) wellFormed tolerances sourceInside
      sinkInside differ total with
      ⟨next, attempted, -, found, unreached⟩ | ⟨arcs, value, amount, augments, known, effect⟩
    · simp only [augmentAll, attempted]
      refine ⟨[], exact, ⟨.stop exact, standsFor, .nil⟩, ?_, Or.inl ⟨rfl, found, unreached⟩⟩
      simpa [Run.totalFrom] using holds
    · obtain ⟨totalAfter, added, after⟩ := keeps.step holds augments known
      obtain ⟨pushed, next, stands, tolerance, augmented⟩ :=
        effect (augments.fits_amount (keeps.rooms holds))
          (fun edge member => (keeps.rooms after edge member).flow)
      simp only [augmentAll, augmented totalAfter added]
      by_cases halted : (isReported watch (count + 1) && watch.halts
          (Augmentation.report ⟨arcs, amount, totalAfter⟩ (count + 1))) = true
      · rw [if_pos halted]
        refine ⟨[(arcs, value)], _, ⟨.step augments (.stop _), stands, .cons ⟨rfl, known⟩ .nil⟩,
          by simpa [Run.totalFrom] using after, ?_⟩
        exact Or.inr (Or.inl ⟨_, _, rfl, (Bool.and_eq_true_iff.mp halted).2⟩)
      · rw [if_neg halted]
        have wellFormedAfter : pushed.WellFormed := wellFormed.ofSameShape
          ((standsFor.shape.trans (sameShape_shifted exact value arcs)).trans stands.shape.symm)
        obtain ⟨steps, last, follows, kept, ending⟩ := inductionHypothesis (count + 1)
          stands wellFormedAfter (tolerance ▸ tolerances) sourceInside sinkInside after
        refine ⟨(arcs, value) :: steps, last, ⟨.step augments follows.chain, follows.network,
          .cons ⟨rfl, known⟩ follows.augmentations⟩, ?_, ?_⟩
        · rw [amountOf_cons, ← add_assoc]
          simp only [Run.totalFrom, List.getLast?_cons] at kept ⊢
          cases ended : List.getLast? _ with
          | none => rwa [ended] at kept
          | some augmentation => rwa [ended] at kept
        · rcases ending with ended | halted | ⟨unfinished, length⟩
          · exact Or.inl ⟨ended.noFault, ended.found, ended.unreached⟩
          · exact Or.inr (Or.inl halted)
          · exact Or.inr (Or.inr ⟨unfinished, by rw [List.length_cons, length]⟩)

/-- The loop follows a chain. It ends by itself, is halted by its watch, or runs out of fuel. -/
theorem augmentAll_follows (watch : Watch α) (keeps : KeepsExact α bound source sink invariant)
    (differ : source ≠ sink) (fuel count : Nat) {network : Network α} {exact : Network Rat}
    {total : α} {sum : Rat} {finder : Finder α} (standsFor : network.StandsFor exact)
    (wellFormed : network.WellFormed) (tolerances : value? finder.tolerance = some bound)
    (sourceInside : source < exact.vertexCount) (sinkInside : sink < exact.vertexCount)
    (totals : value? total = some sum) (holds : invariant exact sum) :
    ∃ steps last, (augmentAll watch source sink fuel count total network finder).Follows
        bound source sink exact steps last ∧
      invariant last (sum + amountOf steps) ∧
      value? ((augmentAll watch source sink fuel count total network finder).totalFrom total) =
        some (sum + amountOf steps) ∧
      ((augmentAll watch source sink fuel count total network finder).Ended bound source sink
          last ∨
        (∃ number report, (augmentAll watch source sink fuel count total network finder).fault =
          some (.halted number) ∧ watch.halts report) ∨
        (augmentAll watch source sink fuel count total network finder).fault =
          some .unfinished ∧ steps.length = fuel) := by
  obtain ⟨steps, last, follows, ⟨kept, known⟩, ending⟩ := augmentAll_goes watch keeps.keepsGoing
    differ fuel count standsFor wellFormed tolerances sourceInside sinkInside ⟨holds, totals⟩
  exact ⟨steps, last, follows, kept, known, ending⟩

/-- A run that can add up the amounts follows a chain and does not run out of fuel. -/
theorem run_goes {invariant : Network Rat → Rat → α → Prop} (watch : Watch α)
    (keeps : KeepsGoing α bound source sink invariant) (differ : source ≠ sink)
    (nonneg : 0 ≤ bound) {network : Network α} {exact : Network Rat} {tolerance : α}
    (standsFor : network.StandsFor exact) (wellFormed : network.WellFormed)
    (tolerances : value? tolerance = some bound) (sourceInside : source < exact.vertexCount)
    (sinkInside : sink < exact.vertexCount) (holds : invariant exact 0 zero) :
    ∃ steps last,
      (run network source sink tolerance watch).Follows bound source sink exact steps last ∧
      invariant last (amountOf steps) (run network source sink tolerance watch).total ∧
      ((run network source sink tolerance watch).Ended bound source sink last ∨
        ∃ number report, (run network source sink tolerance watch).fault =
          some (.halted number) ∧ watch.halts report) := by
  have created : value? (Finder.create network tolerance).tolerance = some bound := tolerances
  obtain ⟨steps, last, follows, kept, ending⟩ := augmentAll_goes watch keeps differ
    (enoughFuel network) 0 standsFor wellFormed created sourceInside sinkInside holds
  rw [zero_add] at kept
  refine ⟨steps, last, follows, kept, ?_⟩
  rcases ending with ended | halted | ⟨-, length⟩
  · exact Or.inl ended
  · exact Or.inr halted
  · have short := follows.chain.length_le nonneg (standsFor.wellFormed wellFormed)
    rw [length, enoughFuel, standsFor.shape.vertexCount, standsFor.shape.edgeCount] at short
    omega

/-- A run follows a chain and does not run out of fuel. -/
theorem run_follows (watch : Watch α) (keeps : KeepsExact α bound source sink invariant)
    (differ : source ≠ sink) (nonneg : 0 ≤ bound) {network : Network α} {exact : Network Rat}
    {tolerance : α} (standsFor : network.StandsFor exact) (wellFormed : network.WellFormed)
    (tolerances : value? tolerance = some bound) (sourceInside : source < exact.vertexCount)
    (sinkInside : sink < exact.vertexCount) (holds : invariant exact 0) :
    ∃ steps last,
      (run network source sink tolerance watch).Follows bound source sink exact steps last ∧
      invariant last (amountOf steps) ∧
      value? (run network source sink tolerance watch).total = some (amountOf steps) ∧
      ((run network source sink tolerance watch).Ended bound source sink last ∨
        ∃ number report, (run network source sink tolerance watch).fault =
          some (.halted number) ∧ watch.halts report) := by
  obtain ⟨steps, last, follows, ⟨kept, known⟩, ending⟩ := run_goes watch keeps.keepsGoing differ
    nonneg standsFor wellFormed tolerances sourceInside sinkInside ⟨holds, value?_zero⟩
  exact ⟨steps, last, follows, kept, known, ending⟩

end MaxFlow
end NetworkFlow
