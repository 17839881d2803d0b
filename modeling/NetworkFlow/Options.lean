import NetworkFlow.Quantity

namespace NetworkFlow

open Quantity

/-- A residual capacity that does not exceed the tolerance counts as saturated. -/
structure Options (α : Type) where
  tolerance : α
  recordPaths : Bool

namespace Options

variable {α : Type} [Quantity α]

def create (tolerance : α) (recordPaths : Bool) : Except (Fault α) (Options α) := do
  if !(← isFinite tolerance) || isNegative tolerance then
    throw (.configuration (.tolerance tolerance))
  return ⟨tolerance, recordPaths⟩

/-- The usual tolerance is 10^-9. -/
def usualTolerance : Number := .real (.ofDecimal false 1 (-9))

def usual : Options Number := ⟨usualTolerance, false⟩

end Options

/-- A report tells the state after one augmentation. -/
structure Report (α : Type) where
  augmentation : Nat
  bottleneck : α
  total : α
  length : Nat

/-- A watch receives every report whose number is a multiple of the interval.
It may halt the run. -/
structure Watch (α : Type) where
  interval : Int
  halts : Report α → Bool

namespace Watch

/-- The watch that sees every report and never halts. -/
def idle {α : Type} : Watch α := ⟨1, fun _ => false⟩

end Watch
end NetworkFlow
