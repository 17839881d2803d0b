import NetworkFlow.Fault

namespace NetworkFlow

/-- A quantity can be added and compared.
A sum may overflow, and a comparison may be false both ways. -/
class Quantity (α : Type) where
  ofInt : Int → α
  /-- The flow on a fresh edge. -/
  zero : α
  add : α → α → Except (Fault α) α
  sub : α → α → Except (Fault α) α
  neg : α → α
  magnitude : α → α
  less : α → α → Bool
  lessEq : α → α → Bool
  isFinite : α → Except (Fault α) Bool
  /-- The nearest quantity of the kind that a fresh flow has. -/
  toReal : α → Except (Fault α) α

namespace Quantity

variable {α : Type} [Quantity α]

/-- A sum is taken from the left and starts from the integer zero.
Every addition is rounded by itself: no term makes up for what an earlier rounding lost. -/
def sum (terms : List α) : Except (Fault α) α :=
  terms.foldlM add (ofInt 0)

/-- The first of two quantities wins unless the second is less. -/
def lesser (first second : α) : α :=
  if less second first then second else first

/-- The first smallest quantity of a list. -/
def least? : List α → Option α
  | [] => none
  | first :: rest => some (rest.foldl lesser first)

def isNegative (value : α) : Bool :=
  less value (ofInt 0)

def isPositive (value : α) : Bool :=
  less (ofInt 0) value

end Quantity

/-- Rational arithmetic is exact, and every rational number is finite. -/
instance : Quantity Rat where
  ofInt value := value
  zero := 0
  add first second := .ok (first + second)
  sub first second := .ok (first - second)
  neg value := -value
  magnitude value := if value < 0 then -value else value
  less first second := first < second
  lessEq first second := first ≤ second
  isFinite _ := .ok true
  toReal value := .ok value

/-- A number keeps its kind, and mixing the kinds rounds. -/
instance : Quantity Number where
  ofInt := .int
  zero := .real .zero
  add first second := (first.add second).mapError .overflow
  sub first second := (first.sub second).mapError .overflow
  neg := Number.neg
  magnitude := Number.magnitude
  less := Number.less
  lessEq := Number.lessEq
  isFinite value := value.isFinite.mapError .overflow
  toReal value := (value.toBinary.map .real).mapError .overflow

end NetworkFlow
