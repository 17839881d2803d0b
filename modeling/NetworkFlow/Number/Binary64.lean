/-
This file holds the binary64 numbers as signed counts of the smallest positive one.
Each operation is exact integer arithmetic followed by one rounding.
-/
import NetworkFlow.Number.Rounding

namespace NetworkFlow

/-- A binary64 number is not a number, an infinity, or a signed multiple of 2^-1074. -/
inductive Binary64 where
  | nan
  | infinity (negative : Bool)
  | finite (negative : Bool) (units : Nat)
  deriving DecidableEq

namespace Binary64

/-- The number one is 2^1074 units. -/
def unitsPerOne : Nat := Nat.pow 2 1074

/-- The first magnitude beyond the finite range is 2^1024. -/
def unitsLimit : Nat := Nat.pow 2 2098

def zero : Binary64 := .finite false 0

/-- The integer number of units behind a sign and a magnitude. -/
def signed (negative : Bool) (units : Nat) : Int :=
  if negative then -(units : Int) else units

/-- This function keeps 53 significant bits of a quotient of units. -/
def roundUnits (numerator denominator : Nat) : Nat :=
  let grid := Nat.pow 2 ((numerator / denominator).log2 - 52)
  roundHalfEven numerator (denominator * grid) * grid

/-- The number nearest to a quotient of units, with an infinity beyond the finite range. -/
def ofUnits (negative : Bool) (numerator denominator : Nat) : Binary64 :=
  let units := roundUnits numerator denominator
  if units < unitsLimit then .finite negative units else .infinity negative

/-- The number nearest to an integer. -/
def ofInt (value : Int) : Binary64 :=
  ofUnits (value < 0) (value.natAbs * unitsPerOne) 1

/-- The number nearest to a decimal numeral. -/
def ofDecimal (negative : Bool) (digits : Nat) (exponent : Int) : Binary64 :=
  if digits = 0 then .finite negative 0
  else if 400 < exponent then .infinity negative
  else if exponent < -(400 + digits.log2 : Int) then .finite negative 0
  else if 0 ≤ exponent then ofUnits negative (digits * Nat.pow 10 exponent.toNat * unitsPerOne) 1
  else ofUnits negative (digits * unitsPerOne) (Nat.pow 10 (-exponent).toNat)

def isNan : Binary64 → Bool
  | .nan => true
  | _ => false

def isFinite : Binary64 → Bool
  | .finite _ _ => true
  | _ => false

def neg : Binary64 → Binary64
  | .nan => .nan
  | .infinity negative => .infinity !negative
  | .finite negative units => .finite (!negative) units

def magnitude : Binary64 → Binary64
  | .nan => .nan
  | .infinity _ => .infinity false
  | .finite _ units => .finite false units

/-- A sum of zero is negative only when both terms are. -/
def add : Binary64 → Binary64 → Binary64
  | .nan, _ => .nan
  | _, .nan => .nan
  | .infinity first, .infinity second => if first = second then .infinity first else .nan
  | .infinity first, .finite _ _ => .infinity first
  | .finite _ _, .infinity second => .infinity second
  | .finite first firstUnits, .finite second secondUnits =>
    let total := signed first firstUnits + signed second secondUnits
    if total = 0 then .finite (first && second) 0
    else ofUnits (total < 0) total.natAbs 1

def sub (first second : Binary64) : Binary64 :=
  first.add second.neg

def mul : Binary64 → Binary64 → Binary64
  | .nan, _ => .nan
  | _, .nan => .nan
  | .infinity first, .infinity second => .infinity (first != second)
  | .infinity first, .finite second units =>
    if units = 0 then .nan else .infinity (first != second)
  | .finite first units, .infinity second =>
    if units = 0 then .nan else .infinity (first != second)
  | .finite first firstUnits, .finite second secondUnits =>
    ofUnits (first != second) (firstUnits * secondUnits) unitsPerOne

def div : Binary64 → Binary64 → Binary64
  | .nan, _ => .nan
  | _, .nan => .nan
  | .infinity _, .infinity _ => .nan
  | .infinity first, .finite second _ => .infinity (first != second)
  | .finite first _, .infinity second => .finite (first != second) 0
  | .finite first firstUnits, .finite second secondUnits =>
    if secondUnits = 0 then if firstUnits = 0 then .nan else .infinity (first != second)
    else ofUnits (first != second) (firstUnits * unitsPerOne) secondUnits

/-- The strict order. Nothing is less or greater than a value that is not a number. -/
def less : Binary64 → Binary64 → Bool
  | .nan, _ => false
  | _, .nan => false
  | .infinity first, .infinity second => first && !second
  | .infinity first, .finite _ _ => first
  | .finite _ _, .infinity second => !second
  | .finite first firstUnits, .finite second secondUnits =>
    signed first firstUnits < signed second secondUnits

/-- The exact order between an integer and a binary64 number. -/
def intLess (value : Int) : Binary64 → Bool
  | .nan => false
  | .infinity negative => !negative
  | .finite negative units => value * unitsPerOne < signed negative units

/-- The exact order between a binary64 number and an integer. -/
def lessInt (first : Binary64) (value : Int) : Bool :=
  match first with
  | .nan => false
  | .infinity negative => negative
  | .finite negative units => signed negative units < value * unitsPerOne

/-- Equality of values. The two zeros are equal and what is not a number equals nothing. -/
def same : Binary64 → Binary64 → Bool
  | .infinity first, .infinity second => first == second
  | .finite first firstUnits, .finite second secondUnits =>
    signed first firstUnits == signed second secondUnits
  | _, _ => false

def sameInt (first : Binary64) (value : Int) : Bool :=
  match first with
  | .finite negative units => signed negative units == value * unitsPerOne
  | _ => false

end Binary64
end NetworkFlow
