import NetworkFlow.Number.Decimal

namespace NetworkFlow

/-- A result that leaves the binary64 range is an overflow of a conversion or of a quotient.
A position or a size may be too wide for a word of 64 bits. -/
inductive Overflow where
  | conversion
  | quotient
  | position
  | size
  deriving DecidableEq

/-- A number keeps the kind it was written in. -/
inductive Number where
  | int (value : Int)
  | real (value : Binary64)
  | truth (value : Bool)
  deriving DecidableEq

namespace Number

/-- What a number counts as in arithmetic, whatever kind it was written in. -/
def value : Number → Int ⊕ Binary64
  | .int value => .inl value
  | .real value => .inr value
  | .truth value => .inl value.toInt

/-- An integer beyond the finite range has no nearest binary64 number. -/
def toBinary (number : Number) : Except Overflow Binary64 :=
  match number.value with
  | .inr value => .ok value
  | .inl value =>
    let nearest := Binary64.ofInt value
    if nearest.isFinite then .ok nearest else .error .conversion

/-- Two integers are combined exactly, and any other pair is rounded as binary64. -/
def combine (exact : Int → Int → Int) (rounded : Binary64 → Binary64 → Binary64)
    (first second : Number) : Except Overflow Number :=
  match first.value, second.value with
  | .inl first, .inl second => .ok (.int (exact first second))
  | _, _ => do return .real (rounded (← first.toBinary) (← second.toBinary))

def add : Number → Number → Except Overflow Number :=
  combine (· + ·) Binary64.add

def sub : Number → Number → Except Overflow Number :=
  combine (· - ·) Binary64.sub

def mul : Number → Number → Except Overflow Number :=
  combine (· * ·) Binary64.mul

/-- The nearest binary64 number to the quotient of two integers. -/
def divInt (first second : Int) : Except Overflow Binary64 :=
  let negative := decide (first < 0) != decide (second < 0)
  let nearest := Binary64.ofUnits negative (first.natAbs * Binary64.unitsPerOne) second.natAbs
  if nearest.isFinite then .ok nearest else .error .quotient

/-- The quotient by a number other than zero is never an integer. -/
def div (first second : Number) : Except Overflow Number :=
  match first.value, second.value with
  | .inl first, .inl second => do return .real (← divInt first second)
  | _, _ => do return .real ((← first.toBinary).div (← second.toBinary))

def neg (number : Number) : Number :=
  match number.value with
  | .inl value => .int (-value)
  | .inr value => .real value.neg

def magnitude (number : Number) : Number :=
  match number.value with
  | .inl value => .int value.natAbs
  | .inr value => .real value.magnitude

/-- The order of the values is exact between the kinds. -/
def less (first second : Number) : Bool :=
  match first.value, second.value with
  | .inl first, .inl second => first < second
  | .inl first, .inr second => second.intLess first
  | .inr first, .inl second => first.lessInt second
  | .inr first, .inr second => first.less second

/-- Equality of the values is exact between the kinds. -/
def same (first second : Number) : Bool :=
  match first.value, second.value with
  | .inl first, .inl second => first == second
  | .inl first, .inr second => second.sameInt first
  | .inr first, .inl second => first.sameInt second
  | .inr first, .inr second => first.same second

def lessEq (first second : Number) : Bool :=
  first.less second || first.same second

def isFinite (value : Number) : Except Overflow Bool := do
  return (← value.toBinary).isFinite

/-- The decimal digits of an integer, the shortest form of a binary64 number
and the word for a truth value. -/
def text : Number → String
  | .int value => toString value
  | .real value => value.text
  | .truth value => if value then "True" else "False"

/-- An integer is read and written with at most this many digits. -/
def digitLimit : Nat := 4300

/-- This function says whether a number has few enough digits to be written. -/
def hasText : Number → Bool
  | .int value => value.natAbs < Nat.pow 10 digitLimit
  | _ => true

end Number
end NetworkFlow
