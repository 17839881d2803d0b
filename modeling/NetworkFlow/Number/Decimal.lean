/-
This file writes binary64 numbers in decimal.
The shortest form has the fewest digits that read back as the same number.
The general form has six significant digits, and the fixed form has a given number of places.
-/
import NetworkFlow.Number.Binary64

namespace NetworkFlow

/-- A decimal is a number of units of a power of ten. -/
structure Decimal where
  digits : Nat
  exponent : Int

/-- A style says where positional notation ends and how a whole number ends. -/
structure DecimalStyle where
  exponentFrom : Int
  wholeEnding : String

namespace DecimalStyle

/-- The shortest form is positional below 10^16, and a whole number keeps its point. -/
def shortest : DecimalStyle := ⟨16, ".0"⟩

/-- The general form is positional below 10^6, and a whole number has no point. -/
def general : DecimalStyle := ⟨6, ""⟩

private def zeros (count : Nat) : String :=
  String.ofList (List.replicate count '0')

private def withoutEndZeros (digits : List Char) : List Char :=
  (digits.reverse.dropWhile (· = '0')).reverse

/-- The exponent has a sign and at least two digits. -/
private def exponentText (exponent : Int) : String :=
  let sign := if exponent < 0 then "e-" else "e+"
  let gap := if exponent.natAbs < 10 then "0" else ""
  sign ++ gap ++ toString exponent.natAbs

/-- This function writes a decimal without zeros at the end of its fraction. -/
def write (style : DecimalStyle) (decimal : Decimal) : String :=
  let written := Nat.toDigits 10 decimal.digits
  let leading : Int := decimal.exponent + written.length - 1
  let digits := withoutEndZeros written
  if leading < -4 ∨ style.exponentFrom ≤ leading then
    let fraction := String.ofList (digits.drop 1)
    let point := if digits.length ≤ 1 then "" else "."
    String.ofList (digits.take 1) ++ point ++ fraction ++ exponentText leading
  else if leading < 0 then
    "0." ++ zeros (-leading - 1).toNat ++ String.ofList digits
  else
    let whole := leading.toNat + 1
    if digits.length ≤ whole then
      String.ofList digits ++ zeros (whole - digits.length) ++ style.wholeEnding
    else
      String.ofList (digits.take whole) ++ "." ++ String.ofList (digits.drop whole)

end DecimalStyle

namespace Binary64

/-- The quotient of a magnitude and a power of ten. -/
private def overPower (units : Nat) (exponent : Int) : Nat × Nat :=
  if 0 ≤ exponent then (units, unitsPerOne * Nat.pow 10 exponent.toNat)
  else (units * Nat.pow 10 (-exponent).toNat, unitsPerOne)

private def reaches (units : Nat) (exponent : Int) : Bool :=
  let (numerator, denominator) := overPower units exponent
  denominator ≤ numerator

/-- The largest power of ten that does not exceed a positive magnitude. -/
def leadingExponent (units : Nat) : Int :=
  let estimate := ((units.log2 : Int) - 1074) * 30103 / 100000
  if reaches units (estimate + 1) then estimate + 1
  else if reaches units estimate then estimate
  else estimate - 1

/-- The nearest decimal with a given number of significant digits. -/
def significant (units count : Nat) : Decimal :=
  let exponent := leadingExponent units + 1 - count
  let (numerator, denominator) := overPower units exponent
  ⟨roundHalfEven numerator denominator, exponent⟩

private def readsBack (units : Nat) (decimal : Decimal) : Bool :=
  ofDecimal false decimal.digits decimal.exponent = .finite false units

/-- The nearer of the two neighbours with a given number of digits that reads back. -/
private def readable (units count : Nat) : Option Decimal :=
  let exponent := leadingExponent units + 1 - count
  let (numerator, denominator) := overPower units exponent
  let below := numerator / denominator
  let nearest := roundHalfEven numerator denominator
  let other := if nearest = below then below + 1 else below
  if readsBack units ⟨nearest, exponent⟩ then some ⟨nearest, exponent⟩
  else if readsBack units ⟨other, exponent⟩ then some ⟨other, exponent⟩
  else none

/-- The decimal with the fewest digits that reads back, and the nearest of those. -/
def shortestDecimal (units : Nat) : Decimal :=
  if units = 0 then ⟨0, 0⟩
  else ((List.range' 1 17).findSome? (readable units)).getD (significant units 17)

/-- This function adds the sign and writes what is not finite by name. -/
private def spelled (plus : String) (value : Binary64) (magnitude : Nat → String) : String :=
  match value with
  | .nan => plus ++ "nan"
  | .infinity negative => (if negative then "-" else plus) ++ "inf"
  | .finite negative units => (if negative then "-" else plus) ++ magnitude units

/-- The shortest text that reads back as the same number. -/
def text (value : Binary64) : String :=
  spelled "" value fun units => DecimalStyle.shortest.write (shortestDecimal units)

private def generalMagnitude (units : Nat) : String :=
  DecimalStyle.general.write (if units = 0 then ⟨0, 0⟩ else significant units 6)

/-- The text with six significant digits. -/
def general (value : Binary64) : String :=
  spelled "" value generalMagnitude

/-- The text with six significant digits that always has a sign. -/
def generalSigned (value : Binary64) : String :=
  spelled "+" value generalMagnitude

/-- The text with six places after the point. -/
def fixed (value : Binary64) : String :=
  spelled "" value fun units =>
    let millionths := roundHalfEven (units * 1000000) unitsPerOne
    let fraction := toString (1000000 + millionths % 1000000)
    toString (millionths / 1000000) ++ "." ++ String.ofList (fraction.toList.drop 1)

end Binary64
end NetworkFlow
