import NetworkFlow.Number.Decimal
import NetworkFlow.Text.Blank
import NetworkFlow.Text.Digit

namespace NetworkFlow.Numeral

open Text

/-- The digits that continue a run and what follows them. -/
def moreDigits : List Char → List Nat × List Char
  | '_' :: next :: rest =>
    match digitValue? next with
    | some digit =>
      let (digits, left) := moreDigits rest
      (digit :: digits, left)
    | none => ([], '_' :: next :: rest)
  | character :: rest =>
    match digitValue? character with
    | some digit =>
      let (digits, left) := moreDigits rest
      (digit :: digits, left)
    | none => ([], character :: rest)
  | [] => ([], [])

/-- The digits at the front of a text and what follows them. -/
def digitRun : List Char → List Nat × List Char
  | '_' :: rest => ([], '_' :: rest)
  | characters => moreDigits characters

/-- The number that a run of digits writes in base ten. -/
def value (digits : List Nat) : Nat :=
  digits.foldl (fun total digit => 10 * total + digit) 0

/-- A sign may stand in front of a numeral and of an exponent. -/
def signed : List Char → Bool × List Char
  | '-' :: rest => (true, rest)
  | '+' :: rest => (false, rest)
  | rest => (false, rest)

/-- The digits after a point, when there is one. -/
private def fraction : List Char → List Nat × List Char
  | '.' :: rest => digitRun rest
  | rest => ([], rest)

/-- The exponent is zero when nothing is left, and nothing may follow it. -/
private def exponent? : List Char → Option Int
  | [] => some 0
  | mark :: rest =>
    if mark = 'e' ∨ mark = 'E' then
      let (negative, rest) := signed rest
      match digitRun rest with
      | ([], _) => none
      | (digits, []) => some (if negative then -(value digits : Int) else value digits)
      | _ => none
    else none

/-- A finite numeral has a digit on one side of its point. -/
private def finite? (negative : Bool) (characters : List Char) : Option Binary64 :=
  let (whole, rest) := digitRun characters
  let (places, rest) := fraction rest
  if whole.isEmpty && places.isEmpty then none
  else do
    let exponent ← exponent? rest
    return .ofDecimal negative (value (whole ++ places)) (exponent - places.length)

/-- This function reads a numeral, an infinity or what is not a number. Blanks may surround it,
its digits may be of any script, and one underscore may stand between two digits. -/
def read? (characters : List Char) : Option Binary64 :=
  let (negative, characters) := signed (trimBlanks characters)
  let name := String.ofList (characters.map Char.toLower)
  if name = "inf" ∨ name = "infinity" then some (.infinity negative)
  else if name = "nan" then some .nan
  else finite? negative characters

end NetworkFlow.Numeral
