/-
This file reads JSON text.
The values that are not finite may be written by name, a repeated field keeps its last value,
and values may enclose one another only as often as there is room.
-/
import NetworkFlow.Json.Basic
import NetworkFlow.Number.Numeral

namespace NetworkFlow.Json

/-- A text is not read when it is malformed, nested too deep or holds too long an integer. -/
inductive ReadFault where
  | malformed
  | tooDeep
  | longInteger (digits : Nat)
  deriving DecidableEq

namespace Reader

/-- Inside its values a text is refused for a misplaced mark only where three more levels fit.
Where they do not, it is the nesting that is refused. -/
private def misplaced (room : Nat) : ReadFault :=
  if room < 3 then .tooDeep else .malformed

private def isSpace (character : Char) : Bool :=
  character == ' ' || character == '\t' || character == '\n' || character == '\r'

private def skipSpaces (characters : List Char) : List Char :=
  characters.dropWhile isSpace

private def digits (characters : List Char) : List Char × List Char :=
  (characters.takeWhile Char.isDigit, characters.dropWhile Char.isDigit)

private def naturalOf (digits : List Char) : Nat :=
  Numeral.value (digits.map fun digit => digit.toNat - 48)

private def hexValue? (character : Char) : Option Nat :=
  let code := character.toNat
  if character.isDigit then some (code - 48)
  else if 97 ≤ code ∧ code ≤ 102 then some (code - 87)
  else if 65 ≤ code ∧ code ≤ 70 then some (code - 55)
  else none

private def hexQuad? : List Char → Option (Nat × List Char)
  | first :: second :: third :: fourth :: rest => do
    let first ← hexValue? first
    let second ← hexValue? second
    let third ← hexValue? third
    let fourth ← hexValue? fourth
    return (4096 * first + 256 * second + 16 * third + fourth, rest)
  | _ => none

private def isHigh (code : Nat) : Bool := 0xD800 ≤ code && code < 0xDC00

private def isLow (code : Nat) : Bool := 0xDC00 ≤ code && code < 0xE000

/-- A high unit takes a low unit that follows it as an escape. Any other half stands alone. -/
private def numberedEscape (characters : List Char) : Option (Symbol × List Char) := do
  let (code, rest) ← hexQuad? characters
  match isHigh code, rest with
  | true, '\\' :: 'u' :: more =>
    match hexQuad? more with
    | some (low, left) =>
      if isLow low then
        return (.ofCode (0x10000 + (code - 0xD800) * 1024 + (low - 0xDC00)), left)
      else return (.ofCode code, rest)
    | none => none
  | _, _ => return (.ofCode code, rest)

private def simpleEscape? : Char → Option Char
  | '"' => some '"'
  | '\\' => some '\\'
  | '/' => some '/'
  | 'b' => some '\x08'
  | 'f' => some '\x0c'
  | 'n' => some '\n'
  | 'r' => some '\r'
  | 't' => some '\t'
  | _ => none

/-- The symbols of a string up to its closing quote, in reverse. -/
private def stringFrom : Nat → List Symbol → List Char → Option (List Symbol × List Char)
  | 0, _, _ => none
  | _ + 1, _, [] => none
  | fuel + 1, read, character :: rest =>
    if character = '"' then some (read, rest)
    else if character.toNat < 32 then none
    else if character = '\\' then
      match rest with
      | 'u' :: more =>
        match numberedEscape more with
        | some (symbol, left) => stringFrom fuel (symbol :: read) left
        | none => none
      | mark :: more =>
        match simpleEscape? mark with
        | some character => stringFrom fuel (.character character :: read) more
        | none => none
      | [] => none
    else stringFrom fuel (.character character :: read) rest

private def string (room : Nat) (characters : List Char) : Except ReadFault (Text × List Char) :=
  match stringFrom (characters.length + 1) [] characters with
  | some (read, rest) => .ok (⟨read.reverse⟩, rest)
  | none => .error (misplaced room)

/-- The digits after a point. A point without a digit is not part of the number. -/
private def fraction (characters : List Char) : Option (List Char × List Char) :=
  match characters with
  | '.' :: rest =>
    match digits rest with
    | ([], _) => none
    | found => some found
  | _ => none

/-- The exponent of a number. A mark without a digit is not part of the number. -/
private def exponent (characters : List Char) : Option (Int × List Char) :=
  match characters with
  | mark :: rest =>
    if mark = 'e' ∨ mark = 'E' then
      let (negative, rest) := Numeral.signed rest
      match digits rest with
      | ([], _) => none
      | (found, left) =>
        let size : Int := naturalOf found
        some (if negative then -size else size, left)
    else none
  | [] => none

/-- The whole part of a number is zero alone or starts with another digit. -/
private def wholePart : List Char → Option (List Char × List Char)
  | '0' :: rest => some (['0'], rest)
  | characters =>
    match digits characters with
    | ([], _) => none
    | found => some found

private def unsigned (negative : Bool) (characters : List Char) :
    Except ReadFault (Json × List Char) :=
  match wholePart characters with
  | none => .error .malformed
  | some (whole, rest) =>
    let places := fraction rest
    let afterPlaces := (places.map Prod.snd).getD rest
    let power := exponent afterPlaces
    if places.isNone && power.isNone then
      if Number.digitLimit < whole.length then .error (.longInteger whole.length)
      else
        let size : Int := naturalOf whole
        .ok (.ofInt (if negative then -size else size), rest)
    else
      let decimals := (places.map Prod.fst).getD []
      let shift := (power.map Prod.fst).getD 0 - decimals.length
      let value := Binary64.ofDecimal negative (naturalOf (whole ++ decimals)) shift
      .ok (.number (.real value), (power.map Prod.snd).getD afterPlaces)

/-- The values that are written by name. -/
private def names : List (List Char × Json) := [
  ("null".toList, .null), ("true".toList, .bool true), ("false".toList, .bool false),
  ("NaN".toList, .number (.real .nan)), ("Infinity".toList, .number (.real (.infinity false))),
  ("-Infinity".toList, .number (.real (.infinity true)))]

private def named? (characters : List Char) : Option (Json × List Char) :=
  (names.find? fun entry => entry.1.isPrefixOf characters).map
    fun entry => (entry.2, characters.drop entry.1.length)

/-- A number that is not finite takes a level, as a list does. -/
private def scalar (room : Nat) (characters : List Char) :
    Except ReadFault (Json × List Char) :=
  match named? characters, characters with
  | some (.number (.real value), rest), _ =>
    if room = 0 then .error .tooDeep else .ok (.number (.real value), rest)
  | some found, _ => .ok found
  | none, '-' :: rest => unsigned true rest
  | none, _ => unsigned false characters

mutual

/-- A value that may hold only as many levels of other values as there is room. -/
private def value : Nat → Nat → List Char → Except ReadFault (Json × List Char)
  | 0, _, _ => .error .malformed
  | fuel + 1, room, characters =>
    match characters, room with
    | '"' :: rest, room => do
      let (read, rest) ← string room rest
      return (.text read, rest)
    | '[' :: _, 0 | '\x7b' :: _, 0 => .error .tooDeep
    | '[' :: rest, room + 1 =>
      match skipSpaces rest with
      | ']' :: rest => .ok (.list [], rest)
      | rest => items fuel room [] rest
    | '\x7b' :: rest, room + 1 =>
      match skipSpaces rest with
      | '\x7d' :: rest => .ok (.object [], rest)
      | rest => fields fuel room [] rest
    | characters, room => scalar room characters

/-- The items of a list that has at least one more. -/
private def items : Nat → Nat → List Json → List Char → Except ReadFault (Json × List Char)
  | 0, _, _, _ => .error .malformed
  | fuel + 1, room, read, characters =>
    match value fuel room characters with
    | .error fault => .error fault
    | .ok (item, rest) =>
      match skipSpaces rest with
      | ',' :: rest => items fuel room (item :: read) (skipSpaces rest)
      | ']' :: rest => .ok (.list (item :: read).reverse, rest)
      | _ => .error (misplaced room)

/-- The fields of an object that has at least one more. -/
private def fields : Nat → Nat → List (Text × Json) → List Char →
    Except ReadFault (Json × List Char)
  | 0, _, _, _ => .error .malformed
  | fuel + 1, room, read, characters =>
    match characters with
    | '"' :: rest =>
      match string room rest with
      | .error fault => .error fault
      | .ok (name, rest) =>
        match skipSpaces rest with
        | ':' :: rest =>
          match value fuel room (skipSpaces rest) with
          | .error fault => .error fault
          | .ok (item, rest) =>
            let read := Entries.put read name item
            match skipSpaces rest with
            | ',' :: rest => fields fuel room read (skipSpaces rest)
            | '\x7d' :: rest => .ok (.object read, rest)
            | _ => .error (misplaced room)
        | _ => .error (misplaced room)
    | _ => .error (misplaced room)

end

end Reader

/-- A text holds one value, and only spaces around it. The room is the number of values that may
enclose one another in it. -/
def read (room : Nat) (text : String) : Except ReadFault Json := do
  let characters := Reader.skipSpaces text.toList
  let (value, rest) ← Reader.value (2 * text.length + 2) room characters
  if (Reader.skipSpaces rest).isEmpty then return value else throw .malformed

end NetworkFlow.Json
