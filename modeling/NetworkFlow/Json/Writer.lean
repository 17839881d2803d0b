import NetworkFlow.Json.Basic

namespace NetworkFlow.Json

namespace Writer

/-- A character beyond 16 bits is written as two escaped units. -/
private def numbered (code : Nat) : String :=
  if code < 65536 then "\\u" ++ Text.hexDigits 4 code
  else
    let rest := code - 65536
    "\\u" ++ Text.hexDigits 4 (0xD800 + rest / 1024) ++
      "\\u" ++ Text.hexDigits 4 (0xDC00 + rest % 1024)

private def escapedCharacter (character : Char) : String :=
  if character = '"' then "\\\""
  else if character = '\\' then "\\\\"
  else if character = '\n' then "\\n"
  else if character = '\r' then "\\r"
  else if character = '\t' then "\\t"
  else if character = '\x0c' then "\\f"
  else if character = '\x08' then "\\b"
  else if 32 ≤ character.toNat ∧ character.toNat < 127 then character.toString
  else numbered character.toNat

private def escaped : Symbol → String
  | .character value => escapedCharacter value
  | .surrogate offset => numbered (Symbol.surrogate offset).code

def string (text : Text) : String :=
  "\"" ++ String.join (text.symbols.map escaped) ++ "\""

/-- A number that is not finite is written by its full name, and a truth value in lower case. -/
def number : Number → String
  | .real .nan => "NaN"
  | .real (.infinity negative) => if negative then "-Infinity" else "Infinity"
  | .truth value => if value then "true" else "false"
  | value => value.text

/-- The items between two brackets, on one line or each on a line of its own. -/
private def enclose (indented : Bool) (level : Nat) (opening closing : String)
    (items : List String) : String :=
  if items.isEmpty then opening ++ closing
  else if indented then
    let newLine (level : Nat) := "\n" ++ String.ofList (List.replicate (2 * level) ' ')
    opening ++ newLine (level + 1) ++ ("," ++ newLine (level + 1)).intercalate items ++
      newLine level ++ closing
  else opening ++ ", ".intercalate items ++ closing

mutual

private def value (indented : Bool) (level : Nat) : Json → String
  | .null => "null"
  | .number value => number value
  | .text value => string value
  | .list items => enclose indented level "[" "]" (itemTexts indented (level + 1) items)
  | .object fields =>
    enclose indented level "\x7b" "\x7d" (fieldTexts indented (level + 1) fields)

private def itemTexts (indented : Bool) (level : Nat) : List Json → List String
  | [] => []
  | item :: rest => value indented level item :: itemTexts indented level rest

private def fieldTexts (indented : Bool) (level : Nat) : List (Text × Json) → List String
  | [] => []
  | (name, item) :: rest =>
    (string name ++ ": " ++ value indented level item) :: fieldTexts indented level rest

end

end Writer

mutual

/-- This function says whether every number in a value has few enough digits to be written. -/
def isWritable : Json → Bool
  | .number value => value.hasText
  | .list items => itemsWritable items
  | .object fields => fieldsWritable fields
  | _ => true

private def itemsWritable : List Json → Bool
  | [] => true
  | item :: rest => isWritable item && itemsWritable rest

private def fieldsWritable : List (Text × Json) → Bool
  | [] => true
  | (_, item) :: rest => isWritable item && fieldsWritable rest

end

/-- The text on one line. -/
def line (json : Json) : String :=
  Writer.value false 0 json

/-- The text with one item a line, where each level is indented by two spaces. -/
def lines (json : Json) : String :=
  Writer.value true 0 json

end NetworkFlow.Json
