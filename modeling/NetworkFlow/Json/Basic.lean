import NetworkFlow.Number.Basic
import NetworkFlow.Table
import NetworkFlow.Text.Quoted

namespace NetworkFlow

/-- A JSON value. A truth value is one of the numbers. -/
inductive Json where
  | null
  | number (value : Number)
  | text (value : Text)
  | list (items : List Json)
  | object (fields : List (Text × Json))

namespace Json

@[match_pattern]
def bool (value : Bool) : Json := .number (.truth value)

def ofInt (value : Int) : Json := .number (.int value)

def ofNat (value : Nat) : Json := .ofInt value

/-- This function finds a field of an object. -/
def field? (fields : List (Text × Json)) (name : Text) : Option Json :=
  Entries.find? fields name

/-- The word for the kind of a value. -/
def kind : Json → String
  | .null => "NoneType"
  | .number (.truth _) => "bool"
  | .number (.int _) => "int"
  | .number (.real _) => "float"
  | .text _ => "str"
  | .list _ => "list"
  | .object _ => "dict"

mutual

/-- The text of a value inside another one, where strings stand between quotes. -/
def inner : Json → String
  | .null => "None"
  | .number value => value.text
  | .text value => Text.quoted value
  | .list items => "[" ++ ", ".intercalate (innerItems items) ++ "]"
  | .object fields => "\x7b" ++ ", ".intercalate (innerFields fields) ++ "\x7d"

private def innerItems : List Json → List String
  | [] => []
  | item :: rest => inner item :: innerItems rest

private def innerFields : List (Text × Json) → List String
  | [] => []
  | (name, value) :: rest => (Text.quoted name ++ ": " ++ inner value) :: innerFields rest

end

/-- The text of a value in a message, where a string stands for itself.
An integer is written whatever its length: the reader has refused
every integer of more than `Number.digitLimit` digits. -/
def display : Json → Text
  | .text value => value
  | value => value.inner

end Json
end NetworkFlow
