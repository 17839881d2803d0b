import NetworkFlow.Fault

namespace NetworkFlow.Json

/-- The fault of a value with an unexpected shape. -/
def refuse {β : Type} (cause : ShapeFault) : Except (Fault Number) β :=
  throw (.shape cause)

/-- The values in a list, the names in an object or the symbols in a text. -/
def elements : Json → Except (Fault Number) (List Json)
  | .list items => .ok items
  | .object fields => .ok (fields.map fun field => .text field.1)
  | .text value => .ok (value.symbols.map fun symbol => .text ⟨[symbol]⟩)
  | _ => refuse .wrongKind

/-- The field of an object, which must be present. -/
def item (value : Json) (name : String) : Except (Fault Number) Json :=
  match value with
  | .object fields =>
    match field? fields name with
    | some found => .ok found
    | none => refuse (.missingField name)
  | _ => refuse .wrongKind

/-- The field of an object, which may be absent. -/
def optionalItem (value : Json) (name : String) : Except (Fault Number) (Option Json) :=
  match value with
  | .object fields => .ok (field? fields name)
  | _ => refuse .noFields

def isText (name : Text) : Json → Bool
  | .text value => value = name
  | _ => false

/-- This function looks for a run of symbols anywhere in a text. -/
def holdsRun (run : List Symbol) : List Symbol → Bool
  | [] => run.isEmpty
  | symbol :: rest => run.isPrefixOf (symbol :: rest) || holdsRun run rest

/-- A name is held by an object with this field, a list with this item or a text with this part. -/
def holds (value : Json) (name : Text) : Except (Fault Number) Bool :=
  match value with
  | .object fields => .ok (field? fields name).isSome
  | .list items => .ok (items.any (isText name))
  | .text content => .ok (holdsRun name.symbols content.symbols)
  | _ => refuse .wrongKind

/-- The binary64 number that a number or a numeral stands for. -/
def toReal : Json → Except (Fault Number) Number
  | .number value => (value.toBinary.map Number.real).mapError .overflow
  | .text content =>
    match content.characters? >>= Numeral.read? with
    | some value => .ok (.real value)
    | none => refuse (.notNumeral content)
  | _ => refuse .wrongKind

end NetworkFlow.Json
