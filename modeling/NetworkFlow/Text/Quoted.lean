import NetworkFlow.Text.Basic
import NetworkFlow.Text.Printable

namespace NetworkFlow.Text

/-- The last digits of a number in base sixteen, with a fixed count. -/
def hexDigits (count code : Nat) : String :=
  let digits := Nat.toDigits 16 code
  String.ofList (List.replicate (count - digits.length) '0' ++ digits)

/-- A character that is not printed is written by the shortest of three numbered escapes. -/
private def escaped (quote character : Char) : String :=
  if character = quote ∨ character = '\\' then String.ofList ['\\', character]
  else if character = '\n' then "\\n"
  else if character = '\r' then "\\r"
  else if character = '\t' then "\\t"
  else if isPrintable character then character.toString
  else if character.toNat < 256 then "\\x" ++ hexDigits 2 character.toNat
  else if character.toNat < 65536 then "\\u" ++ hexDigits 4 character.toNat
  else "\\U" ++ hexDigits 8 character.toNat

/-- A surrogate is not printed either. -/
private def escapedSymbol (quote : Char) : Symbol → String
  | .character value => escaped quote value
  | .surrogate offset => "\\u" ++ hexDigits 4 (Symbol.surrogate offset).code

/-- The text between quotes, with its controls and its quote escaped. -/
def quoted (text : Text) : String :=
  let holds (character : Char) := text.symbols.contains (.character character)
  let quote := if holds '\'' && !holds '"' then '"' else '\''
  quote.toString ++ String.join (text.symbols.map (escapedSymbol quote)) ++ quote.toString

end NetworkFlow.Text
