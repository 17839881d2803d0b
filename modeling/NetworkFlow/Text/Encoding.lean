import NetworkFlow.Text.Basic

namespace NetworkFlow

/-- A run of surrogates lists their code points, and knows the position of the first of them. -/
structure SurrogateRun where
  position : Nat
  codes : List Nat
  deriving DecidableEq

namespace Text

/-- The first run of surrogates in a text. -/
def firstRun (text : Text) : SurrogateRun :=
  let isCharacter (symbol : Symbol) := symbol.character?.isSome
  let run := (text.symbols.dropWhile isCharacter).takeWhile fun symbol => !isCharacter symbol
  ⟨(text.symbols.takeWhile isCharacter).length, run.map Symbol.code⟩

/-- The bytes of a text without surrogates. -/
def toUTF8 (text : Text) : Except SurrogateRun ByteArray :=
  match text.characters? with
  | some characters => .ok (String.ofList characters).toUTF8
  | none => .error text.firstRun

end Text
end NetworkFlow
