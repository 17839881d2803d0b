namespace NetworkFlow

/-- A symbol is a character or one of the 2048 surrogates.
An escape in JSON can write one half of a surrogate pair, and a string cannot hold it. -/
inductive Symbol where
  | character (value : Char)
  | surrogate (offset : Fin 2048)
  deriving DecidableEq

namespace Symbol

/-- The code point of a symbol. -/
def code : Symbol → Nat
  | .character value => value.toNat
  | .surrogate offset => 0xD800 + offset.val

/-- The symbol of a code point. -/
def ofCode (code : Nat) : Symbol :=
  if within : 0xD800 ≤ code ∧ code < 0xE000 then .surrogate ⟨code - 0xD800, by omega⟩
  else .character (Char.ofNat code)

def character? : Symbol → Option Char
  | .character value => some value
  | .surrogate _ => none

/-- A surrogate is shown as the replacement character. -/
def shown (symbol : Symbol) : Char :=
  symbol.character?.getD (Char.ofNat 0xFFFD)

end Symbol

/-- A text is a sequence of symbols. -/
structure Text where
  symbols : List Symbol
  deriving DecidableEq

namespace Text

def ofString (string : String) : Text := ⟨string.toList.map .character⟩

instance : Coe String Text := ⟨ofString⟩

instance : Append Text := ⟨fun first second => ⟨first.symbols ++ second.symbols⟩⟩

/-- The string in which a text is shown. -/
def shown (text : Text) : String := String.ofList (text.symbols.map Symbol.shown)

instance : ToString Text := ⟨shown⟩

def isEmpty (text : Text) : Bool := text.symbols.isEmpty

/-- The characters of a text without surrogates. -/
def characters? (text : Text) : Option (List Char) := text.symbols.mapM Symbol.character?

/-- This function puts a separator between texts. -/
def intercalate (separator : Text) (texts : List Text) : Text :=
  ⟨separator.symbols.intercalate (texts.map symbols)⟩

/-- The first symbols that differ decide, and a text comes after its beginnings. -/
def symbolsAtMost : List Symbol → List Symbol → Bool
  | [], _ => true
  | _ :: _, [] => false
  | first :: left, second :: right =>
    first.code < second.code || (first.code == second.code && symbolsAtMost left right)

/-- Texts are ordered by their code points. -/
def atMost (first second : Text) : Bool := symbolsAtMost first.symbols second.symbols

theorem ofString_injective {first second : String} (same : ofString first = ofString second) :
    first = second := by
  have lists : first.toList = second.toList :=
    (List.map_inj_right fun _ _ equal => Symbol.character.inj equal).mp (Text.mk.inj same)
  exact String.toList_inj.mp lists

end Text
end NetworkFlow
