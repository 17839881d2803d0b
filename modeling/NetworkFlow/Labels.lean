import NetworkFlow.Fault
import NetworkFlow.Position

namespace NetworkFlow

/-- The label at a position that may count from the end. -/
def labelAt {α : Type} (labels : List Text) (vertex : Int) : Except (Fault α) Text :=
  match position? labels.length vertex >>= (labels[·]?) with
  | some label => .ok label
  | none => throw .noPosition

/-- A vertex beyond the labels is named by another rule. -/
def labelOr {α : Type} (other : Int → Text) (labels : List Text) (vertex : Int) :
    Except (Fault α) Text :=
  if vertex < labels.length then labelAt labels vertex else .ok (other vertex)

/-- The name of an integer is its numeral. -/
def numeral (vertex : Int) : Text := toString vertex

/-- The name of a vertex is its label, or its numeral when it has none. -/
def vertexName (labels : Option (List Text)) (vertex : Nat) : Text :=
  (labels.getD []).getD vertex (numeral vertex)

/-- The name of an integer that may be below the vertices.
A label is taken from the end then, and a numeral when there are no labels at all. -/
def nameAt {α : Type} : Option (List Text) → Int → Except (Fault α) Text
  | none, vertex => .ok (numeral vertex)
  | some labels, vertex => labelOr numeral labels vertex

theorem labelAt_natCast {α : Type} {labels : List Text} {vertex : Nat}
    (inRange : vertex < labels.length) :
    (labelAt labels vertex : Except (Fault α) Text) = .ok labels[vertex] := by
  simp [labelAt, position?_natCast inRange, inRange]

theorem labelOr_natCast {α : Type} (labels : List Text) (vertex : Nat) :
    (labelOr numeral labels vertex : Except (Fault α) Text) =
      .ok (vertexName (some labels) vertex) := by
  by_cases inRange : vertex < labels.length
  · simp [labelOr, vertexName, inRange, labelAt_natCast inRange]
  · simp [labelOr, vertexName, inRange, List.getD_eq_getElem?_getD]

/-- The two ways to name a vertex agree. -/
theorem nameAt_natCast {α : Type} (labels : Option (List Text)) (vertex : Nat) :
    (nameAt labels vertex : Except (Fault α) Text) = .ok (vertexName labels vertex) := by
  cases labels with
  | none => rfl
  | some labels => exact labelOr_natCast labels vertex

end NetworkFlow
