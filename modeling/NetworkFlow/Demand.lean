import NetworkFlow.Position
import NetworkFlow.Quantity
import NetworkFlow.Table

namespace NetworkFlow

open Quantity

/-- Demands are a list with an entry for each vertex, or a table where a missing vertex has none.
A positive demand asks for inflow and a negative one supplies outflow. -/
inductive Demands (α : Type) where
  | dense (values : List α)
  | sparse (values : Table Int α)

namespace Demands

variable {α : Type} [Quantity α]

def finiteDemand (vertex : Int) (demand : α) : Except (Fault α) α := do
  let value ← toReal demand
  if ← isFinite value then return value
  else throw (.structural (.demandNotFinite vertex value))

/-- This function enters one demand of a table into a vector. -/
def enter (vertexCount : Int) (vector : Array α) (entry : Int × α) :
    Except (Fault α) (Array α) := do
  let (vertex, demand) := entry
  if 0 ≤ vertex ∧ vertex < vertexCount then
    return vector.setIfInBounds vertex.toNat (← finiteDemand vertex demand)
  else throw (.structural (.demandOutside vertex vertexCount))

/-- The finite demand at every vertex. A list must have one entry for each vertex. -/
def vector (demands : Demands α) (vertexCount : Int) : Except (Fault α) (List α) :=
  match demands with
  | .dense values =>
    if values.length ≠ vertexCount then
      throw (.structural (.demandLength values.length vertexCount))
    else values.zipIdx.mapM fun (demand, vertex) => finiteDemand vertex demand
  | .sparse values => do
    let blank := Array.replicate vertexCount.toNat zero
    return (← values.entries.foldlM (enter vertexCount) blank).toList

/-- A vector has room for this many entries. -/
def vectorRoom : Nat := 0x100000000

/-- The finite demand at every vertex, for a number of vertices that a caller chose.
A table is refused when its vector has no room. -/
def vectorOfSize (demands : Demands α) (size : Int) : Except (Fault α) (List α) := do
  if let .sparse _ := demands then
    if size < -(wordLimit : Int) ∨ wordLimit ≤ size then throw (.overflow .size)
    if vectorRoom < size then throw .noRoom
  demands.vector size

/-- The sequence of a list is its values, and the sequence of a table is its keys. -/
def sequence : Demands α → List α
  | .dense values => values
  | .sparse values => values.keys.map ofInt

/-- The demand given at a vertex. -/
def at? (demands : Demands α) (vertex : Nat) : Except (Fault α) α :=
  match demands with
  | .dense values =>
    match values[vertex]? with
    | some demand => .ok demand
    | none => throw .noPosition
  | .sparse values =>
    match values.find? vertex with
    | some demand => .ok demand
    | none => throw (.missingEntry vertex)

/-- The sum of the positive demands and the sum of the supplies. -/
def totals (demands : List α) : Except (Fault α) (α × α) := do
  let demand ← sum (demands.filter isPositive)
  let supply ← sum (demands.filter isNegative)
  return (demand, neg supply)

end Demands
end NetworkFlow
