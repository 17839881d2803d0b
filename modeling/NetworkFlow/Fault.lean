import NetworkFlow.Json.Reader
import NetworkFlow.Text.Encoding

namespace NetworkFlow

/-- A network or a question about it is malformed. -/
inductive StructuralFault (α : Type) where
  | capacityRange (tail head : Int) (capacity : α)
  | lowerRange (tail head : Int) (lower : α)
  | lowerAboveCapacity (tail head : Int) (capacity lower : α)
  | notEndpoint (vertex : Int) (tail head : Nat)
  | vertexCount (count : Int)
  | outsideRange (role : Text) (vertex : Int) (count : Nat)
  | alreadyInserted (tail head index : Int)
  | demandNotFinite (vertex : Int) (demand : α)
  | demandOutside (vertex count : Int)
  | demandLength (length : Nat) (count : Int)
  | sourceIsSink (vertex : Int)
  | lowerBounds
  | partitionSizes (left right : Int)
  | leftOutside (left count : Int)
  | rightOutside (right count : Int)
  deriving DecidableEq

/-- An option of a solver is out of its range. -/
inductive ConfigurationFault (α : Type) where
  | tolerance (value : α)
  | interval (value : Int)
  deriving DecidableEq

/-- A written problem does not describe a network with a question about it. -/
inductive ProblemFault where
  | repeatedVertex (name : Text)
  | unknownEndpoint (role : String) (name : Text)
  | noCapacity (tail head : Text)
  | oneTerminal
  | unknownTerminal (role : String) (name : Text)
  | unknownVertex (name : Text)
  | edgeShape (edge : Text)
  | problemShape (vertices edges : String)
  deriving DecidableEq

/-- A written value has the wrong kind or misses a part. -/
inductive ShapeFault where
  | wrongKind
  | noFields
  | missingField (name : String)
  | notNumeral (text : Text)
  deriving DecidableEq

/-- A fault is the cause for which an operation is refused. -/
inductive Fault (α : Type) where
  | structural (cause : StructuralFault α)
  | configuration (cause : ConfigurationFault α)
  | problem (cause : ProblemFault)
  | shape (cause : ShapeFault)
  | overflow (cause : Overflow)
  | reading (cause : Json.ReadFault)
  | longNumber
  | notUnicode
  | notEncodable (run : SurrogateRun)
  | noFile
  | noPosition
  | noRoom
  | missingEntry (key : Int)
  | unknownNetwork (name : Text)
  | noFinder
  | noResult
  | noProblem
  | halted (augmentation : Nat)
  | noDrawing
  | layoutFailed (layout : String)
  | unfinished
  deriving DecidableEq

end NetworkFlow
