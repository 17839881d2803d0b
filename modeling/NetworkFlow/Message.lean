import NetworkFlow.Fault

namespace NetworkFlow

namespace StructuralFault

private def edgeText (tail head : Int) : String :=
  s!"Edge {tail} -> {head}"

def message : StructuralFault Number → Text
  | .capacityRange tail head capacity =>
    s!"{edgeText tail head} has capacity {capacity.text}. " ++
      "Capacities must be finite and non-negative."
  | .lowerRange tail head lower =>
    s!"{edgeText tail head} has lower bound {lower.text}. " ++
      "Lower bounds must be finite and non-negative."
  | .lowerAboveCapacity tail head capacity lower =>
    s!"{edgeText tail head} has capacity ({capacity.text}) less than " ++
      s!"lower bound ({lower.text}). Capacity must be >= lower bound."
  | .notEndpoint vertex tail head =>
    s!"Vertex {vertex} is not an endpoint of edge {tail} -> {head}"
  | .vertexCount count => s!"Vertex count must be non-negative, got {count}"
  | .outsideRange role vertex count =>
    role ++ s!" {vertex} is outside the vertex range [0, {count})"
  | .alreadyInserted tail head index =>
    s!"{edgeText tail head} already belongs to a network (id {index})"
  | .demandNotFinite vertex demand =>
    s!"Vertex {vertex} has demand {demand.text}. Demands must be finite."
  | .demandOutside vertex count =>
    s!"Demand given for vertex {vertex} outside the vertex range [0, {count})"
  | .demandLength length count =>
    s!"Demand vector has {length} entries but the network has {count} vertices"
  | .sourceIsSink vertex => s!"Source and sink must differ, both are {vertex}"
  | .lowerBounds =>
    "Network has edges with lower bounds (possibly already folded into offsets). " ++
      "Plain max-flow assumes zero lower bounds; use solve_circulation() with a " ++
      "demand vector instead."
  | .partitionSizes left right =>
    s!"Partition sizes must be non-negative, got {left} and {right}"
  | .leftOutside left count => s!"Left vertex {left} outside [0, {count})"
  | .rightOutside right count => s!"Right vertex {right} outside [0, {count})"

/-- The vertex that a structural fault blames, when it blames one. -/
def vertex? {α : Type} : StructuralFault α → Option Int
  | .notEndpoint vertex _ _ => some vertex
  | .outsideRange _ vertex _ => some vertex
  | .demandNotFinite vertex _ => some vertex
  | .demandOutside vertex _ => some vertex
  | .sourceIsSink vertex => some vertex
  | .leftOutside left _ => some left
  | .rightOutside right _ => some right
  | _ => none

end StructuralFault

def ConfigurationFault.message : ConfigurationFault Number → String
  | .tolerance value =>
    s!"Tolerance must be finite and non-negative, got {value.text}. " ++
      "Tolerance decides when a residual capacity counts as saturated."
  | .interval value => s!"progress_interval must be positive, got {value}"

def ProblemFault.message : ProblemFault → Text
  | .repeatedVertex name =>
    "Duplicate vertex id '" ++ name ++ "'. Each vertex must have a unique identifier."
  | .unknownEndpoint role name =>
    s!"Edge {role} '" ++ name ++ "' not found in vertex set. All edge endpoints " ++
      "must reference existing vertices."
  | .noCapacity tail head =>
    "Edge " ++ tail ++ " -> " ++ head ++ " has no capacity. Every edge needs a finite capacity."
  | .oneTerminal =>
    "Max-flow problems need both 'source' and 'sink'; circulation problems need neither."
  | .unknownTerminal role name => s!"{role} '" ++ name ++ "' not found in vertex set."
  | .unknownVertex name => "Unknown vertex '" ++ name ++ "'"
  | .edgeShape edge =>
    "Invalid edge specification: " ++ edge ++
      ". Each edge must have 'tail' and 'head' fields."
  | .problemShape vertices edges =>
    "Invalid problem format: JSON must include 'vertices' (or 'nodes') and 'edges' " ++
      s!"(or 'arcs') arrays. Got vertices type: {vertices}, edges type: {edges}"

def ShapeFault.message : ShapeFault → String
  | .wrongKind => "a value has the wrong kind"
  | .noFields => "a value has no fields"
  | .missingField name => Text.quoted name
  | .notNumeral text => s!"could not convert string to float: {Text.quoted text}"

def Overflow.message : Overflow → String
  | .conversion => "int too large to convert to float"
  | .quotient => "integer division result too large for a float"
  | .position => "Python int too large to convert to C long"
  | .size => "cannot fit 'int' into an index-sized integer"

/-- The text on an integer with too many digits, with what is known of it. -/
private def tooLong (known : String) : String :=
  s!"Exceeds the limit ({Number.digitLimit} digits) for integer string conversion{known}; " ++
    "use sys.set_int_max_str_digits() to increase the limit"

def Json.ReadFault.message : Json.ReadFault → String
  | .malformed => "the text is not JSON"
  | .tooDeep => "the values are nested too deep"
  | .longInteger digits => tooLong s!": value has {digits} digits"

def SurrogateRun.message (run : SurrogateRun) : String :=
  let place :=
    match run.codes with
    | [code] => "character '\\u" ++ Text.hexDigits 4 code ++ s!"' in position {run.position}"
    | codes => s!"characters in position {run.position}-{run.position + codes.length - 1}"
  s!"'utf-8' codec can't encode {place}: surrogates not allowed"

/-- The text of the failure of a layout. -/
def layoutFailure (layout : String) : String :=
  s!"{layout} failed"

def Fault.message : Fault Number → Text
  | .structural cause => cause.message
  | .configuration cause => cause.message
  | .problem cause => cause.message
  | .shape cause => cause.message
  | .overflow cause => cause.message
  | .reading cause => cause.message
  | .longNumber => tooLong ""
  | .notUnicode => "the bytes are not UTF-8"
  | .notEncodable run => run.message
  | .noFile => "there is no such file"
  | .noPosition => "there is nothing at this position"
  | .noRoom => ""
  | .missingEntry key => toString key
  | .unknownNetwork name => Text.quoted name
  | .noFinder => "there is no finder"
  | .noResult => "there is no result"
  | .noProblem => "there is no problem"
  | .halted augmentation => s!"stopped at {augmentation}"
  | .noDrawing =>
    "Visualization requires optional dependencies. " ++
      "Install with: pip install 'flow_solver[visualization]'"
  | .layoutFailed layout => layoutFailure layout
  | .unfinished => "the search for augmenting paths did not end"

end NetworkFlow
