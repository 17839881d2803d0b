import NetworkFlow.Message
import NetworkFlow.Samples

namespace NetworkFlow.Samples

/-- The bytes of a file, when it can be read. -/
def readIfPresent (name : String) : IO (Option ByteArray) :=
  try some <$> IO.FS.readBinFile name catch _ => return none

/-- The bytes of every problem. -/
def readProblems : IO (List (String × Option ByteArray)) :=
  names.mapM fun name => do return (problemFile name, ← readIfPresent (problemFile name))

end NetworkFlow.Samples

open NetworkFlow

def main : IO UInt32 := do
  let problems ← Samples.readProblems
  let (outcome, output) := Samples.run fun name => (Entries.find? problems name).join
  for (name, content) in output.files do
    IO.FS.writeFile name content
  IO.print output.printed
  match outcome with
  | .ok _ => return 0
  | .error fault =>
    IO.eprintln fault.message
    return 1
