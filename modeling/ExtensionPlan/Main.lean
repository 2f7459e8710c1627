import ExtensionPlan.CommandLine.Response
import ExtensionPlan.World.Snapshot

/-!
# The program

The arguments are a request, and the snapshot on standard input is where it is carried out.
-/

namespace ExtensionPlan

/-- The response to a command line in the surroundings that a snapshot describes. -/
def Snapshot.respond (snapshot : String) (arguments : List String) : CommandLine.Response :=
  match Snapshot.read snapshot with
  | .ok s => CommandLine.respond s.world arguments
  | .error e => ⟨2, "", e.message ++ "\n"⟩

end ExtensionPlan

/-- Answer one request. -/
def main (arguments : List String) : IO UInt32 := do
  let snapshot ← (← IO.getStdin).readToEnd
  let response := ExtensionPlan.Snapshot.respond snapshot arguments
  (← IO.getStdout).putStr response.stdout
  (← IO.getStderr).putStr response.stderr
  return response.exitCode.toUInt32
