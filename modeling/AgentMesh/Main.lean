import AgentMesh.CommandLine.Invocation

/-!
# Command line

Reads the arguments, the environment and the settings file, and prints what the command shows.
-/

namespace AgentMesh.CommandLine

def loadSettings (path : Option String) : IO (Except String MeshConfig) := do
  match path with
  | none => return .ok {}
  | some path =>
      let contents ← try some <$> IO.FS.readBinFile path catch _ => pure none
      return (MeshConfig.ofFile contents).mapError fun _ => MeshConfig.loadContext path

def readEnvironment : IO Given :=
  environmentNames.filterMapM fun name => do return (← IO.getEnv name).map (name, ·)

/-- Prints what an invocation shows, and gives the code to end with. -/
def Invocation.run (i : Invocation) : IO UInt32 := do
  let hostname := (← IO.getEnv "HOSTNAME").getD "localhost"
  match (← loadSettings i.settingsPath).bind fun settings => i.command.run settings hostname with
  | .error reason =>
      IO.eprintln ("Error: " ++ reason)
      return 1
  | .ok text =>
      IO.print text
      return 0

end AgentMesh.CommandLine

def main (arguments : List String) : IO UInt32 := do
  match AgentMesh.CommandLine.Invocation.read arguments (← AgentMesh.CommandLine.readEnvironment) with
  | .error (.flag .displayHelp) =>
      IO.println AgentMesh.CommandLine.usage
      return 0
  | .error e =>
      IO.eprintln ("error: " ++ e.message)
      return 2
  | .ok invocation => invocation.run
