import AgentMesh.CommandLine.Settings
import AgentMesh.Discovery.Strategy
import AgentMesh.Service.Client
import AgentMesh.Toml.Settings

/-!
# Invocations

A command line names a command, and what the command needs. The settings file may be named anywhere on it.
A command shows the settings with which an agent or a console would start.
-/

namespace AgentMesh.CommandLine

inductive Command
  | agent (flags : AgentFlags)
  | console (flags : ConsoleFlags)
  | exec (address name : String) (arguments : List String)
deriving Repr, DecidableEq, Inhabited

structure Invocation where
  settingsPath : Option String
  command : Command
deriving Repr, DecidableEq, Inhabited

inductive UsageError
  | flag (e : FlagError)
  | noCommand
  | unknownCommand (name : String)
  | noTarget
deriving Repr, DecidableEq, Inhabited

def usage : String :=
  "usage: [--config FILE] agent | console | exec ADDRESS COMMAND [ARGUMENT ...]"

def UsageError.message : UsageError → String
  | .flag .unknownArgument => "unexpected argument"
  | .flag .invalidValue => "a value is required"
  | .flag .valueValidation => "invalid value"
  | .flag .argumentConflict => "arguments cannot be used together"
  | .flag .tooManyValues => "unexpected value"
  | .flag .displayHelp => usage
  | .noCommand => "a command is required"
  | .unknownCommand name => "unrecognized command " ++ name
  | .noTarget => "an address and a command are required"

/-- Takes the first option that names the settings file out of a command line. -/
def takeSettingsPath : List String → Option String × List String
  | [] => (none, [])
  | [argument] => (inline? argument, if (inline? argument).isSome then [] else [argument])
  | argument :: next :: rest =>
      if argument = "--config" then (some next, rest)
      else if (inline? argument).isSome then (inline? argument, next :: rest)
      else
        let (path, others) := takeSettingsPath (next :: rest)
        (path, argument :: others)
where
  inline? (argument : String) : Option String :=
    ("--config=".toList.isPrefixOf? argument.toList).map String.ofList

def Command.read (arguments : List String) (environment : Given) : Except UsageError Command :=
  match arguments with
  | [] => .error .noCommand
  | "agent" :: rest => ((AgentFlags.read rest environment).mapError .flag).map .agent
  | "console" :: rest => ((ConsoleFlags.read rest environment).mapError .flag).map .console
  | "exec" :: address :: name :: rest => .ok (.exec address name rest)
  | "exec" :: _ => .error .noTarget
  | "--help" :: _ => .error (.flag .displayHelp)
  | "-h" :: _ => .error (.flag .displayHelp)
  | other :: _ => .error (.unknownCommand other)

/-- The settings file may also be named by the environment. -/
def Invocation.read (arguments : List String) (environment : Given) : Except UsageError Invocation := do
  let (path, rest) := takeSettingsPath arguments
  return { settingsPath := path.or (environment.value? "LLMESH_CONFIG"),
           command := ← Command.read rest environment }

def environmentNames : List String :=
  "LLMESH_CONFIG" :: (AgentFlags.flags ++ ConsoleFlags.flags).filterMap (·.envName)

/-! ## Commands -/

/-- What a command shows once the settings file is read. No agent can be reached from here. -/
def Command.run (settings : MeshConfig) (hostname : String) : Command → Except String String
  | .agent flags => do
      let agent := flags.apply settings.agent
      let name ← (agent.startName hostname).mapError ValidationError.message
      return { settings with agent := { agent with nodeId := some name } }.print
  | .console flags =>
      let console := flags.apply settings.console
      let shown := { settings with console }
      .ok ("# strategy: " ++ (Discovery.Strategy.ofConsole console).name ++ "\n" ++ shown.print)
  | .exec address name arguments =>
      (Service.runCommand none address name arguments).map fun e => e.stdout

end AgentMesh.CommandLine
