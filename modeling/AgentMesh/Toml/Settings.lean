import AgentMesh.Config
import AgentMesh.Toml.Printer
import AgentMesh.Toml.Reader

/-!
# Settings as TOML

How a settings file stands for the settings of agents and consoles. What is left out keeps its default, and
unknown entries do not count. A record is a table, or the list of its fields in order, of which further
items do not count. A date has none of the fields of any record.
-/

namespace AgentMesh

namespace Toml

/-! ## Typed readings -/

def asString : Toml → Option String
  | .string s => some s
  | _ => none

def asInt (low high : Int) : Toml → Option Int
  | .integer i => if low ≤ i ∧ i ≤ high then some i else none
  | _ => none

def asUInt16 (v : Toml) : Option UInt16 :=
  (asInt 0 65535 v).map fun i => UInt16.ofNat i.toNat

def asInt32 (v : Toml) : Option Int32 :=
  (asInt (-2147483648) 2147483647 v).map Int32.ofInt

def asInt64 (v : Toml) : Option Int64 :=
  (asInt (-9223372036854775808) 9223372036854775807 v).map Int64.ofInt

def asCount (v : Toml) : Option Nat :=
  (asInt 0 18446744073709551615 v).map Int.toNat

def items? : Toml → Option (List Toml)
  | .array items => some items
  | .tables elements => some (elements.map (.table .header))
  | _ => none

def asList {α : Type} (item : Toml → Option α) (v : Toml) : Option (List α) := do
  (← items? v).mapM item

def isEmpty : Toml → Bool
  | .array [] => true
  | .table _ [] => true
  | .tables [] => true
  | _ => false

/-- A mark is its name, or a table with the name as its only key and nothing in it. -/
def asMark : Toml → Option String
  | .string s => some s
  | .table _ [(name, v)] => if v.isEmpty then some name else none
  | _ => none

/-- The fields that are given, in the order of their names. -/
def givenFields (names : List String) (v : Toml) : Option (List (Option Toml)) :=
  match v with
  | .table _ entries => some (names.map (Entries.get? entries))
  | .date => some (names.map fun _ => none)
  | v => (items? v).map fun items => (List.range names.length).map fun i => items[i]?

def orElse {α : Type} (default : α) (item : Toml → Option α) : Option Toml → Option α
  | none => some default
  | some v => item v

end Toml

/-! ## Graphics cards -/

namespace Gpu

def ofToml? (v : Toml) : Option Gpu := do
  match ← Toml.givenFields ["name", "memory_mb", "uuid"] v with
  | [some name, some memory, some uuid] =>
      return { name := ← name.asString, memoryMb := ← memory.asInt64, uuid := ← uuid.asString }
  | _ => none

def toToml (g : Gpu) : Toml :=
  .table .inline [("name", .string g.name), ("memory_mb", .integer g.memoryMb.toInt),
    ("uuid", .string g.uuid)]

end Gpu

/-! ## Agents -/

namespace AgentConfig

def ofToml? (v : Toml) : Option AgentConfig := do
  let d : AgentConfig := {}
  match ← Toml.givenFields
      ["node_id", "bind_port", "gossip_port", "metrics_port", "seeds", "max_layers", "gpus"] v with
  | [nodeId, bind, gossip, metrics, seeds, maxLayers, gpus] =>
      return { nodeId := ← Toml.orElse d.nodeId (fun v => v.asString.map some) nodeId,
               bindPort := ← Toml.orElse d.bindPort Toml.asUInt16 bind,
               gossipPort := ← Toml.orElse d.gossipPort Toml.asUInt16 gossip,
               metricsPort := ← Toml.orElse d.metricsPort Toml.asUInt16 metrics,
               seeds := ← Toml.orElse d.seeds (Toml.asList Toml.asString) seeds,
               maxLayers := ← Toml.orElse d.maxLayers Toml.asInt32 maxLayers,
               gpus := ← Toml.orElse d.gpus (Toml.asList Gpu.ofToml?) gpus }
  | _ => none

/-- A name that is not set is left out. -/
def toToml (c : AgentConfig) : Toml :=
  let name := match c.nodeId with
    | none => []
    | some id => [("node_id", Toml.string id)]
  .table .header <| name ++
    [("bind_port", .integer c.bindPort.toNat), ("gossip_port", .integer c.gossipPort.toNat),
      ("metrics_port", .integer c.metricsPort.toNat), ("seeds", .array (c.seeds.map Toml.string)),
      ("max_layers", .integer c.maxLayers.toInt), ("gpus", .array (c.gpus.map Gpu.toToml))]

end AgentConfig

/-! ## Consoles -/

namespace ConsoleConfig

def ofToml? (v : Toml) : Option ConsoleConfig := do
  let d : ConsoleConfig := {}
  match ← Toml.givenFields ["mode", "seeds", "k8s_namespace", "update_buffer"] v with
  | [mode, seeds, name, buffer] =>
      return { mode := ← Toml.orElse d.mode (fun v => do ConsoleMode.ofName? (← v.asMark)) mode,
               seeds := ← Toml.orElse d.seeds (Toml.asList Toml.asString) seeds,
               namespaceName := ← Toml.orElse d.namespaceName Toml.asString name,
               updateBuffer := ← Toml.orElse d.updateBuffer Toml.asCount buffer }
  | _ => none

def toToml (c : ConsoleConfig) : Toml :=
  .table .header [("mode", .string c.mode.name), ("seeds", .array (c.seeds.map Toml.string)),
    ("k8s_namespace", .string c.namespaceName), ("update_buffer", .integer c.updateBuffer)]

end ConsoleConfig

/-! ## Whole files -/

namespace MeshConfig

def ofEntries? (root : Toml.Entries) : Option MeshConfig :=
  return { agent := ← Toml.orElse {} AgentConfig.ofToml? (root.get? "agent"),
           console := ← Toml.orElse {} ConsoleConfig.ofToml? (root.get? "console") }

def parse? (text : String) : Option MeshConfig := do
  ofEntries? (← Toml.parse text.toList)

/-- The settings as a text, every setting included. -/
def print (c : MeshConfig) : String :=
  Toml.printDocument [("agent", c.agent.toToml), ("console", c.console.toToml)]

inductive LoadError
  | unreadable
  | malformed
deriving Repr, DecidableEq, Inhabited

def loadContext (path : String) : String :=
  "loading config from " ++ path

/-- The settings in the contents of a file, if it could be read. -/
def ofFile (contents : Option ByteArray) : Except LoadError MeshConfig :=
  match contents.bind String.fromUTF8? with
  | none => .error .unreadable
  | some text =>
      match parse? text with
      | none => .error .malformed
      | some c => .ok c

end MeshConfig

end AgentMesh
