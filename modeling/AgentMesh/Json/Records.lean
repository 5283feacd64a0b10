import AgentMesh.Config
import AgentMesh.Json.Decode
import AgentMesh.Model

/-!
# Nodes, models and settings as documents

Every field is required, except in settings, where a field left out keeps its default.
-/

namespace AgentMesh

/-! ## Resources and nodes -/

namespace Gpu

def fieldNames : List String := ["name", "memory_mb", "uuid"]

def toJson (g : Gpu) : Json :=
  .record [("name", .str g.name), ("memory_mb", .int g.memoryMb.toInt), ("uuid", .str g.uuid)]

def ofJson? (v : Json) : Option Gpu := do
  match ← Json.fields fieldNames v with
  | [name, memory, uuid] =>
      return { name := ← name.asString, memoryMb := ← memory.asInt64, uuid := ← uuid.asString }
  | _ => none

end Gpu

namespace Resources

def fieldNames : List String := ["cpu_cores", "memory_mb", "gpus", "max_layers", "used_layers"]

def toJson (r : Resources) : Json :=
  .record [("cpu_cores", .int r.cpuCores.toInt), ("memory_mb", .int r.memoryMb.toInt),
    ("gpus", .array (r.gpus.map Gpu.toJson)), ("max_layers", .int r.maxLayers.toInt),
    ("used_layers", .int r.usedLayers.toInt)]

def ofJson? (v : Json) : Option Resources := do
  match ← Json.fields fieldNames v with
  | [cores, memory, gpus, maxLayers, used] =>
      return { cpuCores := ← cores.asInt64, memoryMb := ← memory.asInt64,
               gpus := ← gpus.asList Gpu.ofJson?, maxLayers := ← maxLayers.asInt32,
               usedLayers := ← used.asInt32 }
  | _ => none

end Resources

namespace NodeStatus

def toJson (s : NodeStatus) : Json := .str s.name

def ofJson? (v : Json) : Option NodeStatus := do
  ofName? (← v.asMark)

end NodeStatus

namespace Node

def fieldNames : List String := ["id", "address", "port", "resources", "status", "last_seen"]

def toJson (n : Node) : Json :=
  .record [("id", .str n.id), ("address", .str n.address), ("port", .nat n.port.toNat),
    ("resources", n.resources.toJson), ("status", n.status.toJson), ("last_seen", .nat n.lastSeen)]

def ofJson? (v : Json) : Option Node := do
  match ← Json.fields fieldNames v with
  | [id, address, port, resources, status, lastSeen] =>
      return { id := ← id.asString, address := ← address.asString, port := ← port.asUInt16,
               resources := ← Resources.ofJson? resources, status := ← NodeStatus.ofJson? status,
               lastSeen := ← lastSeen.asCount }
  | _ => none

end Node

/-! ## Models and clusters -/

namespace Model

def fieldNames : List String := ["id", "name", "version", "layer_count", "file_path", "size"]

def toJson (m : Model) : Json :=
  .record [("id", .str m.id), ("name", .str m.name), ("version", .str m.version),
    ("layer_count", .int m.layerCount.toInt), ("file_path", .str m.filePath),
    ("size", .int m.size.toInt)]

def ofJson? (v : Json) : Option Model := do
  match ← Json.fields fieldNames v with
  | [id, name, version, layers, path, size] =>
      return { id := ← id.asString, name := ← name.asString, version := ← version.asString,
               layerCount := ← layers.asInt32, filePath := ← path.asString, size := ← size.asInt64 }
  | _ => none

end Model

namespace ClusterState

def toJson (c : ClusterState) : Json :=
  .record [("nodes", .array (c.nodes.map Node.toJson)), ("models", .array (c.models.map Model.toJson))]

def ofJson? (v : Json) : Option ClusterState := do
  match ← Json.fields ["nodes", "models"] v with
  | [nodes, models] =>
      return { nodes := ← nodes.asList Node.ofJson?, models := ← models.asList Model.ofJson? }
  | _ => none

end ClusterState

/-! ## Settings -/

namespace AgentConfig

def fieldNames : List String :=
  ["node_id", "bind_port", "gossip_port", "metrics_port", "seeds", "max_layers", "gpus"]

def toJson (c : AgentConfig) : Json :=
  .record [("node_id", match c.nodeId with
      | none => .null
      | some id => .str id),
    ("bind_port", .nat c.bindPort.toNat), ("gossip_port", .nat c.gossipPort.toNat),
    ("metrics_port", .nat c.metricsPort.toNat), ("seeds", .array (c.seeds.map Json.str)),
    ("max_layers", .int c.maxLayers.toInt), ("gpus", .array (c.gpus.map Gpu.toJson))]

def ofJson? (v : Json) : Option AgentConfig := do
  let d : AgentConfig := {}
  match ← Json.givenFields fieldNames v with
  | [nodeId, bind, gossip, metrics, seeds, maxLayers, gpus] =>
      return { nodeId := ← Json.orElse d.nodeId (Json.asOption Json.asString) nodeId,
               bindPort := ← Json.orElse d.bindPort Json.asUInt16 bind,
               gossipPort := ← Json.orElse d.gossipPort Json.asUInt16 gossip,
               metricsPort := ← Json.orElse d.metricsPort Json.asUInt16 metrics,
               seeds := ← Json.orElse d.seeds (Json.asList Json.asString) seeds,
               maxLayers := ← Json.orElse d.maxLayers Json.asInt32 maxLayers,
               gpus := ← Json.orElse d.gpus (Json.asList Gpu.ofJson?) gpus }
  | _ => none

end AgentConfig

namespace ConsoleConfig

def fieldNames : List String := ["mode", "seeds", "k8s_namespace", "update_buffer"]

def toJson (c : ConsoleConfig) : Json :=
  .record [("mode", .str c.mode.name), ("seeds", .array (c.seeds.map Json.str)),
    ("k8s_namespace", .str c.namespaceName), ("update_buffer", .nat c.updateBuffer)]

def ofJson? (v : Json) : Option ConsoleConfig := do
  let d : ConsoleConfig := {}
  match ← Json.givenFields fieldNames v with
  | [mode, seeds, name, buffer] =>
      return { mode := ← Json.orElse d.mode (fun v => do ConsoleMode.ofName? (← v.asMark)) mode,
               seeds := ← Json.orElse d.seeds (Json.asList Json.asString) seeds,
               namespaceName := ← Json.orElse d.namespaceName Json.asString name,
               updateBuffer := ← Json.orElse d.updateBuffer Json.asCount buffer }
  | _ => none

end ConsoleConfig

end AgentMesh
