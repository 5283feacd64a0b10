import AgentMesh.Model
import AgentMesh.Wire.Message

/-!
# The messages of the services

Every message that the node, discovery and console services exchange, with the numbers of its fields.
Graphics cards and resources are messages as they are.
-/

namespace AgentMesh.Wire

/-! ## Shared messages -/

instance : Message Gpu where
  empty := {}
  fields := [
    .scalar .string 1 "name" (·.name) fun v m => { m with name := v },
    .scalar .int64 2 "memory_mb" (·.memoryMb) fun v m => { m with memoryMb := v },
    .scalar .string 3 "uuid" (·.uuid) fun v m => { m with uuid := v }]

instance : Message Resources where
  empty := {}
  fields := [
    .scalar .int64 1 "cpu_cores" (·.cpuCores) fun v m => { m with cpuCores := v },
    .scalar .int64 2 "memory_mb" (·.memoryMb) fun v m => { m with memoryMb := v },
    .messages 3 "gpus" (·.gpus) fun v m => { m with gpus := v },
    .scalar .int32 4 "max_layers" (·.maxLayers) fun v m => { m with maxLayers := v },
    .scalar .int32 5 "used_layers" (·.usedLayers) fun v m => { m with usedLayers := v }]

structure NodeInfo where
  nodeId : String := ""
  address : String := ""
  port : Int32 := 0
  resources : Option Resources := none
  /-- `online`, `offline` or `busy`. -/
  status : String := ""
  /-- Seconds since the Unix epoch. -/
  lastSeen : Int64 := 0
deriving Repr, DecidableEq, Inhabited

instance : Message NodeInfo where
  empty := {}
  fields := [
    .scalar .string 1 "node_id" (·.nodeId) fun v m => { m with nodeId := v },
    .scalar .string 2 "address" (·.address) fun v m => { m with address := v },
    .scalar .int32 3 "port" (·.port) fun v m => { m with port := v },
    .message 4 "resources" (·.resources) fun v m => { m with resources := v },
    .scalar .string 5 "status" (·.status) fun v m => { m with status := v },
    .scalar .int64 6 "last_seen" (·.lastSeen) fun v m => { m with lastSeen := v }]

structure ModelInfo where
  id : String := ""
  name : String := ""
  version : String := ""
  layerCount : Int32 := 0
  filePath : String := ""
  sizeBytes : Int64 := 0
  nodeAssignments : List String := []
deriving Repr, DecidableEq, Inhabited

instance : Message ModelInfo where
  empty := {}
  fields := [
    .scalar .string 1 "id" (·.id) fun v m => { m with id := v },
    .scalar .string 2 "name" (·.name) fun v m => { m with name := v },
    .scalar .string 3 "version" (·.version) fun v m => { m with version := v },
    .scalar .int32 4 "layer_count" (·.layerCount) fun v m => { m with layerCount := v },
    .scalar .string 5 "file_path" (·.filePath) fun v m => { m with filePath := v },
    .scalar .int64 6 "size_bytes" (·.sizeBytes) fun v m => { m with sizeBytes := v },
    .scalars .string 7 "node_assignments" (·.nodeAssignments) fun v m => { m with nodeAssignments := v }]

structure ClusterMetrics where
  totalNodes : Int32 := 0
  healthyNodes : Int32 := 0
  totalMemoryMb : Int64 := 0
  availableMemoryMb : Int64 := 0
  totalGpus : Int32 := 0
  totalLayers : Int32 := 0
  allocatedLayers : Int32 := 0
  /-- The percentage of all layers that is assigned. -/
  clusterUtilization : Single := {}
deriving Repr, DecidableEq, Inhabited

instance : Message ClusterMetrics where
  empty := {}
  fields := [
    .scalar .int32 1 "total_nodes" (·.totalNodes) fun v m => { m with totalNodes := v },
    .scalar .int32 2 "healthy_nodes" (·.healthyNodes) fun v m => { m with healthyNodes := v },
    .scalar .int64 3 "total_memory_mb" (·.totalMemoryMb) fun v m => { m with totalMemoryMb := v },
    .scalar .int64 4 "available_memory_mb" (·.availableMemoryMb) fun v m => { m with availableMemoryMb := v },
    .scalar .int32 5 "total_gpus" (·.totalGpus) fun v m => { m with totalGpus := v },
    .scalar .int32 6 "total_layers" (·.totalLayers) fun v m => { m with totalLayers := v },
    .scalar .int32 7 "allocated_layers" (·.allocatedLayers) fun v m => { m with allocatedLayers := v },
    .scalar .single 8 "cluster_utilization" (·.clusterUtilization)
      fun v m => { m with clusterUtilization := v }]

structure NodeMetrics where
  nodeId : String := ""
  timestamp : Int64 := 0
  status : String := ""
  cpuCores : Int64 := 0
  memoryMb : Int64 := 0
  totalMemoryMb : Int64 := 0
  gpuCount : Int32 := 0
  maxLayers : Int32 := 0
  usedLayers : Int32 := 0
  availableLayers : Int32 := 0
  peerCount : Int32 := 0
  uptimeSeconds : Int64 := 0
deriving Repr, DecidableEq, Inhabited

instance : Message NodeMetrics where
  empty := {}
  fields := [
    .scalar .string 1 "node_id" (·.nodeId) fun v m => { m with nodeId := v },
    .scalar .int64 2 "timestamp" (·.timestamp) fun v m => { m with timestamp := v },
    .scalar .string 3 "status" (·.status) fun v m => { m with status := v },
    .scalar .int64 4 "cpu_cores" (·.cpuCores) fun v m => { m with cpuCores := v },
    .scalar .int64 5 "memory_mb" (·.memoryMb) fun v m => { m with memoryMb := v },
    .scalar .int64 6 "total_memory_mb" (·.totalMemoryMb) fun v m => { m with totalMemoryMb := v },
    .scalar .int32 7 "gpu_count" (·.gpuCount) fun v m => { m with gpuCount := v },
    .scalar .int32 8 "max_layers" (·.maxLayers) fun v m => { m with maxLayers := v },
    .scalar .int32 9 "used_layers" (·.usedLayers) fun v m => { m with usedLayers := v },
    .scalar .int32 10 "available_layers" (·.availableLayers) fun v m => { m with availableLayers := v },
    .scalar .int32 11 "peer_count" (·.peerCount) fun v m => { m with peerCount := v },
    .scalar .int64 12 "uptime_seconds" (·.uptimeSeconds) fun v m => { m with uptimeSeconds := v }]

/-! ## The node service -/

structure RegisterNodeRequest where
  nodeId : String := ""
  address : String := ""
  port : Int32 := 0
  resources : Option Resources := none
deriving Repr, DecidableEq, Inhabited

instance : Message RegisterNodeRequest where
  empty := {}
  fields := [
    .scalar .string 1 "node_id" (·.nodeId) fun v m => { m with nodeId := v },
    .scalar .string 2 "address" (·.address) fun v m => { m with address := v },
    .scalar .int32 3 "port" (·.port) fun v m => { m with port := v },
    .message 4 "resources" (·.resources) fun v m => { m with resources := v }]

structure RegisterNodeResponse where
  success : Bool := false
  message : String := ""
deriving Repr, DecidableEq, Inhabited

instance : Message RegisterNodeResponse where
  empty := {}
  fields := [
    .scalar .bool 1 "success" (·.success) fun v m => { m with success := v },
    .scalar .string 2 "message" (·.message) fun v m => { m with message := v }]

structure GetResourcesRequest where
  nodeId : String := ""
deriving Repr, DecidableEq, Inhabited

instance : Message GetResourcesRequest where
  empty := {}
  fields := [
    .scalar .string 1 "node_id" (·.nodeId) fun v m => { m with nodeId := v }]

structure GetResourcesResponse where
  resources : Option Resources := none
  availableLayers : Int32 := 0
deriving Repr, DecidableEq, Inhabited

instance : Message GetResourcesResponse where
  empty := {}
  fields := [
    .message 1 "resources" (·.resources) fun v m => { m with resources := v },
    .scalar .int32 2 "available_layers" (·.availableLayers) fun v m => { m with availableLayers := v }]

structure InferenceRequest where
  requestId : String := ""
  modelId : String := ""
  prompt : String := ""
  maxTokens : Int32 := 0
deriving Repr, DecidableEq, Inhabited

instance : Message InferenceRequest where
  empty := {}
  fields := [
    .scalar .string 1 "request_id" (·.requestId) fun v m => { m with requestId := v },
    .scalar .string 2 "model_id" (·.modelId) fun v m => { m with modelId := v },
    .scalar .string 3 "prompt" (·.prompt) fun v m => { m with prompt := v },
    .scalar .int32 4 "max_tokens" (·.maxTokens) fun v m => { m with maxTokens := v }]

structure InferenceResponse where
  requestId : String := ""
  generatedText : String := ""
  success : Bool := false
  error : String := ""
  tokensGenerated : Int32 := 0
deriving Repr, DecidableEq, Inhabited

instance : Message InferenceResponse where
  empty := {}
  fields := [
    .scalar .string 1 "request_id" (·.requestId) fun v m => { m with requestId := v },
    .scalar .string 2 "generated_text" (·.generatedText) fun v m => { m with generatedText := v },
    .scalar .bool 3 "success" (·.success) fun v m => { m with success := v },
    .scalar .string 4 "error" (·.error) fun v m => { m with error := v },
    .scalar .int32 5 "tokens_generated" (·.tokensGenerated) fun v m => { m with tokensGenerated := v }]

structure HealthCheckRequest where
  nodeId : String := ""
deriving Repr, DecidableEq, Inhabited

instance : Message HealthCheckRequest where
  empty := {}
  fields := [
    .scalar .string 1 "node_id" (·.nodeId) fun v m => { m with nodeId := v }]

structure HealthCheckResponse where
  healthy : Bool := false
  status : String := ""
  uptimeSeconds : Int64 := 0
deriving Repr, DecidableEq, Inhabited

instance : Message HealthCheckResponse where
  empty := {}
  fields := [
    .scalar .bool 1 "healthy" (·.healthy) fun v m => { m with healthy := v },
    .scalar .string 2 "status" (·.status) fun v m => { m with status := v },
    .scalar .int64 3 "uptime_seconds" (·.uptimeSeconds) fun v m => { m with uptimeSeconds := v }]

structure GetPeersRequest where
  nodeId : String := ""
deriving Repr, DecidableEq, Inhabited

instance : Message GetPeersRequest where
  empty := {}
  fields := [
    .scalar .string 1 "node_id" (·.nodeId) fun v m => { m with nodeId := v }]

structure GetPeersResponse where
  peers : List NodeInfo := []
deriving Repr, DecidableEq, Inhabited

instance : Message GetPeersResponse where
  empty := {}
  fields := [
    .messages 1 "peers" (·.peers) fun v m => { m with peers := v }]

structure GetMetricsRequest where
  nodeId : String := ""
deriving Repr, DecidableEq, Inhabited

instance : Message GetMetricsRequest where
  empty := {}
  fields := [
    .scalar .string 1 "node_id" (·.nodeId) fun v m => { m with nodeId := v }]

structure GetMetricsResponse where
  metrics : Option NodeMetrics := none
deriving Repr, DecidableEq, Inhabited

instance : Message GetMetricsResponse where
  empty := {}
  fields := [
    .message 1 "metrics" (·.metrics) fun v m => { m with metrics := v }]

structure StreamMetricsRequest where
  nodeId : String := ""
  /-- The time between two messages; at least one second. -/
  intervalSeconds : Int32 := 0
deriving Repr, DecidableEq, Inhabited

instance : Message StreamMetricsRequest where
  empty := {}
  fields := [
    .scalar .string 1 "node_id" (·.nodeId) fun v m => { m with nodeId := v },
    .scalar .int32 2 "interval_seconds" (·.intervalSeconds) fun v m => { m with intervalSeconds := v }]

/-! ## The discovery service -/

structure DiscoveryRequest where
  requesterId : String := ""
  knownNodes : List String := []
deriving Repr, DecidableEq, Inhabited

instance : Message DiscoveryRequest where
  empty := {}
  fields := [
    .scalar .string 1 "requester_id" (·.requesterId) fun v m => { m with requesterId := v },
    .scalars .string 2 "known_nodes" (·.knownNodes) fun v m => { m with knownNodes := v }]

structure DiscoveryResponse where
  discoveredNodes : List NodeInfo := []
  success : Bool := false
  message : String := ""
deriving Repr, DecidableEq, Inhabited

instance : Message DiscoveryResponse where
  empty := {}
  fields := [
    .messages 1 "discovered_nodes" (·.discoveredNodes) fun v m => { m with discoveredNodes := v },
    .scalar .bool 2 "success" (·.success) fun v m => { m with success := v },
    .scalar .string 3 "message" (·.message) fun v m => { m with message := v }]

structure ClusterJoinRequest where
  nodeId : String := ""
  address : String := ""
  port : Int32 := 0
  resources : Option Resources := none
  seedNodes : List String := []
deriving Repr, DecidableEq, Inhabited

instance : Message ClusterJoinRequest where
  empty := {}
  fields := [
    .scalar .string 1 "node_id" (·.nodeId) fun v m => { m with nodeId := v },
    .scalar .string 2 "address" (·.address) fun v m => { m with address := v },
    .scalar .int32 3 "port" (·.port) fun v m => { m with port := v },
    .message 4 "resources" (·.resources) fun v m => { m with resources := v },
    .scalars .string 5 "seed_nodes" (·.seedNodes) fun v m => { m with seedNodes := v }]

structure ClusterJoinResponse where
  success : Bool := false
  message : String := ""
  existingNodes : List NodeInfo := []
  clusterId : String := ""
deriving Repr, DecidableEq, Inhabited

instance : Message ClusterJoinResponse where
  empty := {}
  fields := [
    .scalar .bool 1 "success" (·.success) fun v m => { m with success := v },
    .scalar .string 2 "message" (·.message) fun v m => { m with message := v },
    .messages 3 "existing_nodes" (·.existingNodes) fun v m => { m with existingNodes := v },
    .scalar .string 4 "cluster_id" (·.clusterId) fun v m => { m with clusterId := v }]

structure ClusterLeaveRequest where
  nodeId : String := ""
  reason : String := ""
deriving Repr, DecidableEq, Inhabited

instance : Message ClusterLeaveRequest where
  empty := {}
  fields := [
    .scalar .string 1 "node_id" (·.nodeId) fun v m => { m with nodeId := v },
    .scalar .string 2 "reason" (·.reason) fun v m => { m with reason := v }]

structure ClusterLeaveResponse where
  success : Bool := false
  message : String := ""
deriving Repr, DecidableEq, Inhabited

instance : Message ClusterLeaveResponse where
  empty := {}
  fields := [
    .scalar .bool 1 "success" (·.success) fun v m => { m with success := v },
    .scalar .string 2 "message" (·.message) fun v m => { m with message := v }]

structure ClusterInfoRequest where
  requesterId : String := ""
deriving Repr, DecidableEq, Inhabited

instance : Message ClusterInfoRequest where
  empty := {}
  fields := [
    .scalar .string 1 "requester_id" (·.requesterId) fun v m => { m with requesterId := v }]

structure ClusterInfoResponse where
  clusterId : String := ""
  nodes : List NodeInfo := []
  models : List ModelInfo := []
  metrics : Option ClusterMetrics := none
deriving Repr, DecidableEq, Inhabited

instance : Message ClusterInfoResponse where
  empty := {}
  fields := [
    .scalar .string 1 "cluster_id" (·.clusterId) fun v m => { m with clusterId := v },
    .messages 2 "nodes" (·.nodes) fun v m => { m with nodes := v },
    .messages 3 "models" (·.models) fun v m => { m with models := v },
    .message 4 "metrics" (·.metrics) fun v m => { m with metrics := v }]

/-! ## The console service -/

structure NodeListRequest where
  requesterId : String := ""
  includeMetrics : Bool := false
deriving Repr, DecidableEq, Inhabited

instance : Message NodeListRequest where
  empty := {}
  fields := [
    .scalar .string 1 "requester_id" (·.requesterId) fun v m => { m with requesterId := v },
    .scalar .bool 2 "include_metrics" (·.includeMetrics) fun v m => { m with includeMetrics := v }]

structure NodeListResponse where
  nodes : List NodeInfo := []
  clusterMetrics : Option ClusterMetrics := none
deriving Repr, DecidableEq, Inhabited

instance : Message NodeListResponse where
  empty := {}
  fields := [
    .messages 1 "nodes" (·.nodes) fun v m => { m with nodes := v },
    .message 2 "cluster_metrics" (·.clusterMetrics) fun v m => { m with clusterMetrics := v }]

structure ModelListRequest where
  requesterId : String := ""
deriving Repr, DecidableEq, Inhabited

instance : Message ModelListRequest where
  empty := {}
  fields := [
    .scalar .string 1 "requester_id" (·.requesterId) fun v m => { m with requesterId := v }]

structure ModelListResponse where
  models : List ModelInfo := []
deriving Repr, DecidableEq, Inhabited

instance : Message ModelListResponse where
  empty := {}
  fields := [
    .messages 1 "models" (·.models) fun v m => { m with models := v }]

structure UpdateStreamRequest where
  requesterId : String := ""
  /-- Any of `nodes`, `models` and `metrics`; none means all three. -/
  updateTypes : List String := []
  intervalSeconds : Int32 := 0
deriving Repr, DecidableEq, Inhabited

instance : Message UpdateStreamRequest where
  empty := {}
  fields := [
    .scalar .string 1 "requester_id" (·.requesterId) fun v m => { m with requesterId := v },
    .scalars .string 2 "update_types" (·.updateTypes) fun v m => { m with updateTypes := v },
    .scalar .int32 3 "interval_seconds" (·.intervalSeconds) fun v m => { m with intervalSeconds := v }]

structure ClusterUpdate where
  updateType : String := ""
  timestamp : Int64 := 0
  nodes : List NodeInfo := []
  models : List ModelInfo := []
  metrics : Option ClusterMetrics := none
deriving Repr, DecidableEq, Inhabited

instance : Message ClusterUpdate where
  empty := {}
  fields := [
    .scalar .string 1 "update_type" (·.updateType) fun v m => { m with updateType := v },
    .scalar .int64 2 "timestamp" (·.timestamp) fun v m => { m with timestamp := v },
    .messages 3 "nodes" (·.nodes) fun v m => { m with nodes := v },
    .messages 4 "models" (·.models) fun v m => { m with models := v },
    .message 5 "metrics" (·.metrics) fun v m => { m with metrics := v }]

structure CommandRequest where
  requesterId : String := ""
  command : String := ""
  args : List String := []
deriving Repr, DecidableEq, Inhabited

instance : Message CommandRequest where
  empty := {}
  fields := [
    .scalar .string 1 "requester_id" (·.requesterId) fun v m => { m with requesterId := v },
    .scalar .string 2 "command" (·.command) fun v m => { m with command := v },
    .scalars .string 3 "args" (·.args) fun v m => { m with args := v }]

structure CommandResponse where
  success : Bool := false
  output : String := ""
  error : String := ""
  exitCode : Int32 := 0
deriving Repr, DecidableEq, Inhabited

instance : Message CommandResponse where
  empty := {}
  fields := [
    .scalar .bool 1 "success" (·.success) fun v m => { m with success := v },
    .scalar .string 2 "output" (·.output) fun v m => { m with output := v },
    .scalar .string 3 "error" (·.error) fun v m => { m with error := v },
    .scalar .int32 4 "exit_code" (·.exitCode) fun v m => { m with exitCode := v }]

/-! ## Message types by name -/

structure MessageType where
  M : Type
  [message : Message M]

instance (t : MessageType) : Message t.M := t.message

def messageType? : String → Option MessageType
  | "GpuInfo" => some { M := Gpu }
  | "ResourceInfo" => some { M := Resources }
  | "NodeInfo" => some { M := NodeInfo }
  | "ModelInfo" => some { M := ModelInfo }
  | "ClusterMetrics" => some { M := ClusterMetrics }
  | "NodeMetrics" => some { M := NodeMetrics }
  | "RegisterNodeRequest" => some { M := RegisterNodeRequest }
  | "RegisterNodeResponse" => some { M := RegisterNodeResponse }
  | "GetResourcesRequest" => some { M := GetResourcesRequest }
  | "GetResourcesResponse" => some { M := GetResourcesResponse }
  | "InferenceRequest" => some { M := InferenceRequest }
  | "InferenceResponse" => some { M := InferenceResponse }
  | "HealthCheckRequest" => some { M := HealthCheckRequest }
  | "HealthCheckResponse" => some { M := HealthCheckResponse }
  | "GetPeersRequest" => some { M := GetPeersRequest }
  | "GetPeersResponse" => some { M := GetPeersResponse }
  | "GetMetricsRequest" => some { M := GetMetricsRequest }
  | "GetMetricsResponse" => some { M := GetMetricsResponse }
  | "StreamMetricsRequest" => some { M := StreamMetricsRequest }
  | "DiscoveryRequest" => some { M := DiscoveryRequest }
  | "DiscoveryResponse" => some { M := DiscoveryResponse }
  | "ClusterJoinRequest" => some { M := ClusterJoinRequest }
  | "ClusterJoinResponse" => some { M := ClusterJoinResponse }
  | "ClusterLeaveRequest" => some { M := ClusterLeaveRequest }
  | "ClusterLeaveResponse" => some { M := ClusterLeaveResponse }
  | "ClusterInfoRequest" => some { M := ClusterInfoRequest }
  | "ClusterInfoResponse" => some { M := ClusterInfoResponse }
  | "NodeListRequest" => some { M := NodeListRequest }
  | "NodeListResponse" => some { M := NodeListResponse }
  | "ModelListRequest" => some { M := ModelListRequest }
  | "ModelListResponse" => some { M := ModelListResponse }
  | "UpdateStreamRequest" => some { M := UpdateStreamRequest }
  | "ClusterUpdate" => some { M := ClusterUpdate }
  | "CommandRequest" => some { M := CommandRequest }
  | "CommandResponse" => some { M := CommandResponse }
  | _ => none

end AgentMesh.Wire
