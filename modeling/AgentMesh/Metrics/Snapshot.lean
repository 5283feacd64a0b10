import AgentMesh.Json.Double
import AgentMesh.Json.Records
import AgentMesh.Metrics.Collector

/-!
# Snapshots of a collector

A snapshot lists everything a collector knows at one moment, each kind of series in the order of its labels.
Percentiles are taken from the sorted durations, at the positions one half and 99 hundredths of their number. Times are
told in milliseconds.
-/

namespace AgentMesh.Metrics

def milliseconds (micros : Nat) : Float :=
  (UInt64.ofNat micros).toFloat / 1000.0

/-! ## Percentiles -/

/-- The sample at a position, or the last one; zero if there is none. -/
def sampleAt (sorted : List Nat) (i : Nat) : Nat :=
  sorted.getD (min i (sorted.length - 1)) 0

/-- A share of a number of samples as a position, computed in double precision. -/
def rank (share : Float) (n : Nat) : Nat :=
  ((UInt64.ofNat n).toFloat * share).toUInt64.toNat

/-- The sample above a share of the others. -/
def percentile (share : Float) (sorted : List Nat) : Float :=
  milliseconds (sampleAt sorted (rank share sorted.length))

def percentiles (samples : List Nat) : Float × Float :=
  let sorted := samples.mergeSort (· ≤ ·)
  (percentile 0.5 sorted, percentile 0.99 sorted)

/-! ## Snapshots -/

structure MessageCount where
  direction : String
  kind : String
  count : Nat
deriving Repr, DecidableEq, Inhabited

structure LatencySummary where
  target : String
  operation : String
  samples : Nat
  p50Ms : Float
  p99Ms : Float
deriving Repr, DecidableEq, Inhabited

structure InferenceSummary where
  model : String
  status : String
  requests : Nat
  tokens : Nat
  averageMs : Float
deriving Repr, DecidableEq, Inhabited

/-- The mean duration; zero without requests. -/
def Inferences.averageMs (s : Inferences) : Float :=
  if s.requests = 0 then 0.0
  else (UInt64.ofNat s.totalMicros).toFloat / (UInt64.ofNat s.requests).toFloat / 1000.0

structure Snapshot where
  nodeId : String
  uptimeSecs : Nat
  status : NodeStatus
  connections : Nat
  cpuCores : Int64
  memoryMb : Int64
  gpuCount : Nat
  maxLayers : Int64
  usedLayers : Int64
  messages : List MessageCount
  latencies : List LatencySummary
  inferences : List InferenceSummary
deriving Repr, DecidableEq, Inhabited

def Collector.snapshot (c : Collector) (uptimeSecs : Nat) : Snapshot where
  nodeId := c.nodeId
  uptimeSecs := uptimeSecs
  status := c.status
  connections := c.connections
  cpuCores := c.cpuCores
  memoryMb := c.memoryMb
  gpuCount := c.gpuCount
  maxLayers := c.maxLayers
  usedLayers := c.usedLayers
  messages := c.messages.toList.map fun (k, n) => ⟨k.subject, k.detail, n⟩
  latencies := c.latencies.toList.map fun (k, window) =>
    let (p50, p99) := percentiles window
    ⟨k.subject, k.detail, window.length, p50, p99⟩
  inferences := c.inferences.toList.map fun (k, s) =>
    ⟨k.subject, k.detail, s.requests, s.tokens, s.averageMs⟩

/-! ## Snapshots as documents -/

def MessageCount.toJson (m : MessageCount) : Json :=
  .record [("direction", .str m.direction), ("kind", .str m.kind), ("count", .nat m.count)]

def LatencySummary.toJson (l : LatencySummary) : Json :=
  .record [("target", .str l.target), ("operation", .str l.operation), ("samples", .nat l.samples),
    ("p50_ms", .ofDouble l.p50Ms), ("p99_ms", .ofDouble l.p99Ms)]

def InferenceSummary.toJson (i : InferenceSummary) : Json :=
  .record [("model_id", .str i.model), ("status", .str i.status), ("requests", .nat i.requests),
    ("tokens", .nat i.tokens), ("avg_duration_ms", .ofDouble i.averageMs)]

def Snapshot.toJson (s : Snapshot) : Json :=
  .record [("node_id", .str s.nodeId), ("uptime_secs", .nat s.uptimeSecs),
    ("node_status", s.status.toJson), ("connections", .nat s.connections),
    ("cpu_cores", .int s.cpuCores.toInt), ("memory_mb", .int s.memoryMb.toInt),
    ("gpu_count", .nat s.gpuCount), ("max_layers", .int s.maxLayers.toInt),
    ("used_layers", .int s.usedLayers.toInt),
    ("messages", .array (s.messages.map MessageCount.toJson)),
    ("latencies", .array (s.latencies.map LatencySummary.toJson)),
    ("inference", .array (s.inferences.map InferenceSummary.toJson))]

end AgentMesh.Metrics
