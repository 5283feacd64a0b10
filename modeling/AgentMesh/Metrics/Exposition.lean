import AgentMesh.Decimal.Fixed
import AgentMesh.Metrics.Snapshot

/-!
# Text exposition

A snapshot as text for a scraper. The text is a list of families; each has a help line, a type line, and one
line for each sample. Every sample carries the name of the node as its first label.
-/

namespace AgentMesh.Metrics

namespace Exposition

inductive Kind
  | gauge
  | counter
deriving Repr, DecidableEq, Inhabited

def Kind.name : Kind → String
  | gauge => "gauge"
  | counter => "counter"

/-- Label names with their values, and the text of the value. -/
structure Sample where
  labels : List (String × String)
  value : String
deriving Repr, DecidableEq, Inhabited

structure Family where
  name : String
  help : String
  kind : Kind
  samples : List Sample
deriving Repr, DecidableEq, Inhabited

/-! ## Text -/

/-- Writes a text in place of each occurrence of a character. -/
def substitute (c : Char) (text s : List Char) : List Char :=
  s.flatMap fun x => if x = c then text else [x]

/-- The backslashes of a text come first, since the other escapes bring their own. -/
def escape (s : String) : List Char :=
  let s := substitute '\\' ['\\', '\\'] s.toList
  let s := substitute '"' ['\\', '"'] s
  substitute '\n' ['\\', 'n'] s

def labelText (label : String × String) : List Char :=
  label.1.toList ++ '=' :: '"' :: (escape label.2 ++ ['"'])

def labelsText : List (String × String) → List Char
  | [] => []
  | [l] => labelText l
  | l :: r => labelText l ++ ',' :: labelsText r

def sampleLine (name : String) (s : Sample) : List Char :=
  name.toList ++ '\x7b' :: (labelsText s.labels ++ '\x7d' :: ' ' :: s.value.toList)

def Family.lines (f : Family) : List (List Char) :=
  ("# HELP " ++ f.name ++ " " ++ f.help).toList :: ("# TYPE " ++ f.name ++ " " ++ f.kind.name).toList ::
    f.samples.map (sampleLine f.name)

/-- Every line ends in a line feed. -/
def render (families : List Family) : String :=
  String.ofList ((families.flatMap Family.lines).flatMap fun line => line ++ ['\n'])

end Exposition

/-! ## The families of a snapshot -/

open Exposition

namespace Snapshot

/-- A gauge of the node as a whole. -/
def nodeGauge (s : Snapshot) (name help : String) (value : Int) : Family :=
  ⟨name, help, .gauge, [⟨[("node", s.nodeId)], toString value⟩]⟩

/-- A sample for each item of a list, with two labels beside the node. -/
def series {α : Type} (s : Snapshot) (items : List α) (labels : α → List (String × String))
    (value : α → String) : List Sample :=
  items.map fun x => ⟨("node", s.nodeId) :: labels x, value x⟩

def messageLabels (m : MessageCount) : List (String × String) :=
  [("direction", m.direction), ("kind", m.kind)]

def latencyLabels (l : LatencySummary) : List (String × String) :=
  [("target", l.target), ("operation", l.operation)]

def inferenceLabels (i : InferenceSummary) : List (String × String) :=
  [("model", i.model), ("status", i.status)]

def nodeFamilies (s : Snapshot) : List Family := [
  s.nodeGauge "llmesh_node_status" "Node status (0=offline, 1=online, 2=busy)." s.status.gauge,
  s.nodeGauge "llmesh_uptime_seconds" "Seconds since the collector started." s.uptimeSecs,
  s.nodeGauge "llmesh_network_connections" "Number of known peers." s.connections,
  s.nodeGauge "llmesh_cpu_cores" "CPU cores advertised by this node." s.cpuCores.toInt,
  s.nodeGauge "llmesh_memory_mb" "Total memory (RAM + VRAM) in megabytes." s.memoryMb.toInt,
  s.nodeGauge "llmesh_gpu_count" "Number of GPUs advertised by this node." s.gpuCount,
  s.nodeGauge "llmesh_layers_max" "Layer capacity of this node." s.maxLayers.toInt,
  s.nodeGauge "llmesh_layers_used" "Layers currently assigned to this node." s.usedLayers.toInt]

def seriesFamilies (s : Snapshot) : List Family := [
  ⟨"llmesh_network_messages_total", "Network messages by direction and kind.", .counter,
    s.series s.messages messageLabels fun m => toString m.count⟩,
  ⟨"llmesh_network_latency_p50_ms", "P50 operation latency in milliseconds.", .gauge,
    s.series s.latencies latencyLabels fun l => Decimal.fixed 2 l.p50Ms⟩,
  ⟨"llmesh_network_latency_p99_ms", "P99 operation latency in milliseconds.", .gauge,
    s.series s.latencies latencyLabels fun l => Decimal.fixed 2 l.p99Ms⟩,
  ⟨"llmesh_inference_requests_total", "Inference requests by model and status.", .counter,
    s.series s.inferences inferenceLabels fun i => toString i.requests⟩,
  ⟨"llmesh_inference_tokens_total", "Tokens generated by model.", .counter,
    s.series s.inferences inferenceLabels fun i => toString i.tokens⟩,
  ⟨"llmesh_inference_duration_avg_ms", "Mean inference duration in milliseconds.", .gauge,
    s.series s.inferences inferenceLabels fun i => Decimal.fixed 2 i.averageMs⟩]

def families (s : Snapshot) : List Family :=
  s.nodeFamilies ++ s.seriesFamilies

def exposition (s : Snapshot) : String :=
  Exposition.render s.families

end Snapshot

end AgentMesh.Metrics
