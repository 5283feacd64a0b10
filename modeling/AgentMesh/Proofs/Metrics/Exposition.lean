import AgentMesh.Proofs.Metrics.TextFormat
import Mathlib.Data.List.Forall2
import Mathlib.Data.List.Nodup

/-!
# What the text exposition tells

The lines of an exposition are fixed but for the samples, and every sample is read back from its line. So no text that a
snapshot carries can break a line or pass for another series.
-/

namespace AgentMesh.Metrics

open Exposition

namespace Exposition

/-! ## What the lines are to tell -/

/-- A number that a scraper is told. -/
inductive Quantity
  | whole (i : Int)
  | measured (x : Float)
deriving Repr, DecidableEq

/-- A whole number is read back, and a measured one is written in hundredths. -/
def Quantity.WrittenAs : Quantity → String → Prop
  | whole i, text => Text.readSigned? text.toList = some i
  | measured x, text => text = Decimal.fixed 2 x

inductive Line
  | help (name text : String)
  | type (name : String) (kind : Kind)
  | sample (name : String) (labels : List (String × String)) (value : Quantity)
deriving Repr, DecidableEq

def Line.WrittenAs : Line → List Char → Prop
  | help name text, line => line = ("# HELP " ++ name ++ " " ++ text).toList
  | type name kind, line => line = ("# TYPE " ++ name ++ " " ++ kind.name).toList
  | sample name labels value, line => ∃ text, readSample? line = some ⟨name, labels, text⟩ ∧ value.WrittenAs text

/-- What a sample is told apart by. -/
def Line.key : Line → Option (String × List (String × String))
  | sample name labels _ => some (name, labels)
  | _ => none

def Reading.key (r : Reading) : String × List (String × String) :=
  (r.name, r.labels)

/-- A metric with its samples, each by its labels beside the node. -/
structure Metric where
  name : String
  help : String
  kind : Kind
  samples : List (List (String × String) × Quantity)
deriving Repr, DecidableEq

def Metric.lines (node : String) (m : Metric) : List Line :=
  .help m.name m.help :: .type m.name m.kind ::
    m.samples.map fun (labels, value) => .sample m.name (("node", node) :: labels) value

end Exposition

/-! ## The metrics of a snapshot -/

def Snapshot.nodeMetrics (s : Snapshot) : List Metric := [
  ⟨"llmesh_node_status", "Node status (0=offline, 1=online, 2=busy).", .gauge, [([], .whole s.status.gauge)]⟩,
  ⟨"llmesh_uptime_seconds", "Seconds since the collector started.", .gauge, [([], .whole s.uptimeSecs)]⟩,
  ⟨"llmesh_network_connections", "Number of known peers.", .gauge, [([], .whole s.connections)]⟩,
  ⟨"llmesh_cpu_cores", "CPU cores advertised by this node.", .gauge, [([], .whole s.cpuCores.toInt)]⟩,
  ⟨"llmesh_memory_mb", "Total memory (RAM + VRAM) in megabytes.", .gauge, [([], .whole s.memoryMb.toInt)]⟩,
  ⟨"llmesh_gpu_count", "Number of GPUs advertised by this node.", .gauge, [([], .whole s.gpuCount)]⟩,
  ⟨"llmesh_layers_max", "Layer capacity of this node.", .gauge, [([], .whole s.maxLayers.toInt)]⟩,
  ⟨"llmesh_layers_used", "Layers currently assigned to this node.", .gauge, [([], .whole s.usedLayers.toInt)]⟩]

def Snapshot.seriesMetrics (s : Snapshot) : List Metric := [
  ⟨"llmesh_network_messages_total", "Network messages by direction and kind.", .counter,
    s.messages.map fun m => ([("direction", m.direction), ("kind", m.kind)], .whole m.count)⟩,
  ⟨"llmesh_network_latency_p50_ms", "P50 operation latency in milliseconds.", .gauge,
    s.latencies.map fun l => ([("target", l.target), ("operation", l.operation)], .measured l.p50Ms)⟩,
  ⟨"llmesh_network_latency_p99_ms", "P99 operation latency in milliseconds.", .gauge,
    s.latencies.map fun l => ([("target", l.target), ("operation", l.operation)], .measured l.p99Ms)⟩,
  ⟨"llmesh_inference_requests_total", "Inference requests by model and status.", .counter,
    s.inferences.map fun i => ([("model", i.model), ("status", i.status)], .whole i.requests)⟩,
  ⟨"llmesh_inference_tokens_total", "Tokens generated by model.", .counter,
    s.inferences.map fun i => ([("model", i.model), ("status", i.status)], .whole i.tokens)⟩,
  ⟨"llmesh_inference_duration_avg_ms", "Mean inference duration in milliseconds.", .gauge,
    s.inferences.map fun i => ([("model", i.model), ("status", i.status)], .measured i.averageMs)⟩]

def Snapshot.metrics (s : Snapshot) : List Metric :=
  s.nodeMetrics ++ s.seriesMetrics

/-- The lines of a snapshot, in order. -/
def Snapshot.script (s : Snapshot) : List Line :=
  s.metrics.flatMap (Metric.lines s.nodeId)

/-! ## Lines -/

namespace Exposition

theorem splitOn_lines {lines : List (List Char)} (h : ∀ line ∈ lines, '\n' ∉ line) :
    (lines.flatMap fun line => line ++ ['\n']).splitOn '\n' = lines ++ [[]] := by
  induction lines with
  | nil => rfl
  | cons line lines ih =>
      have hline := h line List.mem_cons_self
      have hlines := ih fun l hl => h l (List.mem_cons_of_mem _ hl)
      rw [List.flatMap_cons, List.append_assoc, List.singleton_append,
        List.splitOn_append_cons_of_beq _ _ (beq_self_eq_true _), List.splitOn_eq_singleton hline, hlines,
        List.singleton_append, List.cons_append]

theorem readSample?_hash {line : List Char} (h : line.head? = some '#') : readSample? line = none := by
  obtain ⟨r, rfl⟩ := List.head?_eq_some_iff.1 h
  rfl

/-- What is read from the samples is what they were to tell, and no heading passes for a sample. -/
theorem keys_of_writtenAs {script : List Line} {lines : List (List Char)}
    (h : List.Forall₂ Line.WrittenAs script lines) :
    (lines.filterMap readSample?).map Reading.key = script.filterMap Line.key := by
  induction h with
  | nil => rfl
  | @cons line text script lines hline _ ih =>
      cases line with
      | help name help =>
          have hhash : text.head? = some '#' := by
            rw [Line.WrittenAs] at hline
            simp [hline]
          rw [List.filterMap_cons_none (readSample?_hash hhash), ih]
          rfl
      | type name kind =>
          have hhash : text.head? = some '#' := by
            rw [Line.WrittenAs] at hline
            simp [hline]
          rw [List.filterMap_cons_none (readSample?_hash hhash), ih]
          rfl
      | sample name labels value =>
          obtain ⟨text', hread, -⟩ := hline
          rw [List.filterMap_cons_some hread, List.map_cons, ih]
          rfl

/-! ## Families -/

theorem forall_mem_right {α β : Type} {R : α → β → Prop} {p : β → Prop} {as : List α} {bs : List β}
    (h : List.Forall₂ R as bs) (hp : ∀ a b, R a b → p b) : ∀ b ∈ bs, p b := by
  have hflip : List.Forall₂ (fun b a => p b ∧ R a b) bs as := (h.imp fun a b hab => ⟨hp a b hab, hab⟩).flip
  exact ((List.forall₂_and_left _ _).1 hflip).1

/-- A sample is written so that its labels and its value are read back. -/
structure Tells (node : String) (item : List (String × String) × Quantity) (s : Sample) : Prop where
  legible : s.Legible
  labels : s.labels = ("node", node) :: item.1
  value : item.2.WrittenAs s.value

/-- A family is written so that it stays on its lines, and all of its samples are read back. -/
structure Renders (node : String) (m : Metric) (f : Family) : Prop where
  name : f.name = m.name
  help : f.help = m.help
  kind : f.kind = m.kind
  plainName : m.name.toList.all isNameChar
  plainHelp : '\n' ∉ m.help.toList
  samples : List.Forall₂ (Tells node) m.samples f.samples

theorem Renders.lines {node : String} {m : Metric} {f : Family} (h : Renders node m f) :
    List.Forall₂ Line.WrittenAs (m.lines node) f.lines := by
  refine .cons ?_ (.cons ?_ ?_)
  · rw [h.name, h.help, Line.WrittenAs]
  · rw [h.name, h.kind, Line.WrittenAs]
  · rw [List.forall₂_map_left_iff, List.forall₂_map_right_iff, h.name]
    exact h.samples.imp fun item s hs =>
      ⟨s.value, by rw [readSample?_sampleLine h.plainName hs.legible, hs.labels], hs.value⟩

theorem Renders.newline_not_mem {node : String} {m : Metric} {f : Family} (h : Renders node m f) :
    ∀ line ∈ f.lines, '\n' ∉ line := by
  intro line hline
  have hkind : '\n' ∉ m.kind.name.toList := by cases m.kind <;> decide
  have hname := newline_not_mem_name h.plainName
  rw [Family.lines, h.name, h.help, h.kind] at hline
  rcases List.mem_cons.1 hline with rfl | hline
  · simp [hname, h.plainHelp]
  · rcases List.mem_cons.1 hline with rfl | hline
    · simp [hname, hkind]
    · obtain ⟨s, hs, rfl⟩ := List.mem_map.1 hline
      have hlegible := forall_mem_right h.samples (fun _ _ htells => htells.legible) s hs
      exact newline_not_mem_sampleLine h.plainName hlegible

theorem written_repr (i : Int) : IsWord i.repr ∧ (Quantity.whole i).WrittenAs i.repr :=
  ⟨isWord_repr i, Text.readSigned?_repr i⟩

theorem written_fixed (x : Float) : IsWord (Decimal.fixed 2 x) ∧ (Quantity.measured x).WrittenAs (Decimal.fixed 2 x) :=
  ⟨isWord_fixed 2 x, rfl⟩

/-- A name is made of the characters of names, and a help text stays on its line. -/
def Titled (name help : String) : Prop :=
  name.toList.all isNameChar ∧ '\n' ∉ help.toList

instance (name help : String) : Decidable (Titled name help) :=
  inferInstanceAs (Decidable (_ ∧ _))

theorem renders_gauge (s : Snapshot) (name help : String) (value : Int) (htitle : Titled name help) :
    Renders s.nodeId ⟨name, help, .gauge, [([], .whole value)]⟩ (s.nodeGauge name help value) := by
  have hnode : "node".toList.all isNameChar := by decide
  have hvalue := written_repr value
  have hlegible : Sample.Legible ⟨[("node", s.nodeId)], value.repr⟩ :=
    ⟨List.cons_ne_nil _ _, List.forall_mem_singleton.2 hnode, hvalue.1⟩
  exact ⟨rfl, rfl, rfl, htitle.1, htitle.2, .cons ⟨hlegible, rfl, hvalue.2⟩ .nil⟩

/-- A sample for each item of a list has two labels beside the node, whatever their values are. -/
theorem renders_series {α : Type} (s : Snapshot) (name help : String) (kind : Kind) (items : List α)
    (label label' : String) (subject detail : α → String) (quantity : α → Quantity) (value : α → String)
    (htitle : Titled name help) (hlabel : label.toList.all isNameChar ∧ label'.toList.all isNameChar)
    (hvalue : ∀ x, IsWord (value x) ∧ (quantity x).WrittenAs (value x)) :
    Renders s.nodeId
      ⟨name, help, kind, items.map fun x => ([(label, subject x), (label', detail x)], quantity x)⟩
      ⟨name, help, kind, s.series items (fun x => [(label, subject x), (label', detail x)]) value⟩ := by
  have hnode : "node".toList.all isNameChar := by decide
  refine ⟨rfl, rfl, rfl, htitle.1, htitle.2, ?_⟩
  rw [Snapshot.series, List.forall₂_map_left_iff, List.forall₂_map_right_iff, List.forall₂_same]
  intro x _
  have hnames : ∀ l ∈ [("node", s.nodeId), (label, subject x), (label', detail x)], l.1.toList.all isNameChar :=
    List.forall_mem_cons.2 ⟨hnode, List.forall_mem_cons.2 ⟨hlabel.1, List.forall_mem_singleton.2 hlabel.2⟩⟩
  exact ⟨⟨List.cons_ne_nil _ _, hnames, (hvalue x).1⟩, rfl, (hvalue x).2⟩

theorem renders_nodeFamilies (s : Snapshot) : List.Forall₂ (Renders s.nodeId) s.nodeMetrics s.nodeFamilies := by
  repeat' refine .cons (renders_gauge s _ _ _ (by decide)) ?_
  exact .nil

theorem renders_seriesFamilies (s : Snapshot) :
    List.Forall₂ (Renders s.nodeId) s.seriesMetrics s.seriesFamilies :=
  .cons (renders_series s _ _ _ _ _ _ _ _ _ _ (by decide) (by decide) fun m => written_repr m.count) <|
  .cons (renders_series s _ _ _ _ _ _ _ _ _ _ (by decide) (by decide) fun l => written_fixed l.p50Ms) <|
  .cons (renders_series s _ _ _ _ _ _ _ _ _ _ (by decide) (by decide) fun l => written_fixed l.p99Ms) <|
  .cons (renders_series s _ _ _ _ _ _ _ _ _ _ (by decide) (by decide) fun i => written_repr i.requests) <|
  .cons (renders_series s _ _ _ _ _ _ _ _ _ _ (by decide) (by decide) fun i => written_repr i.tokens) <|
  .cons (renders_series s _ _ _ _ _ _ _ _ _ _ (by decide) (by decide) fun i => written_fixed i.averageMs) .nil

theorem renders_families (s : Snapshot) : List.Forall₂ (Renders s.nodeId) s.metrics s.families :=
  List.rel_append (renders_nodeFamilies s) (renders_seriesFamilies s)

end Exposition

/-! ## The whole text -/

namespace Snapshot

theorem script_writtenAs (s : Snapshot) :
    List.Forall₂ Line.WrittenAs s.script (s.families.flatMap Family.lines) :=
  List.rel_flatMap (renders_families s) fun _ _ h => h.lines

theorem splitOn_exposition (s : Snapshot) :
    s.exposition.toList.splitOn '\n' = s.families.flatMap Family.lines ++ [[]] := by
  rw [exposition, render, String.toList_ofList]
  refine splitOn_lines fun line hline => ?_
  obtain ⟨f, hf, hline⟩ := List.mem_flatMap.1 hline
  exact forall_mem_right (renders_families s) (fun _ _ hrenders => hrenders.newline_not_mem) f hf line hline

/-- The names and labels of all samples. -/
theorem filterMap_key_script (s : Snapshot) :
    s.script.filterMap Line.key =
      s.metrics.flatMap fun m => m.samples.map fun item => (m.name, ("node", s.nodeId) :: item.1) := by
  rw [script, List.filterMap_flatMap]
  congr 1
  funext m
  rw [Metric.lines, List.filterMap_cons_none rfl, List.filterMap_cons_none rfl, List.filterMap_map,
    ← List.filterMap_eq_map]
  rfl

theorem length_filterMap_key_script (s : Snapshot) :
    (s.script.filterMap Line.key).length =
      8 + s.messages.length + 2 * s.latencies.length + 3 * s.inferences.length := by
  simp only [filterMap_key_script, metrics, nodeMetrics, seriesMetrics, List.flatMap_append, List.flatMap_cons,
    List.flatMap_nil, List.length_append, List.length_map, List.length_cons, List.length_nil]
  omega

/-- Names of different metrics are different, so a sample can only pass for one of its own metric. -/
theorem nodup_filterMap_key_script {s : Snapshot} (h : ∀ m ∈ s.metrics, (m.samples.map Prod.fst).Nodup) :
    (s.script.filterMap Line.key).Nodup := by
  have hnames : (s.metrics.map Metric.name).Nodup := by
    simp [metrics, nodeMetrics, seriesMetrics]
  rw [filterMap_key_script, List.nodup_flatMap]
  constructor
  · intro m hm
    have hmap : (m.samples.map fun item => (m.name, ("node", s.nodeId) :: item.1)) =
        (m.samples.map Prod.fst).map fun labels => (m.name, ("node", s.nodeId) :: labels) := by
      rw [List.map_map]
      rfl
    rw [hmap]
    exact (h m hm).map fun labels labels' heq => by simpa using heq
  · refine (List.pairwise_map.1 hnames).imp fun {m m'} hne => ?_
    intro key hkey hkey'
    obtain ⟨item, -, rfl⟩ := List.mem_map.1 hkey
    obtain ⟨item', -, heq⟩ := List.mem_map.1 hkey'
    exact hne (congrArg Prod.fst heq).symm

theorem nodup_labels {α : Type} (m : SeriesMap α) (label label' : String) :
    (m.toList.map fun e => [(label, e.1.subject), (label', e.1.detail)]).Nodup := by
  have hkeys : (m.toList.map Prod.fst).Nodup := by
    rw [Std.ExtTreeMap.map_fst_toList_eq_keys]
    exact Std.ExtTreeMap.nodup_keys
  have hlabels := hkeys.map (f := fun k => [(label, k.subject), (label', k.detail)]) fun k k' heq => by
    cases k
    cases k'
    simpa using heq
  rwa [List.map_map] at hlabels

/-- A collector keeps one entry for each pair of labels, so it never tells of one twice. -/
theorem nodup_labels_snapshot (c : Collector) (uptime : Nat) :
    ∀ m ∈ (c.snapshot uptime).metrics, (m.samples.map Prod.fst).Nodup := by
  have hmessages := nodup_labels c.messages "direction" "kind"
  have hlatencies := nodup_labels c.latencies "target" "operation"
  have hinferences := nodup_labels c.inferences "model" "status"
  have hgauge : ([[]] : List (List (String × String))).Nodup := List.nodup_singleton _
  simp only [metrics, nodeMetrics, seriesMetrics, Collector.snapshot, List.forall_mem_append, List.forall_mem_cons,
    List.map_map, List.map_cons, List.map_nil]
  exact ⟨⟨hgauge, hgauge, hgauge, hgauge, hgauge, hgauge, hgauge, hgauge, List.forall_mem_nil _⟩,
    hmessages, hlatencies, hlatencies, hinferences, hinferences, hinferences, List.forall_mem_nil _⟩

end Snapshot

/-- Split at its line feeds, an exposition has the fixed headings and one line for each sample. Each sample line reads
as the labels and, where it is whole, the number that the snapshot has, whatever characters the labels are made of.
Samples of a collector's snapshot are told apart by their names and labels. -/
theorem exposition_reads_back (s : Snapshot) :
    ∃ lines : List (List Char), s.exposition.toList.splitOn '\n' = lines ++ [[]] ∧
      List.Forall₂ Line.WrittenAs s.script lines ∧
      (lines.filterMap readSample?).length =
        8 + s.messages.length + 2 * s.latencies.length + 3 * s.inferences.length ∧
      ∀ c uptime, s = Collector.snapshot c uptime → ((lines.filterMap readSample?).map Reading.key).Nodup := by
  have hwritten := s.script_writtenAs
  have hkeys := keys_of_writtenAs hwritten
  refine ⟨_, s.splitOn_exposition, hwritten, ?_, ?_⟩
  · rw [← s.length_filterMap_key_script, ← hkeys, List.length_map]
  · rintro c uptime rfl
    rw [hkeys]
    exact Snapshot.nodup_filterMap_key_script (Snapshot.nodup_labels_snapshot c uptime)

end AgentMesh.Metrics
