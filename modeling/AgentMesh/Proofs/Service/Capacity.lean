import AgentMesh.Proofs.Service.Clamping
import AgentMesh.Service.Capacity
import Mathlib.Algebra.BigOperators.Group.List.Basic
import Mathlib.Data.List.Induction
import Mathlib.Data.List.Infix

/-!
# Sums over a cluster

The sums are kept node by node in 64 bits. With fewer nodes than 32 bits count none of them overflows, so that what is
told are the exact sums, fitted into 32 bits only at the end. Memory alone is cut off on the way.
-/

namespace AgentMesh.Service

/-! ## Exact sums -/

theorem total_eq_sum (amount : Node → Int) (ns : List Node) : total amount ns = (ns.map amount).sum := by
  have hfrom (sum : Int) : ns.foldl (fun sum n => sum + amount n) sum = sum + (ns.map amount).sum := by
    induction ns generalizing sum with
    | nil => simp
    | cons n ns ih => rw [List.foldl_cons, ih, List.map_cons, List.sum_cons, Int.add_assoc]
  rw [total, hfrom, Int.zero_add]

theorem total_concat (amount : Node → Int) (ns : List Node) (n : Node) :
    total amount (ns ++ [n]) = total amount ns + amount n :=
  List.foldl_append

/-- So many amounts, each of which fits into 32 bits. -/
theorem total_bounds {amount : Node → Int} (hamount : ∀ n, -2 ^ 31 ≤ amount n ∧ amount n < 2 ^ 31) (ns : List Node) :
    -2 ^ 31 * (ns.length : Int) ≤ total amount ns ∧ total amount ns ≤ 2 ^ 31 * (ns.length : Int) := by
  induction ns using List.reverseRecOn with
  | nil => exact ⟨Int.le_refl _, Int.le_refl _⟩
  | append_singleton ns n ih =>
      have hn := hamount n
      rw [total_concat, List.length_append, List.length_singleton]
      omega

/-- Online nodes count as one. -/
def healthyNodes : List Node → Int :=
  total fun n => if n.status = .online then 1 else 0

theorem healthyNodes_eq_countP (ns : List Node) : healthyNodes ns = ns.countP fun n => n.status == .online := by
  rw [healthyNodes, total_eq_sum]
  induction ns with
  | nil => rfl
  | cons n ns ih => by_cases h : n.status = .online <;> simp [h, ih, Int.add_comm]

/-! ## Sums within 64 bits -/

/-- The sum, if 64 bits hold it. -/
def addExact? (a b : Int64) : Option Int64 :=
  if -2 ^ 63 ≤ a.toInt + b.toInt ∧ a.toInt + b.toInt < 2 ^ 63 then some (a + b) else none

theorem addExact?_of_bounds {a b : Int64} {i j : Int} (ha : a.toInt = i) (hb : b.toInt = j) (hlow : -2 ^ 63 ≤ i + j)
    (hhigh : i + j < 2 ^ 63) : addExact? a b = some (a + b) ∧ (a + b).toInt = i + j := by
  subst ha hb
  refine ⟨if_pos ⟨hlow, hhigh⟩, ?_⟩
  rw [Int64.toInt_add]
  exact Int.bmod_eq_of_le (by omega) (by omega)

/-- The sums after some nodes. -/
structure Tally where
  healthy : Int64 := 0
  memoryMb : Int64 := 0
  gpus : Int64 := 0
  totalLayers : Int64 := 0
  allocatedLayers : Int64 := 0

namespace Tally

/-- One more node, unless a sum overflows. -/
def add? (t : Tally) (n : Node) : Option Tally := do
  let healthy ← addExact? t.healthy (if n.status = .online then 1 else 0)
  let gpus ← addExact? t.gpus (Int64.ofNat n.resources.gpus.length)
  let totalLayers ← addExact? t.totalLayers n.resources.maxLayers.toInt64
  let allocatedLayers ← addExact? t.allocatedLayers n.resources.usedLayers.toInt64
  return { healthy, memoryMb := addMemory t.memoryMb n.resources.memoryMb, gpus, totalLayers, allocatedLayers }

/-- The sums over all nodes, unless one of them overflows on the way. -/
def ofNodes? (nodes : List Node) : Option Tally :=
  nodes.foldlM add? {}

/-- What is told of so many nodes. -/
def metrics (t : Tally) (count : Nat) : Wire.ClusterMetrics where
  totalNodes := clampInt32 count
  healthyNodes := clampInt32 t.healthy.toInt
  totalMemoryMb := t.memoryMb
  availableMemoryMb := t.memoryMb
  totalGpus := clampInt32 t.gpus.toInt
  totalLayers := clampInt32 t.totalLayers.toInt
  allocatedLayers := clampInt32 t.allocatedLayers.toInt
  clusterUtilization :=
    if 0 < t.totalLayers then ⟨(t.allocatedLayers.toFloat / t.totalLayers.toFloat * 100.0).toFloat32.toBits⟩ else {}

/-- The tally has the exact sums over the nodes. -/
structure Sums (t : Tally) (nodes : List Node) : Prop where
  healthy : t.healthy.toInt = healthyNodes nodes
  memoryMb : t.memoryMb = totalMemory nodes
  gpus : t.gpus.toInt = totalGpus nodes
  totalLayers : t.totalLayers.toInt = Service.totalLayers nodes
  allocatedLayers : t.allocatedLayers.toInt = Service.allocatedLayers nodes

theorem sums_nil : Sums {} [] :=
  ⟨rfl, rfl, rfl, rfl, rfl⟩

end Tally

/-- So few nodes that 32 bits count them, and cards that 64 bits count. -/
structure Countable (nodes : List Node) : Prop where
  few : nodes.length < 2 ^ 31
  cards : totalGpus nodes < 2 ^ 63

theorem totalGpus_concat (nodes : List Node) (n : Node) :
    totalGpus (nodes ++ [n]) = totalGpus nodes + n.resources.gpus.length :=
  total_concat _ nodes n

theorem totalGpus_eq (nodes : List Node) :
    totalGpus nodes = ((nodes.map fun n => n.resources.gpus.length).sum : Nat) := by
  induction nodes using List.reverseRecOn with
  | nil => rfl
  | append_singleton nodes n ih => simp [totalGpus_concat, ih]

theorem totalGpus_nonneg (nodes : List Node) : 0 ≤ totalGpus nodes := by
  rw [totalGpus_eq]
  exact Int.natCast_nonneg _

theorem Countable.of_concat {nodes : List Node} {n : Node} (h : Countable (nodes ++ [n])) : Countable nodes where
  few := by
    have hfew := h.few
    rw [List.length_append] at hfew
    omega
  cards := by
    have hcards := h.cards
    rw [totalGpus_concat] at hcards
    omega

theorem Countable.total_bounds {nodes : List Node} (h : Countable nodes) {amount : Node → Int}
    (hamount : ∀ n, -2 ^ 31 ≤ amount n ∧ amount n < 2 ^ 31) :
    -2 ^ 63 ≤ total amount nodes ∧ total amount nodes < 2 ^ 63 := by
  have hbounds := Service.total_bounds hamount nodes
  have hfew := h.few
  omega

namespace Tally

theorem addExact?_total (amount : Node → Int) {nodes : List Node} {n : Node} {a b : Int64}
    (ha : a.toInt = total amount nodes) (hb : b.toInt = amount n)
    (hlow : -2 ^ 63 ≤ total amount (nodes ++ [n])) (hhigh : total amount (nodes ++ [n]) < 2 ^ 63) :
    addExact? a b = some (a + b) ∧ (a + b).toInt = total amount (nodes ++ [n]) := by
  rw [total_concat] at hlow hhigh ⊢
  exact addExact?_of_bounds ha hb hlow hhigh

theorem Sums.add? {t : Tally} {nodes : List Node} (h : t.Sums nodes) {n : Node}
    (hcountable : Countable (nodes ++ [n])) : ∃ t', t.add? n = some t' ∧ t'.Sums (nodes ++ [n]) := by
  have hsmall (amount : Node → Int) (hamount : ∀ n, -2 ^ 31 ≤ amount n ∧ amount n < 2 ^ 31) {a b : Int64}
      (ha : a.toInt = total amount nodes) (hb : b.toInt = amount n) :
      addExact? a b = some (a + b) ∧ (a + b).toInt = total amount (nodes ++ [n]) :=
    have hbounds := hcountable.total_bounds hamount
    addExact?_total amount ha hb hbounds.1 hbounds.2
  have hone : (if n.status = .online then (1 : Int64) else 0).toInt = if n.status = .online then 1 else 0 := by
    split <;> rfl
  have hlength : n.resources.gpus.length < 2 ^ 63 := by
    have hbefore := totalGpus_nonneg nodes
    have hcards := hcountable.cards
    rw [totalGpus_concat] at hcards
    omega
  obtain ⟨hhealthy, hhealthy'⟩ := hsmall _ (fun n => by split <;> omega) h.healthy hone
  obtain ⟨htotal, htotal'⟩ := hsmall _ (fun n => ⟨n.resources.maxLayers.le_toInt, n.resources.maxLayers.toInt_lt⟩)
    h.totalLayers n.resources.maxLayers.toInt_toInt64
  obtain ⟨hallocated, hallocated'⟩ := hsmall _
    (fun n => ⟨n.resources.usedLayers.le_toInt, n.resources.usedLayers.toInt_lt⟩)
    h.allocatedLayers n.resources.usedLayers.toInt_toInt64
  obtain ⟨hcard, hcard'⟩ := addExact?_total _ h.gpus (Int64.toInt_ofNat_of_lt hlength)
    (Int.le_trans (by decide) (totalGpus_nonneg (nodes ++ [n]))) hcountable.cards
  have hmemory : addMemory t.memoryMb n.resources.memoryMb = totalMemory (nodes ++ [n]) := by
    rw [h.memoryMb, totalMemory, totalMemory, List.foldl_append]
    rfl
  have hadded : t.add? n = some
      { healthy := t.healthy + if n.status = .online then 1 else 0,
        memoryMb := addMemory t.memoryMb n.resources.memoryMb,
        gpus := t.gpus + Int64.ofNat n.resources.gpus.length,
        totalLayers := t.totalLayers + n.resources.maxLayers.toInt64,
        allocatedLayers := t.allocatedLayers + n.resources.usedLayers.toInt64 } := by
    simp only [Tally.add?, hhealthy, hcard, htotal, hallocated, Option.bind_eq_bind, Option.bind_some]
    rfl
  exact ⟨_, hadded, hhealthy', hmemory, hcard', htotal', hallocated'⟩

/-- No sum overflows on the way. -/
theorem ofNodes?_of_countable {nodes : List Node} (h : Countable nodes) :
    ∃ t, ofNodes? nodes = some t ∧ t.Sums nodes := by
  induction nodes using List.reverseRecOn with
  | nil => exact ⟨{}, rfl, sums_nil⟩
  | append_singleton nodes n ih =>
      obtain ⟨t, ht, hsums⟩ := ih h.of_concat
      obtain ⟨t', ht', hsums'⟩ := hsums.add? h
      refine ⟨t', ?_, hsums'⟩
      rw [ofNodes?] at ht ⊢
      rw [List.foldlM_append, ht]
      simpa using ht'

/-- The exact sums are the ones that are told. -/
theorem Sums.metrics_eq {t : Tally} {nodes : List Node} (h : t.Sums nodes) :
    clusterMetrics nodes = t.metrics nodes.length := by
  have hpositive : 0 < t.totalLayers ↔ 0 < t.totalLayers.toInt := Int64.lt_iff_toInt_lt
  simp only [clusterMetrics, metrics, utilization, percentage, ← healthyNodes_eq_countP, ← h.healthy, ← h.memoryMb,
    ← h.gpus, ← h.totalLayers, ← h.allocatedLayers, Int64.ofInt_toInt, hpositive]

end Tally

/-! ## Memory -/

/-- Every sum on the way fits into 64 bits. -/
def MemoryFits (nodes : List Node) : Prop :=
  ∀ before, before <+: nodes →
    -2 ^ 63 ≤ (before.map fun n => n.resources.memoryMb.toInt).sum ∧
      (before.map fun n => n.resources.memoryMb.toInt).sum < 2 ^ 63

theorem totalMemory_concat (nodes : List Node) (n : Node) :
    (totalMemory (nodes ++ [n])).toInt =
      max (-2 ^ 63) (min (2 ^ 63 - 1) ((totalMemory nodes).toInt + n.resources.memoryMb.toInt)) := by
  rw [totalMemory, List.foldl_append]
  exact clampInt64_toInt _

theorem totalMemory_of_fits {nodes : List Node} (h : MemoryFits nodes) :
    (totalMemory nodes).toInt = (nodes.map fun n => n.resources.memoryMb.toInt).sum := by
  induction nodes using List.reverseRecOn with
  | nil => rfl
  | append_singleton nodes n ih =>
      have hbefore := ih fun before hinit => h before (hinit.trans (List.prefix_append _ _))
      have hall := h _ (List.prefix_refl _)
      rw [List.map_append, List.sum_append, List.map_singleton, List.sum_singleton] at hall ⊢
      rw [totalMemory_concat, hbefore]
      omega

/-! ## What is told of a cluster -/

/--
With fewer nodes than 32 bits count, and cards that 64 bits count, no sum overflows on the way, whatever the nodes
claim to have. What is told are the exact numbers, cut off at the bounds of 32 bits, and the order of the nodes does
not matter for them. All memory counts as available; it is the exact sum if every sum on the way fits into 64 bits.
The utilization is zero if there are no layers, and otherwise depends on nothing but the two sums of layers as they
were before they were cut off.
-/
theorem capacity_told_exactly {nodes : List Node} (hfew : nodes.length < 2 ^ 31)
    (hcards : (nodes.map fun n => n.resources.gpus.length).sum < 2 ^ 63) :
    let told := clusterMetrics nodes
    let fitted (i : Int) := max (-2 ^ 31) (min (2 ^ 31 - 1) i)
    let layers := (nodes.map fun n => n.resources.maxLayers.toInt).sum
    let allocated := (nodes.map fun n => n.resources.usedLayers.toInt).sum
    (∃ t, Tally.ofNodes? nodes = some t ∧ t.Sums nodes ∧ told = t.metrics nodes.length) ∧
    (told.totalNodes.toInt = fitted nodes.length ∧
      told.healthyNodes.toInt = fitted (nodes.countP fun n => n.status = .online) ∧
      told.totalGpus.toInt = fitted (nodes.map fun n => (n.resources.gpus.length : Int)).sum ∧
      told.totalLayers.toInt = fitted layers ∧ told.allocatedLayers.toInt = fitted allocated) ∧
    (∀ nodes', nodes'.Perm nodes →
      let told' := clusterMetrics nodes'
      told'.totalNodes = told.totalNodes ∧ told'.healthyNodes = told.healthyNodes ∧
      told'.totalGpus = told.totalGpus ∧ told'.totalLayers = told.totalLayers ∧
      told'.allocatedLayers = told.allocatedLayers) ∧
    told.totalMemoryMb = told.availableMemoryMb ∧
    (MemoryFits nodes → told.totalMemoryMb.toInt = (nodes.map fun n => n.resources.memoryMb.toInt).sum) ∧
    (layers ≤ 0 → told.clusterUtilization = ⟨0⟩) ∧
    (0 < layers → told.clusterUtilization = percentage allocated layers) := by
  intro told fitted layers allocated
  have hcountable : Countable nodes := ⟨hfew, by rw [totalGpus_eq]; omega⟩
  obtain ⟨t, ht, hsums⟩ := Tally.ofNodes?_of_countable hcountable
  have hlayers : totalLayers nodes = layers := total_eq_sum _ nodes
  have hallocated : allocatedLayers nodes = allocated := total_eq_sum _ nodes
  refine ⟨⟨t, ht, hsums, hsums.metrics_eq⟩, ?_, fun nodes' hperm => ?_, rfl, totalMemory_of_fits, fun hnone => ?_,
    fun hsome => ?_⟩
  · have hgpus : totalGpus nodes = (nodes.map fun n => (n.resources.gpus.length : Int)).sum := total_eq_sum _ nodes
    rw [← hlayers, ← hallocated, ← hgpus]
    exact ⟨clampInt32_toInt _, clampInt32_toInt _, clampInt32_toInt _, clampInt32_toInt _, clampInt32_toInt _⟩
  · have htotal (amount : Node → Int) : total amount nodes' = total amount nodes := by
      rw [total_eq_sum, total_eq_sum]
      exact (hperm.map amount).sum_eq
    refine ⟨congrArg (fun k : Nat => clampInt32 k) hperm.length_eq,
      congrArg (fun k : Nat => clampInt32 k) (hperm.countP_eq _), congrArg clampInt32 (htotal _),
      congrArg clampInt32 (htotal _), congrArg clampInt32 (htotal _)⟩
  · exact if_neg (by rw [hlayers]; omega)
  · rw [← hlayers, ← hallocated]
    exact if_pos (by rwa [hlayers])

/-- Two nodes whose layers together do not fit into 32 bits, one with all the memory that there can be and one with
less than none. -/
def sampleCluster : List Node :=
  [{ resources := { memoryMb := 9223372036854775807, gpus := [{ uuid := "g" }], maxLayers := 1500000000,
                    usedLayers := -2147483648 } },
   { resources := { memoryMb := -1024, maxLayers := 1500000000, usedLayers := 500000000 }, status := .offline }]

theorem capacity_told_exactly_sample :
    let told := clusterMetrics sampleCluster
    sampleCluster.length < 2 ^ 31 ∧ (sampleCluster.map fun n => n.resources.gpus.length).sum < 2 ^ 63 ∧
    told.totalLayers.toInt = 2 ^ 31 - 1 ∧ told.allocatedLayers.toInt = -1647483648 ∧
    told.totalMemoryMb.toInt = 9223372036854774783 ∧
    (clusterMetrics sampleCluster.reverse).totalLayers = told.totalLayers ∧
    told.clusterUtilization = percentage (-1647483648) 3000000000 := by
  have hfew : sampleCluster.length < 2 ^ 31 := by decide
  have hcards : (sampleCluster.map fun n => n.resources.gpus.length).sum < 2 ^ 63 := by decide
  obtain ⟨-, ⟨-, -, -, hlayers, hallocated⟩, hperm, -, hmemory, -, hutilization⟩ := capacity_told_exactly hfew hcards
  have hsums : ∀ before ∈ sampleCluster.inits, -2 ^ 63 ≤ (before.map fun n => n.resources.memoryMb.toInt).sum ∧
      (before.map fun n => n.resources.memoryMb.toInt).sum < 2 ^ 63 := by decide
  have hfits : MemoryFits sampleCluster := fun before hbefore => hsums before ((List.mem_inits _ _).2 hbefore)
  refine ⟨hfew, hcards, hlayers.trans (by decide), hallocated.trans (by decide), (hmemory hfits).trans (by decide),
    (hperm _ (List.reverse_perm _)).2.2.2.1, ?_⟩
  exact hutilization (by decide)

end AgentMesh.Service
