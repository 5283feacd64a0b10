import AgentMesh.Metrics.Snapshot
import AgentMesh.Proofs.Metrics.Counting
import Mathlib.Data.List.DropRight
import Mathlib.Data.List.Induction
import Mathlib.Data.List.Sort
import Mathlib.Data.String.Basic

/-!
# Windows of durations

Whatever else is recorded, the window of an operation holds the last durations of that operation, and the percentiles
are samples of the sorted window. The positions are computed in double precision, which for as many samples as a
window holds gives the exact quotients.
-/

namespace AgentMesh.Metrics

/-! ## The order of series -/

/-- Comes first by its subject, or by its detail where the subjects are equal. -/
def Series.Before (a b : Series) : Prop :=
  a.subject < b.subject ∨ a.subject = b.subject ∧ a.detail < b.detail

theorem Series.compare_eq_lt {a b : Series} : compare a b = .lt ↔ a.Before b := by
  have hlex : compare a b = (compare a.subject b.subject).then (compare a.detail b.detail) := rfl
  rw [hlex, Ordering.then_eq_lt, compare_lt_iff_lt, compare_lt_iff_lt, Std.compare_eq_iff_eq, Before]

theorem SeriesMap.pairwise_before {α : Type} (m : SeriesMap α) : (m.toList.map Prod.fst).Pairwise Series.Before := by
  rw [Std.ExtTreeMap.map_fst_toList_eq_keys]
  exact Std.ExtTreeMap.ordered_keys.imp Series.compare_eq_lt.1

/-! ## The window of one operation -/

/-- The durations of an operation among some events, in whole microseconds. -/
def durations (key : Series) (events : List Event) : List Nat :=
  events.filterMap fun
    | .latency target operation nanos => if ⟨target, operation⟩ = key then some (nanos / 1000) else none
    | _ => none

theorem durations_append (key : Series) (events events' : List Event) :
    durations key (events ++ events') = durations key events ++ durations key events' :=
  List.filterMap_append

/-- No duration takes more microseconds than 64 bits hold. -/
def Brief (events : List Event) : Prop :=
  ∀ target operation nanos, .latency target operation nanos ∈ events → nanos / 1000 < 2 ^ 64

theorem microseconds_of_lt {nanos : Nat} (h : nanos / 1000 < 2 ^ 64) : microseconds nanos = nanos / 1000 :=
  Nat.mod_eq_of_lt h

theorem length_rtake_windowSize (samples : List Nat) :
    (samples.rtake windowSize).length = min samples.length windowSize := by
  rw [List.rtake, List.length_drop]
  omega

theorem pushWindow_rtake (samples : List Nat) (micros : Nat) :
    pushWindow (samples.rtake windowSize) micros = (samples ++ [micros]).rtake windowSize := by
  have hwindow : 0 < windowSize := by decide
  have hkept : samples.length - windowSize + (min samples.length windowSize + 1 - windowSize) =
      samples.length + 1 - windowSize := by omega
  rw [pushWindow, length_rtake_windowSize, List.rtake, List.rtake, List.drop_drop, hkept, List.length_append,
    List.length_singleton, List.drop_append_of_le_length (by omega)]

theorem getD_of_window {m : SeriesMap (List Nat)} {key : Series} {samples : List Nat}
    (h : m[key]? = if samples = [] then none else some (samples.rtake windowSize)) :
    m.getD key [] = samples.rtake windowSize := by
  rw [Std.ExtTreeMap.getD_eq_getD_getElem?, h]
  split
  · rename_i hnone
    rw [hnone, List.rtake_nil, Option.getD_none]
  · exact Option.getD_some

namespace Collector

theorem getElem?_latencies_record (c : Collector) (e : Event) (key : Series) :
    (c.record e).latencies[key]? =
      match e with
      | .latency target operation nanos =>
          if ⟨target, operation⟩ = key then
            some (pushWindow (c.latencies.getD key []) (microseconds nanos))
          else c.latencies[key]?
      | _ => c.latencies[key]? := by
  cases e with
  | latency target operation nanos =>
      simp only [record, recordLatency, Std.ExtTreeMap.getElem?_insert, Std.compare_eq_iff_eq]
      split
      · rename_i h
        rw [h]
      · rfl
  | _ => rfl

/-- The window of an operation holds its last durations; an operation that was not recorded has none. -/
theorem getElem?_latencies_recordAll (id : String) {events : List Event} (hbrief : Brief events) (key : Series) :
    (({ nodeId := id } : Collector).recordAll events).latencies[key]? =
      if durations key events = [] then none else some ((durations key events).rtake windowSize) := by
  induction events using List.reverseRecOn with
  | nil => simp [recordAll, durations]
  | append_singleton events e ih =>
      have ih := ih fun target operation nanos he => hbrief _ _ _ (List.mem_append_left _ he)
      have hlast (c : Collector) : c.recordAll [e] = c.record e := rfl
      rw [recordAll_append, hlast, getElem?_latencies_record, durations_append]
      cases e with
      | latency target operation nanos =>
          have hnanos := hbrief target operation nanos (by simp)
          by_cases hkey : ⟨target, operation⟩ = key
          · have hnew : durations key [.latency target operation nanos] = [nanos / 1000] := by simp [durations, hkey]
            simp only [hkey, ↓reduceIte, hnew, getD_of_window ih, microseconds_of_lt hnanos, pushWindow_rtake]
            rw [if_neg (List.append_ne_nil_of_right_ne_nil _ (List.cons_ne_nil _ _))]
          · have hnew : durations key [.latency target operation nanos] = [] := by simp [durations, hkey]
            simp only [hkey, ↓reduceIte, hnew, List.append_nil, ih]
      | _ => simpa [durations] using ih

end Collector

/-! ## Positions -/

/-- Half of a number of samples is computed exactly. -/
theorem rank_half : ∀ n < windowSize + 1, rank 0.5 n = n / 2 := by
  decide +kernel

/-- So are 99 hundredths, though the factor itself is rounded. -/
theorem rank_most : ∀ n < windowSize + 1, rank 0.99 n = 99 * n / 100 := by
  decide +kernel

/-- What is computed for a position within the samples is the sample there. -/
theorem percentile_eq {share : Float} {sorted : List Nat} {i : Nat} (hrank : rank share sorted.length = i)
    (hi : i < sorted.length) : sorted[i]?.map milliseconds = some (percentile share sorted) := by
  have hmin : min i (sorted.length - 1) = i := by omega
  rw [percentile, sampleAt, hrank, hmin, List.getD_eq_getElem?_getD, List.getElem?_eq_getElem hi, Option.map_some,
    Option.getD_some]

theorem mergeSort_eq {samples sorted : List Nat} (hperm : sorted.Perm samples) (hsorted : sorted.Pairwise (· ≤ ·)) :
    samples.mergeSort (· ≤ ·) = sorted :=
  ((List.mergeSort_perm _ _).trans hperm.symm).eq_of_pairwise' (List.pairwise_mergeSort' _ _) hsorted

theorem percentiles_perm {samples samples' : List Nat} (hperm : samples.Perm samples') :
    percentiles samples = percentiles samples' := by
  rw [percentiles, percentiles,
    mergeSort_eq ((List.mergeSort_perm samples' _).trans hperm.symm) (List.pairwise_mergeSort' _ samples')]

/-- The percentiles of some samples are found in whatever list has the samples in order. -/
theorem percentiles_eq {samples sorted : List Nat} (hperm : sorted.Perm samples) (hsorted : sorted.Pairwise (· ≤ ·))
    (hne : samples ≠ []) (hlength : samples.length ≤ windowSize) :
    sorted[samples.length / 2]?.map milliseconds = some (percentiles samples).1 ∧
    sorted[99 * samples.length / 100]?.map milliseconds = some (percentiles samples).2 := by
  have hsame := mergeSort_eq hperm hsorted
  have hpos := List.length_pos_iff.2 hne
  rw [← hperm.length_eq] at hlength hpos ⊢
  rw [percentiles, hsame]
  exact ⟨percentile_eq (rank_half _ (by omega)) (by omega), percentile_eq (rank_most _ (by omega)) (by omega)⟩

/-! ## Latencies in a snapshot -/

def LatencySummary.series (l : LatencySummary) : Series :=
  ⟨l.target, l.operation⟩

/-- What is told of the window of an operation. -/
def LatencySummary.ofWindow (key : Series) (window : List Nat) : LatencySummary where
  target := key.subject
  operation := key.detail
  samples := window.length
  p50Ms := (percentiles window).1
  p99Ms := (percentiles window).2

@[simp] theorem LatencySummary.series_ofWindow (key : Series) (window : List Nat) :
    (ofWindow key window).series = key :=
  rfl

@[simp] theorem LatencySummary.samples_ofWindow (key : Series) (window : List Nat) :
    (ofWindow key window).samples = window.length :=
  rfl

@[simp] theorem LatencySummary.p50Ms_ofWindow (key : Series) (window : List Nat) :
    (ofWindow key window).p50Ms = (percentiles window).1 :=
  rfl

@[simp] theorem LatencySummary.p99Ms_ofWindow (key : Series) (window : List Nat) :
    (ofWindow key window).p99Ms = (percentiles window).2 :=
  rfl

theorem LatencySummary.ofWindow_perm (key : Series) {window window' : List Nat} (hperm : window.Perm window') :
    ofWindow key window = ofWindow key window' := by
  rw [ofWindow, ofWindow, hperm.length_eq, percentiles_perm hperm]

/-- The latencies in a snapshot that is taken after some events. -/
def toldLatencies (id : String) (uptime : Nat) (events : List Event) : List LatencySummary :=
  ((({ nodeId := id } : Collector).recordAll events).snapshot uptime).latencies

theorem series_toldLatencies (id : String) (uptime : Nat) (events : List Event) :
    (toldLatencies id uptime events).map LatencySummary.series =
      (({ nodeId := id } : Collector).recordAll events).latencies.toList.map Prod.fst := by
  rw [toldLatencies, Collector.snapshot, List.map_map]
  rfl

theorem mem_toldLatencies {id : String} {uptime : Nat} {events : List Event} (hbrief : Brief events)
    {l : LatencySummary} :
    l ∈ toldLatencies id uptime events ↔
      ∃ key, durations key events ≠ [] ∧ .ofWindow key ((durations key events).rtake windowSize) = l := by
  have hentry : l ∈ toldLatencies id uptime events ↔ ∃ key window,
      (({ nodeId := id } : Collector).recordAll events).latencies[key]? = some window ∧ .ofWindow key window = l := by
    simp only [toldLatencies, Collector.snapshot, List.mem_map, Prod.exists,
      Std.ExtTreeMap.mem_toList_iff_getElem?_eq_some]
    rfl
  simp only [hentry, Collector.getElem?_latencies_recordAll id hbrief]
  refine exists_congr fun key => ?_
  split
  · rename_i hnone
    simp [hnone]
  · rename_i hne
    simp [hne]

/-- A snapshot tells of every operation that was recorded, once and in order: how many durations are kept, and of the
last 1024 at most the ones at one half and at 99 hundredths in ascending order. Nothing else that was recorded
matters, nor in which order the kept durations came. -/
theorem latencies_tell_windows (id : String) (uptime : Nat) {events : List Event} (hbrief : Brief events) :
    ((toldLatencies id uptime events).map LatencySummary.series).Pairwise Series.Before ∧
    (∀ key, key ∈ (toldLatencies id uptime events).map LatencySummary.series ↔ durations key events ≠ []) ∧
    (∀ l ∈ toldLatencies id uptime events,
      l.samples = min (durations l.series events).length 1024 ∧
      ∀ sorted : List Nat, sorted.Perm ((durations l.series events).rtake 1024) → sorted.Pairwise (· ≤ ·) →
        sorted[l.samples / 2]?.map milliseconds = some l.p50Ms ∧
        sorted[99 * l.samples / 100]?.map milliseconds = some l.p99Ms) ∧
    ∀ (id' : String) (uptime' : Nat) (events' : List Event), Brief events' →
      ∀ l ∈ toldLatencies id uptime events, ∀ l' ∈ toldLatencies id' uptime' events',
        l.series = l'.series →
        ((durations l.series events).rtake 1024).Perm ((durations l'.series events').rtake 1024) → l = l' := by
  have hsize : 1024 = windowSize := rfl
  rw [hsize]
  refine ⟨?ordered, ?listed, ?summed, ?alone⟩
  case ordered =>
    rw [series_toldLatencies]
    exact SeriesMap.pairwise_before _
  case listed =>
    intro key
    rw [List.mem_map]
    constructor
    · rintro ⟨l, hl, rfl⟩
      obtain ⟨key, hne, rfl⟩ := (mem_toldLatencies hbrief).1 hl
      rwa [LatencySummary.series_ofWindow]
    · intro hne
      exact ⟨_, (mem_toldLatencies hbrief).2 ⟨key, hne, rfl⟩, LatencySummary.series_ofWindow _ _⟩
  case summed =>
    intro l hl
    obtain ⟨key, hne, rfl⟩ := (mem_toldLatencies hbrief).1 hl
    have hlength := length_rtake_windowSize (durations key events)
    simp only [LatencySummary.series_ofWindow, LatencySummary.samples_ofWindow, LatencySummary.p50Ms_ofWindow,
      LatencySummary.p99Ms_ofWindow]
    refine ⟨hlength, fun sorted hperm hsorted => percentiles_eq hperm hsorted ?_ (by omega)⟩
    have hmany := List.length_pos_iff.2 hne
    have hwindow : 0 < windowSize := by decide
    rw [← List.length_pos_iff]
    omega
  case alone =>
    intro id' uptime' events' hbrief' l hl l' hl' hseries hperm
    obtain ⟨key, -, rfl⟩ := (mem_toldLatencies hbrief).1 hl
    obtain ⟨key', -, rfl⟩ := (mem_toldLatencies hbrief').1 hl'
    simp only [LatencySummary.series_ofWindow] at hseries hperm
    rw [← hseries] at hperm ⊢
    exact LatencySummary.ofWindow_perm key hperm

/-- Three durations of one operation and one of another, none of them in order. -/
def fewLatencies : List Event :=
  [.latency "grpc" "GetStatus" 9000, .latency "rpc" "GetStatus" 2000, .latency "grpc" "GetStatus" 1999,
    .latency "grpc" "GetStatus" 5000]

theorem latencies_tell_windows_sample :
    ∃ l ∈ toldLatencies "node-a" 0 fewLatencies, l.series = ⟨"grpc", "GetStatus"⟩ ∧ l.samples = 3 ∧
      l.p50Ms = milliseconds 5 ∧ l.p99Ms = milliseconds 9 := by
  have hbrief : Brief fewLatencies := by
    intro target operation nanos h
    simp [fewLatencies] at h
    omega
  have hkept : durations ⟨"grpc", "GetStatus"⟩ fewLatencies = [9, 1, 5] := by decide
  obtain ⟨-, hlisted, hsummed, -⟩ := latencies_tell_windows "node-a" 0 hbrief
  obtain ⟨l, hl, hseries⟩ := List.mem_map.1 ((hlisted ⟨"grpc", "GetStatus"⟩).2 (by rw [hkept]; decide))
  obtain ⟨hsamples, hpercentiles⟩ := hsummed l hl
  rw [hseries, hkept] at hsamples hpercentiles
  have hsamples : l.samples = 3 := hsamples
  obtain ⟨hhalf, hmost⟩ := hpercentiles [1, 5, 9] (by decide) (by decide)
  rw [hsamples] at hhalf hmost
  exact ⟨l, hl, hseries, hsamples, (Option.some.inj hhalf).symm, (Option.some.inj hmost).symm⟩

end AgentMesh.Metrics
