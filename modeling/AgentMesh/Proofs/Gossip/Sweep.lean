import AgentMesh.Proofs.Gossip.ChangeLog

/-!
# A tick, peer by peer

The map of the peers may be gone through in any order. A sweep visits each peer once: it marks who falls suspect at
once, and notes the dead, to bury them after the last visit. Every order leads to the same table, and to a report of the
same changes.
-/

namespace AgentMesh.Gossip

/-! ## The first pass -/

/-- How far a sweep has got: the peers, the changes that it reports, and the dead, who are still among the peers. -/
structure Sweep where
  peers : NameMap Peer
  report : List (String × Outcome) := []
  dead : List String := []

namespace Peer

variable {p : Peer} {now suspectAfter deadAfter : Nat}

theorem fallsSuspect_iff : p.fallsSuspect now suspectAfter = true ↔
    p.record.state = .alive ∧ suspectAfter ≤ now - p.lastHeard := by
  simp [fallsSuspect]

theorem dies_iff : p.dies now suspectAfter deadAfter = true ↔
    p.record.state = .suspect ∧ suspectAfter ≤ now - p.lastHeard ∧ deadAfter ≤ now - p.stateSince := by
  simp [dies, and_assoc]

theorem dies_of_fallsSuspect (h : p.fallsSuspect now suspectAfter = true) :
    p.dies now suspectAfter deadAfter = false := by
  simp [dies, (fallsSuspect_iff.mp h).1]

theorem afterTick_of_dies (h : p.dies now suspectAfter deadAfter = true) : p.afterTick now suspectAfter = p := by
  simp [afterTick, fallsSuspect, (dies_iff.mp h).1]

end Peer

namespace Sweep

variable {now suspectAfter deadAfter : Nat}

def visit (now suspectAfter deadAfter : Nat) (w : Sweep) (n : String) : Sweep :=
  match w.peers[n]? with
  | none => w
  | some p =>
      if p.fallsSuspect now suspectAfter then
        { w with peers := w.peers.insert n (p.suspect now), report := w.report ++ [(n, .suspected)] }
      else if p.dies now suspectAfter deadAfter then { w with dead := w.dead ++ [n] }
      else w

/-- What a visit does: the peer is as after a tick that it survives, and is named if it falls suspect or is dead. -/
structure Visited (now suspectAfter deadAfter : Nat) (w w' : Sweep) (order : List String) : Prop where
  peers : ∀ n : String, w'.peers[n]? =
    if n ∈ order then w.peers[n]?.map (·.afterTick now suspectAfter) else w.peers[n]?
  report : w'.report = w.report ++
    (order.filter fun n => w.peers[n]?.any (·.fallsSuspect now suspectAfter)).map (·, .suspected)
  dead : w'.dead = w.dead ++ order.filter fun n => w.peers[n]?.any (·.dies now suspectAfter deadAfter)

theorem visited_visit (w : Sweep) (n : String) (now suspectAfter deadAfter : Nat) :
    Visited now suspectAfter deadAfter w (w.visit now suspectAfter deadAfter n) [n] := by
  cases hp : w.peers[n]? with
  | none =>
      simp only [visit, hp]
      refine ⟨fun m => ?_, by simp [hp], by simp [hp]⟩
      by_cases hm : m = n
      · subst hm; simp [hp]
      · simp [hm]
  | some p =>
      by_cases hfalls : p.fallsSuspect now suspectAfter
      · have hdies : p.dies now suspectAfter deadAfter = false := Peer.dies_of_fallsSuspect hfalls
        simp only [visit, hp, hfalls, ↓reduceIte]
        refine ⟨fun m => ?_, by simp [hp, hfalls], by simp [hp, hdies]⟩
        by_cases hm : m = n
        · subst hm; simp [hp, Peer.afterTick, hfalls]
        · simp [Std.ExtTreeMap.getElem?_insert, hm, Ne.symm hm]
      · have hsame : p.afterTick now suspectAfter = p := by simp [Peer.afterTick, hfalls]
        have hpeers (m : String) : w.peers[m]? =
            if m ∈ [n] then w.peers[m]?.map (·.afterTick now suspectAfter) else w.peers[m]? := by
          by_cases hm : m = n
          · subst hm; simp [hp, hsame]
          · simp [hm]
        by_cases hdies : p.dies now suspectAfter deadAfter
        · simp only [visit, hp, hfalls, hdies, Bool.false_eq_true, ↓reduceIte]
          exact ⟨hpeers, by simp [hp, hfalls], by simp [hp, hdies]⟩
        · simp only [visit, hp, hfalls, hdies, Bool.false_eq_true, ↓reduceIte]
          exact ⟨hpeers, by simp [hp, hfalls], by simp [hp, hdies]⟩

/-- Visits of different peers do not get in each other's way. -/
theorem visited_foldl (w : Sweep) {order : List String} (h : order.Nodup) (now suspectAfter deadAfter : Nat) :
    Visited now suspectAfter deadAfter w (order.foldl (visit now suspectAfter deadAfter) w) order := by
  induction order generalizing w with
  | nil => exact ⟨fun n => by simp, by simp, by simp⟩
  | cons n order ih =>
      obtain ⟨hn, horder⟩ := List.nodup_cons.mp h
      have hfirst := visited_visit w n now suspectAfter deadAfter
      have hrest := ih (w.visit now suspectAfter deadAfter n) horder
      have hothers (m : String) (hm : m ∈ order) : (w.visit now suspectAfter deadAfter n).peers[m]? = w.peers[m]? := by
        have hne : m ≠ n := fun he => hn (he ▸ hm)
        rw [hfirst.peers, if_neg (by simpa using hne)]
      have hfilter (f : Peer → Bool) :
          (order.filter fun m => (w.visit now suspectAfter deadAfter n).peers[m]?.any f) =
            order.filter fun m => w.peers[m]?.any f :=
        List.filter_congr fun m hm => by rw [hothers m hm]
      have hsplit (f : Peer → Bool) : ((n :: order).filter fun m => w.peers[m]?.any f) =
          ([n].filter fun m => w.peers[m]?.any f) ++ order.filter fun m => w.peers[m]?.any f := by
        rw [← List.filter_append, List.singleton_append]
      rw [List.foldl_cons]
      refine ⟨fun m => ?_, ?_, ?_⟩
      · rw [hrest.peers]
        by_cases hm : m ∈ order
        · rw [if_pos hm, if_pos (List.mem_cons_of_mem _ hm), hothers m hm]
        · rw [if_neg hm, hfirst.peers]
          simp [hm]
      · rw [hrest.report, hfirst.report, hfilter, hsplit, List.map_append, List.append_assoc]
      · rw [hrest.dead, hfirst.dead, hfilter, hsplit, List.append_assoc]

end Sweep

/-! ## The second pass -/

namespace Table

variable {t : Table} {n : String} {now suspectAfter deadAfter : Nat}

def buryPeer (now : Nat) (r : Table × List (String × Outcome)) (n : String) : Table × List (String × Outcome) :=
  match r.1.peers[n]? with
  | none => r
  | some p =>
      ({ r.1 with peers := r.1.peers.erase n, tombstones := r.1.tombstones.insert n (p.buried now) },
        r.2 ++ [(n, .left)])

/-- A tick that goes through the peers in this order. -/
def sweep (t : Table) (order : List String) (now suspectAfter deadAfter : Nat) : Table × List (String × Outcome) :=
  let w := order.foldl (Sweep.visit now suspectAfter deadAfter) { peers := t.peers }
  w.dead.foldl (buryPeer now) ({ t with peers := w.peers }, w.report)

/-- What burying some peers does to a table and its report. -/
structure Interred (now : Nat) (r r' : Table × List (String × Outcome)) (dead : List String) : Prop where
  self : r'.1.self = r.1.self
  peers : ∀ n : String, r'.1.peers[n]? = if n ∈ dead then none else r.1.peers[n]?
  tombstones : ∀ n : String, r'.1.tombstones[n]? =
    if n ∈ dead then r.1.peers[n]?.map (·.buried now) else r.1.tombstones[n]?
  report : r'.2 = r.2 ++ dead.map (·, .left)

theorem interred_buryPeer {r : Table × List (String × Outcome)} (hn : n ∈ r.1.peers) (now : Nat) :
    Interred now r (buryPeer now r n) [n] := by
  obtain ⟨p, hp⟩ := Option.isSome_iff_exists.mp (Std.ExtTreeMap.mem_iff_isSome_getElem?.mp hn)
  simp only [buryPeer, hp]
  refine ⟨rfl, fun m => ?_, fun m => ?_, rfl⟩
  · by_cases hm : m = n
    · subst hm; simp
    · simp [Std.ExtTreeMap.getElem?_erase, hm, Ne.symm hm]
  · by_cases hm : m = n
    · subst hm; simp [hp]
    · simp [Std.ExtTreeMap.getElem?_insert, hm, Ne.symm hm]

theorem interred_foldl {r : Table × List (String × Outcome)} {dead : List String} (hnodup : dead.Nodup)
    (hdead : ∀ n ∈ dead, n ∈ r.1.peers) : Interred now r (dead.foldl (buryPeer now) r) dead := by
  induction dead generalizing r with
  | nil => exact ⟨rfl, fun n => by simp, fun n => by simp, by simp⟩
  | cons n dead ih =>
      obtain ⟨hn, hnodup⟩ := List.nodup_cons.mp hnodup
      have hfirst := interred_buryPeer (hdead n List.mem_cons_self) now
      have hothers (m : String) (hm : m ∈ dead) : (buryPeer now r n).1.peers[m]? = r.1.peers[m]? := by
        have hne : m ≠ n := fun he => hn (he ▸ hm)
        rw [hfirst.peers, if_neg (by simpa using hne)]
      have hrest := ih hnodup fun m hm => by
        rw [Std.ExtTreeMap.mem_iff_isSome_getElem?, hothers m hm, ← Std.ExtTreeMap.mem_iff_isSome_getElem?]
        exact hdead m (List.mem_cons_of_mem _ hm)
      rw [List.foldl_cons]
      refine ⟨hrest.self.trans hfirst.self, fun m => ?_, fun m => ?_, ?_⟩
      · rw [hrest.peers, hfirst.peers]
        by_cases hm : m ∈ dead <;> simp [hm]
      · rw [hrest.tombstones]
        by_cases hm : m ∈ dead
        · rw [if_pos hm, if_pos (List.mem_cons_of_mem _ hm), hothers m hm]
        · rw [if_neg hm, hfirst.tombstones]
          simp [hm]
      · rw [hrest.report, hfirst.report, List.append_assoc]
        rfl

/-! ## Every order leads to the same -/

theorem ext_maps {u : Table} (hself : t.self = u.self) (hpeers : ∀ n : String, t.peers[n]? = u.peers[n]?)
    (htombstones : ∀ n : String, t.tombstones[n]? = u.tombstones[n]?) : t = u := by
  have hp := Std.ExtTreeMap.ext_getElem? hpeers
  have ht := Std.ExtTreeMap.ext_getElem? htombstones
  cases t; cases u; simp_all

theorem getElem?_peers_tick (t : Table) (n : String) : (t.tick now suspectAfter deadAfter).1.peers[n]? =
    (t.peers[n]?.filter fun p => !p.dies now suspectAfter deadAfter).map (·.afterTick now suspectAfter) := by
  simp only [tick, Std.ExtTreeMap.getElem?_map, Std.ExtTreeMap.getElem?_filter']

theorem getElem?_tombstones_tick (t : Table) (n : String) : (t.tick now suspectAfter deadAfter).1.tombstones[n]? =
    ((t.peers[n]?.filter (·.dies now suspectAfter deadAfter)).map (·.buried now)).or t.tombstones[n]? := by
  simp only [tick, Std.ExtTreeMap.getElem?_union, Std.ExtTreeMap.getElem?_map, Std.ExtTreeMap.getElem?_filter']

theorem mem_filter_peers {order : List String} (h : order.Perm t.peers.keys) {f : Peer → Bool} :
    (n ∈ order.filter fun m => t.peers[m]?.any f) ↔ ∃ p, t.peers[n]? = some p ∧ f p = true := by
  rw [List.mem_filter, h.mem_iff, Std.ExtTreeMap.mem_keys, Std.ExtTreeMap.mem_iff_isSome_getElem?,
    Option.any_eq_true]
  constructor
  · rintro ⟨-, hp⟩
    exact hp
  · rintro ⟨p, hp, hf⟩
    exact ⟨by simp [hp], p, hp, hf⟩

theorem filter_perm_keys {order : List String} (h : order.Perm t.peers.keys) (f : Peer → Bool) :
    (order.filter fun m => t.peers[m]?.any f).Perm (t.peers.filter fun _ p => f p).keys := by
  have hnodup : order.Nodup := h.nodup_iff.mpr (keys_nodup _)
  rw [List.perm_ext_iff_of_nodup (hnodup.filter _) (keys_nodup _)]
  intro n
  rw [mem_filter_peers h, mem_keys_filter]

/-- The first pass of a sweep that visits everybody. -/
theorem peers_firstPass {order : List String} (h : order.Perm t.peers.keys) (n : String) :
    (order.foldl (Sweep.visit now suspectAfter deadAfter) { peers := t.peers }).peers[n]? =
      t.peers[n]?.map (·.afterTick now suspectAfter) := by
  rw [(Sweep.visited_foldl _ (h.nodup_iff.mpr (keys_nodup _)) now suspectAfter deadAfter).peers]
  split
  · rfl
  · rename_i hn
    rw [h.mem_iff, Std.ExtTreeMap.mem_keys, Std.ExtTreeMap.mem_iff_isSome_getElem?,
      Option.not_isSome_iff_eq_none] at hn
    simp [hn]

/-- The second pass buries those who were dead when the first one came to them. -/
theorem interred_sweep {order : List String} (h : order.Perm t.peers.keys) (now suspectAfter deadAfter : Nat) :
    let w := order.foldl (Sweep.visit now suspectAfter deadAfter) { peers := t.peers }
    Interred now ({ t with peers := w.peers }, w.report) (t.sweep order now suspectAfter deadAfter)
      (order.filter fun n => t.peers[n]?.any (·.dies now suspectAfter deadAfter)) := by
  intro w
  have hnodup : order.Nodup := h.nodup_iff.mpr (keys_nodup _)
  have hdead : w.dead = order.filter fun n => t.peers[n]?.any (·.dies now suspectAfter deadAfter) :=
    (Sweep.visited_foldl _ hnodup now suspectAfter deadAfter).dead
  rw [← hdead]
  refine interred_foldl (hdead ▸ hnodup.filter _) fun n hn => ?_
  rw [hdead, mem_filter_peers h] at hn
  obtain ⟨p, hp, -⟩ := hn
  have hp' : w.peers[n]? = some (p.afterTick now suspectAfter) := by rw [peers_firstPass h, hp]; rfl
  rw [Std.ExtTreeMap.mem_iff_isSome_getElem?, hp']
  rfl

theorem table_sweep {order : List String} (h : order.Perm t.peers.keys) :
    (t.sweep order now suspectAfter deadAfter).1 = (t.tick now suspectAfter deadAfter).1 := by
  have hinterred := interred_sweep h now suspectAfter deadAfter
  refine ext_maps hinterred.self (fun n => ?_) fun n => ?_
  · rw [hinterred.peers, peers_firstPass h, getElem?_peers_tick]
    simp only [mem_filter_peers h]
    cases t.peers[n]? with
    | none => simp
    | some p => by_cases hdies : p.dies now suspectAfter deadAfter <;> simp [hdies, Option.filter_some]
  · rw [hinterred.tombstones, peers_firstPass h, getElem?_tombstones_tick]
    simp only [mem_filter_peers h]
    cases t.peers[n]? with
    | none => simp
    | some p =>
        by_cases hdies : p.dies now suspectAfter deadAfter
        · simp [hdies, Option.filter_some, Peer.afterTick_of_dies hdies]
        · simp [hdies, Option.filter_some]

theorem report_sweep {order : List String} (h : order.Perm t.peers.keys) :
    (t.sweep order now suspectAfter deadAfter).2.Perm (t.tick now suspectAfter deadAfter).2 := by
  have hnodup : order.Nodup := h.nodup_iff.mpr (keys_nodup _)
  have hreport := (Sweep.visited_foldl { peers := t.peers } hnodup now suspectAfter deadAfter).report
  rw [(interred_sweep h now suspectAfter deadAfter).report, hreport, List.nil_append]
  exact ((filter_perm_keys h _).map _).append ((filter_perm_keys h _).map _)

/-! ## To the letter -/

theorem peers_tick (t : Table) (n : String) : (t.tick now suspectAfter deadAfter).1.peers[n]? =
    if (n, .left) ∈ (t.tick now suspectAfter deadAfter).2 then none
    else if (n, .suspected) ∈ (t.tick now suspectAfter deadAfter).2 then t.peers[n]?.map (·.suspect now)
    else t.peers[n]? := by
  rw [getElem?_peers_tick]
  simp only [left_mem_tick, suspected_mem_tick]
  cases t.peers[n]? with
  | none => simp
  | some p =>
      by_cases hdies : p.dies now suspectAfter deadAfter
      · simp [hdies, Option.filter_some]
      · by_cases hfalls : p.fallsSuspect now suspectAfter <;>
          simp [hdies, hfalls, Option.filter_some, Peer.afterTick]

theorem tombstones_tick (t : Table) (n : String) : (t.tick now suspectAfter deadAfter).1.tombstones[n]? =
    if (n, .left) ∈ (t.tick now suspectAfter deadAfter).2 then t.peers[n]?.map (·.buried now)
    else t.tombstones[n]? := by
  rw [getElem?_tombstones_tick]
  simp only [left_mem_tick]
  cases t.peers[n]? with
  | none => simp
  | some p => by_cases hdies : p.dies now suspectAfter deadAfter <;> simp [hdies, Option.filter_some]

theorem outcome_of_mem_tick {e : String × Outcome} (h : e ∈ (t.tick now suspectAfter deadAfter).2) :
    e.2 = .suspected ∨ e.2 = .left := by
  rcases List.mem_append.mp h with h | h
  · obtain ⟨_, _, rfl⟩ := List.mem_map.mp h
    exact Or.inl rfl
  · obtain ⟨_, _, rfl⟩ := List.mem_map.mp h
    exact Or.inr rfl

/--
A tick reports as suspect exactly the peers that are alive and have been silent for the first timeout, and as gone
exactly those that were suspect before it, have been silent for that long, and have been suspect for the second timeout.
The former become suspect now, and the latter tombstones of the dead, made now, of the same record but for its state.
Nobody is reported twice, and nothing else changes. The order in which the peers are visited shows in the report alone.
-/
theorem tick_exact (t : Table) (now suspectAfter deadAfter : Nat) :
    let after := (t.tick now suspectAfter deadAfter).1
    let report := (t.tick now suspectAfter deadAfter).2
    (∀ n, (n, .suspected) ∈ report ↔
      ∃ p, t.peers[n]? = some p ∧ p.record.state = .alive ∧ suspectAfter ≤ now - p.lastHeard) ∧
    (∀ n, (n, .left) ∈ report ↔
      ∃ p, t.peers[n]? = some p ∧ p.record.state = .suspect ∧ suspectAfter ≤ now - p.lastHeard ∧
        deadAfter ≤ now - p.stateSince) ∧
    (∀ e ∈ report, e.2 = .suspected ∨ e.2 = .left) ∧
    (report.map Prod.fst).Nodup ∧
    (∀ n : String, after.peers[n]? =
      if (n, .left) ∈ report then none
      else if (n, .suspected) ∈ report then
        t.peers[n]?.map fun p => { p with record := { p.record with state := .suspect }, stateSince := now }
      else t.peers[n]?) ∧
    (∀ n : String, after.tombstones[n]? =
      if (n, .left) ∈ report then t.peers[n]?.map fun p => ⟨{ p.record with state := .dead }, now⟩
      else t.tombstones[n]?) ∧
    after.self = t.self ∧
    ∀ order : List String, order.Perm t.peers.keys →
      (t.sweep order now suspectAfter deadAfter).1 = after ∧
        (t.sweep order now suspectAfter deadAfter).2.Perm report := by
  intro after report
  refine ⟨fun n => ?_, fun n => ?_, fun e he => outcome_of_mem_tick he, nodup_names_tick t _ _ _,
    peers_tick t, tombstones_tick t, rfl, fun order h => ⟨table_sweep h, report_sweep h⟩⟩
  · simp only [report, suspected_mem_tick, Peer.fallsSuspect_iff]
  · simp only [report, left_mem_tick, Peer.dies_iff]

/-- Of the peers, two have been silent, one was heard of, and one has been a suspect for long. -/
def sampleSilent : Table :=
  (new (.brief "a" 0 .alive)).run [.merge (.brief "b" 0 .alive) 0, .merge (.brief "c" 0 .alive) 100,
    .merge (.brief "d" 0 .suspect) 0, .merge (.brief "e" 0 .alive) 9000]

def sampleOrder : List String :=
  ["d", "e", "c", "b"]

theorem tick_exact_sample : sampleOrder.Perm sampleSilent.peers.keys ∧
    (sampleSilent.tick 10000 5000 10000).2 = [("b", .suspected), ("c", .suspected), ("d", .left)] ∧
    (sampleSilent.sweep sampleOrder 10000 5000 10000).2 = [("c", .suspected), ("b", .suspected), ("d", .left)] ∧
    (sampleSilent.sweep sampleOrder 10000 5000 10000).1 = (sampleSilent.tick 10000 5000 10000).1 := by
  have hkeys : sampleOrder.Perm sampleSilent.peers.keys := by decide +kernel
  have htick : (sampleSilent.tick 10000 5000 10000).2 = [("b", .suspected), ("c", .suspected), ("d", .left)] := by
    decide +kernel
  have hsweep : (sampleSilent.sweep sampleOrder 10000 5000 10000).2 =
      [("c", .suspected), ("b", .suspected), ("d", .left)] := by
    decide +kernel
  obtain ⟨-, -, -, -, -, -, -, horder⟩ := tick_exact sampleSilent 10000 5000 10000
  exact ⟨hkeys, htick, hsweep, (horder sampleOrder hkeys).1⟩

end Table

end AgentMesh.Gossip
