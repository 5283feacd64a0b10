import AgentMesh.Proofs.Gossip.Run

/-!
# Where the records of a table come from

A table keeps records as they were told, except that it changes states itself and takes over heartbeats from other
records of the same member at the same incarnation. The states that it changes only get more severe. A property that
survives these two changes holds of every record about another node, if it holds of all records that were merged.
-/

namespace AgentMesh.Gossip

structure Carried (Q : MemberRecord → Prop) : Prop where
  state : ∀ {r}, Q r → ∀ state, Q { r with state }
  heartbeat : ∀ {r r'}, Q r → Q r' → r.name = r'.name → r.incarnation = r'.incarnation →
    Q { r with heartbeat := r'.heartbeat }

/-- The property survives what a table does to a record. No table brings a record back to life by itself. -/
structure Endures (Q : MemberRecord → Prop) : Prop where
  state : ∀ {r}, Q r → ∀ state : MemberState, (state.isLive = true → r.state.isLive = true) → Q { r with state }
  heartbeat : ∀ {r r'}, Q r → Q r' → r.name = r'.name → r.incarnation = r'.incarnation →
    Q { r with heartbeat := r'.heartbeat }

theorem Carried.endures {Q : MemberRecord → Prop} (hQ : Carried Q) : Endures Q :=
  ⟨fun hr state _ => hQ.state hr state, hQ.heartbeat⟩

/-- The record that is kept has the property. -/
def Standing.Sat (Q : MemberRecord → Prop) (k : Standing) : Prop :=
  ∀ r, k.record? = some r → Q r

namespace Standing

variable {Q : MemberRecord → Prop}

theorem sat_unknown : unknown.Sat Q := by
  intro r hr
  simp at hr

theorem sat_listed {p : Peer} : (listed p).Sat Q ↔ Q p.record := by
  simp [Sat]

theorem sat_buried {s : Tombstone} : (buried s).Sat Q ↔ Q s.record := by
  simp [Sat]

theorem sat_first {r : MemberRecord} (hr : Q r) (now : Nat) : (first r now).1.Sat Q := by
  simp only [first]
  split
  · exact sat_listed.mpr hr
  · exact sat_buried.mpr hr

theorem Sat.hear {n : String} {k : Standing} (hQ : Endures Q) (hk : k.Sat Q) (hf : k.Fits n) {r : MemberRecord}
    (hn : r.name = n) (hr : Q r) (now : Nat) : (k.hear r now).1.Sat Q := by
  cases k with
  | unknown => exact sat_first hr now
  | listed p =>
      simp only [Standing.hear]
      split
      · refine sat_listed.mpr ?_
        simp only [Peer.refresh]
        split
        · rename_i hi
          exact hQ.heartbeat (sat_listed.mp hk) hr (hf.1.trans hn.symm) hi.1.symm
        · exact sat_listed.mp hk
      · split
        · exact sat_buried.mpr hr
        · exact sat_listed.mpr hr
  | buried s =>
      simp only [Standing.hear]
      split
      · exact hk
      · exact sat_first hr now

theorem Sat.ripen {k : Standing} (hQ : Endures Q) (hk : k.Sat Q) (now suspectAfter deadAfter : Nat) :
    (k.ripen now suspectAfter deadAfter).Sat Q := by
  cases k with
  | listed p =>
      simp only [Standing.ripen]
      split
      · exact sat_buried.mpr (hQ.state (sat_listed.mp hk) _ (by simp [MemberState.isLive]))
      · refine sat_listed.mpr ?_
        simp only [Peer.afterTick]
        split
        · rename_i hf
          simp only [Peer.fallsSuspect, Bool.and_eq_true, beq_iff_eq] at hf
          exact hQ.state (sat_listed.mp hk) _ fun _ => by simp [hf.1, MemberState.isLive]
        · exact sat_listed.mp hk
  | _ => exact hk

theorem Sat.onStanding {k : Standing} (hQ : Endures Q) (hk : k.Sat Q) (a : Act) (n : String) :
    (a.onStanding n k).Sat Q := by
  cases a with
  | tick now suspectAfter deadAfter => exact hk.ripen hQ now suspectAfter deadAfter
  | purge now ttl =>
      cases k with
      | buried s =>
          simp only [Act.onStanding, Standing.expire]
          split
          · exact hk
          · exact sat_unknown
      | _ => exact hk
  | forget m =>
      simp only [Act.onStanding]
      split
      · cases k with
        | buried s => exact sat_unknown
        | _ => exact hk
      · exact hk
  | _ => exact hk

end Standing

namespace Table

/-- Every record about another node has the property. -/
def Others (t : Table) (Q : MemberRecord → Prop) : Prop :=
  ∀ n, (t.standing n).Sat Q

variable {t : Table} {Q : MemberRecord → Prop}

theorem Others.act (hw : t.WellFormed) (hQ : Endures Q) (h : t.Others Q) (a : Act) : (t.act a).Others Q := by
  intro n
  rw [standing_act hw]
  exact (h n).onStanding hQ a n

theorem Others.merge (hw : t.WellFormed) (hQ : Endures Q) (h : t.Others Q) {r : MemberRecord} (hr : Q r)
    (now : Nat) : (t.merge r now).1.Others Q := by
  intro n
  rw [standing_merge hw]
  split
  · rename_i hn
    exact (h n).hear hQ (hw.fits n) hn.1 hr now
  · exact h n

theorem Others.run (hw : t.WellFormed) (hQ : Endures Q) (h : t.Others Q) {ops : List Op}
    (hops : ∀ r now, .merge r now ∈ ops → Q r) : (t.run ops).Others Q := by
  induction ops generalizing t with
  | nil => exact h
  | cons op ops ih =>
      refine ih (hw.apply op) ?_ fun r now hr => hops r now (List.mem_cons_of_mem _ hr)
      cases op with
      | act a => exact h.act hw hQ a
      | merge r now => exact h.merge hw hQ (hops r now List.mem_cons_self) now

theorem Others.mem_payload (hw : t.WellFormed) (h : t.Others Q) {r : MemberRecord} (hr : r ∈ t.payload) :
    r = t.self ∨ Q r := by
  rcases hw.mem_payload.mp hr with hr | ⟨n, hr⟩
  · exact Or.inl hr
  · exact Or.inr (h n r hr)

end Table

end AgentMesh.Gossip
