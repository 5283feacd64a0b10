import AgentMesh.Proofs.Gossip.Departure
import AgentMesh.Proofs.Gossip.Mesh

/-!
# Nodes that stay away

A node that handled the last word of another one does not list it any more while the tombstone lasts. All that is
under way and tells of the other's life is outdated by then, however late it arrives. Only a join request is taken
at its word: it lifts the tombstone first, and one from before the end brings the node back.
-/

namespace AgentMesh.Gossip

/-- Of all that a node does of its own accord, only a round can drop a tombstone, and only for its age. -/
theorem Deed.onStanding_buried {m : Membership} {d : Deed} {n : String} {s : Tombstone}
    (h : ∀ pick now, d = .round pick now → now - s.since < m.config.tombstoneTtl) {a : Act} (ha : a ∈ d.acts m) :
    a.onStanding n (.buried s) = .buried s := by
  cases d with
  | start bound =>
      simp only [Deed.acts] at ha
      split at ha
      · obtain rfl := List.mem_singleton.mp ha
        rfl
      · cases ha
  | round pick now =>
      have hage := h pick now rfl
      simp only [Deed.acts, List.mem_cons, List.not_mem_nil, or_false] at ha
      rcases ha with rfl | rfl | rfl
      · rfl
      · rfl
      · simp [Act.onStanding, Standing.expire, hage]
  | leave =>
      simp only [Deed.acts] at ha
      split at ha
      · obtain rfl := List.mem_singleton.mp ha
        rfl
      · cases ha
  | setProfile pick profile =>
      obtain rfl := List.mem_singleton.mp ha
      rfl
  | _ => cases ha

namespace Cluster

variable {ι : Type} [DecidableEq ι] {records : ι → MemberRecord}

theorem exists_saying_of_mem_sent {es : List (Event ι)} {msg : Message} (h : msg ∈ ((start records).run es).sent) :
    ∃ i mid, mid <+: es ∧ msg.sender = (start records).saying mid i := by
  induction es using List.reverseRecOn with
  | nil => cases h
  | append_singleton es e ih =>
      have hstep : (start records).run (es ++ [e]) = ((start records).run es).step e := run_append _ es [e]
      rw [hstep] at h
      rcases mem_sent_step h with h | ⟨i, u, rfl⟩
      · obtain ⟨i, mid, hmid, hsender⟩ := ih h
        exact ⟨i, mid, hmid.trans (List.prefix_append es [e]), hsender⟩
      · exact ⟨i, es, List.prefix_append es [e], Utterance.sender_message _ u⟩

end Cluster

namespace Mesh

variable {ι : Type} [DecidableEq ι] {m : Mesh ι} {config : ι → Config} {a n : ι}

/-! ## What is outdated -/

/-- Once a node sent something after it left, whatever tells of its life is of an earlier incarnation. -/
theorem Reached.incarnation_lt (hm : m.Reached config) (hnames : Function.Injective fun i => (config i).nodeId)
    {msg : Message} (hmsg : (n, msg) ∈ m.sent) (hleft : msg.sender.state = .left) {r : MemberRecord}
    (hr : m.cluster.Holds r) (hname : r.name = (config n).nodeId) (hlive : r.state.isLive = true) :
    r.incarnation < msg.sender.incarnation := by
  -- The message was sent when its sender had said so of itself, in the cluster whose run the mesh is.
  obtain ⟨records, es, hrecords, hes⟩ := hm.cluster_eq
  have hmem : msg ∈ ((Cluster.start records).run es).sent := hes ▸ List.mem_map.mpr ⟨(n, msg), hmsg, rfl⟩
  obtain ⟨i, mid, hmid, hsender⟩ := Cluster.exists_saying_of_mem_sent hmem
  have hid : (config i).nodeId = (config n).nodeId := by
    rw [← hrecords i, ← hm.name_of_mem_sent hmsg, hsender]
    exact (Cluster.name_saying (Cluster.start records) mid i).symm
  obtain rfl : i = n := hnames hid
  rw [hes] at hr
  rw [hsender] at hleft ⊢
  have hnames' : Function.Injective fun i => (records i).name := by simpa only [hrecords] using hnames
  exact Cluster.incarnation_lt_of_live hnames' List.prefix_rfl hmid hleft hr (hname.trans (hrecords i).symm) hlive

theorem Reached.outdated (hm : m.Reached config) (hnames : Function.Injective fun i => (config i).nodeId)
    {msg : Message} (hmsg : (n, msg) ∈ m.sent) (hleft : msg.sender.state = .left) {j : ι} {msg' : Message}
    (hmsg' : (j, msg') ∈ m.sent) (source : Net.SocketAddr) :
    Table.Outdated (msg'.withSenderAddr source).records (config n).nodeId msg.sender.incarnation := by
  have hheld {r : MemberRecord} (hr : r ∈ msg'.records) : m.cluster.Holds r :=
    Or.inr ⟨msg', List.mem_map.mpr ⟨(j, msg'), hmsg', rfl⟩, hr⟩
  intro r hr hname hlive
  rw [Message.records_withSenderAddr, List.mem_cons] at hr
  rcases hr with rfl | hr
  · exact hm.incarnation_lt hnames hmsg hleft (r := msg'.sender) (hheld List.mem_cons_self) hname hlive
  · exact hm.incarnation_lt hnames hmsg hleft (hheld (List.mem_cons_of_mem _ hr)) hname hlive

/-! ## How long it stays so -/

/-- Node `a` does not drop its tombstone of node `n` for its age. -/
def TombstoneLasts (a n : ι) (m : Mesh ι) : Move ι → Prop
  | .act i (.round _ now) => i = a → ∀ s, (m.nodes a).table.tombstones[(m.nodes n).config.nodeId]? = some s →
      now - s.since < (m.nodes a).config.tombstoneTtl
  | _ => True

/-- Node `a` handles no join request that node `n` sent before it left. -/
def NoEarlyJoin (a n : ι) (m : Mesh ι) : Move ι → Prop
  | .deliver i k _ _ => i = a → ∀ s, m.sent[k]? = some (n, .join s) → s.state = .left
  | _ => True

/-- Node `a` has buried node `n` at an incarnation at which `n` told that it left. -/
def Buried (config : ι → Config) (a n : ι) (m : Mesh ι) : Prop :=
  ∃ msg, (n, msg) ∈ m.sent ∧ msg.sender.state = .left ∧
    (m.nodes a).table.Buries (config n).nodeId msg.sender.incarnation

theorem Buried.of_deliver (hm : m.Reached config) (hnames : Function.Injective fun i => (config i).nodeId)
    (hne : a ≠ n) {k : Nat} {msg : Message} (hk : m.sent[k]? = some (n, msg)) (hleft : msg.sender.state = .left)
    (source : Net.SocketAddr) (now : Nat) : (m.step (.deliver a k source now)).Buried config a n := by
  have hw := hm.wellFormed a
  have hmsg : (n, msg) ∈ m.sent := List.mem_of_getElem? hk
  have hname := hm.name_of_mem_sent hmsg
  refine ⟨msg, sent_subset_step m _ hmsg, hleft, ?_⟩
  have hother : msg.sender.name ≠ (m.nodes a).config.nodeId := by
    rw [hname, hm.config_eq]
    exact fun h => hne (hnames h.symm)
  rw [table_step, opsAt]
  simp only [hk, true_and, ne_eq, hother, not_false_eq_true, ↓reduceIte]
  have hb := Table.buries_run_ops hw (m := msg.withSenderAddr source)
  rw [Message.sender_withSenderAddr] at hb
  rw [← hname]
  refine hb ?_ ?_ (fun p hp => ?_) ?_ now
  · rwa [hm.name_eq, ← hm.config_eq]
  · rw [hleft]
    rfl
  · obtain ⟨hpname, hlive⟩ := hw.fits_of_peer hp
    have hheld : m.cluster.Holds p.record := Cluster.holds_of_peer (j := a) hp
    exact hm.incarnation_lt hnames hmsg hleft hheld (hpname.trans hname) hlive
  · rw [hname]
    exact hm.outdated hnames hmsg hleft hmsg source

theorem Buried.of_act (hm : m.Reached config) (h : m.Buried config a n) {i : ι} {d : Deed}
    (hlasts : m.TombstoneLasts a n (.act i d)) : (m.step (.act i d)).Buried config a n := by
  obtain ⟨msg, hmsg, hleft, hb⟩ := h
  refine ⟨msg, sent_subset_step m _ hmsg, hleft, ?_⟩
  rw [table_step, opsAt]
  split
  · rename_i hi
    obtain ⟨s, hs, hle⟩ := hb
    have hw := hm.wellFormed a
    refine ⟨s, (hw.run _).tombstone_iff.mpr ?_, hle⟩
    refine Table.standing_run_acts hw (hw.tombstone_iff.mp hs) fun act hact => ?_
    refine Deed.onStanding_buried (fun pick now hd => ?_) hact
    subst hd
    exact hlasts hi.symm s (by rwa [hm.config_eq])
  · exact hb

theorem Buried.of_other (hm : m.Reached config) (hnames : Function.Injective fun i => (config i).nodeId)
    (h : m.Buried config a n) {i : ι} {k : Nat} {source : Net.SocketAddr} {now : Nat}
    (hjoin : i = a → ∀ s, m.sent[k]? ≠ some (n, .join s)) : (m.step (.deliver i k source now)).Buried config a n := by
  obtain ⟨msg, hmsg, hleft, hb⟩ := h
  refine ⟨msg, sent_subset_step m _ hmsg, hleft, ?_⟩
  rw [table_step, opsAt]
  cases hk : m.sent[k]? with
  | none => exact hb
  | some e =>
      obtain ⟨j, msg'⟩ := e
      have hmsg' : (j, msg') ∈ m.sent := List.mem_of_getElem? hk
      simp only
      split
      · rename_i hi
        refine hb.run_ops (hm.wellFormed a) (hm.outdated hnames hmsg hleft hmsg' source) (fun s hs hname => ?_) now
        have hname' : msg'.sender.name = (config n).nodeId := by
          rw [← Message.name_withSenderAddr msg' source, hs]
          exact hname
        have hjn : j = n := hnames ((hm.name_of_mem_sent hmsg').symm.trans hname')
        subst hjn
        cases msg' with
        | join s' => exact hjoin hi.1.symm s' hk
        | _ => cases hs
      · exact hb

theorem Buried.step (hm : m.Reached config) (hnames : Function.Injective fun i => (config i).nodeId) (hne : a ≠ n)
    (h : m.Buried config a n) {mv : Move ι} (hlasts : m.TombstoneLasts a n mv) (hjoin : m.NoEarlyJoin a n mv) :
    (m.step mv).Buried config a n := by
  cases mv with
  | act i d => exact h.of_act hm hlasts
  | deliver i k source now =>
      by_cases hasked : i = a ∧ ∃ s, m.sent[k]? = some (n, .join s)
      · obtain ⟨rfl, s, hk⟩ := hasked
        -- The request lifts the tombstone and buries its sender again, maybe at an earlier incarnation than before.
        exact .of_deliver hm hnames hne hk (hjoin rfl s hk) source now
      · exact h.of_other hm hnames fun hi s hk => hasked ⟨hi, s, hk⟩

end Mesh

end AgentMesh.Gossip
