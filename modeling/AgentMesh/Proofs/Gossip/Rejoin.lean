import AgentMesh.Proofs.Gossip.Cluster
import AgentMesh.Proofs.Gossip.Convergence
import AgentMesh.Proofs.Gossip.Refutation

/-!
# Coming back

A node that was restarted does not know what its cluster remembers of it. It asks a seed to be let in, and the seed
answers with everything it knows, so that the node can outbid what is said about it. Whatever the seed remembered, the
next message of the node makes the seed list it as alive.
-/

namespace AgentMesh.Gossip

/-! ## Messages and versions -/

theorem Standing.version_pardon_le (k : Standing) : k.pardon.version ≤ k.version := by
  cases k with
  | buried s => exact bot_le
  | _ => exact le_rfl

theorem Message.latest_records_withSenderAddr (m : Message) (source : Net.SocketAddr) (n : String) :
    latest n (m.withSenderAddr source).records = latest n m.records := by
  rw [Message.records_withSenderAddr, Message.records, latest_cons, latest_cons]
  rfl

namespace Table

variable {t s n : Table}

/-- Lifting a tombstone is all that a message does besides telling its records. -/
theorem version_run_ops_le (hw : t.WellFormed) (m : Message) (now : Nat) {name : String}
    (hn : name ≠ t.self.name) :
    latest name m.records ≤ (t.run (m.ops now)).version name ∧
      (t.run (m.ops now)).version name ≤ max (t.version name) (latest name m.records) := by
  have htold {u : Table} (hu : u.WellFormed) (hname : u.self.name = t.self.name) :
      (u.run (m.records.map (.merge · now))).version name = max (u.version name) (latest name m.records) := by
    have h := version_mergeEach hu (m.records.map (·, now)) (n := name) (by rwa [hname])
    simpa [mergeEach, Function.comp_def] using h
  cases m with
  | join sender =>
      have hle : (t.act (.forget sender.name)).version name ≤ t.version name := by
        rw [version, standing_act hw, Act.onStanding]
        split
        · exact Standing.version_pardon_le _
        · exact le_rfl
      have h := htold (hw.act (.forget sender.name)) (name_act t _)
      simp only [Message.ops, List.cons_append, List.nil_append, run_cons, apply, h]
      exact ⟨le_max_right _ _, max_le_max_right _ hle⟩
  | _ =>
      simp only [Message.ops, List.nil_append, htold hw rfl]
      exact ⟨le_max_right _ _, le_rfl⟩

/-- A node knows at least as much as a message tells, and no more than it knew and was told. -/
theorem version_receive (hw : t.WellFormed) {m : Message} (hm : m.sender.name ≠ t.self.name)
    (source : Net.SocketAddr) (now : Nat) {name : String} (hn : name ≠ t.self.name) :
    latest name m.records ≤ (t.receive m source now).version name ∧
      (t.receive m source now).version name ≤ max (t.version name) (latest name m.records) := by
  rw [receive, if_neg hm, absorb_eq_run, ← Message.latest_records_withSenderAddr m source]
  exact version_run_ops_le hw (m.withSenderAddr source) now hn

/-! ## What a node says about itself -/

/-- Whatever a node says, the latest that it tells about itself is its own record. -/
theorem latest_self_message (hw : t.WellFormed) (u : Utterance) :
    latest t.self.name (u.message t).records = t.self.version := by
  apply le_antisymm
  · apply latest_le
    intro r hr hname
    rw [hw.eq_self_of_mem_payload (Utterance.records_subset t u hr) hname]
  · refine le_latest ?_ rfl
    rw [← Utterance.sender_message t u]
    exact List.mem_cons_self

/-- A node that does not leave is not outbid by what it was told about itself. -/
theorem latest_le_self_receive {m : Message} (hm : m.sender.name ≠ t.self.name) (source : Net.SocketAddr) (now : Nat)
    (hstate : (t.receive m source now).self.state ≠ .left) :
    latest t.self.name m.records ≤ (t.receive m source now).self.version := by
  rw [← Message.latest_records_withSenderAddr m source]
  apply latest_le
  intro r hr hname
  have hop : .merge r now ∈ (m.withSenderAddr source).ops now :=
    List.mem_append_right _ (List.mem_map_of_mem hr)
  rw [receive_eq_run, if_neg hm] at hstate ⊢
  exact WithBot.coe_le_coe.mpr (version_le_self_run hop hname hstate)

/-! ## The handshake -/

/-- Once a node took all that another knows, the other knows nothing of it in a later version than its own record. -/
theorem version_le_self_receive_joinAck (hw : s.WellFormed) (hne : n.self.name ≠ s.self.name)
    (hleft : n.self.state ≠ .left) (source : Net.SocketAddr) (now : Nat) :
    s.version n.self.name ≤ (n.receive (Utterance.joinAck.message s) source now).self.version := by
  have hmembers : latest n.self.name s.payload ≤ latest n.self.name (Utterance.joinAck.message s).records :=
    latest_le fun r hr hname => le_latest (List.mem_cons_of_mem _ hr) hname
  rw [← latest_payload hw hne]
  exact hmembers.trans (latest_le_self_receive (Ne.symm hne) source now (by rwa [state_receive]))

/-- Whatever a node that is alive says, others list it as alive, unless they know of it in a later version. -/
theorem listsAlive_receive (hs : s.WellFormed) (hn : n.WellFormed) (hne : n.self.name ≠ s.self.name)
    (halive : n.self.state = .alive) (hknown : s.version n.self.name ≤ n.self.version) (u : Utterance)
    (source : Net.SocketAddr) (now : Nat) :
    (s.receive (u.message n) source now).ListsAlive n.self.name n.self.incarnation := by
  obtain ⟨hge, hle⟩ := version_receive hs (m := u.message n) (by rwa [Utterance.sender_message]) source now hne
  rw [latest_self_message hn u] at hge hle
  rw [max_eq_right hknown] at hle
  exact listsAlive_of_version (hs.receive _ _ _) halive (le_antisymm hle hge)

/--
A node that has not left asks a seed to be let in, the seed answers, and the node takes the answer. Whatever the seed
remembered of the node, from then on every message that the node sends, as long as it does not leave, makes the seed
list it as alive, at its current incarnation.
-/
theorem rejoin_lists_alive (hs : s.Reachable) (hn : n.Started) (hleft : n.self.state ≠ .left)
    (hne : n.self.name ≠ s.self.name) {ops ops' : List Op} (hstay : .act .leave ∉ ops) (hstay' : .act .leave ∉ ops')
    {source source' source'' : Net.SocketAddr} {now now' now'' : Nat} {s' n' : Table} {answer : Message}
    (hrequest : s' = s.receive (Utterance.join.message n) source now)
    (hanswer : Membership.reply? s' ((Utterance.join.message n).withSenderAddr source) = some answer)
    (htaken : n' = ((n.run ops).receive answer source' now').run ops') (u : Utterance) :
    (s'.receive (u.message n') source'' now'').ListsAlive n.self.name n'.self.incarnation := by
  have hanswer : answer = Utterance.joinAck.message s' := (Option.some.inj hanswer).symm
  have hws : s'.WellFormed := hrequest ▸ hs.wellFormed.receive _ _ _
  have hwn : n'.WellFormed := htaken ▸ ((hn.reachable.wellFormed.run ops).receive _ _ _).run ops'
  have hname : n'.self.name = n.self.name := by rw [htaken, name_run, name_receive, name_run]
  have hne' : (n.run ops).self.name ≠ s'.self.name := by rwa [hrequest, name_receive, name_run]
  have halive : (n.run ops).self.state = .alive := by rw [state_run hstay, hn.alive hleft]
  have halive' : n'.self.state = .alive := by rw [htaken, state_run hstay', state_receive, halive]
  -- The answer tells all that the seed knows of the node, so that the node outbids it before it speaks again.
  have hknown : s'.version n.self.name ≤ n'.self.version := by
    have hle := version_le_self_receive_joinAck hws hne' (by rw [halive]; decide) source' now'
    rw [name_run, ← hanswer] at hle
    rw [htaken]
    exact hle.trans (WithBot.coe_le_coe.mpr (version_self_le_run hstay'))
  rw [← hname] at hknown ⊢
  exact listsAlive_receive hws hwn (by rwa [hname, ← name_run n ops]) halive' hknown u source'' now''

/-- A seed that suspects a member, and what it is like once the member, started anew, has asked to be let in. -/
def sampleSeed : Table :=
  sample.run [.merge (.brief "c" 4 .suspect) 30]

def sampleRestarted : Table :=
  new (.brief "c" 0 .alive)

def sampleAsked : Table :=
  sampleSeed.receive (Utterance.join.message sampleRestarted) default 40

def sampleAnswered : Table :=
  ((sampleRestarted.run [.act .beat]).receive (Utterance.joinAck.message sampleAsked) default 50).run
    [.act (.setProfile { status := .busy })]

theorem rejoin_lists_alive_sample : sampleSeed.Reachable ∧ sampleRestarted.Started ∧
    sampleRestarted.self.state ≠ .left ∧ sampleRestarted.self.name ≠ sampleSeed.self.name ∧
    Membership.reply? sampleAsked ((Utterance.join.message sampleRestarted).withSenderAddr default) =
      some (Utterance.joinAck.message sampleAsked) ∧
    sampleSeed.version "c" = (toLex (4, 1) : Version) ∧
    (sampleAsked.receive (Utterance.news.message sampleAnswered) default 60).ListsAlive "c" 6 := by
  have hseed : sampleSeed.Reachable := sample_reachable.run _
  have hstarted : sampleRestarted.Started := ⟨.brief "c" 0 .alive, [], rfl, rfl⟩
  have hne : sampleRestarted.self.name ≠ sampleSeed.self.name := by decide +kernel
  have hinc : sampleAnswered.self.incarnation = 6 := by decide +kernel
  refine ⟨hseed, hstarted, by decide, hne, rfl, by decide +kernel, ?_⟩
  rw [← hinc]
  exact rejoin_lists_alive hseed hstarted (by decide) hne (by decide) (by decide) rfl rfl rfl .news

end Table

end AgentMesh.Gossip
