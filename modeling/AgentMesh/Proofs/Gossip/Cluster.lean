import AgentMesh.Gossip.Membership
import AgentMesh.Proofs.Gossip.Owner
import Mathlib.Data.List.Induction

/-!
# Clusters

Some nodes with their tables, and every message that any of them ever sent. Taking a message does not remove it,
so that messages may arrive late, again, out of order, at any node, or never. A run is a list of events.
-/

namespace AgentMesh.Gossip

/-! ## Messages -/

/-- What a node may say. The records in it are those of its table. -/
inductive Utterance
  | ping (seq : Nat)
  | ack (seq : Nat)
  | join
  | joinAck
  | news
  | ownNews
  /-- What is left of a message that is too large. -/
  | bare
deriving Repr, DecidableEq

def Utterance.message (t : Table) : Utterance → Message
  | ping seq => .ping t.self seq
  | ack seq => .ack t.self seq
  | join => .join t.self
  | joinAck => .joinAck t.self t.payload
  | news => .gossip t.self t.payload
  | ownNews => .gossip t.self [t.self]
  | bare => .gossip t.self []

def Message.records (m : Message) : List MemberRecord :=
  m.sender :: m.members

/-- What a message does to the table of another node, step by step. -/
def Message.ops (m : Message) (now : Nat) : List Op :=
  (match m with
    | .join s => [.act (.forget s.name)]
    | _ => []) ++ m.records.map (.merge · now)

/-- Takes a message, unless it is in the node's own name. -/
def Table.receive (t : Table) (m : Message) (source : Net.SocketAddr) (now : Nat) : Table :=
  if m.sender.name = t.self.name then t else (Membership.absorb t (m.withSenderAddr source) now).1

theorem Utterance.records_subset (t : Table) (u : Utterance) {r : MemberRecord}
    (hr : r ∈ (u.message t).records) : r ∈ t.payload := by
  have hself : t.self ∈ t.payload := List.mem_cons_self
  cases u <;> simp [Utterance.message, Message.records, Message.sender, Message.members] at hr
  case joinAck => rcases hr with rfl | hr <;> assumption
  case news => rcases hr with rfl | hr <;> assumption
  all_goals subst hr; exact hself

theorem Utterance.sender_message (t : Table) (u : Utterance) : (u.message t).sender = t.self := by
  cases u <;> rfl

@[simp] theorem Message.name_withSenderAddr (m : Message) (source : Net.SocketAddr) :
    (m.withSenderAddr source).sender.name = m.sender.name := by
  cases m <;> rfl

theorem Message.sender_withSenderAddr (m : Message) (source : Net.SocketAddr) :
    (m.withSenderAddr source).sender = { m.sender with addr := source } := by
  cases m <;> rfl

theorem Message.records_withSenderAddr (m : Message) (source : Net.SocketAddr) :
    (m.withSenderAddr source).records = { m.sender with addr := source } :: m.members := by
  cases m <;> rfl

theorem Message.leave_not_mem_ops (m : Message) (now : Nat) : .act .leave ∉ m.ops now := by
  cases m <;> simp [Message.ops]

namespace Table

variable {t : Table}

theorem mergeAll_eq_run (t : Table) (rs : List MemberRecord) (now : Nat) :
    (t.mergeAll rs now).1 = t.run (rs.map (.merge · now)) := by
  induction rs generalizing t with
  | nil => rfl
  | cons r rs ih => simp only [mergeAll, List.map_cons, run_cons, ← ih]; rfl

theorem absorb_eq_run (t : Table) (m : Message) (now : Nat) :
    (Membership.absorb t m now).1 = t.run (m.ops now) := by
  simp only [Membership.absorb, mergeAll_eq_run, Message.ops, run_append]
  cases m <;> rfl

theorem receive_eq_run (t : Table) (m : Message) (source : Net.SocketAddr) (now : Nat) :
    t.receive m source now =
      t.run (if m.sender.name = t.self.name then [] else (m.withSenderAddr source).ops now) := by
  rw [receive]
  split
  · rfl
  · exact absorb_eq_run _ _ _

theorem state_receive (t : Table) (m : Message) (source : Net.SocketAddr) (now : Nat) :
    (t.receive m source now).self.state = t.self.state := by
  rw [receive_eq_run]
  split
  · rfl
  · exact state_run (Message.leave_not_mem_ops _ _)

@[simp] theorem name_receive (t : Table) (m : Message) (source : Net.SocketAddr) (now : Nat) :
    (t.receive m source now).self.name = t.self.name := by
  rw [receive_eq_run, name_run]

theorem WellFormed.receive (hw : t.WellFormed) (m : Message) (source : Net.SocketAddr) (now : Nat) :
    (t.receive m source now).WellFormed := by
  rw [receive_eq_run]
  exact hw.run _

end Table

/-! ## Clusters and their runs -/

inductive Event (ι : Type)
  | act (i : ι) (a : Act)
  | send (i : ι) (u : Utterance)
  /-- Node `i` takes the message that was sent as the `k`-th. -/
  | deliver (i : ι) (k : Nat) (source : Net.SocketAddr) (now : Nat)
deriving Repr, DecidableEq

structure Cluster (ι : Type) where
  tables : ι → Table
  sent : List Message

namespace Cluster

/-- Nodes that have not heard of each other. -/
def start {ι : Type} (records : ι → MemberRecord) : Cluster ι where
  tables i := .new (records i)
  sent := []

variable {ι : Type} [DecidableEq ι]

def step (c : Cluster ι) : Event ι → Cluster ι
  | .act i a => { c with tables := Function.update c.tables i ((c.tables i).act a) }
  | .send i u => { c with sent := c.sent ++ [u.message (c.tables i)] }
  | .deliver i k source now =>
      match c.sent[k]? with
      | none => c
      | some m => { c with tables := Function.update c.tables i ((c.tables i).receive m source now) }

def run (c : Cluster ι) (es : List (Event ι)) : Cluster ι :=
  es.foldl step c

/-- A record is in some table or in flight. -/
def Holds (c : Cluster ι) (r : MemberRecord) : Prop :=
  (∃ i, r ∈ (c.tables i).payload) ∨ ∃ m ∈ c.sent, r ∈ m.records

@[simp] theorem run_nil (c : Cluster ι) : c.run [] = c := rfl

@[simp] theorem run_cons (c : Cluster ι) (e : Event ι) (es : List (Event ι)) :
    c.run (e :: es) = (c.step e).run es := rfl

theorem run_append (c : Cluster ι) (es es' : List (Event ι)) : c.run (es ++ es') = (c.run es).run es' :=
  List.foldl_append

/-! ## Every table of a cluster makes a run of its own -/

def opsAt (c : Cluster ι) (i : ι) : Event ι → List Op
  | .act j a => if i = j then [.act a] else []
  | .send _ _ => []
  | .deliver j k source now =>
      match c.sent[k]? with
      | none => []
      | some m =>
          if i = j ∧ m.sender.name ≠ (c.tables i).self.name then (m.withSenderAddr source).ops now else []

theorem tables_step (c : Cluster ι) (e : Event ι) (i : ι) :
    (c.step e).tables i = (c.tables i).run (c.opsAt i e) := by
  cases e with
  | act j a =>
      by_cases hij : i = j
      · subst hij; simp [step, opsAt, Table.apply]
      · simp [step, opsAt, hij]
  | send j u => rfl
  | deliver j k source now =>
      cases hm : c.sent[k]? with
      | none => simp [step, opsAt, hm]
      | some m =>
          by_cases hij : i = j
          · subst hij
            by_cases hn : m.sender.name = (c.tables i).self.name
            · simp [step, opsAt, hm, Table.receive, hn]
            · simp [step, opsAt, hm, Table.receive, hn, Table.absorb_eq_run]
          · simp [step, opsAt, hm, hij]

theorem precedes_step (c : Cluster ι) (e : Event ι) (i : ι) :
    (c.tables i).self.Precedes ((c.step e).tables i).self := by
  rw [tables_step]
  exact Table.precedes_run _ _

theorem precedes_run (c : Cluster ι) (es : List (Event ι)) (i : ι) :
    (c.tables i).self.Precedes ((c.run es).tables i).self := by
  induction es generalizing c with
  | nil => exact .refl _
  | cons e es ih => exact (precedes_step c e i).trans (ih (c.step e))

theorem reachable_tables (records : ι → MemberRecord) (es : List (Event ι)) (i : ι) :
    (((start records).run es).tables i).Reachable := by
  induction es using List.reverseRecOn with
  | nil => exact ⟨records i, [], rfl⟩
  | append_singleton es e ih =>
      rw [run_append, run_cons, run_nil, tables_step]
      exact ih.run _

theorem mem_sent_step {c : Cluster ι} {e : Event ι} {m : Message} (h : m ∈ (c.step e).sent) :
    m ∈ c.sent ∨ ∃ i u, m = Utterance.message (c.tables i) u := by
  cases e with
  | act i a => exact Or.inl h
  | send i u =>
      rcases List.mem_append.mp h with h | h
      · exact Or.inl h
      · exact Or.inr ⟨i, u, List.mem_singleton.mp h⟩
  | deliver i k source now =>
      simp only [step] at h
      split at h
      · exact Or.inl h
      · exact Or.inl h

/-- A node merges nothing but records of messages, up to the address of the sender. -/
theorem record_of_merge_mem_opsAt {c : Cluster ι} {e : Event ι} {i : ι} {r : MemberRecord} {now : Nat}
    (h : .merge r now ∈ c.opsAt i e) :
    ∃ m ∈ c.sent, ∃ r' ∈ m.records, r = r' ∨ ∃ addr, r = { r' with addr } := by
  cases e with
  | act j a => simp only [opsAt] at h; split at h <;> simp at h
  | send j u => simp [opsAt] at h
  | deliver j k source now' =>
      simp only [opsAt] at h
      split at h
      · simp at h
      · rename_i m hm
        split at h
        · have hr : r ∈ (m.withSenderAddr source).records := by
            simp only [Message.ops, List.mem_append, List.mem_map, Op.merge.injEq] at h
            rcases h with h | ⟨r', hr', rfl, -⟩
            · split at h <;> simp at h
            · exact hr'
          rw [Message.records_withSenderAddr, List.mem_cons] at hr
          refine ⟨m, List.mem_of_getElem? hm, ?_⟩
          rcases hr with rfl | hr
          · exact ⟨m.sender, List.mem_cons_self, Or.inr ⟨source, rfl⟩⟩
          · exact ⟨r, List.mem_cons_of_mem _ hr, Or.inl rfl⟩
        · simp at h

end Cluster

/-! ## What a member does is what a node of a cluster does -/

namespace Membership

/-- The datagram holds something that the member may say. -/
def Says (m : Membership) (d : Datagram) : Prop :=
  ∃ u : Utterance, d.message = u.message m.table

theorem says_of_mem_send {m : Membership} {net : Network} {u : Utterance} {targets : List Net.SocketAddr}
    {d : Datagram} (h : d ∈ send net (u.message m.table) targets) : m.Says d := by
  simp only [send] at h
  split at h
  · obtain ⟨target, -, rfl⟩ := List.mem_map.mp h
    simp only [Says, Message.trimmed]
    split
    · exact ⟨u, rfl⟩
    · exact ⟨.bare, by cases u <;> rfl⟩
  · cases h

theorem says_of_mem_sendWhole {m : Membership} {net : Network} {u : Utterance} {targets : List Net.SocketAddr}
    {d : Datagram} (h : d ∈ sendWhole net (u.message m.table) targets) : m.Says d := by
  simp only [sendWhole] at h
  split at h
  · obtain ⟨target, -, rfl⟩ := List.mem_map.mp h
    exact ⟨u, rfl⟩
  · cases h

theorem table_handle {m : Membership} (hid : m.table.self.name = m.config.nodeId) (net : Network) (msg : Message)
    (source : Net.SocketAddr) (now : Nat) :
    (m.handle net msg source now).1.table = m.table.receive msg source now := by
  simp only [handle, Table.receive, hid]
  split <;> rfl

theorem says_of_mem_handle {m : Membership} {net : Network} {msg : Message} {source : Net.SocketAddr} {now : Nat}
    {d : Datagram} (h : d ∈ (m.handle net msg source now).2.datagrams) : (m.handle net msg source now).1.Says d := by
  simp only [handle] at h ⊢
  split at h
  · cases h
  · rename_i hid
    simp only [hid, ↓reduceIte]
    cases msg with
    | ping sender seq =>
        simp only [Message.withSenderAddr, reply?] at h
        exact says_of_mem_send (u := .ack seq) h
    | join sender =>
        simp only [Message.withSenderAddr, reply?] at h
        exact says_of_mem_send (u := .joinAck) h
    | _ => cases h

theorem table_round (m : Membership) (net : Network) (pick : Sampler) (now : Nat) :
    (m.round net pick now).1.table =
      m.table.run [.act .beat, .act (.tick now m.config.suspectAfter m.config.deadAfter),
        .act (.purge now m.config.tombstoneTtl)] := rfl

theorem says_of_mem_round {m : Membership} {net : Network} {pick : Sampler} {now : Nat} {d : Datagram}
    (h : d ∈ (m.round net pick now).2.datagrams) : (m.round net pick now).1.Says d := by
  rcases List.mem_append.mp h with h | h
  · exact says_of_mem_send (u := .news) h
  · exact says_of_mem_send (u := .ping m.seq) h

theorem says_of_mem_joinRequests {m : Membership} {net : Network} {seeds : List String} {d : Datagram}
    (h : d ∈ m.joinRequests net seeds) : m.Says d :=
  says_of_mem_sendWhole (u := .join) h

theorem says_of_mem_leave {m : Membership} {net : Network} {d : Datagram}
    (h : d ∈ (m.leave net).2.2.datagrams) : (m.leave net).1.Says d := by
  simp only [leave] at h ⊢
  split at h
  · cases h
  · dsimp only at h ⊢
    exact says_of_mem_sendWhole (u := .ownNews) h

theorem says_of_mem_updateProfile {m : Membership} {net : Network} {pick : Sampler} {profile : Profile}
    {d : Datagram} (h : d ∈ (m.updateProfile net pick profile).2.datagrams) :
    (m.updateProfile net pick profile).1.Says d := by
  simp only [updateProfile] at h
  split at h
  · cases h
  · exact says_of_mem_send (u := .ownNews) h

end Membership

end AgentMesh.Gossip
