import AgentMesh.Proofs.Gossip.Cluster
import Mathlib.Data.String.Basic

/-!
# Meshes

Some nodes with their settings and life cycles, and every datagram that any of them ever sent. Here the nodes build
their messages themselves, and handle those of others. What their tables and messages go through is a run of a cluster.
-/

namespace AgentMesh.Gossip

/-! ## What a node does of its own accord -/

inductive Deed
  | start (bound : Option Net.SocketAddr)
  | settle (joined : Option Bool) (nanos : Nat)
  | join (seeds : List String) (now : Nat)
  | round (pick : Sampler) (now : Nat)
  | leave
  | setProfile (pick : Sampler) (profile : Profile)
  | stop

/-- What the deed does to the table of the node, step by step. -/
def Deed.acts (m : Membership) : Deed → List Act
  | start bound =>
      match m.life.enter, bound with
      | .ok _, some addr => [.setAddr addr]
      | _, _ => []
  | round _ now =>
      [.beat, .tick now m.config.suspectAfter m.config.deadAfter, .purge now m.config.tombstoneTtl]
  | leave =>
      match m.life.openSocket with
      | .ok _ => [.leave]
      | .error _ => []
  | setProfile _ profile => [.setProfile profile]
  | _ => []

theorem Output.datagrams_append (a b : Output) : (a ++ b).datagrams = a.datagrams ++ b.datagrams := rfl

namespace Membership

/-- The answers to a join arrive as datagrams of their own. -/
def perform (m : Membership) (net : Network) : Deed → Membership × Output
  | .start bound => ((m.beginStart bound).1, (m.beginStart bound).2.2)
  | .settle joined nanos => m.finishStart joined nanos
  | .join seeds now => ((m.join net seeds [] now).1, (m.join net seeds [] now).2.2)
  | .round pick now => m.round net pick now
  | .leave => ((m.leave net).1, (m.leave net).2.2)
  | .setProfile pick profile => m.updateProfile net pick profile
  | .stop => m.stop

theorem config_perform (m : Membership) (net : Network) (d : Deed) : (m.perform net d).1.config = m.config := by
  cases d with
  | start bound =>
      simp only [perform, beginStart]
      split
      · rfl
      · split
        · rfl
        · split <;> rfl
  | join seeds now => simp only [perform, join]; split <;> rfl
  | leave => simp only [perform, leave]; split <;> rfl
  | stop => simp only [perform, stop]; split <;> rfl
  | _ => rfl

theorem table_perform (m : Membership) (net : Network) (d : Deed) :
    (m.perform net d).1.table = m.table.run ((d.acts m).map .act) := by
  cases d with
  | start bound =>
      simp only [perform, beginStart, Deed.acts]
      cases m.life.enter with
      | error e => rfl
      | ok life =>
          cases bound with
          | none => rfl
          | some addr =>
              simp only
              split <;> rfl
  | join seeds now => simp only [perform, join]; split <;> rfl
  | round pick now => exact table_round m net pick now
  | leave =>
      simp only [perform, leave, Deed.acts]
      cases m.life.openSocket <;> rfl
  | stop => simp only [perform, stop]; split <;> rfl
  | _ => rfl

theorem says_of_mem_perform {m : Membership} {net : Network} {d : Deed} {g : Datagram}
    (h : g ∈ (m.perform net d).2.datagrams) : (m.perform net d).1.Says g := by
  cases d with
  | start bound =>
      have hnone : (m.beginStart bound).2.2.datagrams = [] := by
        simp only [beginStart]
        split
        · rfl
        · split
          · rfl
          · split <;> rfl
      rw [show (m.perform net (.start bound)).2 = (m.beginStart bound).2.2 from rfl, hnone] at h
      cases h
  | settle joined nanos => simp [perform, finishStart] at h
  | join seeds now =>
      cases hopen : m.life.openSocket with
      | error e => simp [perform, join, hopen] at h
      | ok addr =>
          simp only [perform, join, hopen, receiveAll, Output.datagrams_append, List.append_nil] at h ⊢
          exact says_of_mem_joinRequests h
  | round pick now => exact says_of_mem_round h
  | leave => exact says_of_mem_leave h
  | setProfile pick profile => exact says_of_mem_updateProfile h
  | stop =>
      simp only [perform, stop] at h
      split at h <;> cases h

theorem config_handle (m : Membership) (net : Network) (msg : Message) (source : Net.SocketAddr) (now : Nat) :
    (m.handle net msg source now).1.config = m.config := by
  simp only [handle]
  split <;> rfl

theorem table_handle_eq_run (m : Membership) (net : Network) (msg : Message) (source : Net.SocketAddr) (now : Nat) :
    (m.handle net msg source now).1.table =
      m.table.run (if msg.sender.name = m.config.nodeId then [] else (msg.withSenderAddr source).ops now) := by
  simp only [handle]
  split
  · rfl
  · exact Table.absorb_eq_run _ _ _

theorem of_create {c : Config} {m : Membership} (h : create c = .ok m) :
    m.config = c ∧ m.table = .new m.table.self ∧ m.table.self.name = c.nodeId := by
  simp only [create] at h
  split at h
  · cases h
  · cases h
    exact ⟨rfl, rfl, rfl⟩

end Membership

/-! ## What a node sends -/

theorem Message.fits_eq (m : Message) : m.fits = decide (String.utf8Len m.toJson.print ≤ maxDatagram) := by
  rw [fits, encode, Json.compact, String.utf8ByteSize_ofList]

namespace Membership

theorem send_of_fits {msg : Message} (h : msg.fits = true) (net : Network) (targets : List Net.SocketAddr) :
    send net msg targets = (targets.filter net.canSend).map fun target => ⟨target, msg⟩ := by
  simp [send, Message.trimmed, h]

theorem sendWhole_of_fits {msg : Message} (h : msg.fits = true) (net : Network) (targets : List Net.SocketAddr) :
    sendWhole net msg targets = (targets.filter net.canSend).map fun target => ⟨target, msg⟩ := by
  simp [sendWhole, h]

variable {m : Membership} {net : Network} {addr : Net.SocketAddr}

theorem messages_join (hopen : m.life.openSocket = .ok addr) (hfits : (Message.join m.table.self).fits = true)
    (seeds : List String) (now : Nat) :
    (m.perform net (.join seeds now)).2.datagrams.map (·.message) =
      ((seeds.flatMap fun seed => net.resolve (seedAddress seed m.config.gossipPort)).filter net.canSend).map
        fun _ => .join m.table.self := by
  simp only [perform, join, hopen, receiveAll, joinRequests, sendWhole_of_fits hfits, Output.datagrams_append,
    List.append_nil, List.map_map]
  rfl

theorem messages_handle {msg : Message} {source : Net.SocketAddr} {now : Nat} (hne : msg.sender.name ≠ m.config.nodeId)
    (hfits : ∀ r, reply? (m.handle net msg source now).1.table (msg.withSenderAddr source) = some r → r.fits = true) :
    (m.handle net msg source now).2.datagrams.map (·.message) =
      if net.canSend source then (reply? (m.handle net msg source now).1.table (msg.withSenderAddr source)).toList
      else [] := by
  simp only [handle, hne, ↓reduceIte] at hfits ⊢
  cases hr : reply? (absorb m.table (msg.withSenderAddr source) now).1 (msg.withSenderAddr source) with
  | none => simp
  | some r => cases hs : net.canSend source <;> simp [send_of_fits (hfits r hr), hs]

end Membership

/-! ## Meshes and their runs -/

inductive Move (ι : Type)
  | act (i : ι) (d : Deed)
  /-- Node `i` handles the datagram that was sent as the `k`-th. -/
  | deliver (i : ι) (k : Nat) (source : Net.SocketAddr) (now : Nat)

structure Mesh (ι : Type) where
  net : Network
  nodes : ι → Membership
  /-- What was sent, and by whom. -/
  sent : List (ι × Message)

namespace Mesh

/-- Nodes that have not heard of each other. -/
def start {ι : Type} (net : Network) (nodes : ι → Membership) : Mesh ι where
  net
  nodes
  sent := []

variable {ι : Type} [DecidableEq ι]

def put (m : Mesh ι) (i : ι) (r : Membership × Output) : Mesh ι :=
  { m with nodes := Function.update m.nodes i r.1, sent := m.sent ++ r.2.datagrams.map fun g => (i, g.message) }

def step (m : Mesh ι) : Move ι → Mesh ι
  | .act i d => m.put i ((m.nodes i).perform m.net d)
  | .deliver i k source now =>
      match m.sent[k]? with
      | none => m
      | some (_, msg) => m.put i ((m.nodes i).handle m.net msg source now)

def run (m : Mesh ι) (mvs : List (Move ι)) : Mesh ι :=
  mvs.foldl step m

/-- Every move of the run is as `P` says, of the mesh before the move. -/
def Every (P : Mesh ι → Move ι → Prop) : Mesh ι → List (Move ι) → Prop
  | _, [] => True
  | m, mv :: mvs => P m mv ∧ (m.step mv).Every P mvs

@[simp] theorem run_nil (m : Mesh ι) : m.run [] = m := rfl

@[simp] theorem run_cons (m : Mesh ι) (mv : Move ι) (mvs : List (Move ι)) :
    m.run (mv :: mvs) = (m.step mv).run mvs := rfl

theorem run_append (m : Mesh ι) (mvs mvs' : List (Move ι)) : m.run (mvs ++ mvs') = (m.run mvs).run mvs' :=
  List.foldl_append

theorem run_keeps {I : Mesh ι → Prop} {P : Mesh ι → Move ι → Prop} (hstep : ∀ m mv, I m → P m mv → I (m.step mv))
    {m : Mesh ι} {mvs : List (Move ι)} (h : I m) (hP : m.Every P mvs) : I (m.run mvs) := by
  induction mvs generalizing m with
  | nil => exact h
  | cons mv mvs ih => exact ih (hstep m mv h hP.1) hP.2

theorem Every.and {P Q : Mesh ι → Move ι → Prop} {m : Mesh ι} {mvs : List (Move ι)} (hP : m.Every P mvs)
    (hQ : m.Every Q mvs) : m.Every (fun m mv => P m mv ∧ Q m mv) mvs := by
  induction mvs generalizing m with
  | nil => trivial
  | cons mv mvs ih => exact ⟨⟨hP.1, hQ.1⟩, ih hP.2 hQ.2⟩

variable {m : Mesh ι}

/-! ## One move -/

/-- What a move does to the table of node `i`, step by step. -/
def opsAt (m : Mesh ι) (i : ι) : Move ι → List Op
  | .act j d => if i = j then (d.acts (m.nodes i)).map .act else []
  | .deliver j k source now =>
      match m.sent[k]? with
      | none => []
      | some (_, msg) =>
          if i = j ∧ msg.sender.name ≠ (m.nodes i).config.nodeId then (msg.withSenderAddr source).ops now else []

theorem nodes_put (m : Mesh ι) (i : ι) (r : Membership × Output) (j : ι) :
    (m.put i r).nodes j = if j = i then r.1 else m.nodes j :=
  Function.update_apply m.nodes i r.1 j

theorem config_step (m : Mesh ι) (mv : Move ι) (i : ι) : ((m.step mv).nodes i).config = (m.nodes i).config := by
  cases mv with
  | act j d =>
      rw [step, nodes_put]
      split
      · rename_i hij
        rw [Membership.config_perform, hij]
      · rfl
  | deliver j k source now =>
      rw [step]
      split
      · rfl
      · rw [nodes_put]
        split
        · rename_i hij
          rw [Membership.config_handle, hij]
        · rfl

theorem table_step (m : Mesh ι) (mv : Move ι) (i : ι) :
    ((m.step mv).nodes i).table = (m.nodes i).table.run (m.opsAt i mv) := by
  cases mv with
  | act j d =>
      rw [step, nodes_put, opsAt]
      by_cases hij : i = j
      · subst hij
        rw [if_pos rfl, if_pos rfl, Membership.table_perform]
      · rw [if_neg hij, if_neg hij, Table.run_nil]
  | deliver j k source now =>
      rw [step, opsAt]
      cases hk : m.sent[k]? with
      | none => rfl
      | some e =>
          obtain ⟨i', msg⟩ := e
          simp only [nodes_put]
          by_cases hij : i = j
          · subst hij
            simp only [↓reduceIte, Membership.table_handle_eq_run, true_and, ite_not]
          · simp [hij]

theorem step_deliver {i j : ι} {k : Nat} {msg : Message} (hk : m.sent[k]? = some (j, msg)) (source : Net.SocketAddr)
    (now : Nat) : m.step (.deliver i k source now) = m.put i ((m.nodes i).handle m.net msg source now) := by
  simp only [step, hk]

theorem sent_put (m : Mesh ι) (i : ι) (r : Membership × Output) :
    (m.put i r).sent = m.sent ++ (r.2.datagrams.map (·.message)).map (i, ·) := by
  simp [put]

theorem mem_sent_put {i j : ι} {r : Membership × Output} {msg : Message} (hr : ∀ g ∈ r.2.datagrams, r.1.Says g)
    (h : (j, msg) ∈ (m.put i r).sent) :
    (j, msg) ∈ m.sent ∨ ∃ u : Utterance, msg = u.message ((m.put i r).nodes j).table := by
  rcases List.mem_append.mp h with h | h
  · exact Or.inl h
  · obtain ⟨g, hg, he⟩ := List.mem_map.mp h
    cases he
    obtain ⟨u, hu⟩ := hr g hg
    refine Or.inr ⟨u, ?_⟩
    rw [nodes_put, if_pos rfl, hu]

theorem mem_sent_step {mv : Move ι} {j : ι} {msg : Message} (h : (j, msg) ∈ (m.step mv).sent) :
    (j, msg) ∈ m.sent ∨ ∃ u : Utterance, msg = u.message ((m.step mv).nodes j).table := by
  cases mv with
  | act i d => exact mem_sent_put (fun g hg => Membership.says_of_mem_perform hg) h
  | deliver i k source now =>
      simp only [step] at h ⊢
      split at h
      · exact Or.inl h
      · exact mem_sent_put (fun g hg => Membership.says_of_mem_handle hg) h

theorem sent_subset_step (m : Mesh ι) (mv : Move ι) : m.sent ⊆ (m.step mv).sent := by
  cases mv with
  | act i d => exact List.subset_append_left _ _
  | deliver i k source now =>
      simp only [step]
      split
      · exact List.Subset.refl _
      · exact List.subset_append_left _ _

/-! ## Meshes of nodes that were created -/

/-- Some run leads to the mesh from nodes that were just created, with these settings. -/
def Reached (config : ι → Config) (m : Mesh ι) : Prop :=
  ∃ net nodes mvs, (∀ i, Membership.create (config i) = .ok (nodes i)) ∧ m = (start net nodes).run mvs

variable {config : ι → Config}

theorem Reached.run (h : m.Reached config) (mvs : List (Move ι)) : (m.run mvs).Reached config := by
  obtain ⟨net, nodes, mvs', hcreate, rfl⟩ := h
  exact ⟨net, nodes, mvs' ++ mvs, hcreate, (run_append _ _ _).symm⟩

theorem Reached.step (h : m.Reached config) (mv : Move ι) : (m.step mv).Reached config := h.run [mv]

theorem Reached.induction {I : Mesh ι → Prop} (h : m.Reached config)
    (hstart : ∀ net nodes, (∀ i, Membership.create (config i) = .ok (nodes i)) → I (start net nodes))
    (hstep : ∀ m mv, m.Reached config → I m → I (m.step mv)) : I m := by
  obtain ⟨net, nodes, mvs, hcreate, rfl⟩ := h
  induction mvs using List.reverseRecOn with
  | nil => exact hstart net nodes hcreate
  | append_singleton mvs mv ih =>
      rw [run_append]
      exact hstep _ mv ⟨net, nodes, mvs, hcreate, rfl⟩ ih

theorem Reached.config_eq (h : m.Reached config) (i : ι) : (m.nodes i).config = config i :=
  h.induction (I := fun m => (m.nodes i).config = config i)
    (fun _ _ hcreate => (Membership.of_create (hcreate i)).1) fun m mv _ ih => (config_step m mv i).trans ih

theorem Reached.name_eq (h : m.Reached config) (i : ι) : (m.nodes i).table.self.name = (config i).nodeId :=
  h.induction (I := fun m => (m.nodes i).table.self.name = (config i).nodeId)
    (fun _ _ hcreate => (Membership.of_create (hcreate i)).2.2)
    fun m mv _ ih => by rw [table_step, Table.name_run, ih]

theorem Reached.name_of_mem_sent (h : m.Reached config) {j : ι} {msg : Message} (hmsg : (j, msg) ∈ m.sent) :
    msg.sender.name = (config j).nodeId := by
  revert hmsg
  refine h.induction (I := fun m => (j, msg) ∈ m.sent → msg.sender.name = (config j).nodeId) (by simp [start])
    fun m mv hm ih hmsg => ?_
  rcases mem_sent_step hmsg with hmsg | ⟨u, rfl⟩
  · exact ih hmsg
  · rw [Utterance.sender_message]
    exact (hm.step mv).name_eq j

theorem Reached.wellFormed (h : m.Reached config) (i : ι) : (m.nodes i).table.WellFormed :=
  h.induction (I := fun m => (m.nodes i).table.WellFormed)
    (fun _ _ hcreate => (Membership.of_create (hcreate i)).2.1 ▸ Table.new_wellFormed _)
    fun m mv _ ih => table_step m mv i ▸ ih.run _

/-! ## The cluster of a mesh -/

/-- The tables of a mesh, and what was said in it. -/
def cluster (m : Mesh ι) : Cluster ι where
  tables i := (m.nodes i).table
  sent := m.sent.map Prod.snd

end Mesh

namespace Cluster

variable {ι : Type} [DecidableEq ι]

theorem run_acts (c : Cluster ι) (i : ι) (acts : List Act) :
    c.run (acts.map (.act i)) =
      ⟨Function.update c.tables i ((c.tables i).run (acts.map .act)), c.sent⟩ := by
  induction acts generalizing c with
  | nil => simp
  | cons a acts ih => simp [step, ih, Table.apply]

theorem run_sends (tables : ι → Table) (sent : List Message) (i : ι) (us : List Utterance) :
    run ⟨tables, sent⟩ (us.map (.send i)) = ⟨tables, sent ++ us.map (·.message (tables i))⟩ := by
  induction us generalizing sent with
  | nil => simp
  | cons u us ih => simp [step, ih]

end Cluster

namespace Mesh

variable {ι : Type} [DecidableEq ι] {m : Mesh ι} {config : ι → Config}

theorem exists_utterances {t : Table} {gs : List Datagram}
    (h : ∀ g ∈ gs, ∃ u : Utterance, g.message = u.message t) :
    ∃ us : List Utterance, gs.map (·.message) = us.map (·.message t) := by
  induction gs with
  | nil => exact ⟨[], rfl⟩
  | cons g gs ih =>
      obtain ⟨u, hu⟩ := h g List.mem_cons_self
      obtain ⟨us, hus⟩ := ih fun g hg => h g (List.mem_cons_of_mem _ hg)
      exact ⟨u :: us, by rw [List.map_cons, List.map_cons, hu, hus]⟩

/-- A node changes its table, and then says something. -/
theorem cluster_put (m : Mesh ι) (i : ι) {r : Membership × Output} (hr : ∀ g ∈ r.2.datagrams, r.1.Says g) :
    ∃ us : List Utterance, (m.put i r).cluster =
      Cluster.run ⟨Function.update m.cluster.tables i r.1.table, m.cluster.sent⟩ (us.map (.send i)) := by
  obtain ⟨us, hus⟩ := exists_utterances hr
  refine ⟨us, ?_⟩
  have htables : (m.put i r).cluster.tables = Function.update m.cluster.tables i r.1.table := by
    funext j
    simp only [cluster, nodes_put, Function.update_apply]
    split <;> rfl
  have hsent : (m.put i r).cluster.sent = m.cluster.sent ++ us.map (·.message r.1.table) := by
    rw [← hus]
    simp [cluster, put, Function.comp_def]
  rw [Cluster.run_sends, Function.update_self, ← htables, ← hsent]

theorem exists_events_step (h : m.Reached config) (mv : Move ι) :
    ∃ es, (m.step mv).cluster = m.cluster.run es := by
  cases mv with
  | act i d =>
      obtain ⟨us, hus⟩ := m.cluster_put i (r := (m.nodes i).perform m.net d)
        fun g hg => Membership.says_of_mem_perform hg
      refine ⟨(d.acts (m.nodes i)).map (.act i) ++ us.map (.send i), ?_⟩
      rw [Cluster.run_append, Cluster.run_acts, step, hus, Membership.table_perform]
      rfl
  | deliver i k source now =>
      rw [step]
      cases hk : m.sent[k]? with
      | none => exact ⟨[], rfl⟩
      | some e =>
          obtain ⟨j, msg⟩ := e
          obtain ⟨us, hus⟩ := m.cluster_put i (r := (m.nodes i).handle m.net msg source now)
            fun g hg => Membership.says_of_mem_handle hg
          refine ⟨.deliver i k source now :: us.map (.send i), ?_⟩
          have hsent : m.cluster.sent[k]? = some msg := by simp [cluster, hk]
          have hid : (m.nodes i).table.self.name = (m.nodes i).config.nodeId := by rw [h.name_eq, h.config_eq]
          simp only [hus, Cluster.run_cons, Cluster.step, hsent, Membership.table_handle hid]
          rfl

/-- What happens in a mesh is a run of its cluster. -/
theorem exists_events (h : m.Reached config) (mvs : List (Move ι)) :
    ∃ es, (m.run mvs).cluster = m.cluster.run es := by
  induction mvs generalizing m with
  | nil => exact ⟨[], rfl⟩
  | cons mv mvs ih =>
      obtain ⟨es, hes⟩ := exists_events_step h mv
      obtain ⟨es', hes'⟩ := ih (h.step mv)
      exact ⟨es ++ es', by rw [run_cons, hes', hes, Cluster.run_append]⟩

/-- The cluster of a mesh that is reached is one that began with the records of the nodes. -/
theorem Reached.cluster_eq (h : m.Reached config) :
    ∃ records es, (∀ i, (records i).name = (config i).nodeId) ∧ m.cluster = (Cluster.start records).run es := by
  obtain ⟨net, nodes, mvs, hcreate, rfl⟩ := h
  have h : (start net nodes).Reached config := ⟨net, nodes, [], hcreate, rfl⟩
  obtain ⟨es, hes⟩ := exists_events h mvs
  refine ⟨fun i => (nodes i).table.self, es, fun i => (Membership.of_create (hcreate i)).2.2, ?_⟩
  have htables : (fun i => (nodes i).table) = fun i => Table.new (nodes i).table.self :=
    funext fun i => (Membership.of_create (hcreate i)).2.1
  rw [hes, cluster, Cluster.start]
  simp only [start, htables, List.map_nil]

/-! ## Two nodes that meet and part -/

def sampleConfig (i : Bool) : Config :=
  { nodeId := if i then "n" else "a", bindPort := 8080, gossipPort := 7946 }

/-- Where the datagrams of the nodes come from. -/
def sampleHome (i : Bool) : Net.SocketAddr :=
  .v4 ⟨10, 0, 0, if i then 2 else 1⟩ 7946

/-- Where the nodes themselves say that they are. -/
def sampleBound : Net.SocketAddr :=
  .v4 ⟨0, 0, 0, 0⟩ 7946

def sampleRecord (i : Bool) : MemberRecord :=
  { name := (sampleConfig i).nodeId, addr := sampleBound, rpcPort := 8080 }

def sampleNodes (i : Bool) : Membership :=
  { config := sampleConfig i, table := .new (sampleRecord i) }

theorem create_sampleNodes (i : Bool) : Membership.create (sampleConfig i) = .ok (sampleNodes i) := by
  have hvalid : (sampleConfig i).validate = .ok () := by revert i; decide +kernel
  simp only [Membership.create, hvalid]
  rfl

theorem nodeId_sampleConfig_injective : Function.Injective fun i => (sampleConfig i).nodeId := by
  unfold Function.Injective
  decide

def sampleStarted : Mesh Bool :=
  ((start .literal sampleNodes).step (.act false (.start (some sampleBound)))).step
    (.act true (.start (some sampleBound)))

def sampleAsked : Mesh Bool :=
  sampleStarted.step (.act true (.join ["10.0.0.1"] 0))

def sampleAnswered : Mesh Bool :=
  sampleAsked.step (.deliver false 0 (sampleHome true) 10)

def sampleMet : Mesh Bool :=
  sampleAnswered.step (.deliver true 1 (sampleHome false) 20)

def sampleJoin : Message :=
  .join (sampleRecord true)

/-- The second node as the first one knows it. -/
def sampleSeen : MemberRecord :=
  { sampleRecord true with addr := sampleHome true }

def sampleJoinAck : Message :=
  .joinAck (sampleRecord false) [sampleRecord false, sampleSeen]

def sampleGone : MemberRecord :=
  { sampleRecord true with incarnation := 1, state := .left }

theorem sent_sampleAsked : sampleAsked.sent = [(true, sampleJoin)] := by
  have hfits : (Message.join (sampleStarted.nodes true).table.self).fits = true := by
    rw [Message.fits_eq]
    decide +kernel
  have hopen : (sampleStarted.nodes true).life.openSocket = .ok sampleBound := rfl
  rw [sampleAsked, step, sent_put, Membership.messages_join hopen hfits]
  decide +kernel

theorem sampleAnswered_eq :
    sampleAnswered = sampleAsked.put false
      ((sampleAsked.nodes false).handle sampleAsked.net sampleJoin (sampleHome true) 10) := by
  have hk : sampleAsked.sent[0]? = some (true, sampleJoin) := by simp [sent_sampleAsked]
  rw [sampleAnswered, step_deliver hk]

theorem sent_sampleAnswered : sampleAnswered.sent = [(true, sampleJoin), (false, sampleJoinAck)] := by
  have hne : sampleJoin.sender.name ≠ (sampleAsked.nodes false).config.nodeId := by decide +kernel
  have hreply : Membership.reply?
      ((sampleAsked.nodes false).handle sampleAsked.net sampleJoin (sampleHome true) 10).1.table
      (sampleJoin.withSenderAddr (sampleHome true)) = some sampleJoinAck := by decide +kernel
  have hfits : sampleJoinAck.fits = true := by
    rw [Message.fits_eq]
    decide +kernel
  have hopen : sampleAsked.net.canSend (sampleHome true) = true := by decide +kernel
  rw [sampleAnswered_eq, sent_put, Membership.messages_handle hne (by simp [hreply, hfits]), hreply, if_pos hopen,
    sent_sampleAsked]
  rfl

theorem sampleMet_eq :
    sampleMet = sampleAnswered.put true
      ((sampleAnswered.nodes true).handle sampleAnswered.net sampleJoinAck (sampleHome false) 20) := by
  have hk : sampleAnswered.sent[1]? = some (false, sampleJoinAck) := by simp [sent_sampleAnswered]
  rw [sampleMet, step_deliver hk]

theorem sent_sampleMet : sampleMet.sent = [(true, sampleJoin), (false, sampleJoinAck)] := by
  have hne : sampleJoinAck.sender.name ≠ (sampleAnswered.nodes true).config.nodeId := by
    rw [sampleAnswered_eq]
    decide +kernel
  have hreply (t : Table) : Membership.reply? t (sampleJoinAck.withSenderAddr (sampleHome false)) = none := rfl
  rw [sampleMet_eq, sent_put, Membership.messages_handle hne (by simp [hreply]), hreply, sent_sampleAnswered]
  simp

end Mesh

end AgentMesh.Gossip
