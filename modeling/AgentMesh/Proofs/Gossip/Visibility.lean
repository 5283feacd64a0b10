import AgentMesh.Proofs.Gossip.Monitoring
import AgentMesh.Proofs.Gossip.Records

/-!
# Names that a node shows

A node is created under a valid name, but it takes the names of others as it is told them. Every name that it ever shows
is its own or was told to it by a datagram, so that the names are valid as long as the datagrams keep to the rule. One
that does not is enough to bring an invalid name into view.
-/

namespace AgentMesh.Gossip

/-- A node with this id hears of the name from the datagram. -/
def Arrival.Tells (id : String) (a : Arrival) (n : String) : Prop :=
  ∃ msg, Message.decode? a.payload = some msg ∧ msg.sender.name ≠ id ∧ ∃ r ∈ msg.records, r.name = n

def Occasion.arrivals : Occasion → List Arrival
  | .deed _ => []
  | .arrival a _ => [a]
  | .start _ _ _ arrivals _ => arrivals
  | .join _ arrivals _ => arrivals

/-! ## What a node is told -/

/-- On its way from one state to the other the node merged no records but of names that these datagrams tell. -/
structure Membership.Heard (arrivals : List Arrival) (m m' : Membership) : Prop where
  config : m'.config = m.config
  table : ∃ ops, m'.table = m.table.run ops ∧
    ∀ r now, .merge r now ∈ ops → ∃ a ∈ arrivals, a.Tells m.config.nodeId r.name

namespace Membership.Heard

variable {arrivals : List Arrival} {m m' m'' : Membership} {net : Network}

theorem refl (arrivals : List Arrival) (m : Membership) : Heard arrivals m m :=
  ⟨rfl, [], rfl, by simp⟩

theorem trans (h : Heard arrivals m m') (h' : Heard arrivals m' m'') : Heard arrivals m m'' := by
  obtain ⟨ops, htable, hops⟩ := h.table
  obtain ⟨ops', htable', hops'⟩ := h'.table
  refine ⟨h'.config.trans h.config, ops ++ ops', by rw [htable', htable, Table.run_append], fun r now hop => ?_⟩
  rcases List.mem_append.mp hop with hop | hop
  · exact hops r now hop
  · have htold := hops' r now hop
    rwa [h.config] at htold

/-- What a node does of its own accord merges nothing. -/
theorem perform (m : Membership) (net : Network) (d : Deed) : Heard arrivals m (m.perform net d).1 :=
  ⟨config_perform m net d, _, table_perform m net d, by simp⟩

theorem receive {a : Arrival} (ha : a ∈ arrivals) (now : Nat) : Heard arrivals m (m.receive net a now).1 := by
  rw [Membership.receive]
  split
  · exact refl arrivals m
  · cases hdecode : Message.decode? a.payload with
    | none => exact refl arrivals m
    | some msg =>
        refine ⟨config_handle m net msg a.source now, _, table_handle_eq_run m net msg a.source now, ?_⟩
        intro r now' hop
        split at hop
        · cases hop
        · rename_i hsender
          refine ⟨a, ha, msg, hdecode, hsender, ?_⟩
          have hr : r ∈ (msg.withSenderAddr a.source).records := by
            simp only [Message.ops, List.mem_append, List.mem_map, Op.merge.injEq] at hop
            rcases hop with hop | ⟨r', hr', rfl, -⟩
            · split at hop <;> simp at hop
            · exact hr'
          rw [Message.records_withSenderAddr] at hr
          rcases List.mem_cons.mp hr with rfl | hr
          · exact ⟨msg.sender, List.mem_cons_self, rfl⟩
          · exact ⟨r, List.mem_cons_of_mem _ hr, rfl⟩

theorem receiveAll {as : List Arrival} (has : as ⊆ arrivals) (now : Nat) :
    Heard arrivals m (m.receiveAll net as now).1 := by
  induction as generalizing m with
  | nil => exact refl arrivals m
  | cons a as ih =>
      obtain ⟨ha, has⟩ := List.cons_subset.mp has
      exact (receive ha now).trans (ih has)

theorem start {as : List Arrival} (has : as ⊆ arrivals) (pick : Sampler) (seeds : List String)
    (bound : Option Net.SocketAddr) (now : Nat) : Heard arrivals m (m.start net pick seeds bound as now).1 := by
  have hbegun : Heard arrivals m (m.beginStart bound).1 := perform m net (.start bound)
  rcases hb : m.beginStart bound with ⟨m', ⟨e⟩ | ⟨⟩, out⟩
  · simp only [Membership.start, hb]
    simpa only [hb] using hbegun
  · simp only [Membership.start, hb]
    have hbegun : Heard arrivals m m' := by simpa only [hb] using hbegun
    have hround : Heard arrivals m' (m'.round net pick now).1 := perform m' net (.round pick now)
    exact ((hbegun.trans hround).trans (receiveAll has now)).trans (perform _ net (.settle _ 0))

theorem join {as : List Arrival} (has : as ⊆ arrivals) (seeds : List String) (now : Nat) :
    Heard arrivals m (m.join net seeds as now).1 := by
  rw [Membership.join]
  split
  · exact refl arrivals m
  · exact receiveAll has now

end Membership.Heard

namespace Monitored

variable {s : Monitored} {net : Network} {arrivals : List Arrival}

theorem heard_step {o : Occasion} (h : o.arrivals ⊆ arrivals) :
    Membership.Heard arrivals s.node (s.step net o).node := by
  cases o with
  | deed d => exact .perform s.node net d
  | arrival a now => exact .receive (h List.mem_cons_self) now
  | start pick seeds bound as now => exact .start h pick seeds bound now
  | join seeds as now => exact .join h seeds now

theorem heard_run {os : List Occasion} (h : ∀ o ∈ os, o.arrivals ⊆ arrivals) :
    Membership.Heard arrivals s.node (s.run net os).node := by
  induction os generalizing s with
  | nil => exact .refl arrivals s.node
  | cons o os ih =>
      rw [run_cons]
      exact (heard_step (h o List.mem_cons_self)).trans (ih fun o' ho' => h o' (List.mem_cons_of_mem _ ho'))

end Monitored

/-! ## What a node shows -/

theorem Membership.validNodeId_of_create {c : Config} {m : Membership} (h : create c = .ok m) :
    ValidNodeId c.nodeId := by
  rw [← validateNodeId_eq_ok_iff]
  simp only [create, Config.validate] at h
  cases hid : validateNodeId c.nodeId with
  | error e => simp [hid, bind, Except.bind] at h
  | ok _ => rfl

theorem Membership.exists_payload_of_mem_members {m : Membership} {now epoch : Nat} {x : Member}
    (h : x ∈ m.members now epoch) : ∃ r ∈ m.table.payload, r.name = x.name := by
  rw [members] at h
  split at h
  · obtain ⟨r, hr, rfl⟩ := List.mem_map.mp h
    refine ⟨r, ?_, rfl⟩
    rw [Table.liveRecords] at hr
    rcases List.mem_append.mp hr with hr | hr
    · split at hr
      · rw [List.mem_singleton.mp hr]
        exact List.mem_cons_self
      · cases hr
    · exact List.mem_cons_of_mem _ (List.mem_append_left _ hr)
  · cases h

/-- That its name is one of these survives what a table does to a record. -/
theorem endures_name (P : String → Prop) : Endures fun r => P r.name where
  state h _ _ := h
  heartbeat h _ _ _ := h

namespace Monitored

/--
A node that was created has a valid name. Every other name that it ever shows was told to it by a datagram. So all
members and nodes that it shows have valid names if all names that it was told are valid.
-/
theorem shown_names_were_told {c : Config} {m : Membership} (hcreate : Membership.create c = .ok m) (id : String)
    (net : Network) (os : List Occasion) (now epoch : Nat) :
    let node := ((⟨m, { nodeId := id }⟩ : Monitored).run net os).node
    ValidNodeId c.nodeId ∧
    (∀ x ∈ node.members now epoch,
      x.name = c.nodeId ∨ ∃ o ∈ os, ∃ a ∈ o.arrivals, a.Tells c.nodeId x.name) ∧
    ((∀ o ∈ os, ∀ a ∈ o.arrivals, ∀ n, a.Tells c.nodeId n → ValidNodeId n) →
      (∀ x ∈ node.members now epoch, ValidNodeId x.name) ∧ ∀ x ∈ node.nodes now epoch, ValidNodeId x.id) := by
  intro node
  obtain ⟨hconfig, htable, hname⟩ := Membership.of_create hcreate
  have hvalid := Membership.validNodeId_of_create hcreate
  have hheard : Membership.Heard (os.flatMap Occasion.arrivals) m node :=
    heard_run (s := ⟨m, { nodeId := id }⟩) fun o ho a ha => List.mem_flatMap.mpr ⟨o, ho, ha⟩
  obtain ⟨ops, hops, htold⟩ := hheard.table
  have hw : m.table.WellFormed := htable ▸ Table.new_wellFormed _
  have hothers : node.table.Others fun r => ∃ a ∈ os.flatMap Occasion.arrivals, a.Tells c.nodeId r.name := by
    rw [hops]
    refine Table.Others.run hw (endures_name fun n => ∃ a ∈ os.flatMap Occasion.arrivals, a.Tells c.nodeId n)
      (fun n r hr => ?_) fun r now' hop => hconfig ▸ htold r now' hop
    rw [htable] at hr
    simp [Table.standing, Table.new] at hr
  have hshown : ∀ x ∈ node.members now epoch,
      x.name = c.nodeId ∨ ∃ o ∈ os, ∃ a ∈ o.arrivals, a.Tells c.nodeId x.name := by
    intro x hx
    obtain ⟨r, hr, hrx⟩ := Membership.exists_payload_of_mem_members hx
    rw [← hrx]
    rcases hothers.mem_payload (hops ▸ hw.run ops) hr with rfl | ⟨a, ha, htells⟩
    · exact Or.inl (by rw [hops, Table.name_run, hname])
    · obtain ⟨o, ho, ha⟩ := List.mem_flatMap.mp ha
      exact Or.inr ⟨o, ho, a, ha, htells⟩
  refine ⟨hvalid, hshown, fun hall => ?_⟩
  have hmembers : ∀ x ∈ node.members now epoch, ValidNodeId x.name := by
    intro x hx
    rcases hshown x hx with heq | ⟨o, ho, a, ha, htells⟩
    · exact heq ▸ hvalid
    · exact hall o ho a ha x.name htells
  refine ⟨hmembers, fun x hx => ?_⟩
  obtain ⟨y, hy, rfl⟩ := List.mem_map.mp hx
  exact hmembers y hy

/-- Another node has joined, and its name is shown beside the own one. -/
def sampleMet : Monitored :=
  run .literal ⟨Mesh.sampleNodes false, { nodeId := "a" }⟩ (sampleOccasions.take 2)

theorem sampleMet_eq : sampleMet =
    sampleOpened.take (sampleOpened.node.handle .literal Mesh.sampleJoin (Mesh.sampleHome true) 10) := by
  rw [sampleMet, sampleOccasions, List.take_succ_cons, run_cons, List.take_succ_cons, run_cons, ← sampleOpened,
    step_samplePayload]
  rfl

theorem shown_names_were_told_sample :
    Membership.create (Mesh.sampleConfig false) = .ok (Mesh.sampleNodes false) ∧
    (∀ o ∈ sampleOccasions.take 2, ∀ a ∈ o.arrivals, ∀ n, a.Tells "a" n → ValidNodeId n) ∧
    (sampleMet.node.members 10 0).map (·.name) = ["a", "n"] ∧
    (∀ x ∈ sampleMet.node.members 10 0, x.name = "a" ∨ ∃ o ∈ sampleOccasions.take 2, ∃ a ∈ o.arrivals,
      a.Tells "a" x.name) ∧
    ∀ x ∈ sampleMet.node.members 10 0, ValidNodeId x.name := by
  have htold : ∀ o ∈ sampleOccasions.take 2, ∀ a ∈ o.arrivals, ∀ n, a.Tells "a" n → ValidNodeId n := by
    intro o ho a ha n htells
    have ha : a = ⟨Mesh.sampleHome true, samplePayload⟩ := by
      simp only [sampleOccasions, List.take_succ_cons, List.take_zero, List.mem_cons, List.not_mem_nil, or_false] at ho
      rcases ho with rfl | rfl
      · simp [Occasion.arrivals] at ha
      · simpa [Occasion.arrivals] using ha
    subst ha
    obtain ⟨msg, hdecode, -, r, hr, rfl⟩ := htells
    rw [decode_samplePayload, Option.some.injEq] at hdecode
    subst hdecode
    rw [List.mem_singleton.mp hr, ← validateNodeId_eq_ok_iff]
    decide +kernel
  have hshown : (sampleMet.node.members 10 0).map (·.name) = ["a", "n"] := by
    rw [sampleMet_eq]
    decide +kernel
  have hcreate := Mesh.create_sampleNodes false
  obtain ⟨-, hsource, hvalid⟩ := shown_names_were_told hcreate "a" .literal (sampleOccasions.take 2) 10 0
  exact ⟨hcreate, htold, hshown, hsource, (hvalid htold).1⟩

/-- A ping from somebody whose name has a line feed. -/
def sampleIntrusion : Arrival where
  source := Mesh.sampleHome true
  payload := "[\"ping\",[\"bad\\nid\",\"0.0.0.0:7946\",8080,[[0,0,[],0,0],\"online\"],0,0,\"alive\"],0]".toUTF8

def sampleIntruder : Message :=
  .ping { name := "bad\nid", addr := Mesh.sampleBound, rpcPort := 8080 } 0

theorem decode_sampleIntrusion : Message.decode? sampleIntrusion.payload = some sampleIntruder := by
  decide +kernel

def sampleIntruded : Monitored :=
  run .literal ⟨Mesh.sampleNodes false, { nodeId := "a" }⟩
    [.start .first [] (some Mesh.sampleBound) [] 0, .arrival sampleIntrusion 10]

theorem sampleIntruded_eq : sampleIntruded =
    sampleOpened.take (sampleOpened.node.handle .literal sampleIntruder (Mesh.sampleHome true) 10) := by
  have htasks : sampleOpened.node.life.tasks ≠ 0 := by decide
  have hheard : step .literal sampleOpened (.arrival sampleIntrusion 10) =
      sampleOpened.take (sampleOpened.node.handle .literal sampleIntruder (Mesh.sampleHome true) 10) :=
    step_arrival_of_decode htasks decode_sampleIntrusion
  rw [sampleIntruded, run_cons, run_cons, ← sampleOpened, hheard]
  rfl

/-- Nobody looks at the names that datagrams tell, so that one with a line feed is shown like any other. -/
theorem invalid_name_is_shown :
    Membership.create (Mesh.sampleConfig false) = .ok (Mesh.sampleNodes false) ∧
    (∃ x ∈ sampleIntruded.node.members 10 0, x.name = "bad\nid" ∧ ¬ ValidNodeId x.name) ∧
    ∃ x ∈ sampleIntruded.node.nodes 10 0, x.id = "bad\nid" ∧ ¬ ValidNodeId x.id := by
  have hinvalid : ¬ ValidNodeId "bad\nid" := by
    rw [← validateNodeId_eq_ok_iff]
    decide +kernel
  have hmembers : ∃ x ∈ sampleIntruded.node.members 10 0, x.name = "bad\nid" := by
    rw [sampleIntruded_eq]
    decide +kernel
  obtain ⟨x, hx, hname⟩ := hmembers
  have hid : x.toNode.id = "bad\nid" := hname
  exact ⟨Mesh.create_sampleNodes false, ⟨x, hx, hname, by rw [hname]; exact hinvalid⟩,
    x.toNode, List.mem_map.mpr ⟨x, hx, rfl⟩, hid, by rw [hid]; exact hinvalid⟩

end Monitored

end AgentMesh.Gossip
