import AgentMesh.Discovery.Search
import AgentMesh.Proofs.Discovery.Consistency

/-!
# What it comes to when addresses are tried

A search tries addresses one after the other: one that is registered is passed over, one that nobody answers at is left,
and the rest are registered. It does not matter whether a connection has to be awaited, as long as nothing is struck off
meanwhile.
-/

namespace AgentMesh.Discovery

/-! ## The network as it is -/

namespace Network

/-- A connection to the address can be opened. -/
def opens (n : Network) (address : String) : Bool :=
  match n.agents[address]? with
  | none => false
  | some a => !a.isDown

/-- A connection can be opened, and the agent says what it offers. -/
def Answers (n : Network) (address : String) : Prop :=
  ∃ a, n.agents[address]? = some a ∧ a.isDown = false ∧ a.isSick = false

instance (n : Network) (address : String) : Decidable (n.Answers address) :=
  decidable_of_iff (n.agents[address]?.any fun a => !a.isDown && !a.isSick) (by
    simp [Answers, Option.any_eq_true])

theorem answers_congr {n n' : Network} (h : n'.agents = n.agents) (a : String) : n'.Answers a ↔ n.Answers a := by
  rw [Answers, Answers, h]

/-- The addresses that an errand comes to. -/
def targets (n : Network) : Errand → List String
  | .attempt address => [address]
  | .ask client => (n.peers client).getD []
  | .lookup name => (n.lookup name).2

theorem targets_congr {n n' : Network} (hagents : n'.agents = n.agents) (hservice : n'.nameService = n.nameService) :
    n'.targets = n.targets := by
  funext errand
  cases errand with
  | attempt address => rfl
  | ask client => rw [targets, targets, peers, peers, hagents]
  | lookup name =>
      rw [targets, targets, lookup, lookup, hservice]
      cases n.nameService <;> rfl

/-- How often a connection to the address was asked for. -/
def dials (n : Network) (address : String) : Nat :=
  n.connects.getD address 0

/-- The network once a connection was asked for. -/
def dialled (n : Network) (address : String) : Network :=
  { n with connects := bump n.connects address }

theorem dial_eq (n : Network) (address : String) :
    ∃ delay, n.dial address = (n.dialled address, delay, n.opens address) := by
  cases h : n.agents[address]? with
  | none => exact ⟨0, by simp [dial, dialled, opens, h]⟩
  | some a => exact ⟨a.delay, by simp [dial, dialled, opens, h]⟩

theorem dials_dialled (n : Network) (address a : String) :
    (n.dialled address).dials a = n.dials a + if a = address then 1 else 0 := by
  by_cases h : a = address
  · simp [dials, dialled, bump, h]
  · simp [dials, dialled, bump, Std.ExtTreeMap.getD_insert, h, Ne.symm h]

end Network

namespace Search

/-- The connections to registered agents. -/
def clients (s : Search) : AddressMap Handle :=
  s.directory.registry.clients

/-- The search goes on, each connection stands at its own address, and only connections that were opened were closed. -/
structure Ready (s : Search) : Prop where
  running : s.directory.isStopping = false
  own {a : String} {c : Handle} : s.clients[a]? = some c → c.address = a
  closed {c : Handle} : c ∈ s.network.closed → c.number < s.network.opened

theorem ready_new {n : Network} (h : n.closed = []) : Ready { network := n } where
  running := rfl
  own h := by simp [clients] at h
  closed hc := by simp [h] at hc

/-- The agents are as they were, and nobody was registered, struck off or called. -/
structure Steady (s s' : Search) : Prop where
  running : s'.directory.isStopping = s.directory.isStopping
  clients : s'.clients = s.clients
  agents : s'.network.agents = s.network.agents
  nameService : s'.network.nameService = s.network.nameService
  opened : s'.network.opened = s.network.opened
  closed : s'.network.closed = s.network.closed
  connects : s'.network.connects = s.network.connects

variable {s s' s₁ : Search}

theorem Steady.refl (s : Search) : Steady s s :=
  ⟨rfl, rfl, rfl, rfl, rfl, rfl, rfl⟩

theorem Steady.ready (h : Steady s s') (hs : s.Ready) : s'.Ready where
  running := h.running.trans hs.running
  own hc := hs.own (h.clients ▸ hc)
  closed hc := by
    rw [h.opened]
    exact hs.closed (h.closed ▸ hc)

/-! ## One attempt -/

theorem drive_called (s : Search) (a : String) :
    s.drive (.called a) =
      (s, if s.directory.isStopping then .finished false else if s.directory.isKnown a then .finished true
        else .connecting a) := by
  cases hstopping : s.directory.isStopping <;> cases hknown : s.directory.isKnown a <;>
    simp [drive, steps, step, Attempt.proceed, hstopping, hknown]

theorem complete_false (s : Search) (a : String) : s.complete a false = (s, false) := by
  simp [complete, drive, steps, step, Attempt.connected, Attempt.proceed]

theorem complete_unanswered {a : String} {n n' : Network} {c : Handle} (hconnect : s.network.connect a = (n, c))
    (hpoll : n.poll c = (n', none)) : s.complete a true = ({ s with network := n'.close c }, false) := by
  simp [complete, hconnect, drive, steps, step, hpoll, Attempt.connected, Attempt.answered, Attempt.closed,
    Attempt.proceed]

theorem complete_answered {a : String} {n n' : Network} {c : Handle} {r : Resources}
    (hconnect : s.network.connect a = (n, c)) (hpoll : n.poll c = (n', some r))
    (henter : s.directory.isStopping = false ∧ s.directory.isKnown c.address = false) :
    s.complete a true =
      ({ s with
          network := n'
          directory := (s.directory.enter c r s.clock).1.announce
          unwatched := s.unwatched ++ [c] }, true) := by
  simp [complete, hconnect, drive, steps, step, hpoll, Attempt.connected, Attempt.answered, Attempt.proceed,
    Directory.enter, henter]

/-- Of the addresses those whose agents answer are registered now, and what was registered still is. -/
structure Grown (s s' : Search) (addresses : List String) : Prop where
  ready : s'.Ready
  agents : s'.network.agents = s.network.agents
  nameService : s'.network.nameService = s.network.nameService
  mem_clients (a : String) : a ∈ s'.clients ↔ a ∈ s.clients ∨ a ∈ addresses ∧ s.network.Answers a
  kept {a : String} {c : Handle} : s.clients[a]? = some c → s'.clients[a]? = some c

theorem Ready.notMem_closed (h : s.Ready) (a : String) : ⟨a, s.network.opened⟩ ∉ s.network.closed :=
  fun hc => Nat.lt_irrefl _ (h.closed hc)

/-- A connection that has just been opened is polled for the first time. -/
theorem poll_next (h : s.Ready) {a : String} {x : ScriptedAgent} (hx : s.network.agents[a]? = some x) :
    (s.network.connect a).1.poll ⟨a, s.network.opened⟩ =
      ({ s.network with opened := s.network.opened + 1, polls := Network.bump s.network.polls a },
        if x.isSick then none else some x.resources) := by
  simp [Network.connect, Network.poll, hx, h.notMem_closed]

/-- Nothing is registered if nobody answers. -/
theorem Grown.of_silent (hready : s'.Ready) {a : String} (hsilent : ¬ s.network.Answers a)
    (hagents : s'.network.agents = s.network.agents) (hservice : s'.network.nameService = s.network.nameService)
    (hclients : s'.clients = s.clients) : Grown s s' [a] where
  ready := hready
  agents := hagents
  nameService := hservice
  mem_clients b := by
    rw [hclients]
    refine ⟨.inl, fun hb => hb.resolve_right ?_⟩
    rintro ⟨hb, hanswers⟩
    exact hsilent (List.mem_singleton.1 hb ▸ hanswers)
  kept hc := hclients ▸ hc

theorem grown_unanswered (h : s.Ready) {a : String} {x : ScriptedAgent} (hx : s.network.agents[a]? = some x)
    (hsick : x.isSick = true) :
    Grown s (s.complete a true).1 [a] ∧ (s.complete a true).1.network.connects = s.network.connects := by
  have hpoll := poll_next h hx
  rw [hsick, if_pos rfl] at hpoll
  rw [complete_unanswered rfl hpoll]
  simp only [Network.close, List.contains_eq_mem, h.notMem_closed a, decide_false, Bool.false_eq_true, if_false]
  refine ⟨.of_silent ?_ ?_ rfl rfl rfl, trivial⟩
  · refine ⟨h.running, h.own, fun {c} hc => ?_⟩
    rcases List.mem_cons.1 hc with rfl | hc
    · exact Nat.lt_succ_self _
    · exact Nat.lt_succ_of_lt (h.closed hc)
  · rintro ⟨y, hy, -, hwell⟩
    rw [hx] at hy
    cases hy
    rw [hsick] at hwell
    cases hwell

theorem grown_answered (h : s.Ready) {a : String} (ha : a ∉ s.clients) {x : ScriptedAgent}
    (hx : s.network.agents[a]? = some x) (hup : x.isDown = false) (hwell : x.isSick = false) :
    Grown s (s.complete a true).1 [a] ∧ (s.complete a true).1.network.connects = s.network.connects := by
  have hpoll := poll_next h hx
  rw [hwell] at hpoll
  have hnew : s.directory.isKnown a = false :=
    Bool.eq_false_iff.2 fun hknown => ha (Std.ExtTreeMap.mem_iff_contains.2 hknown)
  rw [complete_answered rfl hpoll ⟨h.running, hnew⟩]
  simp only [Directory.enter, h.running, hnew, Bool.or_false, Bool.false_eq_true, if_false]
  have hanswers : s.network.Answers a := ⟨x, hx, hup, hwell⟩
  let c₀ : Handle := ⟨a, s.network.opened⟩
  have hclients (b : String) : (s.clients.insert a c₀)[b]? = if a = b then some c₀ else s.clients[b]? := by
    simp [Std.ExtTreeMap.getElem?_insert]
  refine ⟨⟨⟨rfl, fun {b c} hc => ?_, fun {c} hc => Nat.lt_succ_of_lt (h.closed hc)⟩, rfl, rfl, fun b => ?_,
    fun {b c} hc => ?_⟩, trivial⟩
  · change (s.clients.insert a c₀)[b]? = some c at hc
    rw [hclients] at hc
    split at hc
    · cases hc
      assumption
    · exact h.own hc
  · change b ∈ s.clients.insert a c₀ ↔ _
    rw [Std.ExtTreeMap.mem_insert]
    simp only [Std.LawfulEqCmp.compare_eq_iff_eq, List.mem_singleton]
    constructor
    · rintro (rfl | hb)
      · exact .inr ⟨rfl, hanswers⟩
      · exact .inl hb
    · rintro (hb | ⟨rfl, -⟩)
      · exact .inr hb
      · exact .inl rfl
  · change (s.clients.insert a c₀)[b]? = some c
    have hne : a ≠ b := by
      rintro rfl
      exact ha (Std.ExtTreeMap.mem_iff_isSome_getElem?.2 (by rw [hc]; rfl))
    rw [hclients, if_neg hne, hc]

theorem grown_complete (h : s.Ready) {a : String} (ha : a ∉ s.clients) :
    Grown s (s.complete a (s.network.opens a)).1 [a] ∧
      (s.complete a (s.network.opens a)).1.network.connects = s.network.connects := by
  cases hopens : s.network.opens a with
  | false =>
      rw [complete_false]
      refine ⟨.of_silent h ?_ rfl rfl rfl, rfl⟩
      rintro ⟨x, hx, hup, -⟩
      simp [Network.opens, hx, hup] at hopens
  | true =>
      cases hx : s.network.agents[a]? with
      | none => simp [Network.opens, hx] at hopens
      | some x =>
          have hup : x.isDown = false := by simpa [Network.opens, hx] using hopens
          cases hsick : x.isSick with
          | true => exact grown_unanswered h hx hsick
          | false => exact grown_answered h ha hx hup hsick

/-- Beside that, an agent that answers was asked for a connection once if it is newly registered, and else never. -/
structure Tried (s s' : Search) (addresses : List String) : Prop extends Grown s s' addresses where
  dials {a : String} : s.network.Answers a →
    s'.network.dials a + (if a ∈ s.clients then 1 else 0) = s.network.dials a + (if a ∈ s'.clients then 1 else 0)

theorem Tried.nil (h : s.Ready) : Tried s s [] :=
  ⟨⟨h, rfl, rfl, fun a => by simp, id⟩, fun _ => rfl⟩

theorem Tried.known (h : s.Ready) {a : String} (ha : a ∈ s.clients) : Tried s s [a] := by
  refine ⟨⟨h, rfl, rfl, fun b => ⟨.inl, ?_⟩, id⟩, fun _ => rfl⟩
  rintro (hb | ⟨hb, -⟩)
  · exact hb
  · exact List.mem_singleton.1 hb ▸ ha

theorem Tried.trans {as bs : List String} (h : Tried s s₁ as) (h' : Tried s₁ s' bs) : Tried s s' (as ++ bs) where
  ready := h'.ready
  agents := h'.agents.trans h.agents
  nameService := h'.nameService.trans h.nameService
  mem_clients a := by
    rw [h'.mem_clients, h.mem_clients, Network.answers_congr h.agents, List.mem_append, or_and_right, or_assoc]
  kept hc := h'.kept (h.kept hc)
  dials ha := by
    have := h.dials ha
    have := h'.dials ((Network.answers_congr h.agents _).2 ha)
    omega

theorem Tried.steady {as : List String} (h : Tried s s₁ as) (h' : Steady s₁ s') : Tried s s' as where
  ready := h'.ready h.ready
  agents := h'.agents.trans h.agents
  nameService := h'.nameService.trans h.nameService
  mem_clients a := by rw [h'.clients, h.mem_clients]
  kept hc := by
    rw [h'.clients]
    exact h.kept hc
  dials ha := by
    rw [h'.clients, Network.dials, h'.connects]
    exact h.dials ha

/-- The search once it asked for a connection. -/
def dialling (s : Search) (a : String) : Search :=
  { s with network := s.network.dialled a }

/-- An attempt whose connection was awaited. -/
theorem tried_complete (h : s.Ready) {a : String} (ha : a ∉ s.clients) (hsteady : Steady (s.dialling a) s₁) :
    Tried s (s₁.complete a (s.network.opens a)).1 [a] := by
  have hready : (s.dialling a).Ready := ⟨h.running, h.own, h.closed⟩
  have hclients : s₁.clients = s.clients := hsteady.clients
  have hagents : s₁.network.agents = s.network.agents := hsteady.agents
  have hopens : s.network.opens a = s₁.network.opens a := by rw [Network.opens, Network.opens, hagents]
  rw [hopens]
  obtain ⟨hgrown, hconnects⟩ := grown_complete (hsteady.ready hready) (hclients ▸ ha)
  refine ⟨⟨hgrown.ready, hgrown.agents.trans hagents, hgrown.nameService.trans hsteady.nameService, fun b => ?_, ?_⟩,
    ?_⟩
  · rw [hgrown.mem_clients, hclients, Network.answers_congr hagents]
  · intro b c hc
    exact hgrown.kept (hclients ▸ hc)
  · intro b hb
    have hdials : (s₁.complete a (s₁.network.opens a)).1.network.dials b =
        s.network.dials b + if b = a then 1 else 0 := by
      rw [Network.dials, hconnects, hsteady.connects]
      exact s.network.dials_dialled a b
    rw [hdials]
    by_cases hba : b = a
    · have hnew : b ∈ (s₁.complete a (s₁.network.opens a)).1.clients :=
        (hgrown.mem_clients b).2 (.inr ⟨List.mem_singleton.2 hba, (Network.answers_congr hagents b).2 hb⟩)
      rw [if_pos hba, if_neg (hba ▸ ha), if_pos hnew]
    · have hsame : b ∈ (s₁.complete a (s₁.network.opens a)).1.clients ↔ b ∈ s.clients := by
        rw [hgrown.mem_clients, hclients, List.mem_singleton]
        simp [hba]
      simp [hba, hsame]

theorem tryConnect_cases (h : s.Ready) (a : String) :
    (∃ s' result, s.tryConnect a = (s', .inl result) ∧ Tried s s' [a]) ∨
    (a ∉ s.clients ∧ ∃ due, s.tryConnect a =
      (s.dialling a, .inr { address := a, succeeds := s.network.opens a, due })) := by
  by_cases ha : a ∈ s.clients
  · have hknown : s.directory.isKnown a = true := Std.ExtTreeMap.mem_iff_contains.1 ha
    refine .inl ⟨s, true, ?_, .known h ha⟩
    simp [tryConnect, drive_called, h.running, hknown]
  · have hknown : s.directory.isKnown a = false :=
      Bool.eq_false_iff.2 fun hknown => ha (Std.ExtTreeMap.mem_iff_contains.2 hknown)
    obtain ⟨delay, hdial⟩ := s.network.dial_eq a
    by_cases hdelay : delay = 0
    · refine .inl ⟨_, ((s.dialling a).complete a (s.network.opens a)).2, ?_, tried_complete h ha (.refl _)⟩
      simp [tryConnect, drive_called, h.running, hknown, hdial, hdelay, dialling]
    · refine .inr ⟨ha, s.now + delay, ?_⟩
      simp [tryConnect, drive_called, h.running, hknown, hdial, hdelay, dialling]

/-! ## Many attempts -/

/-- All was tried; or a connection is awaited, what comes before it was tried, and what comes after it is left. -/
def Outcome (s : Search) (addresses : List String) : Search × Option Dialling → Prop
  | (s', none) => Tried s s' addresses
  | (s', some d) => ∃ s₁ done, Tried s s₁ done ∧ d.address ∉ s₁.clients ∧ s' = s₁.dialling d.address ∧
      d.succeeds = s.network.opens d.address ∧ addresses = done ++ d.address :: d.rest.flatMap s.network.targets

theorem Tried.outcome {as bs : List String} (h : Tried s s₁ as) {o : Search × Option Dialling} (ho : Outcome s₁ bs o) :
    Outcome s (as ++ bs) o := by
  obtain ⟨s', d⟩ := o
  cases d with
  | none => exact h.trans ho
  | some d =>
      obtain ⟨s₂, done, htried, hnew, hs', hsucceeds, hbs⟩ := ho
      refine ⟨s₂, as ++ done, h.trans htried, hnew, hs', ?_, ?_⟩
      · rw [hsucceeds, Network.opens, Network.opens, h.agents]
      · rw [hbs, List.append_assoc, Network.targets_congr h.agents h.nameService]

theorem outcome_visit (h : s.Ready) (as : List String) : Outcome s as (s.visit as) := by
  induction as generalizing s with
  | nil => exact .nil h
  | cons a as ih =>
      rw [visit]
      rcases tryConnect_cases h a with ⟨s₁, result, hfirst, htried⟩ | ⟨ha, due, hfirst⟩
      · rw [hfirst]
        exact htried.outcome (ih htried.ready)
      · rw [hfirst]
        refine ⟨s, [], .nil h, ha, rfl, rfl, ?_⟩
        simp [List.flatMap_map, Network.targets]

/-- The errands that are left come after those of the awaited connection. -/
theorem Outcome.append {as : List String} {s' : Search} {d : Dialling} (h : Outcome s as (s', some d))
    (rest : List Errand) :
    Outcome s (as ++ rest.flatMap s.network.targets) (s', some { d with rest := d.rest ++ rest }) := by
  obtain ⟨s₁, done, htried, hnew, hs', hsucceeds, has⟩ := h
  refine ⟨s₁, done, htried, hnew, hs', hsucceeds, ?_⟩
  rw [has, List.append_assoc, List.cons_append, List.flatMap_append]

theorem outcome_run (h : s.Ready) (errands : List Errand) :
    Outcome s (errands.flatMap s.network.targets) (s.run errands) := by
  induction errands generalizing s with
  | nil => exact .nil h
  | cons errand rest ih =>
      have hvisited {s₁ : Search} (hs₁ : Steady s s₁) (ts : List String) :
          Outcome s (ts ++ rest.flatMap s.network.targets) (match s₁.visit ts with
            | (s, none) => s.run rest
            | (s, some d) => (s, some { d with rest := d.rest ++ rest })) := by
        have hvisit := outcome_visit (hs₁.ready h) ts
        rw [← Network.targets_congr hs₁.agents hs₁.nameService]
        refine ((Tried.nil h).steady hs₁).outcome ?_
        cases hv : s₁.visit ts with
        | mk s₂ d =>
            rw [hv] at hvisit
            cases d with
            | none =>
                have hrest := ih hvisit.ready
                rw [Network.targets_congr hvisit.agents hvisit.nameService] at hrest
                exact hvisit.outcome hrest
            | some d => exact hvisit.append rest
      cases errand with
      | attempt address => exact hvisited (.refl s) [address]
      | ask client => exact hvisited (.refl s) ((s.network.peers client).getD [])
      | lookup name =>
          have hlookup : Steady s { s with network := (s.network.lookup name).1 } := by
            cases hservice : s.network.nameService <;> simp only [Network.lookup, hservice] <;>
              exact ⟨rfl, rfl, rfl, hservice.symm ▸ rfl, rfl, rfl, rfl⟩
          exact hvisited hlookup (s.network.lookup name).2

/-! ## Errands that are run to their end -/

/-- The errands are run; and while a connection is awaited nobody is registered, struck off or called by others. -/
inductive Runs : Search → List Errand → Search → Prop
  | done {s s' : Search} {errands : List Errand} (h : s.run errands = (s', none)) : Runs s errands s'
  | awaited {s s₁ s₂ s' : Search} {errands : List Errand} {d : Dialling} (h : s.run errands = (s₁, some d))
      (hsteady : Steady s₁ s₂) (hrest : Runs (s₂.complete d.address d.succeeds).1 d.rest s') : Runs s errands s'

theorem Outcome.tried {as : List String} {d : Dialling} {s₂ : Search} (h : Outcome s as (s₁, some d))
    (hsteady : Steady s₁ s₂) :
    ∃ done, Tried s (s₂.complete d.address d.succeeds).1 (done ++ [d.address]) ∧
      as = (done ++ [d.address]) ++ d.rest.flatMap s.network.targets := by
  obtain ⟨s₀, done, htried, hnew, rfl, hsucceeds, has⟩ := h
  have hopens : d.succeeds = s₀.network.opens d.address := by
    rw [hsucceeds, Network.opens, Network.opens, htried.agents]
  refine ⟨done, ?_, by simpa using has⟩
  rw [hopens]
  exact htried.trans (tried_complete htried.ready hnew hsteady)

theorem Runs.tried {errands : List Errand} (hruns : Runs s errands s') (h : s.Ready) :
    Tried s s' (errands.flatMap s.network.targets) := by
  induction hruns with
  | @done s s' errands hrun =>
      have hall := outcome_run h errands
      rwa [hrun] at hall
  | @awaited s s₁ s₂ s' errands d hrun hsteady _ ih =>
      have hfirst := outcome_run h errands
      rw [hrun] at hfirst
      obtain ⟨done, htried, hall⟩ := hfirst.tried hsteady
      have hrest := ih htried.ready
      rw [Network.targets_congr htried.agents htried.nameService] at hrest
      rw [hall]
      exact htried.trans hrest

/-- Whatever the errands, they come to an end. -/
theorem exists_runs (h : s.Ready) (errands : List Errand) : ∃ s', Runs s errands s' := by
  generalize hlength : (errands.flatMap s.network.targets).length = n
  induction n using Nat.strongRecOn generalizing s errands with
  | ind n ih =>
      cases hrun : s.run errands with
      | mk s₁ d =>
          cases d with
          | none => exact ⟨s₁, .done hrun⟩
          | some d =>
              have hfirst := outcome_run h errands
              rw [hrun] at hfirst
              obtain ⟨done, htried, hall⟩ := hfirst.tried (.refl s₁)
              have hshorter : (d.rest.flatMap (s₁.complete d.address d.succeeds).1.network.targets).length < n := by
                rw [Network.targets_congr htried.agents htried.nameService, ← hlength, hall]
                simp
                omega
              obtain ⟨s', hrest⟩ := ih _ hshorter htried.ready d.rest rfl
              exact ⟨s', .awaited hrun (.refl s₁) hrest⟩

end Search

end AgentMesh.Discovery
