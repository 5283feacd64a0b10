import AgentMesh.Proofs.Discovery.Tries

/-!
# Crawling is a breadth-first search

Each crawl asks those who are registered for their peers and tries every address that it is told. So after some crawls
those are registered to whom a walk leads that has no more steps than there were crawls.
-/

namespace AgentMesh.Discovery

namespace Network

/-- The first agent lists the second one as a peer, and that one answers. -/
def Leads (n : Network) (a b : String) : Prop :=
  (∃ x, n.agents[a]? = some x ∧ x.hidesPeers = false ∧ b ∈ x.peers) ∧ n.Answers b

instance (n : Network) (a b : String) : Decidable (n.Leads a b) :=
  decidable_of_iff ((n.agents[a]?.any fun x => !x.hidesPeers && x.peers.contains b) ∧ n.Answers b) (by
    simp [Leads, Option.any_eq_true, List.contains_eq_mem])

theorem leads_congr {n n' : Network} (h : n'.agents = n.agents) (a b : String) : n'.Leads a b ↔ n.Leads a b := by
  rw [Leads, Leads, answers_congr h, h]

/-- The second address can be reached from the first one in this number of steps. -/
inductive Walk (n : Network) : Nat → String → String → Prop
  | here (a : String) : Walk n 0 a a
  | next {k : Nat} {a b c : String} (h : Walk n k a b) (hleads : n.Leads b c) : Walk n (k + 1) a c

theorem mem_targets_ask (n : Network) (c : Handle) (b : String) :
    b ∈ n.targets (.ask c) ∧ n.Answers b ↔ n.Leads c.address b := by
  rw [Leads, targets, peers]
  cases n.agents[c.address]? with
  | none => simp
  | some x => cases hhides : x.hidesPeers <;> simp [hhides]

end Network

namespace Search

variable {s s' s₁ s₂ : Search}

theorem mem_crawl (s : Search) (errand : Errand) :
    errand ∈ s.crawl ↔ ∃ (a : String) (c : Handle), s.clients[a]? = some c ∧ errand = .ask c := by
  rw [crawl, List.mem_map, values_eq]
  simp only [List.mem_map, Std.ExtTreeMap.mem_toList_iff_getElem?_eq_some, Prod.exists]
  constructor
  · rintro ⟨_, ⟨a, c, hc, rfl⟩, rfl⟩
    exact ⟨a, c, hc, rfl⟩
  · rintro ⟨a, c, hc, rfl⟩
    exact ⟨c, ⟨a, c, hc, rfl⟩, rfl⟩

/-- What a crawl is told, in whatever order the agents are asked. -/
theorem mem_told (h : s.Ready) {errands : List Errand} (horder : errands.Perm s.crawl) (b : String) :
    b ∈ errands.flatMap s.network.targets ∧ s.network.Answers b ↔ ∃ a ∈ s.clients, s.network.Leads a b := by
  simp only [List.mem_flatMap, horder.mem_iff, mem_crawl]
  constructor
  · rintro ⟨⟨_, ⟨a, c, hc, rfl⟩, hb⟩, hanswers⟩
    refine ⟨a, Std.ExtTreeMap.mem_iff_isSome_getElem?.2 (by rw [hc]; rfl), ?_⟩
    rw [← h.own hc]
    exact (s.network.mem_targets_ask c b).1 ⟨hb, hanswers⟩
  · rintro ⟨a, ha, hleads⟩
    obtain ⟨c, hc⟩ := Option.isSome_iff_exists.1 (Std.ExtTreeMap.mem_iff_isSome_getElem?.1 ha)
    rw [← h.own hc] at hleads
    obtain ⟨hb, hanswers⟩ := (s.network.mem_targets_ask c b).2 hleads
    exact ⟨⟨_, ⟨a, c, hc, rfl⟩, hb⟩, hanswers⟩

/-- So many crawls, in each of which the agents are asked in some order; and from one to the next nobody is lost. -/
inductive Crawls : Nat → Search → Search → Prop
  | none (s : Search) : Crawls 0 s s
  | next {k : Nat} {s s₁ s₂ s' : Search} {errands : List Errand} (h : Crawls k s s₁) (hsteady : Steady s₁ s₂)
      (horder : errands.Perm s₂.crawl) (hruns : Runs s₂ errands s') : Crawls (k + 1) s s'

/-- One crawl registers those to whom a registered agent leads. -/
theorem mem_crawled (h : s₁.Ready) (hsteady : Steady s₁ s₂) {errands : List Errand} (horder : errands.Perm s₂.crawl)
    (hruns : Runs s₂ errands s') (b : String) :
    b ∈ s'.clients ↔ b ∈ s₁.clients ∨ ∃ a ∈ s₁.clients, s₁.network.Leads a b := by
  rw [(hruns.tried (hsteady.ready h)).mem_clients, mem_told (hsteady.ready h) horder, hsteady.clients]
  simp only [Network.leads_congr hsteady.agents]

theorem Crawls.tried {k : Nat} (hcrawls : Crawls k s s') (h : s.Ready) : ∃ addresses, Tried s s' addresses := by
  induction hcrawls with
  | none s => exact ⟨[], .nil h⟩
  | next _ hsteady _ hruns ih =>
      obtain ⟨addresses, hbefore⟩ := ih h
      exact ⟨_, (hbefore.steady hsteady).trans (hruns.tried (hsteady.ready hbefore.ready))⟩

theorem Crawls.mem_clients {k : Nat} (hcrawls : Crawls k s s') (h : s.Ready) (a : String) :
    a ∈ s'.clients ↔ ∃ r ∈ s.clients, ∃ l ≤ k, s.network.Walk l r a := by
  induction hcrawls generalizing a with
  | none s =>
      constructor
      · intro ha
        exact ⟨a, ha, 0, Nat.le_refl 0, .here a⟩
      · rintro ⟨r, hr, l, hl, hwalk⟩
        obtain rfl := Nat.le_zero.1 hl
        cases hwalk
        exact hr
  | @next k s s₁ s₂ s' errands hbefore hsteady horder hruns ih =>
      obtain ⟨_, htried⟩ := hbefore.tried h
      simp only [mem_crawled htried.ready hsteady horder hruns, Network.leads_congr htried.agents, ih h]
      constructor
      · rintro (⟨r, hr, l, hl, hwalk⟩ | ⟨b, ⟨r, hr, l, hl, hwalk⟩, hleads⟩)
        · exact ⟨r, hr, l, Nat.le_succ_of_le hl, hwalk⟩
        · exact ⟨r, hr, l + 1, Nat.succ_le_succ hl, hwalk.next hleads⟩
      · rintro ⟨r, hr, l, hl, hwalk⟩
        cases hwalk with
        | here => exact .inl ⟨a, hr, 0, Nat.zero_le k, .here a⟩
        | @next l _ b _ hwalk hleads => exact .inr ⟨b, ⟨r, hr, l, Nat.le_of_succ_le_succ hl, hwalk⟩, hleads⟩

theorem exists_crawls (h : s.Ready) (k : Nat) : ∃ s', Crawls k s s' := by
  induction k with
  | zero => exact ⟨s, .none s⟩
  | succ k ih =>
      obtain ⟨s₁, hbefore⟩ := ih
      obtain ⟨_, htried⟩ := hbefore.tried h
      obtain ⟨s', hruns⟩ := exists_runs htried.ready s₁.crawl
      exact ⟨s', hbefore.next (.refl s₁) (.refl _) hruns⟩

/--
Crawls come to an end, and then those are registered whom a walk with no more steps than crawls reaches from one who
was registered before; these keep their connections. Those who answer were asked for a connection only if they are
new, and then once. Those who take a connection and answer nothing are never registered, so each crawl that is told of
them tries again.
-/
theorem crawls_reach (h : s.Ready) (k : Nat) :
    (∃ s', Crawls k s s') ∧
    ∀ s', Crawls k s s' →
      (∀ a, a ∈ s'.clients ↔ ∃ r ∈ s.clients, ∃ l ≤ k, s.network.Walk l r a) ∧
      (∀ (a : String) (c : Handle), s.clients[a]? = some c → s'.clients[a]? = some c) ∧
      ∀ a, s.network.Answers a →
        s'.network.dials a = s.network.dials a + if a ∈ s'.clients ∧ a ∉ s.clients then 1 else 0 := by
  refine ⟨exists_crawls h k, fun s' hcrawls => ?_⟩
  obtain ⟨_, htried⟩ := hcrawls.tried h
  refine ⟨hcrawls.mem_clients h, fun a c => htried.kept, fun a ha => ?_⟩
  have hdials := htried.dials ha
  by_cases hold : a ∈ s.clients
  · have hstill : a ∈ s'.clients := (htried.mem_clients a).2 (.inl hold)
    rw [if_pos hold, if_pos hstill] at hdials
    rw [if_neg fun hnew => hnew.2 hold]
    omega
  · simpa [hold] using hdials

/-- A cycle of three, one of them slow; beside them an agent that is down, and one that never answers. -/
def neighbours : List (String × ScriptedAgent) :=
  [("a:1", { peers := ["a:1", "b:2", "b:2", "x:8", "y:9"] }), ("b:2", { peers := ["c:3", "a:1"], delay := 5 }),
    ("c:3", { peers := ["a:1", "d:4"] }), ("d:4", {}), ("x:8", { isDown := true }), ("y:9", { isSick := true })]

/-- The search that has registered the first of them. -/
def oneNeighbour : Search :=
  (Search.run { network := { agents := .ofList neighbours } } [.attempt "a:1"]).1

theorem ready_oneNeighbour : oneNeighbour.Ready := by
  have hready : Ready { network := { agents := .ofList neighbours } } := ready_new rfl
  have hrun := outcome_run hready [.attempt "a:1"]
  have hnow : Search.run { network := { agents := .ofList neighbours } } [.attempt "a:1"] = (oneNeighbour, none) :=
    Prod.ext rfl (by decide +kernel)
  rw [hnow] at hrun
  exact Grown.ready (Tried.toGrown hrun)

theorem crawls_reach_neighbours :
    oneNeighbour.Ready ∧ ∃ s', Crawls 2 oneNeighbour s' ∧ "b:2" ∈ s'.clients ∧ "c:3" ∈ s'.clients ∧
      "x:8" ∉ s'.clients ∧ "y:9" ∉ s'.clients ∧ s'.network.dials "c:3" = 1 := by
  obtain ⟨⟨s', hcrawls⟩, hreach⟩ := crawls_reach ready_oneNeighbour 2
  obtain ⟨hmem, -, hdials⟩ := hreach s' hcrawls
  have hfirst : "a:1" ∈ oneNeighbour.clients := by decide +kernel
  have hsecond : oneNeighbour.network.Walk 1 "a:1" "b:2" := (Network.Walk.here _).next (by decide +kernel)
  have hthird : oneNeighbour.network.Walk 2 "a:1" "c:3" := hsecond.next (by decide +kernel)
  have hsilent {a : String} (hnew : a ∉ oneNeighbour.clients) (hsilent : ¬ oneNeighbour.network.Answers a) :
      a ∉ s'.clients := by
    intro ha
    obtain ⟨r, hr, l, -, hwalk⟩ := (hmem a).1 ha
    cases hwalk with
    | here => exact hnew hr
    | next _ hleads => exact hsilent hleads.2
  have hregistered : "c:3" ∈ s'.clients := (hmem _).2 ⟨_, hfirst, 2, Nat.le_refl 2, hthird⟩
  refine ⟨ready_oneNeighbour, s', hcrawls, (hmem _).2 ⟨_, hfirst, 1, Nat.le_succ 1, hsecond⟩, hregistered,
    hsilent (by decide +kernel) (by decide +kernel), hsilent (by decide +kernel) (by decide +kernel), ?_⟩
  have hnew : "c:3" ∉ oneNeighbour.clients := by decide +kernel
  rw [hdials _ (by decide +kernel), if_pos ⟨hregistered, hnew⟩]
  decide +kernel

end Search

end AgentMesh.Discovery
