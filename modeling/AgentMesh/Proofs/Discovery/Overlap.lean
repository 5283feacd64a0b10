import AgentMesh.Proofs.Discovery.Session

/-!
# What overlapping attempts keep

Whatever the order of the sections, the registry stays consistent and each connection is in one pair of hands. So a
registered agent has one monitor, an agent is registered again only after it was struck off, and a search whose registry
was emptied registers nothing any more.
-/

namespace AgentMesh.Discovery

theorem Registry.Consistent.eq_empty {r : Registry} (h : r.Consistent) (hclients : r.clients = ∅) : r = {} := by
  have hnodes : r.nodes = ∅ := Std.ExtTreeMap.eq_empty_iff_forall_not_mem.2 fun a => by simp [h.nodes, hclients]
  have hmonitors : r.monitors = ∅ :=
    Std.ExtTreeMap.eq_empty_iff_forall_not_mem.2 fun a => by simp [h.mem_monitors, hclients]
  cases r
  simp_all

namespace Session

variable {ι : Type} {threshold : Nat} {s s' : Session ι} {e : Option (Event ι)}

/-! ## What every turn keeps -/

/-- Each connection is in one pair of hands, and who watches whom agrees with the registry. -/
structure Sound (s : Session ι) : Prop where
  consistent : s.directory.registry.Consistent
  held {i : ι} {c : Handle} : (s.calls i).client? = some c → c.number < s.opened ∧ s.monitors c = none
  distinct {i j : ι} {c : Handle} : (s.calls i).client? = some c → (s.calls j).client? = some c → i = j
  monitored {c : Handle} {m : Monitor} : s.monitors c = some m → c.number < s.opened
  active {c : Handle} {m : Monitor} : s.monitors c = some m → m.IsActive →
    s.directory.registry.clients[c.address]? = some c ∨ ∃ cs, s.stopping = .closing cs
  manned {a : String} {c : Handle} : s.directory.isStopping = false → s.directory.registry.clients[a]? = some c →
    ∃ m, s.monitors c = some m ∧ m.IsActive
  idle : s.stopping = .idle ↔ s.directory.isStopping = false
  stopped : s.directory.phase = .stopped ↔ s.directory.isStopping = true
  emptied {cs : List Handle} : s.stopping = .closing cs → s.directory.registry.clients = ∅
  ordered : ∀ b ∈ s.directory.updates, ∀ nodes ∈ b.queue, nodes.Pairwise fun n n' => n.id < n'.id

theorem sound_fresh (room : Option Nat) (addresses : ι → String) : (fresh room addresses).Sound where
  consistent := Registry.consistent_empty
  held h := by cases h
  distinct h := by cases h
  monitored h := by cases h
  active h := by cases h
  manned _ h := by simp [fresh] at h
  idle := by simp [fresh]
  stopped := by simp [fresh]
  emptied h := by cases h
  ordered b hb nodes hnodes := by
    obtain ⟨capacity, -, rfl⟩ := Option.map_eq_some_iff.1 hb
    cases hnodes

theorem Sound.isStopping (h : s.Sound) (hstopping : s.stopping ≠ .idle) : s.directory.isStopping = true := by
  by_contra hnot
  exact hstopping (h.idle.2 (by simpa using hnot))

theorem Sound.posted (h : s.Sound) {updates : Option (Mailbox (List Node))} (hupdates : Posted s.directory updates) :
    ∀ b ∈ updates, ∀ nodes ∈ b.queue, nodes.Pairwise fun n n' => n.id < n'.id := by
  intro b hb nodes hnodes
  rcases hupdates b hb nodes hnodes with rfl | ⟨b', hb', hold⟩
  · exact h.consistent.pairwise_snapshot
  · exact h.ordered b' hb' nodes hold

theorem Sound.start_eq (h : s.Sound) (hstopping : s.directory.isStopping = true) :
    s.directory.start = .error .stopped := by
  rw [Directory.start, h.stopped.2 hstopping]

/-- Until the search is stopped an agent is registered as long as it is not struck off. -/
theorem Sound.registered_of_active (h : s.Sound) (hstopping : s.directory.isStopping = false) {c : Handle} {m : Monitor}
    (hm : s.monitors c = some m) (hactive : m.IsActive) : s.directory.registry.clients[c.address]? = some c := by
  refine (h.active hm hactive).resolve_right ?_
  rintro ⟨cs, hclosing⟩
  rw [h.isStopping (by simp [hclosing])] at hstopping
  cases hstopping

/-- Until the search is stopped a registered agent has exactly one monitor that has not struck it off. -/
theorem Sound.existsUnique_monitor (h : s.Sound) (hstopping : s.directory.isStopping = false) {a : String}
    (ha : a ∈ s.directory.registry.clients) :
    ∃! c : Handle, c.address = a ∧ ∃ m, s.monitors c = some m ∧ m.IsActive := by
  obtain ⟨c, hc⟩ := Option.isSome_iff_exists.1 (Std.ExtTreeMap.mem_iff_isSome_getElem?.1 ha)
  refine ⟨c, ⟨h.consistent.own hc, h.manned hstopping hc⟩, ?_⟩
  rintro d ⟨rfl, m, hm, hactive⟩
  rw [h.registered_of_active hstopping hm hactive] at hc
  exact Option.some.inj hc

/-- What a function gives after it was changed at one point. -/
theorem update_eq {α β : Type} [DecidableEq α] {f : α → β} {a b : α} {x y : β} (h : Function.update f a x b = y) :
    (b = a ∧ x = y) ∨ (b ≠ a ∧ f b = y) := by
  by_cases hb : b = a
  · subst hb
    exact .inl ⟨rfl, by simpa using h⟩
  · exact .inr ⟨hb, by simpa [hb] using h⟩

/-- A connection that is watched is in the hands of no attempt, and it stays so as the monitor goes on. -/
theorem Sound.held_update (h : s.Sound) {i : ι} {c d : Handle} {m : Monitor} (hc : s.monitors c = some m)
    (hd : (s.calls i).client? = some d) (m' : Monitor) :
    d.number < s.opened ∧ Function.update s.monitors c (some m') d = none := by
  have hne : d ≠ c := by
    rintro rfl
    rw [(h.held hd).2] at hc
    cases hc
  exact ⟨(h.held hd).1, by simpa [hne] using (h.held hd).2⟩

theorem Sound.monitored_update (h : s.Sound) {c d : Handle} {m m' n : Monitor} (hc : s.monitors c = some m)
    (hn : Function.update s.monitors c (some m') d = some n) : d.number < s.opened := by
  rcases update_eq hn with ⟨rfl, -⟩ | ⟨-, hn⟩
  · exact h.monitored hc
  · exact h.monitored hn

theorem Sound.watched (h : s.Sound) {c : Handle} {m m' : Monitor} {registry : Registry}
    {updates : Option (Mailbox (List Node))} {closed : List Handle} (hc : s.monitors c = some m)
    (hclients : registry.clients = s.directory.registry.clients)
    (hregistry : s.directory.registry.Consistent → registry.Consistent) (hactive : m'.IsActive → m.IsActive)
    (hstays : s.directory.isStopping = false → m.IsActive → m'.IsActive) (hupdates : Posted s.directory updates) :
    Sound { s with directory := { s.directory with registry, updates },
                   monitors := Function.update s.monitors c (some m'), closed } where
  consistent := hregistry h.consistent
  held hd := h.held_update hc hd m'
  distinct := h.distinct
  monitored := h.monitored_update hc
  active {d n} hn hnactive := by
    rw [hclients]
    rcases update_eq hn with ⟨rfl, heq⟩ | ⟨-, hn⟩
    · cases heq
      exact h.active hc (hactive hnactive)
    · exact h.active hn hnactive
  manned {a d} hstopping hd := by
    rw [hclients] at hd
    obtain ⟨n, hn, hnactive⟩ := h.manned hstopping hd
    by_cases hdc : d = c
    · subst hdc
      rw [hc] at hn
      cases hn
      exact ⟨m', Function.update_self .., hstays hstopping hnactive⟩
    · exact ⟨n, by simpa [hdc] using hn, hnactive⟩
  idle := h.idle
  stopped := h.stopped
  emptied hclosing := hclients.trans (h.emptied hclosing)
  ordered := h.posted hupdates

theorem Sound.struck (h : s.Sound) {c : Handle} {m m' : Monitor} (hc : s.monitors c = some m) (hm : m.IsActive)
    (hm' : ¬ m'.IsActive) :
    Sound { s with directory := { s.directory with registry := (s.directory.registry.strike c.address).1 },
                   monitors := Function.update s.monitors c (some m') } where
  consistent := h.consistent.strike c.address
  held hd := h.held_update hc hd m'
  distinct := h.distinct
  monitored := h.monitored_update hc
  active {d n} hn hactive := by
    rcases update_eq hn with ⟨rfl, heq⟩ | ⟨hdc, hn⟩
    · cases heq
      exact absurd hactive hm'
    · rcases h.active hn hactive with hd | hclosing
      · rcases h.active hc hm with hown | hclosing
        · -- Two connections of one address cannot both be registered.
          have hne : c.address ≠ d.address := by
            intro heq
            rw [heq, hd] at hown
            exact hdc (Option.some.inj hown)
          exact .inl (by rwa [Registry.getElem?_strike, if_neg hne])
        · exact .inr hclosing
      · exact .inr hclosing
  manned {a d} hstopping hd := by
    rw [Registry.getElem?_strike] at hd
    split at hd
    · cases hd
    · rename_i ha
      have hdc : d ≠ c := by
        rintro rfl
        exact ha (h.consistent.own hd)
      obtain ⟨n, hn, hactive⟩ := h.manned hstopping hd
      exact ⟨n, by simpa [hdc] using hn, hactive⟩
  idle := h.idle
  stopped := h.stopped
  emptied hclosing := by simp [Registry.strike, h.emptied hclosing]
  ordered := h.ordered

theorem Sound.signalled (h : s.Sound) (hphase : s.directory.phase ≠ .stopped) :
    Sound { s with directory := { s.directory with phase := .stopped, isStopping := true },
                   stopping := .signalled } where
  consistent := h.consistent
  held := h.held
  distinct := h.distinct
  monitored := h.monitored
  active hm hactive := by
    refine .inl ((h.active hm hactive).resolve_right ?_)
    rintro ⟨cs, hclosing⟩
    exact hphase (h.stopped.2 (h.isStopping (by simp [hclosing])))
  manned hnot := by cases hnot
  idle := by simp
  stopped := by simp
  emptied hclosing := by cases hclosing
  ordered := h.ordered

theorem Sound.cleared (h : s.Sound) {clients : List Handle} (hsignalled : s.stopping = .signalled) :
    Sound { s with directory := { s.directory with registry := {} }, stopping := .closing clients } :=
  have hstopping : s.directory.isStopping = true := h.isStopping (by simp [hsignalled])
  { consistent := Registry.consistent_empty
    held := h.held
    distinct := h.distinct
    monitored := h.monitored
    active := fun _ _ => .inr ⟨clients, rfl⟩
    manned := fun _ hc => by simp at hc
    idle := by simp [hstopping]
    stopped := h.stopped
    emptied := fun _ => rfl
    ordered := h.ordered }

theorem Sound.passed (h : s.Sound) {phase : Phase} {updates : Option (Mailbox (List Node))} {stopping : Stopping}
    {closed : List Handle} (hphase : phase = .stopped ↔ s.directory.phase = .stopped)
    (hstopping : stopping = s.stopping ∨ ∃ cs cs', s.stopping = .closing cs ∧ stopping = .closing cs')
    (hupdates : Posted s.directory updates) :
    Sound { s with directory := { s.directory with phase, updates }, stopping, closed } where
  consistent := h.consistent
  held := h.held
  distinct := h.distinct
  monitored := h.monitored
  active hm hactive := by
    rcases h.active hm hactive with hown | ⟨cs, hclosing⟩
    · exact .inl hown
    · rcases hstopping with rfl | ⟨-, cs', -, rfl⟩
      · exact .inr ⟨cs, hclosing⟩
      · exact .inr ⟨cs', rfl⟩
  manned := h.manned
  idle := by
    rcases hstopping with rfl | ⟨cs, cs', hclosing, rfl⟩
    · exact h.idle
    · simp [h.isStopping (by simp [hclosing])]
  stopped := hphase.trans h.stopped
  emptied hclosing := by
    rcases hstopping with rfl | ⟨cs, -, hbefore, -⟩
    · exact h.emptied hclosing
    · exact h.emptied hbefore
  ordered := h.posted hupdates

variable [DecidableEq ι]

theorem update_client? {f : ι → Attempt} {i j : ι} {a : Attempt} {c : Handle}
    (h : (Function.update f i a j).client? = some c) :
    (j = i ∧ a.client? = some c) ∨ (j ≠ i ∧ (f j).client? = some c) := by
  rcases update_eq (rfl : Function.update f i a j = _) with ⟨hj, ha⟩ | ⟨hj, hf⟩
  · exact .inl ⟨hj, ha ▸ h⟩
  · exact .inr ⟨hj, hf ▸ h⟩

theorem Sound.went (h : s.Sound) {i : ι} {a : Attempt} {updates : Option (Mailbox (List Node))} {closed : List Handle}
    (hupdates : Posted s.directory updates) (ha : ∀ c ∈ a.client?, (s.calls i).client? = some c) :
    Sound { s with directory := { s.directory with updates }, calls := Function.update s.calls i a, closed } :=
  have hcall {j : ι} {c : Handle} (hc : (Function.update s.calls i a j).client? = some c) :
      (s.calls j).client? = some c := by
    rcases update_client? hc with ⟨hj, hc⟩ | ⟨-, hc⟩
    · rw [hj]
      exact ha c hc
    · exact hc
  { consistent := h.consistent
    held := fun hc => h.held (hcall hc)
    distinct := fun hi hj => h.distinct (hcall hi) (hcall hj)
    monitored := h.monitored
    active := h.active
    manned := h.manned
    idle := h.idle
    stopped := h.stopped
    emptied := h.emptied
    ordered := h.posted hupdates }

theorem Sound.dialled (h : s.Sound) (i : ι) (address : String) :
    Sound { s with calls := Function.update s.calls i (.querying ⟨address, s.opened⟩), opened := s.opened + 1 } where
  consistent := h.consistent
  held {j c} hc := by
    rcases update_client? hc with ⟨-, hc⟩ | ⟨-, hc⟩
    · cases hc
      refine ⟨Nat.lt_succ_self _, Option.eq_none_iff_forall_ne_some.2 fun m hm => ?_⟩
      exact Nat.lt_irrefl _ (h.monitored hm)
    · exact ⟨Nat.lt_succ_of_lt (h.held hc).1, (h.held hc).2⟩
  distinct {j k c} hj hk := by
    -- A new connection has a number that no other one has.
    have hnew {l : ι} (hl : (s.calls l).client? = some ⟨address, s.opened⟩) : False :=
      Nat.lt_irrefl _ (h.held hl).1
    rcases update_client? hj with ⟨hji, hj⟩ | ⟨-, hj⟩
    · rcases update_client? hk with ⟨hki, hk⟩ | ⟨-, hk⟩
      · rw [hji, hki]
      · cases hj
        exact absurd hk hnew
    · rcases update_client? hk with ⟨-, hk⟩ | ⟨-, hk⟩
      · cases hk
        exact absurd hj hnew
      · exact h.distinct hj hk
  monitored hm := Nat.lt_succ_of_lt (h.monitored hm)
  active := h.active
  manned := h.manned
  idle := h.idle
  stopped := h.stopped
  emptied := h.emptied
  ordered := h.ordered

theorem Sound.registered (h : s.Sound) {i : ι} {c : Handle} {node : Node} (hc : (s.calls i).client? = some c)
    (hstopping : s.directory.isStopping = false) (hnew : c.address ∉ s.directory.registry.clients)
    (hnode : Node.IsAt node c.address) :
    Sound { s with directory := { s.directory with registry := s.directory.registry.register c node },
                   calls := Function.update s.calls i .announcing,
                   monitors := Function.update s.monitors c (some (.waiting 0)) } where
  consistent := h.consistent.register c hnode
  held {j d} hd := by
    rcases update_client? hd with ⟨-, hd'⟩ | ⟨hj, hd'⟩
    · cases hd'
    · have hne : d ≠ c := by
        rintro rfl
        exact hj (h.distinct hd' hc)
      exact ⟨(h.held hd').1, by simpa [hne] using (h.held hd').2⟩
  distinct {j k d} hj hk := by
    rcases update_client? hj with ⟨-, hj⟩ | ⟨-, hj⟩
    · cases hj
    · rcases update_client? hk with ⟨-, hk⟩ | ⟨-, hk⟩
      · cases hk
      · exact h.distinct hj hk
  monitored {d m} hm := by
    rcases update_eq hm with ⟨rfl, -⟩ | ⟨-, hm⟩
    · exact (h.held hc).1
    · exact h.monitored hm
  active {d m} hm hactive := by
    rcases update_eq hm with ⟨rfl, -⟩ | ⟨-, hm⟩
    · exact .inl (by simp [Registry.register])
    · rcases h.active hm hactive with hd | hclosing
      · have hne : c.address ≠ d.address := by
          intro heq
          exact hnew (heq ▸ Std.ExtTreeMap.mem_iff_isSome_getElem?.2 (by simp [hd]))
        exact .inl (by simpa [Registry.register, Std.ExtTreeMap.getElem?_insert, hne] using hd)
      · exact .inr hclosing
  manned {a d} _ hd := by
    simp only [Registry.register, Std.ExtTreeMap.getElem?_insert] at hd
    split at hd
    · cases hd
      exact ⟨_, Function.update_self .., trivial⟩
    · rename_i ha
      have hne : d ≠ c := by
        rintro rfl
        exact ha (by rw [h.consistent.own hd]; exact Std.ReflCmp.compare_self)
      obtain ⟨m, hm, hactive⟩ := h.manned hstopping hd
      exact ⟨m, by simpa [hne] using hm, hactive⟩
  idle := h.idle
  stopped := h.stopped
  emptied hclosing := by
    have hidle := h.idle.2 hstopping
    rw [hidle] at hclosing
    cases hclosing
  ordered := h.ordered

theorem Sound.moves (h : s.Sound) (hmoves : Moves s e s') : s'.Sound := by
  cases hmoves with
  | went hupdates ha => exact h.went hupdates ha
  | dialled => exact h.dialled _ _
  | registered hc hstopping hnew hnode => exact h.registered hc hstopping hnew hnode
  | watched hc hclients hregistry hactive hstays hupdates =>
      exact h.watched hc hclients hregistry hactive hstays hupdates
  | struck hc hm hm' => exact h.struck hc hm hm'
  | signalled hphase => exact h.signalled hphase
  | cleared hsignalled => exact h.cleared hsignalled
  | passed hphase hstopping hupdates => exact h.passed hphase hstopping hupdates

theorem Sound.step (h : s.Sound) (threshold : Nat) (t : Turn ι) : (s.step threshold t).Sound :=
  h.moves (step_moves threshold s t)

theorem Sound.run (h : s.Sound) (threshold : Nat) (ts : List (Turn ι)) : (s.run threshold ts).Sound := by
  induction ts generalizing s with
  | nil => exact h
  | cons t ts ih => exact ih (h.step threshold t)

/-! ## Registrations of one agent -/

/-- As things are, no attempt can register the agent. -/
def Barred (s : Session ι) (a : String) : Prop :=
  a ∈ s.directory.registry.clients ∨ s.directory.isStopping = true

theorem Moves.barred_of_registered {i : ι} {a : String} (hmoves : Moves s (some (.registered i a)) s') :
    s'.Barred a := by
  cases hmoves with
  | registered => exact .inl (by simp [Registry.register])

theorem Sound.barred (h : s.Sound) (hmoves : Moves s e s') {a : String} (hbarred : s.Barred a) :
    e = some (.struck a) ∨ (∀ i, e ≠ some (.registered i a)) ∧ s'.Barred a := by
  have hquiet (i : ι) : none ≠ some (Event.registered i a) := by simp
  cases hmoves with
  | went => exact .inr ⟨hquiet, hbarred⟩
  | dialled => exact .inr ⟨hquiet, hbarred⟩
  | registered hc hstopping hnew hnode =>
      have ha : a ∈ s.directory.registry.clients := hbarred.resolve_right (by simp [hstopping])
      refine .inr ⟨fun i heq => ?_, .inl ?_⟩
      · cases heq
        exact hnew ha
      · simp [Registry.register, Std.ExtTreeMap.mem_insert, ha]
  | watched hc hclients =>
      refine .inr ⟨hquiet, hbarred.imp_left fun ha => ?_⟩
      exact hclients ▸ ha
  | @struck c m m' hc hm hm' =>
      by_cases heq : c.address = a
      · exact .inl (by rw [heq])
      · refine .inr ⟨by simp, hbarred.imp_left fun ha => ?_⟩
        simp [Registry.strike, Std.ExtTreeMap.mem_erase, heq, ha]
  | signalled => exact .inr ⟨hquiet, .inr rfl⟩
  | cleared hsignalled => exact .inr ⟨hquiet, .inr (h.isStopping (by simp [hsignalled]))⟩
  | passed => exact .inr ⟨hquiet, hbarred⟩

theorem Sound.struck_of_barred (h : s.Sound) {a : String} (hbarred : s.Barred a) {i : ι} {ts : List (Turn ι)}
    {l l' : List (Event ι)} (hevents : s.events threshold ts = l ++ .registered i a :: l') : .struck a ∈ l := by
  induction ts generalizing s l with
  | nil => simp [events] at hevents
  | cons t ts ih =>
      have hstep := h.step threshold t
      have hmove := h.barred (step_moves threshold s t) hbarred
      cases he : s.event? threshold t with
      | none =>
          rw [he] at hmove
          simp only [events, he, Option.toList_none, List.nil_append] at hevents
          exact ih hstep (hmove.resolve_left nofun).2 hevents
      | some event =>
          rw [he] at hmove
          simp only [events, he, Option.toList_some, List.singleton_append] at hevents
          rcases List.cons_eq_append_iff.1 hevents with ⟨rfl, hfirst⟩ | ⟨l₁, rfl, hrest⟩
          · -- The turn itself would have to register the agent.
            cases hfirst
            rcases hmove with hstruck | ⟨hnot, -⟩
            · cases hstruck
            · exact absurd rfl (hnot i)
          · rcases hmove with hstruck | ⟨-, hstill⟩
            · cases hstruck
              exact List.mem_cons_self
            · exact List.mem_cons_of_mem _ (ih hstep hstill hrest)

/-- Between two registrations of an agent it was struck off. -/
theorem Sound.struck_between (h : s.Sound) {a : String} {i j : ι} {ts : List (Turn ι)} {l₁ l₂ l₃ : List (Event ι)}
    (hevents : s.events threshold ts = l₁ ++ .registered i a :: (l₂ ++ .registered j a :: l₃)) : .struck a ∈ l₂ := by
  induction ts generalizing s l₁ with
  | nil => simp [events] at hevents
  | cons t ts ih =>
      have hstep := h.step threshold t
      have hmove := step_moves threshold s t
      cases he : s.event? threshold t with
      | none =>
          simp only [events, he, Option.toList_none, List.nil_append] at hevents
          exact ih hstep hevents
      | some event =>
          simp only [events, he, Option.toList_some, List.singleton_append] at hevents
          rcases List.cons_eq_append_iff.1 hevents with ⟨rfl, hfirst⟩ | ⟨l, rfl, hrest⟩
          · obtain ⟨rfl, hrest⟩ := List.cons.inj hfirst
            rw [he] at hmove
            exact hstep.struck_of_barred hmove.barred_of_registered hrest.symm
          · exact ih hstep hrest

/-! ## After the registry was emptied -/

theorem Sound.closing (h : s.Sound) (hmoves : Moves s e s') {cs : List Handle} (hclosing : s.stopping = .closing cs) :
    ∃ cs', s'.stopping = .closing cs' := by
  cases hmoves with
  | signalled hphase => exact absurd (h.stopped.2 (h.isStopping (by simp [hclosing]))) hphase
  | cleared hsignalled =>
      rw [hclosing] at hsignalled
      cases hsignalled
  | passed hphase hstopping =>
      rcases hstopping with rfl | ⟨-, cs', -, rfl⟩
      · exact ⟨cs, hclosing⟩
      · exact ⟨cs', rfl⟩
  | _ => exact ⟨cs, hclosing⟩

theorem Sound.run_closing (h : s.Sound) {cs : List Handle} (hclosing : s.stopping = .closing cs) (threshold : Nat)
    (ts : List (Turn ι)) : ∃ cs', (s.run threshold ts).stopping = .closing cs' := by
  induction ts generalizing s cs with
  | nil => exact ⟨cs, hclosing⟩
  | cons t ts ih =>
      obtain ⟨cs', hclosing'⟩ := h.closing (step_moves threshold s t) hclosing
      exact ih (h.step threshold t) hclosing'

/-- The attempt whose turn it is. -/
def Turn.call? : Turn ι → Option ι
  | .advance i _ => some i
  | .dialled i _ => some i
  | .answered i _ => some i
  | .closed i => some i
  | _ => none

theorem calls_step_of_ne (s : Session ι) {t : Turn ι} {i : ι} (ht : t.call? ≠ some i) :
    (s.step threshold t).calls i = s.calls i := by
  have hother {j : ι} (hj : some j ≠ some i) (a : Attempt) : Function.update s.calls j a i = s.calls i :=
    Function.update_of_ne (fun heq => hj (by rw [heq])) ..
  cases t with
  | advance j now =>
      simp only [step, advance]
      split <;> exact hother ht _
  | answered j answer => exact hother ht _
  | dialled j succeeds =>
      simp only [step]
      split
      · cases succeeds <;> exact hother ht _
      · rfl
  | closed j =>
      simp only [step]
      split
      · exact hother ht _
      · rfl
  | _ =>
      simp only [step]
      repeat' split
      all_goals rfl

/-- Nothing happens to an attempt that is over. -/
theorem calls_step_of_finished {s : Session ι} {i : ι} {result : Bool} (hcall : s.calls i = .finished result)
    (t : Turn ι) : (s.step threshold t).calls i = .finished result := by
  by_cases ht : t.call? = some i
  · cases t <;> cases ht <;> simp [step, advance, hcall, Attempt.proceed, Attempt.answered, setCall]
  · rw [calls_step_of_ne s ht, hcall]

/-- An attempt whose first section comes after the search was stopped is over at once, with nothing registered. -/
theorem calls_step_of_called (threshold : Nat) {s : Session ι} {i : ι} {a : String} (hcall : s.calls i = .called a)
    (hstopping : s.directory.isStopping = true) (t : Turn ι) :
    (∃ now, t = .advance i now) ∧ (s.step threshold t).calls i = .finished false ∨
      (∀ now, t ≠ .advance i now) ∧ (s.step threshold t).calls i = .called a := by
  by_cases ht : t.call? = some i
  · cases t <;> cases ht <;>
      simp [step, advance, hcall, Attempt.proceed, Attempt.answered, setCall, hstopping]
  · refine .inr ⟨fun now heq => ht (by rw [heq, Turn.call?]), ?_⟩
    rw [calls_step_of_ne s ht, hcall]

theorem calls_run_of_finished {s : Session ι} {i : ι} {result : Bool} (hcall : s.calls i = .finished result)
    (ts : List (Turn ι)) : (s.run threshold ts).calls i = .finished result := by
  induction ts generalizing s with
  | nil => exact hcall
  | cons t ts ih => exact ih (calls_step_of_finished hcall t)

/-- Once the registry was emptied, a new attempt is over with its first section. -/
theorem Sound.calls_run_of_called (h : s.Sound) {cs : List Handle} (hclosing : s.stopping = .closing cs) {i : ι}
    {a : String} (hcall : s.calls i = .called a) (ts : List (Turn ι)) :
    (∃ now, .advance i now ∈ ts) ∧ (s.run threshold ts).calls i = .finished false ∨
      (∀ now, .advance i now ∉ ts) ∧ (s.run threshold ts).calls i = .called a := by
  induction ts generalizing s cs with
  | nil => exact .inr ⟨by simp, hcall⟩
  | cons t ts ih =>
      have hstopping := h.isStopping (by simp [hclosing])
      rcases calls_step_of_called threshold hcall hstopping t with ⟨⟨now, rfl⟩, hover⟩ | ⟨hnot, hsame⟩
      · exact .inl ⟨⟨now, List.mem_cons_self⟩, calls_run_of_finished hover ts⟩
      · obtain ⟨cs', hclosing'⟩ := h.closing (step_moves threshold s t) hclosing
        rcases ih (h.step threshold t) hclosing' hsame with ⟨⟨now, hmem⟩, hover⟩ | ⟨hnone, hcalled⟩
        · exact .inl ⟨⟨now, List.mem_cons_of_mem _ hmem⟩, hover⟩
        · refine .inr ⟨fun now hmem => ?_, hcalled⟩
          rcases List.mem_cons.1 hmem with heq | hmem
          · exact hnot now heq.symm
          · exact hnone now hmem

/-! ## Overlapping attempts -/

/-- However the sections of any number of attempts, of the monitors and of a stop follow each other: the three maps know
the same addresses, and each agent is shown as the node of its address; until the stop is signalled a registered agent
has exactly one monitor that polls again, or that is about to strike it off after the last failure allowed; an agent is
registered a second time only after it was struck off; once the registry was emptied it stays so, the search cannot be
started, and a new attempt gives `false`; and every snapshot is strictly in the order of the names. -/
theorem registry_of_overlapping_calls (room : Option Nat) (addresses : ι → String) (threshold : Nat)
    (ts : List (Turn ι)) :
    let s := (fresh room addresses).run threshold ts
    let r := s.directory.registry
    (∀ a, (a ∈ r.nodes ↔ a ∈ r.clients) ∧ (a ∈ r.monitors ↔ a ∈ r.clients)) ∧
    (∀ a n, r.nodes[a]? = some n → n.id = "agent-" ++ a ∧ (n.address, n.port) = splitHostPort a) ∧
    (s.directory.isStopping = false → ∀ a ∈ r.clients,
      ∃! c : Handle, c.address = a ∧
        ∃ m, s.monitors c = some m ∧ (m.PollsAgain threshold ∨ m.Condemns threshold)) ∧
    (∀ a i j l₁ l₂ l₃,
      (fresh room addresses).events threshold ts = l₁ ++ .registered i a :: (l₂ ++ .registered j a :: l₃) →
      .struck a ∈ l₂) ∧
    (∀ cs, s.stopping = .closing cs → ∀ us,
      let s' := s.run threshold us
      s'.directory.registry = {} ∧ s'.directory.start = .error .stopped ∧
      ∀ i a, s.calls i = .called a →
        (∃ now, .advance i now ∈ us) ∧ s'.calls i = .finished false ∨
        (∀ now, .advance i now ∉ us) ∧ s'.calls i = .called a) ∧
    r.snapshot.Pairwise (fun n n' => n.id < n'.id) ∧
    ∀ b ∈ s.directory.updates, ∀ nodes ∈ b.queue, nodes.Pairwise fun n n' => n.id < n'.id := by
  intro s r
  have hfresh := sound_fresh room addresses
  have h : s.Sound := hfresh.run threshold ts
  refine ⟨fun a => ⟨h.consistent.nodes a, h.consistent.mem_monitors a⟩, fun a n hn => ?_, fun hstopping a ha => ?_,
    fun a i j l₁ l₂ l₃ => hfresh.struck_between, fun cs hclosing us => ?_, h.consistent.pairwise_snapshot, h.ordered⟩
  · exact ⟨(h.consistent.shown hn).id, (h.consistent.shown hn).place⟩
  · simpa only [Monitor.isActive_iff threshold] using h.existsUnique_monitor hstopping ha
  · have h' := h.run threshold us
    obtain ⟨cs', hclosing'⟩ := h.run_closing hclosing threshold us
    exact ⟨h'.consistent.eq_empty (h'.emptied hclosing'), h'.start_eq (h'.isStopping (by simp [hclosing'])),
      fun i a hcall => h.calls_run_of_called hclosing hcall us⟩

/-- Two attempts for one agent overlap: both find it unknown, the first registers it, and its monitor gets no
answer. -/
def overlap : List (Turn Nat) :=
  [.advance 0 0, .advance 1 0, .advance 0 0, .advance 1 0, .dialled 0 true, .answered 0 (some {}), .advance 0 0,
    .polled ⟨"a:1", 0⟩ none]

/-- The monitor strikes the agent off, and the second attempt registers it. -/
def takeover : List (Turn Nat) :=
  [.noted ⟨"a:1", 0⟩ 0, .dialled 1 true, .answered 1 (some {}), .advance 1 0, .advance 0 0, .advance 1 0]

/-- The second attempt is over, then the registry is emptied, and then comes a third attempt. -/
theorem registry_of_overlapping_calls_sample :
    let s₀ : Session Nat := fresh (some 4) fun _ => "a:1"
    let s := s₀.run 1 (overlap ++ takeover)
    let s' := (s₀.run 1 (overlap ++ takeover ++ [.signal, .clear])).run 1 [.advance 2 0]
    (∃! c : Handle, c.address = "a:1" ∧ ∃ m, s.monitors c = some m ∧ (m.PollsAgain 1 ∨ m.Condemns 1)) ∧
    s'.directory.registry = {} ∧ s'.directory.start = .error .stopped ∧ s'.calls 2 = .finished false := by
  dsimp only
  obtain ⟨-, -, hmonitor, -⟩ := registry_of_overlapping_calls (some 4) (fun _ : Nat => "a:1") 1 (overlap ++ takeover)
  obtain ⟨-, -, -, -, hclosed, -⟩ := registry_of_overlapping_calls (some 4) (fun _ : Nat => "a:1") 1
    (overlap ++ takeover ++ [.signal, .clear])
  obtain ⟨hempty, hstart, hlate⟩ := hclosed [⟨"a:1", 1⟩] (by decide) [.advance 2 0]
  refine ⟨hmonitor (by decide) "a:1" (by decide), hempty, hstart, ?_⟩
  exact ((hlate 2 "a:1" (by decide)).resolve_right fun hnot => hnot.1 0 List.mem_cons_self).2

/-- Attempts for one agent that overlap may both register it, and an agent may be registered while no monitor polls it
again. -/
theorem both_calls_register :
    let s₀ : Session Nat := fresh none fun _ => "a:1"
    let s := s₀.run 1 overlap
    let s' := s.run 1 takeover
    s.directory.isStopping = false ∧ s.directory.isKnown "a:1" = true ∧
    (∀ c m, s.monitors c = some m → ¬ m.PollsAgain 1) ∧
    s.calls 0 = .announcing ∧ s.calls 1 = .connecting "a:1" ∧
    s₀.events 1 (overlap ++ takeover) = [.registered 0 "a:1", .struck "a:1", .registered 1 "a:1"] ∧
    s'.calls 0 = .finished true ∧ s'.calls 1 = .finished true := by
  refine ⟨by decide, by decide, fun c m hm hpolls => ?_, by decide, by decide, by decide, by decide, by decide⟩
  rcases update_eq hm with ⟨-, hnoting⟩ | ⟨hne, hm⟩
  · cases hnoting
    exact Nat.lt_irrefl 1 hpolls
  · rcases update_eq hm with ⟨heq, -⟩ | ⟨-, hnone⟩
    · exact hne heq
    · cases hnone

end Session

end AgentMesh.Discovery
