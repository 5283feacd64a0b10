import AgentMesh.Proofs.Discovery.Overlap

/-!
# Where connections are

Each connection that was ever opened is in exactly one place, and there once: an attempt has it, it is registered, a
monitor or a stop is about to close it, or it was closed. A turn only moves connections from one place to another. So
once nobody is under way, each of them is either registered and open, or it was closed once and is not registered.
-/

namespace AgentMesh.Discovery

/-- The connection that a monitor took from the registry and has not closed. -/
def Monitor.client? : Monitor → Option Handle
  | closing client => client
  | _ => none

/-- The connections that a stop took from the registry and has not closed. -/
def Stopping.clients : Stopping → List Handle
  | closing clients => clients
  | _ => []

/-- Each registered connection is listed once. -/
theorem Registry.Consistent.count_values {r : Registry} (h : r.Consistent) (c : Handle) :
    r.clients.values.count c = if r.clients[c.address]? = some c then 1 else 0 := by
  have hmem : c ∈ r.clients.values ↔ r.clients[c.address]? = some c := by
    rw [values_eq, List.mem_map]
    constructor
    · rintro ⟨⟨a, d⟩, hd, rfl⟩
      have hd' := Std.ExtTreeMap.mem_toList_iff_getElem?_eq_some.1 hd
      rwa [h.own hd']
    · exact fun hc => ⟨⟨c.address, c⟩, Std.ExtTreeMap.mem_toList_iff_getElem?_eq_some.2 hc, rfl⟩
  have hnodup : r.clients.values.Nodup := by
    refine List.Nodup.of_map Handle.address ?_
    have hkeys : r.clients.values.map Handle.address = r.clients.keys := by
      rw [values_eq, ← Std.ExtTreeMap.map_fst_toList_eq_keys, List.map_map]
      exact List.map_congr_left fun p hp => h.own (Std.ExtTreeMap.mem_toList_iff_getElem?_eq_some.1 hp)
    rw [hkeys]
    exact Std.ExtTreeMap.nodup_keys
  split
  · exact List.count_eq_one_of_mem hnodup (hmem.2 ‹_›)
  · exact List.count_eq_zero.2 fun hc => ‹¬ _› (hmem.1 hc)

namespace Session

variable {ι : Type}

/-! ## Places -/

/-- Where a connection can be. -/
inductive Place (ι : Type)
  | call (i : ι)
  | entry (address : String)
  | monitor (c : Handle)
  | stop
  /-- It was closed. -/
  | past
deriving DecidableEq

/-- The connections in a place, each as often as it is there. -/
def present (s : Session ι) : Place ι → List Handle
  | .call i => (s.calls i).client?.toList
  | .entry address => s.directory.registry.clients[address]?.toList
  | .monitor c => ((s.monitors c).bind Monitor.client?).toList
  | .stop => s.stopping.clients
  | .past => s.closed

/-- No attempt, no monitor and no stop has a connection in its hands. So it is where none of them is under way. -/
structure AtRest (s : Session ι) : Prop where
  calls (i : ι) : (s.calls i).client? = none
  monitors (c : Handle) (m : Monitor) : s.monitors c = some m → m.client? = none
  stopping : s.stopping.clients = []

variable [DecidableEq ι] {threshold : Nat} {s s' : Session ι}

/-- The connection that a turn opens. -/
def obtained? (s : Session ι) : Turn ι → Option Handle
  | .dialled i true =>
      match s.calls i with
      | .connecting address => some ⟨address, s.opened⟩
      | _ => none
  | _ => none

def obtained (threshold : Nat) : Session ι → List (Turn ι) → List Handle
  | _, [] => []
  | s, t :: ts => (s.obtained? t).toList ++ (s.step threshold t).obtained threshold ts

/-! ## What a turn does to a connection -/

/-- The connection stays where it is, or it passes from one place to another. -/
def Keeps (s s' : Session ι) (c : Handle) : Prop :=
  ∃ p q : Place ι, ∀ r,
    (s'.present r).count c + (if r = p then 1 else 0) = (s.present r).count c + (if r = q then 1 else 0)

theorem Keeps.of_same {c : Handle} (h : ∀ r, s'.present r = s.present r) : Keeps s s' c :=
  ⟨.past, .past, fun r => by rw [h]⟩

theorem Keeps.refl (s : Session ι) (c : Handle) : Keeps s s c :=
  .of_same fun _ => rfl

theorem Keeps.of_passed {c d : Handle} {p q : Place ι} (hne : p ≠ q) (hp : s.present p = d :: s'.present p)
    (hq : s'.present q = d :: s.present q) (hrest : ∀ r, r ≠ p → r ≠ q → s'.present r = s.present r) :
    Keeps s s' c := by
  by_cases hd : d = c
  · subst hd
    refine ⟨p, q, fun r => ?_⟩
    by_cases hrp : r = p
    · subst hrp
      simp [hp, hne]
    · by_cases hrq : r = q
      · subst hrq
        simp [hq, hrp]
      · simp [hrest r hrp hrq, hrp, hrq]
  · refine ⟨p, p, fun r => ?_⟩
    by_cases hrp : r = p
    · subst hrp
      simp [hp, hd]
    · by_cases hrq : r = q
      · subst hrq
        simp [hq, hd]
      · simp [hrest r hrp hrq]

theorem present_setCall (s : Session ι) (i : ι) (a : Attempt) (r : Place ι) :
    (s.setCall i a).present r = if r = .call i then a.client?.toList else s.present r := by
  cases r with
  | call j => by_cases hj : j = i <;> simp [present, setCall, hj]
  | _ => simp [present, setCall]

theorem present_setMonitor (s : Session ι) (c : Handle) (m : Monitor) (r : Place ι) :
    (s.setMonitor c m).present r = if r = .monitor c then m.client?.toList else s.present r := by
  cases r with
  | monitor d => by_cases hd : d = c <;> simp [present, setMonitor, hd]
  | _ => simp [present, setMonitor]

theorem present_closed (s : Session ι) (cs : List Handle) (r : Place ι) :
    present { s with closed := cs } r = if r = .past then cs else s.present r := by
  cases r <;> simp [present]

/-- The attempt has the connection that it had, or none as before. -/
theorem Keeps.setCall {i : ι} {a : Attempt} (h : a.client? = (s.calls i).client?) (c : Handle) :
    Keeps s (s.setCall i a) c := by
  refine .of_same fun r => ?_
  rw [present_setCall]
  split
  · rename_i hr
    rw [hr, h, present]
  · rfl

theorem Keeps.setMonitor {d : Handle} {m : Monitor} (hm : s.monitors d = some m) (m' : Monitor)
    (h : m'.client? = m.client?) (c : Handle) : Keeps s (s.setMonitor d m') c := by
  refine .of_same fun r => ?_
  rw [present_setMonitor]
  split
  · rename_i hr
    rw [hr, h, present, hm, Option.bind_some]
  · rfl

theorem Keeps.congr {s₁ : Session ι} {c : Handle} (h : Keeps s₁ s' c) (hsame : ∀ r, s₁.present r = s.present r) :
    Keeps s s' c := by
  obtain ⟨p, q, hkeeps⟩ := h
  exact ⟨p, q, fun r => by rw [hkeeps, hsame]⟩

omit [DecidableEq ι] in
/-- What the directory knows beside the connections does not matter. -/
theorem present_directory {d : Directory} (h : d.registry.clients = s.directory.registry.clients) (r : Place ι) :
    present { s with directory := d } r = s.present r := by
  cases r <;> simp [present, h]

theorem Sound.keeps_registered (h : s.Sound) {i : ι} {d : Handle} {node : Node} (hd : (s.calls i).client? = some d)
    (hnew : s.directory.isKnown d.address = false) (c : Handle) :
    Keeps s (({ s with directory := { s.directory with registry := s.directory.registry.register d node } }.setCall i
      .announcing).setMonitor d (.waiting 0)) c := by
  have hunknown : s.directory.registry.clients[d.address]? = none :=
    Std.ExtTreeMap.getElem?_eq_none_of_contains_eq_false hnew
  refine .of_passed (d := d) (p := .call i) (q := .entry d.address) nofun ?_ ?_ fun r hcall hentry => ?_
  · rw [present_setMonitor, if_neg nofun, present_setCall, if_pos rfl, present, hd]
    rfl
  · rw [present_setMonitor, if_neg nofun, present_setCall, if_neg nofun, present, present, hunknown]
    simp [Registry.register]
  · rw [present_setMonitor, present_setCall, if_neg hcall]
    split
    · -- A connection that an attempt has is not watched.
      rename_i hmonitor
      simp [hmonitor, present, (h.held hd).2, Monitor.client?]
    · cases r with
      | entry a =>
          have hne : d.address ≠ a := fun heq => hentry (by rw [heq])
          simp [present, Registry.register, Std.ExtTreeMap.getElem?_insert, hne]
      | _ => rfl

theorem Sound.keeps_advance (h : s.Sound) (i : ι) (now : Nat) (c : Handle) : Keeps s (s.advance i now) c := by
  cases hcall : s.calls i with
  | called address =>
      simp only [advance, hcall, Attempt.proceed]
      refine .setCall ?_ c
      rw [hcall]
      split <;> rfl
  | allowed address =>
      simp only [advance, hcall, Attempt.proceed]
      refine .setCall ?_ c
      rw [hcall]
      split <;> rfl
  | entering d resources =>
      by_cases hrefused : (s.directory.isStopping || s.directory.isKnown d.address) = true
      · simp only [advance, hcall, Attempt.proceed, Directory.enter, hrefused, ↓reduceIte]
        exact .setCall (by rw [hcall]; rfl) c
      · simp only [advance, hcall, Attempt.proceed, Directory.enter, hrefused]
        simp only [Bool.or_eq_true, not_or, Bool.not_eq_true] at hrefused
        exact h.keeps_registered (by rw [hcall]; rfl) hrefused.2 c
  | announcing =>
      simp only [advance, hcall, Attempt.proceed]
      exact (Keeps.setCall (by rw [hcall]; rfl) c).congr (present_directory rfl)
  | _ =>
      simp only [advance, hcall, Attempt.proceed]
      exact .setCall (by rw [hcall]) c

theorem Keeps.closed {i : ι} {d : Handle} {result : Bool} (hcall : s.calls i = .closing d result) (c : Handle) :
    Keeps s { s.setCall i (.finished result) with closed := d :: s.closed } c := by
  refine .of_passed (d := d) (p := .call i) (q := .past) nofun ?_ rfl fun r hr hpast => ?_
  · rw [present_closed (s.setCall i _), if_neg nofun, present_setCall, if_pos rfl, present, hcall]
    rfl
  · rw [present_closed (s.setCall i _), if_neg hpast, present_setCall, if_neg hr]

theorem Keeps.released {d : Handle} {client : Option Handle} (hm : s.monitors d = some (.closing client)) (c : Handle) :
    Keeps s { s.setMonitor d (.announcing none) with closed := client.toList ++ s.closed } c := by
  cases client with
  | none => exact Keeps.setMonitor hm (.announcing none) rfl c
  | some e =>
      refine .of_passed (d := e) (p := .monitor d) (q := .past) nofun ?_ rfl fun r hr hpast => ?_
      · rw [present_closed (s.setMonitor d _), if_neg nofun, present_setMonitor, if_pos rfl, present, hm]
        rfl
      · rw [present_closed (s.setMonitor d _), if_neg hpast, present_setMonitor, if_neg hr]

/-- The monitor takes from the registry whatever is registered at its address. -/
theorem Keeps.struck {d : Handle} {m : Monitor} (hm : s.monitors d = some m) (hclient : m.client? = none) (c : Handle) :
    Keeps s ({ s with directory := { s.directory with
      registry := (s.directory.registry.strike d.address).1 } }.setMonitor d
        (.closing s.directory.registry.clients[d.address]?)) c := by
  have hhands : s.present (.monitor d) = [] := by
    rw [present, hm, Option.bind_some, hclient]
    rfl
  cases hd : s.directory.registry.clients[d.address]? with
  | none =>
      refine .of_same fun r => ?_
      rw [present_setMonitor]
      split
      · rename_i hr
        rw [hr, hhands]
        rfl
      · cases r with
        | entry a =>
            rw [present, present, Registry.getElem?_strike]
            split
            · rename_i ha
              rw [← ha, hd]
            · rfl
        | _ => rfl
  | some e =>
      refine .of_passed (d := e) (p := .entry d.address) (q := .monitor d) nofun ?_ ?_ fun r hentry hmonitor => ?_
      · rw [present_setMonitor, if_neg nofun, present, present, Registry.getElem?_strike, if_pos rfl, hd]
        rfl
      · rw [present_setMonitor, if_pos rfl, hhands]
        rfl
      · rw [present_setMonitor, if_neg hmonitor]
        cases r with
        | entry a =>
            have hne : d.address ≠ a := fun heq => hentry (by rw [heq])
            rw [present, present, Registry.getElem?_strike, if_neg hne]
        | _ => rfl

theorem keeps_noted (threshold : Nat) (d : Handle) (now : Nat) (c : Handle) :
    Keeps s (s.step threshold (.noted d now)) c := by
  have hseen {m m' : Monitor} {directory : Directory} (hm : s.monitors d = some m) (hclient : m'.client? = m.client?)
      (hsame : directory.registry.clients = s.directory.registry.clients) :
      Keeps s ({ s with directory }.setMonitor d m') c :=
    (Keeps.setMonitor (s := { s with directory }) hm m' hclient c).congr (present_directory hsame)
  cases hm : s.monitors d with
  | none =>
      simp only [step, hm]
      exact .of_same fun _ => rfl
  | some m =>
      cases m with
      | noting failures answer =>
          cases answer with
          | some resources =>
              simp only [step, hm, Monitor.proceed]
              exact hseen hm rfl rfl
          | none =>
              by_cases hlast : max threshold 1 ≤ failures + 1
              · simp only [step, hm, Monitor.proceed, hlast, ↓reduceIte]
                exact .struck hm rfl c
              · simp only [step, hm, Monitor.proceed, hlast, ↓reduceIte]
                exact hseen hm rfl rfl
      | announcing next =>
          cases next with
          | some failures =>
              simp only [step, hm, Monitor.proceed]
              exact hseen hm rfl rfl
          | none =>
              simp only [step, hm, Monitor.proceed]
              exact hseen hm rfl rfl
      | _ =>
          simp only [step, hm, Monitor.proceed]
          exact hseen hm rfl rfl

omit [DecidableEq ι] in
theorem Sound.count_entry (h : s.Sound) (a : String) (c : Handle) :
    (s.present (.entry a)).count c = if a = c.address then s.directory.registry.clients.values.count c else 0 := by
  rw [h.consistent.count_values]
  by_cases hc : s.directory.registry.clients[a]? = some c
  · have ha := h.consistent.own hc
    simp [present, ha, hc]
  · have hnone : (s.present (.entry a)).count c = 0 :=
      List.count_eq_zero.2 fun hmem => hc (Option.mem_toList.1 hmem)
    rw [hnone]
    split
    · rename_i ha
      rw [← ha, if_neg hc]
    · rfl

/-- The stop takes all that is registered, each connection once. -/
theorem Sound.keeps_cleared (h : s.Sound) (hsignalled : s.stopping = .signalled) (c : Handle) :
    Keeps s { s with directory := s.directory.clear.1, stopping := .closing s.directory.clear.2 } c := by
  generalize hs' : { s with directory := s.directory.clear.1, stopping := .closing s.directory.clear.2 } = s'
  have hempty (a : String) : s'.present (.entry a) = [] := by simp [← hs', present, Directory.clear, Registry.clear]
  have htaken : s'.present .stop = s.directory.registry.clients.values := by rw [← hs']; rfl
  have hidle : s.present .stop = [] := by rw [present, hsignalled]; rfl
  have hlisted := h.consistent.count_values c
  by_cases hc : s.directory.registry.clients[c.address]? = some c
  · rw [if_pos hc] at hlisted
    refine ⟨.entry c.address, .stop, fun r => ?_⟩
    cases r with
    | entry a => simp [hempty, h.count_entry, hlisted]
    | stop => simp [htaken, hidle, hlisted]
    | _ => simp [← hs', present]
  · rw [if_neg hc] at hlisted
    refine ⟨.past, .past, fun r => ?_⟩
    cases r with
    | entry a => simp [hempty, h.count_entry, hlisted]
    | stop => simp [htaken, hidle, hlisted]
    | _ => simp [← hs', present]

theorem keeps_dialled (threshold : Nat) {i : ι} {succeeds : Bool} (ht : s.obtained? (.dialled i succeeds) = none)
    (c : Handle) : Keeps s (s.step threshold (.dialled i succeeds)) c := by
  simp only [step]
  split
  · rename_i address hcall
    cases succeeds with
    | true => simp [obtained?, hcall] at ht
    | false => exact .setCall (by rw [hcall]; rfl) c
  · exact .refl s c

theorem keeps_answered (threshold : Nat) (i : ι) (answer : Option Resources) (c : Handle) :
    Keeps s (s.step threshold (.answered i answer)) c := by
  refine .setCall ?_ c
  cases s.calls i with
  | querying d => cases answer <;> rfl
  | _ => rfl

theorem keeps_closed (threshold : Nat) (i : ι) (c : Handle) : Keeps s (s.step threshold (.closed i)) c := by
  simp only [step]
  split
  · rename_i d result hcall
    rw [hcall]
    exact .closed hcall c
  · exact .refl s c

theorem keeps_polled (threshold : Nat) (d : Handle) (answer : Option Resources) (c : Handle) :
    Keeps s (s.step threshold (.polled d answer)) c := by
  simp only [step]
  split
  · exact .refl s c
  · rename_i m hm
    exact .setMonitor hm _ (by cases m <;> rfl) c

theorem keeps_released (threshold : Nat) (d c : Handle) : Keeps s (s.step threshold (.released d)) c := by
  simp only [step]
  split
  · rename_i client hm
    exact .released hm c
  · exact .refl s c

theorem keeps_quit (threshold : Nat) (d c : Handle) : Keeps s (s.step threshold (.quit d)) c := by
  simp only [step]
  split
  · rename_i failures hm
    split
    · exact .setMonitor hm .ended rfl c
    · exact .refl s c
  · exact .refl s c

theorem keeps_start (threshold : Nat) (c : Handle) : Keeps s (s.step threshold .start) c := by
  simp only [step, Directory.start]
  cases s.directory.phase with
  | created => exact .of_same (present_directory rfl)
  | _ => exact .refl s c

theorem Sound.keeps_signal (h : s.Sound) (threshold : Nat) (c : Handle) : Keeps s (s.step threshold .signal) c := by
  simp only [Session.step, Directory.signalStop]
  by_cases hphase : s.directory.phase = .stopped
  · simp only [hphase, if_true]
    exact .refl s c
  · simp only [hphase, if_false]
    -- Only a search that is not stopped is signalled, so no stop has a connection yet.
    have hidle : s.stopping = .idle := h.idle.2 (by simpa using fun hstopping => hphase (h.stopped.2 hstopping))
    refine .of_same fun r => ?_
    cases r with
    | stop =>
        rw [present, present, hidle]
        rfl
    | _ => rfl

theorem Sound.keeps_clear (h : s.Sound) (threshold : Nat) (c : Handle) : Keeps s (s.step threshold .clear) c := by
  simp only [Session.step]
  split
  · exact h.keeps_cleared ‹_› c
  · exact .refl s c

theorem keeps_release (threshold : Nat) (c : Handle) : Keeps s (s.step threshold .release) c := by
  simp only [step]
  split
  · rename_i d clients hstopping
    refine .of_passed (d := d) (p := .stop) (q := .past) (by simp) ?_ rfl fun r hstop hpast => ?_
    · simp [present, hstopping, Stopping.clients]
    · cases r with
      | stop => exact absurd rfl hstop
      | past => exact absurd rfl hpast
      | _ => rfl
  · exact .refl s c

/-- A turn that opens no connection keeps each where it is, or passes it on. -/
theorem Sound.keeps_step (h : s.Sound) (threshold : Nat) {t : Turn ι} (ht : s.obtained? t = none) (c : Handle) :
    Keeps s (s.step threshold t) c := by
  cases t with
  | advance i now => exact h.keeps_advance i now c
  | dialled i succeeds => exact keeps_dialled threshold ht c
  | answered i answer => exact keeps_answered threshold i answer c
  | closed i => exact keeps_closed threshold i c
  | noted d now => exact keeps_noted threshold d now c
  | polled d answer => exact keeps_polled threshold d answer c
  | released d => exact keeps_released threshold d c
  | quit d => exact keeps_quit threshold d c
  | start => exact keeps_start threshold c
  | signal => exact h.keeps_signal threshold c
  | clear => exact h.keeps_clear threshold c
  | release => exact keeps_release threshold c
  | drain => exact .of_same (present_directory rfl)

/-- A new connection is in the hands of the attempt that opened it. -/
theorem count_obtained (threshold : Nat) {t : Turn ι} {d : Handle} (ht : s.obtained? t = some d) :
    ∃ i, d.number = s.opened ∧ (s.step threshold t).opened = s.opened + 1 ∧
      ∀ r c, ((s.step threshold t).present r).count c =
        (s.present r).count c + if r = .call i ∧ c = d then 1 else 0 := by
  cases t with
  | dialled i succeeds =>
      cases succeeds with
      | false => cases ht
      | true =>
          cases hcall : s.calls i with
          | connecting address =>
              simp only [obtained?, hcall, Option.some.injEq] at ht
              subst ht
              refine ⟨i, rfl, by simp [step, hcall], fun r c => ?_⟩
              have hset := present_setCall s i (.querying ⟨address, s.opened⟩) r
              have hstep : (s.step threshold (.dialled i true)).present r =
                  (s.setCall i (.querying ⟨address, s.opened⟩)).present r := by
                simp only [step, hcall, if_true]
                cases r <;> rfl
              rw [hstep, hset]
              by_cases hr : r = .call i
              · by_cases hc : c = ⟨address, s.opened⟩
                · simp [hr, hc, present, hcall, Attempt.client?]
                · simp [hr, hc, Ne.symm hc, present, hcall, Attempt.client?]
              · simp [hr]
          | _ => simp [obtained?, hcall] at ht
  | _ => cases ht

theorem opened_step (threshold : Nat) {t : Turn ι} (ht : s.obtained? t = none) :
    (s.step threshold t).opened = s.opened := by
  cases t with
  | advance i now =>
      simp only [step, advance]
      split <;> rfl
  | dialled i succeeds =>
      simp only [step]
      split
      · rename_i address hcall
        cases succeeds with
        | true => simp [obtained?, hcall] at ht
        | false => rfl
      · rfl
  | answered i answer => rfl
  | _ =>
      simp only [step]
      repeat' split
      all_goals rfl

/-! ## Every connection is in one place -/

/-- Each of the connections is in one place, and there once; nowhere is another one. -/
structure Accounted (s : Session ι) (cs : List Handle) : Prop where
  placed {c : Handle} : c ∈ cs → ∃ p, ∀ r, (s.present r).count c = if r = p then 1 else 0
  unknown {c : Handle} : c ∉ cs → ∀ r, (s.present r).count c = 0
  numbered {c : Handle} : c ∈ cs → c.number < s.opened

theorem accounted_fresh (room : Option Nat) (addresses : ι → String) : (fresh room addresses).Accounted [] where
  placed h := by cases h
  unknown _ r := by cases r <;> simp [present, fresh, Attempt.client?, Stopping.clients]
  numbered h := by cases h

theorem Accounted.keeps {cs : List Handle} (h : s.Accounted cs) (hkeeps : ∀ c, Keeps s s' c)
    (hopened : s'.opened = s.opened) : s'.Accounted cs where
  placed {c} hc := by
    obtain ⟨p₀, hbefore⟩ := h.placed hc
    obtain ⟨p, q, hafter⟩ := hkeeps c
    by_cases hp : p = p₀
    · refine ⟨q, fun r => ?_⟩
      have := hafter r
      rw [hbefore, hp] at this
      omega
    · -- The connection was not at `p`, so nothing was taken from there.
      have hpq : p = q := by
        by_contra hne
        have := hafter p
        rw [hbefore, if_neg hp, if_pos rfl, if_neg hne] at this
        omega
      refine ⟨p₀, fun r => ?_⟩
      have := hafter r
      rw [hbefore, hpq] at this
      omega
  unknown {c} hc r := by
    obtain ⟨p, q, hafter⟩ := hkeeps c
    have hpq : p = q := by
      by_contra hne
      have := hafter p
      rw [h.unknown hc, if_pos rfl, if_neg hne] at this
      omega
    have := hafter r
    rw [h.unknown hc, hpq] at this
    omega
  numbered hc := hopened ▸ h.numbered hc

theorem Accounted.obtained {cs : List Handle} (h : s.Accounted cs) {t : Turn ι} {d : Handle}
    (ht : s.obtained? t = some d) : (s.step threshold t).Accounted (cs ++ [d]) := by
  obtain ⟨i, hnumber, hopened, hcount⟩ := count_obtained threshold ht
  have hnew : d ∉ cs := fun hd => Nat.lt_irrefl s.opened (hnumber ▸ h.numbered hd)
  refine ⟨fun {c} hc => ?_, fun {c} hc r => ?_, fun {c} hc => ?_⟩
  · rcases List.mem_append.1 hc with hold | hc
    · have hne : c ≠ d := fun heq => hnew (heq ▸ hold)
      obtain ⟨p, hp⟩ := h.placed hold
      exact ⟨p, fun r => by simp [hcount, hp, hne]⟩
    · rw [List.mem_singleton.1 hc]
      exact ⟨.call i, fun r => by simp [hcount, h.unknown hnew]⟩
  · have hc' : c ∉ cs ∧ c ≠ d := by simpa using hc
    simp [hcount, h.unknown hc'.1, hc'.2]
  · rcases List.mem_append.1 hc with hold | hc
    · have := h.numbered hold
      omega
    · rw [List.mem_singleton.1 hc]
      omega

theorem Accounted.run {cs : List Handle} (hsound : s.Sound) (h : s.Accounted cs) (threshold : Nat)
    (ts : List (Turn ι)) : (s.run threshold ts).Accounted (cs ++ s.obtained threshold ts) := by
  induction ts generalizing s cs with
  | nil => simpa [Session.run, Session.obtained] using h
  | cons t ts ih =>
      have hstep := hsound.step threshold t
      cases ht : s.obtained? t with
      | none =>
          have h' := h.keeps (hsound.keeps_step threshold ht) (opened_step threshold ht)
          simpa [Session.run, Session.obtained, ht] using ih hstep h'
      | some d => simpa [Session.run, Session.obtained, ht] using ih hstep (h.obtained ht)

/-- Nobody has a connection in its hands if each is registered or was closed. -/
theorem Accounted.atRest {cs : List Handle} (h : s.Accounted cs)
    (hall : ∀ c ∈ cs, c ∈ s.closed ∨ s.directory.registry.clients[c.address]? = some c) : s.AtRest := by
  have hplace {p : Place ι} {c : Handle} (hc : c ∈ s.present p) : p = .past ∨ p = .entry c.address := by
    have hcs : c ∈ cs := by
      by_contra hnot
      exact List.count_eq_zero.1 (h.unknown hnot p) hc
    obtain ⟨q, hq⟩ := h.placed hcs
    have hat {r : Place ι} (hr : c ∈ s.present r) : r = q := by
      by_contra hne
      have hnone := hq r
      rw [if_neg hne, List.count_eq_zero] at hnone
      exact hnone hr
    rw [hat hc]
    rcases hall c hcs with hclosed | hentry
    · exact .inl (hat (r := .past) hclosed).symm
    · exact .inr (hat (r := .entry c.address) (Option.mem_toList.2 hentry)).symm
  refine ⟨fun i => ?_, fun d m hm => ?_, ?_⟩
  · refine Option.eq_none_iff_forall_ne_some.2 fun c hc => ?_
    simpa using hplace (p := .call i) (Option.mem_toList.2 hc)
  · refine Option.eq_none_iff_forall_ne_some.2 fun c hc => ?_
    have hmem : c ∈ s.present (.monitor d) := by simp [present, hm, hc]
    simpa using hplace hmem
  · refine List.eq_nil_iff_forall_not_mem.2 fun c hc => ?_
    simpa using hplace (p := .stop) hc

/-! ## No connection is lost, and none is closed while it is registered -/

/-- However attempts, polls and a stop follow each other, once none of them has a connection in its hands: each
connection that was ever opened is the registered one of its address and was not closed, or it was closed exactly once
and is not registered. -/
theorem connections_kept_or_closed (room : Option Nat) (addresses : ι → String) (threshold : Nat) (ts : List (Turn ι)) :
    let s := (fresh room addresses).run threshold ts
    let r := s.directory.registry
    s.AtRest → ∀ c ∈ (fresh room addresses).obtained threshold ts,
      (r.clients[c.address]? = some c ∧ s.closed.count c = 0) ∨
      (s.closed.count c = 1 ∧ ∀ a : String, r.clients[a]? ≠ some c) := by
  intro s r hrest c hc
  have hfresh := sound_fresh room addresses
  have h : s.Accounted _ := (accounted_fresh room addresses).run hfresh threshold ts
  rw [List.nil_append] at h
  have hown {a : String} (ha : r.clients[a]? = some c) : c.address = a := (hfresh.run threshold ts).consistent.own ha
  obtain ⟨p, hp⟩ := h.placed hc
  have hhere := hp p
  rw [if_pos rfl] at hhere
  have hmem : c ∈ s.present p := List.count_pos_iff.1 (by omega)
  cases p with
  | call i => simp [present, hrest.calls] at hmem
  | monitor d =>
      obtain ⟨m, hm, hclient⟩ := Option.bind_eq_some_iff.1 (Option.mem_toList.1 hmem)
      rw [hrest.monitors d m hm] at hclient
      cases hclient
  | stop => simp [present, hrest.stopping] at hmem
  | entry a =>
      have ha : r.clients[a]? = some c := Option.mem_toList.1 hmem
      refine .inl ⟨by rwa [hown ha], ?_⟩
      have hpast := hp .past
      rwa [if_neg nofun] at hpast
  | past =>
      refine .inr ⟨hhere, fun a ha => ?_⟩
      have hentry := hp (.entry a)
      rw [if_neg nofun, List.count_eq_zero] at hentry
      exact hentry (Option.mem_toList.2 ha)

def fourAgents : Fin 4 → String
  | 0 => "a:1"
  | 1 => "a:1"
  | 2 => "b:1"
  | 3 => "c:1"

/-- Of two attempts for one agent one comes too late, one agent does not answer, and one is struck off. -/
def fourExits : List (Turn (Fin 4)) :=
  [.advance 0 0, .advance 1 0, .advance 2 0, .advance 3 0, .advance 0 0, .advance 1 0, .advance 2 0, .advance 3 0,
    .dialled 0 true, .dialled 1 true, .dialled 2 true, .dialled 3 true,
    .answered 0 (some {}), .answered 1 (some {}), .answered 2 none, .answered 3 (some {}),
    .advance 3 0, .advance 1 0, .advance 0 0, .closed 0, .closed 2, .advance 1 0, .advance 3 0,
    .polled ⟨"c:1", 3⟩ none, .noted ⟨"c:1", 3⟩ 0, .released ⟨"c:1", 3⟩, .noted ⟨"c:1", 3⟩ 0]

theorem connections_kept_or_closed_sample :
    let s₀ : Session (Fin 4) := fresh none fourAgents
    let s := s₀.run 1 fourExits
    let r := s.directory.registry
    s₀.obtained 1 fourExits = [⟨"a:1", 0⟩, ⟨"a:1", 1⟩, ⟨"b:1", 2⟩, ⟨"c:1", 3⟩] ∧ s.AtRest ∧
    (r.clients["a:1"]? = some ⟨"a:1", 1⟩ ∧ s.closed.count ⟨"a:1", 1⟩ = 0) ∧
    (s.closed.count ⟨"c:1", 3⟩ = 1 ∧ ∀ a : String, r.clients[a]? ≠ some ⟨"c:1", 3⟩) := by
  dsimp only
  have hrest : ((fresh none fourAgents).run 1 fourExits).AtRest := by
    refine ((accounted_fresh none fourAgents).run (sound_fresh none fourAgents) 1 fourExits).atRest ?_
    decide +kernel
  have hopen : ((fresh none fourAgents).run 1 fourExits).closed.count ⟨"a:1", 1⟩ = 0 := by decide +kernel
  have hclosed : ((fresh none fourAgents).run 1 fourExits).closed.count ⟨"c:1", 3⟩ = 1 := by decide +kernel
  have hkept := connections_kept_or_closed none fourAgents 1 fourExits hrest ⟨"a:1", 1⟩ (by decide +kernel)
  have hgone := connections_kept_or_closed none fourAgents 1 fourExits hrest ⟨"c:1", 3⟩ (by decide +kernel)
  rw [hopen] at hkept
  rw [hclosed] at hgone
  refine ⟨by decide +kernel, hrest, ?_, ?_⟩
  · simpa [hopen] using hkept
  · simpa [hclosed] using hgone

end Session

end AgentMesh.Discovery
