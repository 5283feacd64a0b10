import AgentMesh.Discovery.Search
import AgentMesh.Proofs.Discovery.Custody
import AgentMesh.Proofs.Discovery.Rounds

/-!
# An agent and its monitor

As long as the search is not stopped an agent is registered just until it did not answer too often in a row. Until
then it is shown at its address with what it answered last. However the others go on in between, only its own monitor
changes that.
-/

namespace AgentMesh.Discovery

/-- What is known of the resources of an agent, which had the first ones when it was registered. -/
def lastKnown (first : Resources) (answers : List (Option Resources)) : Resources :=
  (answers.filterMap id).getLastD first

/-- An agent is taken to be online until it does not answer. -/
def lastStatus (answers : List (Option Resources)) : NodeStatus :=
  match answers.getLast? with
  | some none => .offline
  | _ => .online

@[simp]
theorem lastKnown_concat_some (first r : Resources) (answers : List (Option Resources)) :
    lastKnown first (answers ++ [some r]) = r := by
  simp [lastKnown]

@[simp]
theorem lastKnown_concat_none (first : Resources) (answers : List (Option Resources)) :
    lastKnown first (answers ++ [none]) = lastKnown first answers := by
  simp [lastKnown]

@[simp]
theorem lastStatus_concat_some (answers : List (Option Resources)) (r : Resources) :
    lastStatus (answers ++ [some r]) = .online := by
  simp [lastStatus]

@[simp]
theorem lastStatus_concat_none (answers : List (Option Resources)) : lastStatus (answers ++ [none]) = .offline := by
  simp [lastStatus]

/-- What a monitor does in a turn of its own. -/
def Monitor.deed? {ι : Type} : Monitor → Session.Turn ι → Option Deed
  | .waiting _, .polled _ answer => some (.polled answer)
  | .noting _ answer, .noted _ _ => some (.heeded answer)
  | .closing client, .released _ => some (.closed client)
  | .announcing _, .noted _ _ => some .announced
  | _, _ => none

/-! ## What sections leave as it is -/

theorem Attempt.isStopping_proceed (d : Directory) (now : Nat) (a : Attempt) :
    (a.proceed d now).1.isStopping = d.isStopping := by
  cases a with
  | entering client resources =>
      by_cases hrefused : (d.isStopping || d.isKnown client.address) = true <;>
        simp [Attempt.proceed, Directory.enter, hrefused]
  | _ => rfl

/--
A snapshot of all registered agents is queued behind those that wait, if there is room for it, and is lost otherwise.
Nothing else changes.
-/
structure Directory.Notified (d d' : Directory) : Prop where
  queued (b : Mailbox (List Node)) : d.updates = some b → b.isOpen = true → b.queue.length < b.capacity →
    d' = { d with updates := some { b with queue := b.queue ++ [d.registry.snapshot] } }
  lost : (∀ b, d.updates = some b → b.isOpen = true → b.capacity ≤ b.queue.length) → d' = d
  whole : d.registry.snapshot.Perm d.registry.nodes.values

theorem Directory.notified_announce (d : Directory) : d.Notified d.announce where
  queued b hb hopen hroom := by simp [announce, hb, Mailbox.push, hopen, hroom]
  lost hfull := by
    rcases d with ⟨phase, isStopping, registry, updates⟩
    cases updates with
    | none => rfl
    | some b =>
        have hlost : ¬(b.isOpen = true ∧ b.queue.length < b.capacity) := by
          rintro ⟨hopen, hroom⟩
          exact absurd (hfull b rfl hopen) (Nat.not_le.2 hroom)
        simp [announce, Mailbox.push, hlost]
  whole := d.registry.snapshot_perm

theorem Monitor.isStopping_proceed (d : Directory) (threshold : Nat) (address : String) (now : Nat) (m : Monitor) :
    (m.proceed d threshold address now).1.isStopping = d.isStopping := by
  cases m with
  | noting failures answer =>
      cases answer with
      | none =>
          by_cases hmany : max threshold 1 ≤ failures + 1 <;>
            simp [Monitor.proceed, hmany, Directory.strike, Directory.missed]
      | some resources => rfl
  | announcing next => cases next <;> rfl
  | _ => rfl

/-- A monitor changes the node of its own agent only. -/
theorem Monitor.nodes_proceed (d : Directory) (threshold : Nat) {address a : String} (now : Nat) {m : Monitor}
    (hother : m.IsActive → address ≠ a) :
    (m.proceed d threshold address now).1.registry.nodes[a]? = d.registry.nodes[a]? := by
  cases m with
  | noting failures answer =>
      have hne := hother trivial
      cases answer with
      | none =>
          by_cases hmany : max threshold 1 ≤ failures + 1
          · simp [Monitor.proceed, hmany, Directory.strike, Registry.strike, Std.ExtTreeMap.getElem?_erase, hne]
          · simp [Monitor.proceed, hmany, Directory.missed, Registry.missed, Std.ExtTreeMap.getElem?_modify, hne]
      | some resources =>
          simp [Monitor.proceed, Directory.observed, Registry.observed, Std.ExtTreeMap.getElem?_modify, hne]
  | announcing next => cases next <;> rfl
  | _ => rfl

/-- An attempt adds no node but that of an agent that was not known. -/
theorem Attempt.nodes_proceed (d : Directory) (now : Nat) (a : Attempt) {address : String}
    (h : d.isKnown address = true) : (a.proceed d now).1.registry.nodes[address]? = d.registry.nodes[address]? := by
  cases a with
  | entering client resources =>
      by_cases hrefused : (d.isStopping || d.isKnown client.address) = true
      · simp [Attempt.proceed, Directory.enter, hrefused]
      · have hne : client.address ≠ address := by
          rintro rfl
          simp [h] at hrefused
        simp [Attempt.proceed, Directory.enter, hrefused, Registry.register, Std.ExtTreeMap.getElem?_insert, hne]
  | _ => rfl

namespace Session

variable {ι : Type}

/-- The monitor whose turn it is. -/
def Turn.monitor? : Turn ι → Option Handle
  | .noted c _ => some c
  | .polled c _ => some c
  | .released c => some c
  | .quit c => some c
  | _ => none

/-- What the monitor of a connection does in a turn. -/
def deed? (s : Session ι) (c : Handle) (t : Turn ι) : Option Deed :=
  if t.monitor? = some c then (s.monitors c).bind (·.deed? t) else none

variable [DecidableEq ι]

def deeds (threshold : Nat) (c : Handle) : Session ι → List (Turn ι) → List Deed
  | _, [] => []
  | s, t :: ts => (s.deed? c t).toList ++ (s.step threshold t).deeds threshold c ts

variable {threshold : Nat} {s : Session ι} {c : Handle} {m : Monitor}

/-! ## What turns keep -/

/-- The search goes on, and nobody takes back that a connection was closed. -/
structure GoesOn (s s' : Session ι) : Prop where
  isStopping : s'.directory.isStopping = s.directory.isStopping
  closed : s.closed <:+ s'.closed

omit [DecidableEq ι] in
theorem GoesOn.refl (s : Session ι) : GoesOn s s :=
  ⟨rfl, List.suffix_refl _⟩

theorem goesOn_step {t : Turn ι} (ht : t ≠ .signal) : GoesOn s (s.step threshold t) := by
  have hsame {s' : Session ι} (hdirectory : s'.directory.isStopping = s.directory.isStopping)
      (hclosed : s'.closed = s.closed) : GoesOn s s' :=
    ⟨hdirectory, hclosed ▸ List.suffix_refl _⟩
  cases t with
  | advance i now =>
      simp only [step, advance]
      split <;> exact hsame (Attempt.isStopping_proceed ..) rfl
  | dialled i succeeds =>
      simp only [step]
      split
      · cases succeeds <;> exact hsame rfl rfl
      · exact .refl s
  | closed i =>
      simp only [step]
      split
      · exact ⟨rfl, List.suffix_cons ..⟩
      · exact .refl s
  | noted d now =>
      simp only [step]
      split
      · exact .refl s
      · exact hsame (Monitor.isStopping_proceed ..) rfl
  | released d =>
      simp only [step]
      split
      · exact ⟨rfl, List.suffix_append ..⟩
      · exact .refl s
  | start =>
      simp only [step, Directory.start]
      cases s.directory.phase <;> exact hsame rfl rfl
  | signal => exact absurd rfl ht
  | release =>
      simp only [step]
      split
      · exact ⟨rfl, List.suffix_cons ..⟩
      · exact .refl s
  | _ =>
      simp only [step]
      repeat' split
      all_goals exact hsame rfl rfl

/-- A monitor is where it was, and if it has not struck off the agent, then that is shown as before. -/
structure Unmoved (c : Handle) (m : Monitor) (s s' : Session ι) : Prop where
  monitor : s'.monitors c = some m
  node : m.IsActive → s'.directory.registry.nodes[c.address]? = s.directory.registry.nodes[c.address]?

theorem Sound.unmoved_advance (h : s.Sound) (hgoes : s.directory.isStopping = false) (hm : s.monitors c = some m)
    (i : ι) (now : Nat) : Unmoved c m s (s.advance i now) where
  monitor := by
    simp only [advance]
    split
    · -- A connection that an attempt has is not watched.
      rename_i d resources hcall hnext
      have hunwatched := (h.held (i := i) (c := d) (by rw [hcall, Attempt.client?])).2
      have hne : c ≠ d := by
        rintro rfl
        rw [hm] at hunwatched
        cases hunwatched
      exact (Function.update_of_ne hne ..).trans hm
    · exact hm
  node hactive := by
    have hknown : s.directory.isKnown c.address = true := by
      rw [Directory.isKnown, Registry.contains, ← Std.ExtTreeMap.mem_iff_contains,
        Std.ExtTreeMap.mem_iff_isSome_getElem?, h.registered_of_active hgoes hm hactive]
      rfl
    simp only [advance]
    split <;> exact Attempt.nodes_proceed _ _ _ hknown

theorem Sound.unmoved_noted (h : s.Sound) (hgoes : s.directory.isStopping = false) (hm : s.monitors c = some m)
    {d : Handle} (hd : d ≠ c) (now : Nat) : Unmoved c m s (s.step threshold (.noted d now)) := by
  simp only [Session.step]
  split
  · exact ⟨hm, fun _ => rfl⟩
  · rename_i m' hm'
    refine ⟨(Function.update_of_ne hd.symm ..).trans hm, fun hactive => ?_⟩
    -- No two active monitors have one address.
    refine Monitor.nodes_proceed _ _ _ fun hactive' heq => hd ?_
    have hregistered := h.registered_of_active hgoes hm' hactive'
    rw [heq, h.registered_of_active hgoes hm hactive] at hregistered
    exact (Option.some.inj hregistered).symm

/-- A monitor goes on in its own turns only, and so changes what is shown of its agent. -/
theorem Sound.unmoved_step (h : s.Sound) (threshold : Nat) (hgoes : s.directory.isStopping = false)
    (hm : s.monitors c = some m) {t : Turn ι} (hother : t.monitor? ≠ some c) : Unmoved c m s (s.step threshold t) := by
  have hsame {d : Handle} (hd : some d ≠ some c) (m' : Monitor) : (s.setMonitor d m').monitors c = some m :=
    (Function.update_of_ne (fun heq => hd (congrArg some heq.symm)) ..).trans hm
  cases t with
  | advance i now => exact h.unmoved_advance hgoes hm i now
  | noted d now => exact h.unmoved_noted hgoes hm (fun heq => hother (congrArg some heq)) now
  | polled d answer | released d | quit d =>
      simp only [Session.step]
      repeat' split
      all_goals first | exact ⟨hm, fun _ => rfl⟩ | exact ⟨hsame hother _, fun _ => rfl⟩
  | dialled i succeeds =>
      simp only [Session.step]
      split
      · cases succeeds <;> exact ⟨hm, fun _ => rfl⟩
      · exact ⟨hm, fun _ => rfl⟩
  | start =>
      simp only [Session.step, Directory.start]
      cases s.directory.phase <;> exact ⟨hm, fun _ => rfl⟩
  | signal =>
      simp only [Session.step, Directory.signalStop]
      by_cases hphase : s.directory.phase = .stopped <;> simp only [hphase, ↓reduceIte] <;> exact ⟨hm, fun _ => rfl⟩
  | clear =>
      simp only [Session.step, h.idle.2 hgoes]
      exact ⟨hm, fun _ => rfl⟩
  | _ =>
      simp only [Session.step]
      repeat' split
      all_goals exact ⟨hm, fun _ => rfl⟩

omit [DecidableEq ι] in
theorem setMonitor_eq_self (hm : s.monitors c = some m) : s.setMonitor c m = s := by
  rw [setMonitor, ← hm, Function.update_eq_self]

/-- A turn in which a monitor does nothing changes nothing. -/
theorem step_of_idle (hgoes : s.directory.isStopping = false) (hm : s.monitors c = some m) {t : Turn ι}
    (ht : t.monitor? = some c) (hidle : m.deed? t = none) : s.step threshold t = s := by
  cases t with
  | noted d now =>
      cases ht
      cases m with
      | noting | announcing => cases hidle
      | _ =>
          simp only [step, hm, Monitor.proceed]
          exact setMonitor_eq_self hm
  | polled d answer =>
      cases ht
      cases m with
      | waiting => cases hidle
      | _ =>
          simp only [step, hm, Monitor.polled]
          exact setMonitor_eq_self hm
  | released d =>
      cases ht
      cases m with
      | closing => cases hidle
      | _ => simp only [step, hm]
  | quit d =>
      cases ht
      cases m with
      | waiting failures =>
          simp only [step, hm, hgoes]
          rfl
      | _ => simp only [step, hm]
  | _ => cases ht

/-! ## Turns of the monitor -/

/-- The agent is shown at its address, with these resources and this status. -/
def Shows (s : Session ι) (c : Handle) (resources : Resources) (status : NodeStatus) : Prop :=
  ∃ seen, s.directory.registry.nodes[c.address]? = some { nodeAt c.address resources seen with status }

/-- What holds of an agent after its monitor did something. -/
structure Followed (threshold : Nat) (c : Handle) (first : Resources) (s : Session ι) (deeds : List Deed) : Prop where
  sound : s.Sound
  accounted : ∃ cs, c ∈ cs ∧ s.Accounted cs
  goes : s.directory.isStopping = false
  course : ∃ m, s.monitors c = some m ∧ Course threshold c m deeds
  shown : ¬Lost threshold (heededOf deeds) → s.Shows c (lastKnown first (heededOf deeds)) (lastStatus (heededOf deeds))
  closed : .closed (some c) ∈ deeds → c ∈ s.closed

variable {first : Resources} {done : List Deed}

/-- What every turn keeps need not be shown again. -/
theorem Followed.next (h : Followed threshold c first s done) {t : Turn ι} (ht : t ≠ .signal) (deeds : List Deed)
    (hcourse : ∃ m, (s.step threshold t).monitors c = some m ∧ Course threshold c m (done ++ deeds))
    (hshown : ¬Lost threshold (heededOf (done ++ deeds)) →
      (s.step threshold t).Shows c (lastKnown first (heededOf (done ++ deeds))) (lastStatus (heededOf (done ++ deeds))))
    (hclosed : .closed (some c) ∈ deeds → c ∈ (s.step threshold t).closed) :
    Followed threshold c first (s.step threshold t) (done ++ deeds) where
  sound := h.sound.step threshold t
  accounted := by
    obtain ⟨cs, hc, haccounted⟩ := h.accounted
    exact ⟨_, List.mem_append_left _ hc, haccounted.run h.sound threshold [t]⟩
  goes := (goesOn_step ht).isStopping.trans h.goes
  course := hcourse
  shown := hshown
  closed hmem := by
    rcases List.mem_append.1 hmem with hbefore | hnow
    · exact (goesOn_step ht).closed.subset (h.closed hbefore)
    · exact hclosed hnow

/-- Nothing is heeded, and the registry shows what it showed. -/
theorem Followed.shown_of_same (h : Followed threshold c first s done) {s' : Session ι} {deeds : List Deed}
    (hdeeds : heededOf deeds = [])
    (hnodes : ¬Lost threshold (heededOf done) →
      s'.directory.registry.nodes[c.address]? = s.directory.registry.nodes[c.address]?)
    (hkept : ¬Lost threshold (heededOf (done ++ deeds))) :
    s'.Shows c (lastKnown first (heededOf (done ++ deeds))) (lastStatus (heededOf (done ++ deeds))) := by
  rw [heededOf_append, hdeeds, List.append_nil] at hkept ⊢
  obtain ⟨seen, hseen⟩ := h.shown hkept
  exact ⟨seen, (hnodes hkept).trans hseen⟩

theorem Followed.other (h : Followed threshold c first s done) {t : Turn ι} (ht : t ≠ .signal)
    (hother : t.monitor? ≠ some c) : Followed threshold c first (s.step threshold t) done := by
  obtain ⟨m, hm, hcourse⟩ := h.course
  have hunmoved := h.sound.unmoved_step threshold h.goes hm hother
  have hnext := h.next ht [] ⟨m, hunmoved.monitor, by rwa [List.append_nil]⟩
    (h.shown_of_same rfl fun hkept => hunmoved.node (hcourse.isActive_iff.2 hkept)) (by simp)
  rwa [List.append_nil] at hnext

omit [DecidableEq ι] in
theorem monitors_setMonitor (s : Session ι) (c : Handle) (m : Monitor) : (s.setMonitor c m).monitors c = some m :=
  Function.update_self ..

theorem Followed.polled (h : Followed threshold c first s done) {failures : Nat}
    (hm : s.monitors c = some (.waiting failures)) (answer : Option Resources) :
    Followed threshold c first (s.step threshold (.polled c answer)) (done ++ [.polled answer]) := by
  obtain ⟨m, hm', hcourse⟩ := h.course
  cases hm.symm.trans hm'
  have hstep : s.step threshold (.polled c answer) = s.setMonitor c (.noting failures answer) := by
    simp only [Session.step, hm, Monitor.polled]
  refine h.next (by simp) _ ⟨_, by rw [hstep, monitors_setMonitor], hcourse.polled answer⟩
    (h.shown_of_same rfl fun _ => ?_) (by simp)
  rw [hstep]
  rfl

theorem Followed.noted (h : Followed threshold c first s done) {failures : Nat} {answer : Option Resources}
    (hm : s.monitors c = some (.noting failures answer)) (now : Nat) :
    Followed threshold c first (s.step threshold (.noted c now)) (done ++ [.heeded answer]) := by
  obtain ⟨m, hm', hcourse⟩ := h.course
  cases hm.symm.trans hm'
  obtain ⟨seen, hseen⟩ := h.shown (hcourse.isActive_iff.1 trivial)
  have hheeded : heededOf (done ++ [.heeded answer]) = heededOf done ++ [answer] := heededOf_append ..
  cases answer with
  | some resources =>
      have hstep : s.step threshold (.noted c now) =
          { s with directory := s.directory.observed c.address resources now }.setMonitor c (.announcing (some 0)) := by
        simp only [Session.step, hm, Monitor.proceed]
      refine h.next (by simp) _ ⟨_, by rw [hstep, monitors_setMonitor], hcourse.observed⟩ (fun _ => ⟨now, ?_⟩)
        (by simp)
      rw [hstep, hheeded, lastKnown_concat_some, lastStatus_concat_some]
      simp only [setMonitor, Directory.observed, Registry.observed, Std.ExtTreeMap.getElem?_modify_self, hseen]
      rfl
  | none =>
      by_cases hmany : max threshold 1 ≤ failures + 1
      · have hstep : s.step threshold (.noted c now) =
            { s with directory := (s.directory.strike c.address).1 }.setMonitor c (.closing (some c)) := by
          have hlisted := h.sound.registered_of_active h.goes hm trivial
          simp only [Session.step, hm, Monitor.proceed, hmany, ↓reduceIte, Directory.strike, Registry.strike, hlisted]
        have hlost : ¬¬Lost threshold (heededOf (done ++ [.heeded none])) :=
          (hcourse.struck hmany).isActive_iff.not.1 id
        exact h.next (by simp) _ ⟨_, by rw [hstep, monitors_setMonitor], hcourse.struck hmany⟩
          (fun hkept => absurd hkept hlost) (by simp)
      · have hstep : s.step threshold (.noted c now) =
            { s with directory := s.directory.missed c.address }.setMonitor c (.announcing (some (failures + 1))) := by
          simp only [Session.step, hm, Monitor.proceed, hmany, ↓reduceIte]
        refine h.next (by simp) _ ⟨_, by rw [hstep, monitors_setMonitor], hcourse.missed hmany⟩
          (fun _ => ⟨seen, ?_⟩) (by simp)
        rw [hstep, hheeded, lastKnown_concat_none, lastStatus_concat_none]
        simp only [setMonitor, Directory.missed, Registry.missed, Std.ExtTreeMap.getElem?_modify_self, hseen]
        rfl

theorem Followed.announced (h : Followed threshold c first s done) {next : Option Nat}
    (hm : s.monitors c = some (.announcing next)) (now : Nat) :
    Followed threshold c first (s.step threshold (.noted c now)) (done ++ [.announced]) := by
  obtain ⟨m, hm', hcourse⟩ := h.course
  cases hm.symm.trans hm'
  have hstep : ∃ m, s.step threshold (.noted c now) = { s with directory := s.directory.announce }.setMonitor c m ∧
      Course threshold c m (done ++ [.announced]) := by
    simp only [Session.step, hm]
    cases next with
    | some failures => exact ⟨.waiting failures, rfl, hcourse.announced⟩
    | none => exact ⟨.ended, rfl, hcourse.ends⟩
  obtain ⟨m', hstep, hcourse'⟩ := hstep
  refine h.next (by simp) _ ⟨m', by rw [hstep, monitors_setMonitor], hcourse'⟩ (h.shown_of_same rfl fun _ => ?_)
    (by simp)
  rw [hstep]
  rfl

theorem Followed.released (h : Followed threshold c first s done) {client : Option Handle}
    (hm : s.monitors c = some (.closing client)) :
    Followed threshold c first (s.step threshold (.released c)) (done ++ [.closed client]) := by
  obtain ⟨m, hm', hcourse⟩ := h.course
  cases hm.symm.trans hm'
  have hstep : s.step threshold (.released c) =
      { s.setMonitor c (.announcing none) with closed := client.toList ++ s.closed } := by
    simp only [Session.step, hm, Monitor.closed]
  refine h.next (by simp) _ ⟨_, by rw [hstep]; exact monitors_setMonitor .., hcourse.closed⟩
    (h.shown_of_same rfl fun _ => ?_) fun hmem => ?_
  · rw [hstep]
    rfl
  · have hclient : some c = client := by simpa using hmem
    rw [hstep, ← hclient]
    exact List.mem_cons_self

theorem Followed.step (h : Followed threshold c first s done) {t : Turn ι} (ht : t ≠ .signal) :
    Followed threshold c first (s.step threshold t) (done ++ (s.deed? c t).toList) := by
  by_cases hown : t.monitor? = some c
  · obtain ⟨m, hm, -⟩ := h.course
    have hdeed : s.deed? c t = m.deed? t := by rw [deed?, if_pos hown, hm, Option.bind_some]
    rw [hdeed]
    cases hdoes : m.deed? t with
    | none =>
        rw [step_of_idle h.goes hm hown hdoes, Option.toList_none, List.append_nil]
        exact h
    | some deed =>
        -- The four places where a monitor does something, each with the turn for it.
        rw [Monitor.deed?.eq_def] at hdoes
        split at hdoes <;> cases hdoes <;> cases hown
        · exact h.polled hm _
        · exact h.noted hm _
        · exact h.released hm
        · exact h.announced hm _
  · rw [deed?, if_neg hown, Option.toList_none, List.append_nil]
    exact h.other ht hown

theorem Followed.run (h : Followed threshold c first s done) {ts : List (Turn ι)} (hts : .signal ∉ ts) :
    Followed threshold c first (s.run threshold ts) (done ++ s.deeds threshold c ts) := by
  induction ts generalizing s done with
  | nil => rwa [deeds, List.append_nil]
  | cons t ts ih =>
      rw [List.mem_cons, not_or] at hts
      rw [deeds, ← List.append_assoc]
      exact ih (h.step (Ne.symm hts.1)) hts.2

/-- An agent that has just been registered is shown as it was when it was reached. -/
theorem Sound.followed (h : s.Sound) {cs : List Handle} (haccounted : s.Accounted cs) {i : ι} {resources : Resources}
    {now : Nat} (hcall : s.calls i = .entering c resources)
    (hregistered : s.event? threshold (.advance i now) = some (.registered i c.address)) :
    Followed threshold c resources (s.step threshold (.advance i now)) [] := by
  have hfree : (s.directory.isStopping || s.directory.isKnown c.address) = false := by
    simp only [event?, hcall] at hregistered
    by_contra hrefused
    rw [Bool.not_eq_false] at hrefused
    rw [hrefused] at hregistered
    cases hregistered
  have hheld : c ∈ cs := by
    by_contra hunknown
    have hnone := haccounted.unknown hunknown (.call i)
    rw [present, hcall] at hnone
    simp [Attempt.client?] at hnone
  have hstep : s.step threshold (.advance i now) =
      ({ s with directory := { s.directory with
          registry := s.directory.registry.register c (nodeAt c.address resources now) } }.setCall i
        .announcing).setMonitor c (.waiting 0) := by
    simp only [Session.step, advance, hcall, Attempt.proceed, Directory.enter, hfree]
    rfl
  refine ⟨h.step threshold _, ⟨_, List.mem_append_left _ hheld, haccounted.run h threshold [.advance i now]⟩, ?_,
    ⟨.waiting 0, by rw [hstep, monitors_setMonitor], .begin⟩, fun _ => ⟨now, ?_⟩, by simp⟩
  · rw [(goesOn_step (by simp)).isStopping]
    exact (Bool.or_eq_false_iff.1 hfree).1
  · rw [hstep]
    simp [setMonitor, setCall, Registry.register]
    rfl

/-! ## What is true of an agent that is followed -/

theorem Followed.registered (h : Followed threshold c first s done) (hkept : ¬Lost threshold (heededOf done)) :
    s.directory.registry.clients[c.address]? = some c ∧ s.directory.registry.monitors[c.address]? = some c.number := by
  obtain ⟨m, hm, hcourse⟩ := h.course
  have hclient := h.sound.registered_of_active h.goes hm (hcourse.isActive_iff.2 hkept)
  exact ⟨hclient, by rw [h.sound.consistent.monitors, hclient]; rfl⟩

/-- Once it is struck off, an agent is not registered, or is so again with another connection. -/
theorem Followed.gone (h : Followed threshold c first s done) (hlost : Lost threshold (heededOf done)) :
    let r := s.directory.registry
    (c.address ∉ r.clients ∧ c.address ∉ r.nodes ∧ c.address ∉ r.monitors) ∨
      ∃ d, d ≠ c ∧ r.clients[c.address]? = some d := by
  intro r
  have hconsistent := h.sound.consistent
  cases hentry : r.clients[c.address]? with
  | none =>
      have hnot : c.address ∉ r.clients := by simp [Std.ExtTreeMap.mem_iff_isSome_getElem?, hentry]
      exact .inl ⟨hnot, mt (hconsistent.nodes _).1 hnot, mt (hconsistent.mem_monitors _).1 hnot⟩
  | some d =>
      refine .inr ⟨d, ?_, rfl⟩
      rintro rfl
      obtain ⟨m, hm, hcourse⟩ := h.course
      obtain ⟨m', hm', hactive⟩ := h.sound.manned h.goes hentry
      cases hm.symm.trans hm'
      exact hcourse.isActive_iff.1 hactive hlost

theorem Followed.count_closed (h : Followed threshold c first s done) :
    s.closed.count c = done.count (.closed (some c)) := by
  obtain ⟨m, hm, hcourse⟩ := h.course
  obtain ⟨cs, hc, haccounted⟩ := h.accounted
  obtain ⟨p, hp⟩ := haccounted.placed hc
  -- The connection is in one place only.
  have hplace {q : Place ι} (hmem : c ∈ s.present q) : q = p := by
    by_contra hne
    have hnone := hp q
    rw [if_neg hne] at hnone
    exact List.count_eq_zero.1 hnone hmem
  have hpast : s.closed.count c = if .past = p then 1 else 0 := hp .past
  have hcount := hcourse.count_closed
  rw [hpast, hcount]
  by_cases hover : m = .announcing none ∨ m = .ended
  · rw [if_pos hover] at hcount ⊢
    have hclosed := h.closed (List.count_pos_iff.1 (by omega))
    rw [if_pos (hplace (q := .past) hclosed)]
  · rw [if_neg hover]
    refine if_neg ?_
    rintro rfl
    by_cases hactive : m.IsActive
    · have hentry := h.sound.registered_of_active h.goes hm hactive
      cases hplace (q := .entry c.address) (by rw [present, hentry]; simp)
    · cases hcourse with
      | closing hkept hlast => cases hplace (q := .monitor c) (by rw [present, hm]; simp [Monitor.client?])
      | waiting | noting | telling => exact hactive trivial
      | parting => exact hover (.inl rfl)
      | ended => exact hover (.inr rfl)

/-! ## Rounds come to their end -/

/-- Turns of a monitor that bring it to the end of a round. -/
def catchUp (c : Handle) (now : Nat) : List (Turn ι) :=
  [.noted c now, .released c, .noted c now]

theorem deeds_append (s : Session ι) (ts us : List (Turn ι)) :
    s.deeds threshold c (ts ++ us) = s.deeds threshold c ts ++ (s.run threshold ts).deeds threshold c us := by
  induction ts generalizing s with
  | nil => rfl
  | cons t ts ih =>
      rw [List.cons_append, deeds, ih, deeds, List.append_assoc]
      rfl

omit [DecidableEq ι] in
theorem pollsOf_deed? (s : Session ι) (c : Handle) {t : Turn ι} (ht : ∀ d answer, t ≠ .polled d answer) :
    pollsOf (s.deed? c t).toList = [] := by
  rw [deed?]
  split
  · cases s.monitors c with
    | none => rfl
    | some m =>
        cases t with
        | polled d answer => exact absurd rfl (ht d answer)
        | _ => cases m <;> rfl
  · rfl

theorem pollsOf_catchUp (s : Session ι) (c : Handle) (now : Nat) :
    pollsOf (s.deeds threshold c (catchUp c now)) = [] := by
  simp [catchUp, deeds, pollsOf_deed?]

theorem monitors_noted (hm : s.monitors c = some m) (now : Nat) :
    (s.step threshold (.noted c now)).monitors c = some (m.proceed s.directory threshold c.address now).2 := by
  simp only [Session.step, hm]
  exact monitors_setMonitor ..

theorem monitors_released (hm : s.monitors c = some m) :
    (s.step threshold (.released c)).monitors c = some m.closed := by
  cases m with
  | closing client =>
      simp only [Session.step, hm]
      exact monitors_setMonitor ..
  | _ => simp only [Session.step, hm, Monitor.closed]

theorem rests_catchUp (threshold : Nat) (hm : s.monitors c = some m) (now : Nat) :
    ∃ m', (s.run threshold (catchUp c now)).monitors c = some m' ∧
      (m' = .ended ∨ ∃ failures, m' = .waiting failures) := by
  refine ⟨_, monitors_noted (monitors_released (monitors_noted hm now)) now, ?_⟩
  cases m with
  | noting failures answer =>
      cases answer with
      | none => by_cases hmany : max threshold 1 ≤ failures + 1 <;> simp [Monitor.proceed, hmany, Monitor.closed]
      | some resources => simp [Monitor.proceed, Monitor.closed]
  | announcing next => cases next <;> simp [Monitor.proceed, Monitor.closed]
  | _ => simp [Monitor.proceed, Monitor.closed]

/-- A monitor at rest did all that is due. -/
theorem Followed.caughtUp (h : Followed threshold c first s done) (now : Nat) :
    done ++ s.deeds threshold c (catchUp c now) = rounds threshold c [] (pollsOf done) := by
  have h' := h.run (show .signal ∉ catchUp c now by simp [catchUp])
  obtain ⟨m, hm, -⟩ := h.course
  obtain ⟨m', hm', hcourse⟩ := h'.course
  obtain ⟨m'', hm'', hrests⟩ := rests_catchUp threshold hm now
  cases hm'.symm.trans hm''
  have hpolls : pollsOf (done ++ s.deeds threshold c (catchUp c now)) = pollsOf done := by
    rw [pollsOf_append, pollsOf_catchUp, List.append_nil]
  generalize done ++ s.deeds threshold c (catchUp c now) = deeds at hcourse hpolls
  rw [← hpolls]
  exact hcourse.complete_iff.2 hrests

/-- Unless it has struck off the agent, a monitor that has done all that is due polls again. -/
theorem Followed.polls_again {polls : List (Option Resources)}
    (h : Followed threshold c first s (rounds threshold c [] polls)) (hkept : ¬Lost threshold polls)
    (answer : Option Resources) : s.deeds threshold c [.polled c answer] = [.polled answer] := by
  obtain ⟨m, hm, hcourse⟩ := h.course
  have hrests := hcourse.complete_iff.1 (by rw [pollsOf_rounds])
  obtain ⟨failures, rfl⟩ := hrests.resolve_left fun hended => hkept (by simpa using (hcourse.eq_ended_iff.1 hended).1)
  simp [deeds, deed?, Turn.monitor?, hm, Monitor.deed?]

/-- A turn in which a monitor comes to the end of a round sends a snapshot. -/
theorem notified_of_announced {t : Turn ι} (h : s.deed? c t = some .announced) :
    Directory.Notified s.directory (s.step threshold t).directory := by
  rw [deed?] at h
  split at h
  · rename_i hown
    obtain ⟨m, hm, hdoes⟩ := Option.bind_eq_some_iff.1 h
    rw [Monitor.deed?.eq_def] at hdoes
    split at hdoes <;> cases hdoes
    rename_i next d now
    cases hown
    simp only [Session.step, hm]
    cases next <;> exact Directory.notified_announce s.directory
  · cases h

/--
An agent is registered and its monitor begins; from then on the search is not stopped, and others may do anything in
between. The monitor goes through one round for each poll, at the end of which a snapshot is queued if there is room,
and no poll follows after the failures that make it give up the agent. Until these are heeded the agent is registered
and shown with what it answered last; then it is not registered any more, its connection is closed once, and the
monitor ends. No round stays incomplete for want of turns.
-/
theorem monitor_follows_polls (room : Option Nat) (addresses : ι → String) (threshold : Nat) (before ts : List (Turn ι))
    {i : ι} {c : Handle} {resources : Resources} {now : Nat}
    (hcall : ((fresh room addresses).run threshold before).calls i = .entering c resources)
    (hregistered :
      ((fresh room addresses).run threshold before).event? threshold (.advance i now) = some (.registered i c.address))
    (hts : .signal ∉ ts) :
    let s := (fresh room addresses).run threshold (before ++ [.advance i now])
    let s' := s.run threshold ts
    let r := s'.directory.registry
    let deeds := s.deeds threshold c ts
    let polls := pollsOf deeds
    let heeded := heededOf deeds
    (deeds <+: rounds threshold c [] polls ∧
      ∀ earlier, earlier <+: polls → Lost threshold earlier → earlier = polls) ∧
    (¬Lost threshold heeded →
      r.clients[c.address]? = some c ∧ r.monitors[c.address]? = some c.number ∧
        s'.Shows c (lastKnown resources heeded) (lastStatus heeded)) ∧
    (Lost threshold heeded →
      (c.address ∉ r.clients ∧ c.address ∉ r.nodes ∧ c.address ∉ r.monitors) ∨
        ∃ d, d ≠ c ∧ r.clients[c.address]? = some d) ∧
    s'.closed.count c = deeds.count (.closed (some c)) ∧
    (s'.monitors c = some .ended ↔ Lost threshold polls ∧ deeds = rounds threshold c [] polls) ∧
    (∀ us t vs, ts = us ++ t :: vs → (s.run threshold us).deed? c t = some .announced →
      Directory.Notified (s.run threshold us).directory (s.run threshold (us ++ [t])).directory) ∧
    ∀ later answer,
      s.deeds threshold c (ts ++ catchUp c later) = rounds threshold c [] polls ∧
        (¬Lost threshold polls →
          s.deeds threshold c (ts ++ catchUp c later ++ [.polled c answer]) =
            rounds threshold c [] polls ++ [.polled answer]) := by
  intro s s' r deeds polls heeded
  have hfresh := sound_fresh room addresses
  have hbegun : Followed threshold c resources s [] := by
    have haccounted := (accounted_fresh room addresses).run hfresh threshold before
    have hstep : s = ((fresh room addresses).run threshold before).step threshold (.advance i now) :=
      List.foldl_append ..
    rw [hstep]
    exact (hfresh.run threshold before).followed haccounted hcall hregistered
  have h : Followed threshold c resources s' deeds := hbegun.run hts
  obtain ⟨m, hm, hcourse⟩ := h.course
  refine ⟨⟨hcourse.deeds_prefix, fun earlier => hcourse.eq_of_lost⟩, fun hkept => ?_, h.gone, h.count_closed, ?_,
    fun us t vs _ hannounced => ?_, fun later answer => ?_⟩
  · exact ⟨(h.registered hkept).1, (h.registered hkept).2, h.shown hkept⟩
  · rw [hm, Option.some.injEq]
    exact hcourse.eq_ended_iff
  · have hrun : s.run threshold (us ++ [t]) = (s.run threshold us).step threshold t := List.foldl_append ..
    rw [hrun]
    exact notified_of_announced hannounced
  · have hcaught : s.deeds threshold c (ts ++ catchUp c later) = rounds threshold c [] polls := by
      rw [deeds_append]
      exact h.caughtUp later
    refine ⟨hcaught, fun hkept => ?_⟩
    have hrested : Followed threshold c resources (s.run threshold (ts ++ catchUp c later))
        (rounds threshold c [] polls) := by
      rw [← hcaught]
      exact hbegun.run (by simp [hts, catchUp])
    rw [deeds_append, hcaught, hrested.polls_again hkept]

/-- An agent with more memory than it said at first. -/
def grown : Resources := { memoryMb := 4096 }

/-- An agent is reached, and its attempt is about to register it. -/
def reached : List (Turn Nat) :=
  [.advance 0 0, .advance 0 0, .dialled 0 true, .answered 0 (some {})]

/-- The agent fails, answers and fails again, while others look for it too. -/
def wavering : List (Turn Nat) :=
  [.polled ⟨"a:1", 0⟩ none, .advance 1 1, .noted ⟨"a:1", 0⟩ 1, .advance 0 1, .noted ⟨"a:1", 0⟩ 1,
    .polled ⟨"a:1", 0⟩ (some grown), .noted ⟨"a:1", 0⟩ 2, .advance 1 2, .drain, .noted ⟨"a:1", 0⟩ 2,
    .polled ⟨"a:1", 0⟩ none, .noted ⟨"a:1", 0⟩ 3, .noted ⟨"a:1", 0⟩ 3]

/-- The agent as it is shown after the first failure. -/
def missedAtOnce : Node :=
  { nodeAt "a:1" {} 0 with status := .offline }

/-- The agent fails once more. -/
def failing : List (Turn Nat) :=
  [.polled ⟨"a:1", 0⟩ none, .noted ⟨"a:1", 0⟩ 4, .released ⟨"a:1", 0⟩, .noted ⟨"a:1", 0⟩ 4]

/-- What the directory holds when the first round is about to end. -/
def beforeSnapshot : Directory :=
  (((fresh (some 4) fun _ : Nat => "a:1").run 2 (reached ++ [.advance 0 0])).run 2 (wavering.take 4)).directory

theorem monitor_follows_polls_sample :
    let s₀ : Session Nat := fresh (some 4) fun _ => "a:1"
    let s := s₀.run 2 (reached ++ [.advance 0 0])
    let s' := s.run 2 (wavering ++ failing)
    (s₀.run 2 reached).calls 0 = .entering ⟨"a:1", 0⟩ {} ∧
    (s₀.run 2 reached).event? 2 (.advance 0 0) = some (.registered 0 "a:1") ∧ .signal ∉ wavering ++ failing ∧
    pollsOf (s.deeds 2 ⟨"a:1", 0⟩ (wavering ++ failing)) = [none, some grown, none, none] ∧
    (s.run 2 wavering).Shows ⟨"a:1", 0⟩ grown .offline ∧
    (∃ b : Mailbox (List Node), (s.run 2 (wavering.take 4)).directory.updates = some b ∧
      (s.run 2 (wavering.take 5)).directory.updates = some { b with queue := b.queue ++ [[missedAtOnce]] }) ∧
    s'.monitors ⟨"a:1", 0⟩ = some .ended ∧ s'.closed.count ⟨"a:1", 0⟩ = 1 := by
  dsimp only
  have hcall : ((fresh (some 4) fun _ : Nat => "a:1").run 2 reached).calls 0 = .entering ⟨"a:1", 0⟩ {} := by
    decide +kernel
  have hregistered :
      ((fresh (some 4) fun _ : Nat => "a:1").run 2 reached).event? 2 (.advance 0 0) = some (.registered 0 "a:1") := by
    decide +kernel
  have hwavering : Turn.signal ∉ wavering := by simp [wavering]
  have hts : Turn.signal ∉ wavering ++ failing := by simp [wavering, failing]
  obtain ⟨-, hshown, -⟩ :=
    monitor_follows_polls (some 4) (fun _ => "a:1") 2 reached wavering hcall hregistered hwavering
  obtain ⟨-, -, -, hclosed, hended, htold, -⟩ :=
    monitor_follows_polls (some 4) (fun _ => "a:1") 2 reached (wavering ++ failing) hcall hregistered hts
  refine ⟨hcall, hregistered, hts, by decide +kernel, (hshown (by decide +kernel)).2.2, ?_,
    hended.2 (by decide +kernel), hclosed.trans (by decide +kernel)⟩
  -- The first round ends with the fifth turn, when one snapshot waits already.
  have hnotified := htold (wavering.take 4) (.noted ⟨"a:1", 0⟩ 1) (wavering.drop 5 ++ failing) rfl (by decide +kernel)
  change beforeSnapshot.Notified _ at hnotified
  have hthere : beforeSnapshot.updates.isSome = true := by decide +kernel
  have hroom : ∀ b ∈ beforeSnapshot.updates, b.isOpen = true ∧ b.queue.length < b.capacity := by decide +kernel
  have hnodes : beforeSnapshot.registry.nodes.values = [missedAtOnce] := by decide +kernel
  obtain ⟨b, hb⟩ := Option.isSome_iff_exists.1 hthere
  have hqueued := hnotified.queued b hb (hroom b hb).1 (hroom b hb).2
  have hsnapshot : beforeSnapshot.registry.snapshot = [missedAtOnce] := by
    have hwhole := hnotified.whole
    rwa [hnodes, List.perm_singleton] at hwhole
  refine ⟨b, hb, (congrArg Directory.updates hqueued).trans ?_⟩
  rw [hsnapshot]

end Session

/-! ## Rounds in virtual time -/

/-- When a search polls an agent, it goes through one round of turns, with nobody else in between. -/
theorem Search.poll_eq_run {ι : Type} [DecidableEq ι] (s : Search) {x : Session ι} {c : Handle} {failures : Nat}
    (hdirectory : x.directory = s.directory) (hm : x.monitors c = some (.waiting failures)) :
    let x' := x.run s.config.failureThreshold (.polled c (s.network.poll c).2 :: Session.catchUp c s.clock)
    (s.poll c failures).1.directory = x'.directory ∧ x'.monitors c = some (s.poll c failures).2 := by
  intro x'
  rcases hpoll : s.network.poll c with ⟨network, answer⟩
  have hturns : x' =
      ((((x.setMonitor c (.noting failures answer)).step s.config.failureThreshold (.noted c s.clock)).step
        s.config.failureThreshold (.released c)).step s.config.failureThreshold (.noted c s.clock)) := by
    simp [x', hpoll, Session.catchUp, Session.run, Session.step, hm, Monitor.polled]
  cases answer with
  | some resources =>
      simp [hturns, Search.poll, hpoll, hdirectory, Session.step, Session.setMonitor, Monitor.polled, Monitor.proceed,
        Monitor.closed]
  | none =>
      by_cases hmany : max s.config.failureThreshold 1 ≤ failures + 1
      · cases hclient : (s.directory.strike c.address).2 <;>
          simp [hturns, Search.poll, hpoll, hdirectory, Session.step, Session.setMonitor, Monitor.polled,
            Monitor.proceed, Monitor.closed, hmany, hclient]
      · simp [hturns, Search.poll, hpoll, hdirectory, Session.step, Session.setMonitor, Monitor.polled, Monitor.proceed,
          Monitor.closed, hmany]

end AgentMesh.Discovery
