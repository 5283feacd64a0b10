import AgentMesh.Discovery.Attempt
import AgentMesh.Proofs.Discovery.Consistency
import Mathlib.Logic.Function.Basic

/-!
# Attempts and monitors that overlap

Any number of attempts may be under way at once, and each registered agent has its monitor. All take their sections
one after the other, and between two of them the others go on, and the search may be stopped. Whatever the order, the
registry stays consistent, a registered agent has one monitor, an agent is registered again only after it was struck
off, and a search that was stopped registers nothing.
-/

namespace AgentMesh.Discovery

/-! ## Sections in any order -/

/-- How far the stop of a search has got. -/
inductive Stopping
  | idle
  /-- It is known that the search ends, but the registry has not been emptied. -/
  | signalled
  /-- The registry has been emptied, and these connections are still to be closed. -/
  | closing (clients : List Handle)
deriving Repr, DecidableEq, Inhabited

/-- A connection is numbered when it is opened, and its monitor goes by the connection. -/
structure Session (ι : Type) where
  directory : Directory
  calls : ι → Attempt
  monitors : Handle → Option Monitor := fun _ => none
  opened : Nat := 0
  stopping : Stopping := .idle
  /-- The connections that were closed, as often as they were. -/
  closed : List Handle := []

namespace Session

variable {ι : Type}

/-- Nothing has happened yet; the room for snapshots is given, if there is any. -/
def fresh (room : Option Nat) (addresses : ι → String) : Session ι where
  directory.updates := room.map fun capacity => { capacity }
  calls i := .called (addresses i)

inductive Turn (ι : Type)
  /-- A section of an attempt. -/
  | advance (i : ι) (now : Nat)
  | dialled (i : ι) (succeeds : Bool)
  | answered (i : ι) (answer : Option Resources)
  | closed (i : ι)
  /-- A section of a monitor. -/
  | noted (c : Handle) (now : Nat)
  | polled (c : Handle) (answer : Option Resources)
  | released (c : Handle)
  /-- A monitor learns that the search ends. -/
  | quit (c : Handle)
  | start
  | signal
  | clear
  /-- The stop closes the next connection. -/
  | release
  /-- The console takes the snapshots that wait for it. -/
  | drain

inductive Event (ι : Type)
  | registered (i : ι) (address : String)
  | struck (address : String)
deriving DecidableEq

variable [DecidableEq ι]

/-- What an attempt has been given, or has done. -/
def setCall (s : Session ι) (i : ι) (a : Attempt) : Session ι :=
  { s with calls := Function.update s.calls i a }

def setMonitor (s : Session ι) (c : Handle) (m : Monitor) : Session ι :=
  { s with monitors := Function.update s.monitors c (some m) }

/-- A registered agent gets a monitor in the same section. -/
def advance (s : Session ι) (i : ι) (now : Nat) : Session ι :=
  let (directory, a) := (s.calls i).proceed s.directory now
  let s' := { s with directory }.setCall i a
  match s.calls i, a with
  | .entering c _, .announcing => s'.setMonitor c (.waiting 0)
  | _, _ => s'

def step (threshold : Nat) (s : Session ι) : Turn ι → Session ι
  | .advance i now => s.advance i now
  | .dialled i succeeds =>
      match s.calls i with
      | .connecting address =>
          if succeeds then
            { s.setCall i ((s.calls i).connected (some ⟨address, s.opened⟩)) with opened := s.opened + 1 }
          else s.setCall i ((s.calls i).connected none)
      | _ => s
  | .answered i answer => s.setCall i ((s.calls i).answered answer)
  | .closed i =>
      match s.calls i with
      | .closing c _ => { s.setCall i (s.calls i).closed with closed := c :: s.closed }
      | _ => s
  | .noted c now =>
      match s.monitors c with
      | none => s
      | some m =>
          let (directory, m) := m.proceed s.directory threshold c.address now
          { s with directory }.setMonitor c m
  | .polled c answer =>
      match s.monitors c with
      | none => s
      | some m => s.setMonitor c (m.polled answer)
  | .released c =>
      match s.monitors c with
      | some (.closing client) =>
          { s.setMonitor c (Monitor.closing client).closed with closed := client.toList ++ s.closed }
      | _ => s
  | .quit c =>
      match s.monitors c with
      | some (.waiting _) => if s.directory.isStopping then s.setMonitor c .ended else s
      | _ => s
  | .start =>
      match s.directory.start with
      | .error _ => s
      | .ok directory => { s with directory }
  | .signal =>
      match s.directory.signalStop with
      | none => s
      | some directory => { s with directory, stopping := .signalled }
  | .clear =>
      match s.stopping with
      | .signalled =>
          let (directory, clients) := s.directory.clear
          { s with directory, stopping := .closing clients }
      | _ => s
  | .release =>
      match s.stopping with
      | .closing (c :: clients) => { s with stopping := .closing clients, closed := c :: s.closed }
      | _ => s
  | .drain => { s with directory := { s.directory with updates := s.directory.updates.map fun b => b.drain.1 } }

def run (threshold : Nat) (s : Session ι) (ts : List (Turn ι)) : Session ι :=
  ts.foldl (step threshold) s

/-- Whether the turn registers an agent or strikes one off. -/
def event? (threshold : Nat) (s : Session ι) : Turn ι → Option (Event ι)
  | .advance i _ =>
      match s.calls i with
      | .entering c _ =>
          if s.directory.isStopping || s.directory.isKnown c.address then none else some (.registered i c.address)
      | _ => none
  | .noted c _ =>
      match s.monitors c with
      | some (.noting failures none) => if max threshold 1 ≤ failures + 1 then some (.struck c.address) else none
      | _ => none
  | _ => none

def events (threshold : Nat) : Session ι → List (Turn ι) → List (Event ι)
  | _, [] => []
  | s, t :: ts => (s.event? threshold t).toList ++ (s.step threshold t).events threshold ts

end Session

/-! ## Monitors that poll -/

namespace Monitor

/-- The monitor polls at least once more, unless the search is stopped. -/
def PollsAgain (threshold : Nat) : Monitor → Prop
  | waiting _ => True
  | noting _ (some _) => True
  | noting failures none => failures + 1 < max threshold 1
  | announcing (some _) => True
  | _ => False

/-- The last poll was one failure too many, and the next section strikes the agent off. -/
def Condemns (threshold : Nat) : Monitor → Prop
  | noting failures none => max threshold 1 ≤ failures + 1
  | _ => False

/-- The agent has not been struck off. -/
def IsActive : Monitor → Prop
  | waiting _ => True
  | noting _ _ => True
  | announcing (some _) => True
  | _ => False

theorem isActive_iff (threshold : Nat) {m : Monitor} : m.IsActive ↔ m.PollsAgain threshold ∨ m.Condemns threshold := by
  cases m with
  | noting failures answer =>
      cases answer with
      | none =>
          simp only [IsActive, PollsAgain, Condemns, true_iff]
          omega
      | some resources => simp [IsActive, PollsAgain]
  | announcing next => cases next <;> simp [IsActive, PollsAgain, Condemns]
  | _ => simp [IsActive, PollsAgain, Condemns]

end Monitor

/-- The connection that an attempt has and has not passed on. -/
def Attempt.client? : Attempt → Option Handle
  | querying c => some c
  | entering c _ => some c
  | closing c _ => some c
  | _ => none

namespace Session

variable {ι : Type} [DecidableEq ι]

/-! ## What a turn can do -/

/-- A snapshot that waits did so before, or shows the registry as it is. -/
def Posted (d : Directory) (updates : Option (Mailbox (List Node))) : Prop :=
  ∀ b ∈ updates, ∀ nodes ∈ b.queue, nodes = d.registry.snapshot ∨ ∃ b' ∈ d.updates, nodes ∈ b'.queue

theorem posted_self (d : Directory) : Posted d d.updates :=
  fun b hb _ hnodes => .inr ⟨b, hb, hnodes⟩

theorem posted_announce (d : Directory) : Posted d d.announce.updates := by
  intro b hb nodes hnodes
  obtain ⟨b', hb', rfl⟩ := Option.map_eq_some_iff.1 hb
  rw [Mailbox.push] at hnodes
  split at hnodes
  · rcases List.mem_append.1 hnodes with hold | hnew
    · exact .inr ⟨b', hb', hold⟩
    · exact .inl (List.mem_singleton.1 hnew)
  · exact .inr ⟨b', hb', hnodes⟩

theorem posted_drain (d : Directory) : Posted d (d.updates.map fun b => b.drain.1) := by
  intro b hb nodes hnodes
  obtain ⟨b', hb', rfl⟩ := Option.map_eq_some_iff.1 hb
  rw [Mailbox.drain] at hnodes
  split at hnodes
  · exact .inr ⟨b', hb', hnodes⟩
  · cases hnodes

/-- What a turn does to the registry and to those who work on it, with the event that it is. -/
inductive Moves (s : Session ι) : Option (Event ι) → Session ι → Prop
  /-- An attempt goes on with the connection that it had, or without it. -/
  | went {i : ι} {a : Attempt} {updates : Option (Mailbox (List Node))} {closed : List Handle}
      (hupdates : Posted s.directory updates) (h : ∀ c ∈ a.client?, (s.calls i).client? = some c) :
      Moves s none { s with directory := { s.directory with updates }, calls := Function.update s.calls i a, closed }
  | dialled {i : ι} {address : String} :
      Moves s none { s with calls := Function.update s.calls i (.querying ⟨address, s.opened⟩), opened := s.opened + 1 }
  | registered {i : ι} {c : Handle} {node : Node} (h : (s.calls i).client? = some c)
      (hstopping : s.directory.isStopping = false) (hnew : c.address ∉ s.directory.registry.clients)
      (hnode : Node.IsAt node c.address) :
      Moves s (some (.registered i c.address))
        { s with directory := { s.directory with registry := s.directory.registry.register c node },
                 calls := Function.update s.calls i .announcing,
                 monitors := Function.update s.monitors c (some (.waiting 0)) }
  /-- A monitor goes on, and the agent stays as it is but for what is known of it. -/
  | watched {c : Handle} {m m' : Monitor} {registry : Registry} {updates : Option (Mailbox (List Node))}
      {closed : List Handle} (h : s.monitors c = some m) (hclients : registry.clients = s.directory.registry.clients)
      (hregistry : s.directory.registry.Consistent → registry.Consistent) (hactive : m'.IsActive → m.IsActive)
      (hstays : s.directory.isStopping = false → m.IsActive → m'.IsActive) (hupdates : Posted s.directory updates) :
      Moves s none
        { s with directory := { s.directory with registry, updates },
                 monitors := Function.update s.monitors c (some m'), closed }
  | struck {c : Handle} {m m' : Monitor} (h : s.monitors c = some m) (hm : m.IsActive) (hm' : ¬ m'.IsActive) :
      Moves s (some (.struck c.address))
        { s with directory := { s.directory with registry := (s.directory.registry.strike c.address).1 },
                 monitors := Function.update s.monitors c (some m') }
  | signalled (h : s.directory.phase ≠ .stopped) :
      Moves s none { s with directory := { s.directory with phase := .stopped, isStopping := true },
                            stopping := .signalled }
  | cleared {clients : List Handle} (h : s.stopping = .signalled) :
      Moves s none { s with directory := { s.directory with registry := {} }, stopping := .closing clients }
  | passed {phase : Phase} {updates : Option (Mailbox (List Node))} {stopping : Stopping} {closed : List Handle}
      (hphase : phase = .stopped ↔ s.directory.phase = .stopped)
      (hstopping : stopping = s.stopping ∨ ∃ cs cs', s.stopping = .closing cs ∧ stopping = .closing cs')
      (hupdates : Posted s.directory updates) :
      Moves s none { s with directory := { s.directory with phase, updates }, stopping, closed }

theorem moves_self (s : Session ι) : Moves s none s :=
  .passed Iff.rfl (.inl rfl) (posted_self _)

theorem moves_advance (threshold : Nat) (s : Session ι) (i : ι) (now : Nat) :
    Moves s (s.event? threshold (.advance i now)) (s.advance i now) := by
  cases hcall : s.calls i with
  | called address =>
      simp only [advance, event?, hcall, Attempt.proceed]
      refine .went (posted_self _) fun c hc => ?_
      split at hc <;> cases hc
  | allowed address =>
      simp only [advance, event?, hcall, Attempt.proceed]
      refine .went (posted_self _) fun c hc => ?_
      split at hc <;> cases hc
  | entering c resources =>
      have hclient : (s.calls i).client? = some c := by rw [hcall, Attempt.client?]
      by_cases hrefused : (s.directory.isStopping || s.directory.isKnown c.address) = true
      · simp only [advance, event?, hcall, Attempt.proceed, Directory.enter, hrefused, ↓reduceIte]
        refine .went (posted_self _) fun d hd => ?_
        cases hd
        exact hclient
      · simp only [advance, event?, hcall, Attempt.proceed, Directory.enter, hrefused]
        simp only [Bool.or_eq_true, not_or, Bool.not_eq_true] at hrefused
        refine .registered hclient hrefused.1 (fun hmem => ?_) (isAt_nodeAt c.address resources now)
        have hknown : s.directory.isKnown c.address = true := Std.ExtTreeMap.mem_iff_contains.1 hmem
        rw [hrefused.2] at hknown
        cases hknown
  | announcing =>
      simp only [advance, event?, hcall, Attempt.proceed]
      refine .went (posted_announce _) fun c hc => ?_
      cases hc
  | _ =>
      simp only [advance, event?, hcall, Attempt.proceed]
      refine .went (posted_self _) fun c hc => ?_
      rw [hcall]
      exact hc

theorem moves_noted (threshold : Nat) (s : Session ι) (c : Handle) (now : Nat) :
    Moves s (s.event? threshold (.noted c now)) (s.step threshold (.noted c now)) := by
  cases hm : s.monitors c with
  | none =>
      simp only [step, event?, hm]
      exact moves_self s
  | some m =>
      cases m with
      | noting failures answer =>
          cases answer with
          | some resources =>
              simp only [step, event?, hm, Monitor.proceed]
              exact .watched hm rfl (fun h => h.observed c.address resources now) (fun _ => trivial)
                (fun _ _ => trivial) (posted_self _)
          | none =>
              by_cases hlast : max threshold 1 ≤ failures + 1
              · simp only [step, event?, hm, Monitor.proceed, hlast, ↓reduceIte]
                exact .struck hm trivial id
              · simp only [step, event?, hm, Monitor.proceed, hlast, ↓reduceIte]
                exact .watched hm rfl (fun h => h.missed c.address) (fun _ => trivial) (fun _ _ => trivial)
                  (posted_self _)
      | announcing next =>
          cases next with
          | some failures =>
              simp only [step, event?, hm, Monitor.proceed]
              exact .watched hm rfl id (fun _ => trivial) (fun _ _ => trivial) (posted_announce _)
          | none =>
              simp only [step, event?, hm, Monitor.proceed]
              exact .watched hm rfl id id (fun _ => id) (posted_announce _)
      | _ =>
          simp only [step, event?, hm, Monitor.proceed]
          exact .watched hm rfl id id (fun _ => id) (posted_self _)

theorem moves_dialled (threshold : Nat) (s : Session ι) (i : ι) (succeeds : Bool) :
    Moves s none (s.step threshold (.dialled i succeeds)) := by
  simp only [step]
  split
  · rename_i address hcall
    rw [hcall]
    cases succeeds with
    | true => exact .dialled
    | false => exact .went (posted_self _) nofun
  · exact moves_self s

theorem moves_answered (threshold : Nat) (s : Session ι) (i : ι) (answer : Option Resources) :
    Moves s none (s.step threshold (.answered i answer)) := by
  refine .went (posted_self _) fun c hc => ?_
  cases hcall : s.calls i with
  | querying d =>
      rw [hcall] at hc
      cases answer <;> exact hc
  | _ =>
      rw [hcall] at hc
      exact hc

theorem moves_closed (threshold : Nat) (s : Session ι) (i : ι) : Moves s none (s.step threshold (.closed i)) := by
  simp only [step]
  split
  · rename_i c result hcall
    rw [hcall]
    exact .went (posted_self _) nofun
  · exact moves_self s

theorem moves_polled (threshold : Nat) (s : Session ι) (c : Handle) (answer : Option Resources) :
    Moves s none (s.step threshold (.polled c answer)) := by
  simp only [step]
  split
  · exact moves_self s
  · rename_i m hm
    exact .watched hm rfl id (by cases m <;> exact id) (fun _ => by cases m <;> exact id) (posted_self _)

theorem moves_released (threshold : Nat) (s : Session ι) (c : Handle) :
    Moves s none (s.step threshold (.released c)) := by
  simp only [step]
  split
  · rename_i client hm
    exact .watched hm rfl id id (fun _ => id) (posted_self _)
  · exact moves_self s

theorem moves_quit (threshold : Nat) (s : Session ι) (c : Handle) : Moves s none (s.step threshold (.quit c)) := by
  simp only [step]
  split
  · rename_i failures hm
    split
    · rename_i hstopping
      refine .watched hm rfl id (fun _ => trivial) (fun hnot => ?_) (posted_self _)
      rw [hstopping] at hnot
      cases hnot
    · exact moves_self s
  · exact moves_self s

theorem moves_start (threshold : Nat) (s : Session ι) : Moves s none (s.step threshold .start) := by
  simp only [step, Directory.start]
  cases hphase : s.directory.phase with
  | created => exact .passed (by simp [hphase]) (.inl rfl) (posted_self _)
  | _ => exact moves_self s

theorem moves_signal (threshold : Nat) (s : Session ι) : Moves s none (s.step threshold .signal) := by
  simp only [step, Directory.signalStop]
  by_cases hphase : s.directory.phase = .stopped
  · simp only [hphase, if_true]
    exact moves_self s
  · simp only [hphase, if_false]
    exact .signalled hphase

theorem moves_clear (threshold : Nat) (s : Session ι) : Moves s none (s.step threshold .clear) := by
  simp only [step]
  split
  · exact .cleared ‹_›
  · exact moves_self s

theorem moves_release (threshold : Nat) (s : Session ι) : Moves s none (s.step threshold .release) := by
  simp only [step]
  split
  · exact .passed Iff.rfl (.inr ⟨_, _, ‹_›, rfl⟩) (posted_self _)
  · exact moves_self s

/-- Every turn is one of the moves. -/
theorem step_moves (threshold : Nat) (s : Session ι) (t : Turn ι) :
    Moves s (s.event? threshold t) (s.step threshold t) := by
  cases t with
  | advance i now => exact moves_advance threshold s i now
  | dialled i succeeds => exact moves_dialled threshold s i succeeds
  | answered i answer => exact moves_answered threshold s i answer
  | closed i => exact moves_closed threshold s i
  | noted c now => exact moves_noted threshold s c now
  | polled c answer => exact moves_polled threshold s c answer
  | released c => exact moves_released threshold s c
  | quit c => exact moves_quit threshold s c
  | start => exact moves_start threshold s
  | signal => exact moves_signal threshold s
  | clear => exact moves_clear threshold s
  | release => exact moves_release threshold s
  | drain => exact .passed Iff.rfl (.inl rfl) (posted_drain _)

end Session

end AgentMesh.Discovery
