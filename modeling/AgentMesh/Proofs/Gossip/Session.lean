import AgentMesh.Proofs.Gossip.Mesh

/-!
# Calls that overlap

Any number of calls of one node may be under way at once. A call takes its sections one after the other, and between two
of them the other calls go on, messages arrive and rounds are run. Whatever the order, a node that was stopped stays
stopped and holds nothing, one start at most puts a socket into use, and a start that gets no socket leaves no trace.
-/

namespace AgentMesh.Gossip

namespace Lifecycle

variable {l l' : Lifecycle} {addr : Net.SocketAddr}

theorem enter_eq_ok_iff : l.enter = .ok l' ↔ l.phase = .created ∧ l' = { l with phase := .started } := by
  cases hp : l.phase <;> simp [enter, hp, eq_comm]

theorem install_eq_ok_iff : l.install addr = .ok l' ↔
    l.phase ≠ .stopped ∧ l' = { l with socket := some addr, shutdown := true, tasks := taskCount } := by
  by_cases hp : l.phase = .stopped <;> simp [install, hp, eq_comm]

end Lifecycle

/-! ## The sections of a call -/

/-- What a start is given, and what it will find: the socket that it gets, if any, and how long it takes. -/
structure Starting where
  seeds : List String
  bound : Option Net.SocketAddr
  nanos : Nat

/-- How far a call has got. -/
inductive Call
  | start (st : Starting)
  /-- Waits for its socket. -/
  | binding (st : Starting)
  | bound (st : Starting) (addr : Net.SocketAddr)
  /-- Has put its socket into use. -/
  | installed (st : Starting)
  /-- Waits for an answer of its seeds; a join within a start goes on with the start. -/
  | asked (st : Option Starting) (requests : List Datagram) (acksBefore : Nat)
  | settling (st : Starting) (joined : Option Bool)
  | join (seeds : List String)
  | leave
  | leaving
  | stop
  | stopping
  | ended (result : Except Error Unit)
  | joined (result : Except Error Nat)

namespace Call

/-- Has not begun. -/
def Fresh : Call → Prop
  | start _ => True
  | join _ => True
  | leave => True
  | stop => True
  | _ => False

/-- A start that has entered and has no socket in use. -/
def Waits : Call → Prop
  | binding _ => True
  | bound _ _ => True
  | _ => False

/-- A start whose socket is in use and that is not over. -/
def Serves : Call → Prop
  | installed _ => True
  | asked (some _) _ _ => True
  | settling _ _ => True
  | _ => False

theorem Fresh.not_waits {c : Call} (h : c.Fresh) : ¬ c.Waits := by
  cases c with
  | binding st => exact absurd h id
  | bound st addr => exact absurd h id
  | _ => exact id

theorem Fresh.not_serves {c : Call} (h : c.Fresh) : ¬ c.Serves := by
  cases c with
  | installed st => exact absurd h id
  | asked st requests acksBefore => exact absurd h id
  | settling st joined => exact absurd h id
  | _ => exact id

theorem not_waits_of_serves {c : Call} (h : c.Serves) : ¬ c.Waits := by
  cases c with
  | binding st => exact absurd h id
  | bound st addr => exact absurd h id
  | _ => exact id

end Call

namespace Membership

/-- The next section of a call. -/
def advance (m : Membership) (net : Network) : Call → Membership × Call × Output
  | .start st =>
      match m.life.enter with
      | .error e => (m, .ended (.error e), {})
      | .ok life => ({ m with life }, .binding st, {})
  | .binding st =>
      match st.bound with
      | none =>
          ({ m with life := m.life.bindFailed }, .ended (.error .bind),
            { events := [.message Metrics.outgoing "start_failed"] })
      | some addr => ({ m with table := m.table.setAddr addr }, .bound st addr, {})
  | .bound st addr =>
      match m.life.install addr with
      | .error e => (m, .ended (.error e), {})
      | .ok life => ({ m with life }, .installed st, {})
  | .installed st =>
      if st.seeds.isEmpty then (m, .settling st none, {})
      else
        match m.life.openSocket with
        | .error _ => (m, .settling st (some false), {})
        | .ok _ =>
            (m, .asked (some st) (m.joinRequests net st.seeds) m.joinAcks,
              { datagrams := m.joinRequests net st.seeds })
  | .asked (some st) requests acksBefore =>
      (m, .settling st (some (m.joinResult requests acksBefore matches .ok _)), {})
  | .asked none requests acksBefore => (m, .joined (m.joinResult requests acksBefore), {})
  | .settling st joined =>
      ((m.finishStart joined st.nanos).1, .ended (.ok ()), (m.finishStart joined st.nanos).2)
  | .join seeds =>
      match m.life.openSocket with
      | .error e => (m, .joined (.error e), {})
      | .ok _ =>
          (m, .asked none (m.joinRequests net seeds) m.joinAcks, { datagrams := m.joinRequests net seeds })
  | .leave =>
      match m.life.openSocket with
      | .error e => (m, .ended (.error e), {})
      | .ok _ => (m, .leaving, {})
  | .leaving =>
      let table := m.table.leave
      ({ m with table }, .ended (.ok ()),
        { datagrams := sendWhole net (.gossip table.self [table.self]) table.peerAddrs,
          events := [.message Metrics.outgoing "leave"] })
  | .stop =>
      if m.life.phase = .stopped then (m, .ended (.ok ()), {})
      else ({ m with life := m.life.stop }, .stopping, {})
  | .stopping => (m, .ended (.ok ()), { events := [.connections 0] })
  | .ended result => (m, .ended result, {})
  | .joined result => (m, .joined result, {})

end Membership

namespace Membership

/-! ### Sections in a row -/

/-- Some sections of a call with nothing between them. -/
def proceed (m : Membership) (net : Network) : Nat → Call → Membership × Call × Output
  | 0, c => (m, c, {})
  | k + 1, c =>
      let (m, c, out) := m.advance net c
      let (m, c, rest) := m.proceed net k c
      (m, c, out ++ rest)

theorem append_nothing (out : Output) : out ++ ({} : Output) = out := by
  show Output.mk (out.datagrams ++ []) (out.events ++ []) = out
  rw [List.append_nil, List.append_nil]

theorem nothing_append (out : Output) : ({} : Output) ++ out = out := rfl

variable (m : Membership) (net : Network)

theorem proceed_start (st : Starting) : m.proceed net 3 (.start st) =
    ((m.beginStart st.bound).1,
      match (m.beginStart st.bound).2.1 with
        | .error e => .ended (.error e)
        | .ok () => .installed st,
      (m.beginStart st.bound).2.2) := by
  cases he : m.life.enter with
  | error e => simp only [proceed, advance, beginStart, he]; rfl
  | ok life =>
      cases hb : st.bound with
      | none => simp only [proceed, advance, beginStart, he, hb]; rfl
      | some addr =>
          cases hi : life.install addr with
          | error e => simp only [proceed, advance, beginStart, he, hb, hi]; rfl
          | ok life' => simp only [proceed, advance, beginStart, he, hb, hi]; rfl

theorem proceed_join (seeds : List String) (now : Nat) : m.proceed net 2 (.join seeds) =
    ((m.join net seeds [] now).1, .joined (m.join net seeds [] now).2.1, (m.join net seeds [] now).2.2) := by
  cases ho : m.life.openSocket with
  | error e => simp only [proceed, advance, join, ho]; rfl
  | ok addr => simp only [proceed, advance, join, ho, receiveAll]; rfl

theorem proceed_leave : m.proceed net 2 .leave =
    ((m.leave net).1, .ended (m.leave net).2.1, (m.leave net).2.2) := by
  cases ho : m.life.openSocket with
  | error e => simp only [proceed, advance, leave, ho]; rfl
  | ok addr => simp only [proceed, advance, leave, ho, append_nothing, nothing_append]

theorem proceed_stop : m.proceed net 2 .stop = (m.stop.1, .ended (.ok ()), m.stop.2) := by
  by_cases hp : m.life.phase = .stopped
  · simp only [proceed, advance, stop, hp, ↓reduceIte]; rfl
  · simp only [proceed, advance, stop, hp, ↓reduceIte]; rfl

end Membership

/-- What a section may do to the life of a node, and where it leaves the call. -/
inductive Passes (l : Lifecycle) : Call → Lifecycle → Call → Prop
  | entered {st : Starting} (h : l.phase = .created) : Passes l (.start st) { l with phase := .started } (.binding st)
  | failed {st : Starting} (h : st.bound = none) : Passes l (.binding st) l.bindFailed (.ended (.error .bind))
  | got {st : Starting} {addr : Net.SocketAddr} (h : st.bound = some addr) : Passes l (.binding st) l (.bound st addr)
  | installed {st : Starting} {addr : Net.SocketAddr} (h : l.phase ≠ .stopped) :
      Passes l (.bound st addr) { l with socket := some addr, shutdown := true, tasks := Lifecycle.taskCount }
        (.installed st)
  | went {c c' : Call} (h : c.Serves) (h' : c'.Serves) : Passes l c l c'
  | settled {st : Starting} {joined : Option Bool} {phase : Phase} (h : phase.isRunning = true) :
      Passes l (.settling st joined) (l.settle phase) (.ended (.ok ()))
  | stopped : Passes l .stop l.stop .stopping
  | aside {c c' : Call} (hwaits : ¬ c'.Waits) (hserves : ¬ c'.Serves) : Passes l c l c'

namespace Membership

theorem life_of_create {c : Config} {m : Membership} (h : create c = .ok m) : m.life = { phase := .created } := by
  simp only [create] at h
  split at h
  · cases h
  · cases h
    rfl

theorem advance_passes (m : Membership) (net : Network) (c : Call) :
    Passes m.life c (m.advance net c).1.life (m.advance net c).2.1 := by
  cases c with
  | start st =>
      cases he : m.life.enter with
      | error e => simp only [advance, he]; exact .aside id id
      | ok life =>
          obtain ⟨hphase, rfl⟩ := Lifecycle.enter_eq_ok_iff.mp he
          simp only [advance, he]
          exact .entered hphase
  | binding st =>
      cases hb : st.bound with
      | none => simp only [advance, hb]; exact .failed hb
      | some addr => simp only [advance, hb]; exact .got hb
  | bound st addr =>
      cases hi : m.life.install addr with
      | error e => simp only [advance, hi]; exact .aside id id
      | ok life =>
          obtain ⟨hphase, rfl⟩ := Lifecycle.install_eq_ok_iff.mp hi
          simp only [advance, hi]
          exact .installed hphase
  | installed st =>
      simp only [advance]
      split
      · exact .went trivial trivial
      · split <;> exact .went trivial trivial
  | asked st requests acksBefore =>
      cases st with
      | none => exact .aside id id
      | some st => exact .went trivial trivial
  | settling st joined =>
      have hrunning : (if joined = some true then Phase.joined else .standalone).isRunning = true := by split <;> rfl
      exact .settled hrunning
  | join seeds => simp only [advance]; split <;> exact .aside id id
  | leave => simp only [advance]; split <;> exact .aside id id
  | stop =>
      simp only [advance]
      split
      · exact .aside id id
      · exact .stopped
  | _ => exact .aside id id

end Membership

/-! ## Sessions -/

structure Session (ι : Type) where
  node : Membership
  calls : ι → Call

namespace Session

inductive Turn (ι : Type)
  | advance (i : ι)
  | hear (msg : Message) (source : Net.SocketAddr) (now : Nat)
  | round (pick : Sampler) (now : Nat)
  | setProfile (pick : Sampler) (profile : Profile)

variable {ι : Type} [DecidableEq ι] {net : Network} {s : Session ι}

def step (net : Network) (s : Session ι) : Turn ι → Session ι
  | .advance i =>
      { node := (s.node.advance net (s.calls i)).1,
        calls := Function.update s.calls i (s.node.advance net (s.calls i)).2.1 }
  | .hear msg source now => { s with node := (s.node.handle net msg source now).1 }
  | .round pick now => { s with node := (s.node.round net pick now).1 }
  | .setProfile pick profile => { s with node := (s.node.updateProfile net pick profile).1 }

def run (net : Network) (s : Session ι) (ts : List (Turn ι)) : Session ι :=
  ts.foldl (step net) s

@[simp] theorem run_nil (s : Session ι) : s.run net [] = s := rfl

@[simp] theorem run_cons (s : Session ι) (t : Turn ι) (ts : List (Turn ι)) :
    s.run net (t :: ts) = (s.step net t).run net ts := rfl

/-- The start that puts its socket into use, if the turn is one. -/
def installer? (s : Session ι) : Turn ι → Option ι
  | .advance i =>
      match s.calls i with
      | .bound _ addr => if s.node.life.install addr matches .ok _ then some i else none
      | _ => none
  | _ => none

/-- The starts that put a socket into use in a run, one after the other. -/
def installers (net : Network) : Session ι → List (Turn ι) → List ι
  | _, [] => []
  | s, t :: ts => (s.installer? t).toList ++ (s.step net t).installers net ts

end Session

/-! ## What every section keeps -/

section Sections

variable {ι : Type} {l l' : Lifecycle} {calls : ι → Call} {i : ι} {c : Call}

/-- No start will put a socket into use any more. -/
inductive Spent (l : Lifecycle) (calls : ι → Call) : Prop
  | running (hphase : l.phase.isRunning = true) (hwaits : ∀ i, ¬ (calls i).Waits)
  | stopped (hl : l = { phase := .stopped })

/-- Before any start has entered, while the one that has waits for its socket, and after that. -/
inductive Orderly (l : Lifecycle) (calls : ι → Call) : Prop
  | fresh (hl : l = { phase := .created }) (hwaits : ∀ i, ¬ (calls i).Waits) (hserves : ∀ i, ¬ (calls i).Serves)
  | waiting (i : ι) (hl : l = { phase := .started }) (hwaits : ∀ j, (calls j).Waits → j = i)
      (hserves : ∀ j, ¬ (calls j).Serves)
  | spent (h : Spent l calls)

theorem orderly_create {c : Config} {m : Membership} (hcreate : Membership.create c = .ok m)
    (hfresh : ∀ i, (calls i).Fresh) : Orderly m.life calls :=
  .fresh (Membership.life_of_create hcreate) (fun i => (hfresh i).not_waits) fun i => (hfresh i).not_serves

theorem Orderly.life_of_created (h : Orderly l calls) (hcreated : l.phase = .created) : l = { phase := .created } := by
  cases h with
  | fresh hl => exact hl
  | waiting i hl => rw [hl] at hcreated; cases hcreated
  | spent h =>
      cases h with
      | running hphase => rw [hcreated] at hphase; cases hphase
      | stopped hl => rw [hl] at hcreated; cases hcreated

theorem Orderly.life_of_stopped (h : Orderly l calls) (hstopped : l.phase = .stopped) : l = { phase := .stopped } := by
  cases h with
  | fresh hl => rw [hl] at hstopped; cases hstopped
  | waiting i hl => rw [hl] at hstopped; cases hstopped
  | spent h =>
      cases h with
      | running hphase => rw [hstopped] at hphase; cases hphase
      | stopped hl => exact hl

theorem Orderly.isRunning_of_socket (h : Orderly l calls) (hsocket : l.socket.isSome) : l.phase.isRunning = true := by
  cases h with
  | fresh hl => rw [hl] at hsocket; cases hsocket
  | waiting i hl => rw [hl]; rfl
  | spent h =>
      cases h with
      | running hphase => exact hphase
      | stopped hl => rw [hl] at hsocket; cases hsocket

theorem passes_of_stopped {c' : Call} (h : Passes { phase := .stopped } c l' c') : l' = { phase := .stopped } := by
  cases h with
  | entered h => cases h
  | installed h => exact absurd rfl h
  | _ => rfl

variable [DecidableEq ι]

theorem update_cases {P : Call → Prop} {j : ι} (h : P (Function.update calls i c j)) :
    (j = i ∧ P c) ∨ (j ≠ i ∧ P (calls j)) := by
  by_cases hj : j = i
  · subst hj
    exact Or.inl ⟨rfl, by simpa using h⟩
  · exact Or.inr ⟨hj, by simpa [hj] using h⟩

theorem update_none {P : Call → Prop} (h : ∀ j, ¬ P (calls j)) (hc : ¬ P c) (j : ι) :
    ¬ P (Function.update calls i c j) := by
  intro hj
  rcases update_cases hj with ⟨-, hP⟩ | ⟨-, hP⟩
  · exact hc hP
  · exact h j hP

theorem Spent.passes (h : Spent l calls) (hpasses : Passes l (calls i) l' c) :
    Spent l' (Function.update calls i c) := by
  cases h with
  | stopped hl =>
      subst hl
      exact .stopped (passes_of_stopped hpasses)
  | running hphase hwaits =>
      have hi := hwaits i
      generalize calls i = ci at hpasses hi
      cases hpasses with
      | entered hcreated => rw [hcreated] at hphase; cases hphase
      | failed => exact absurd trivial hi
      | got => exact absurd trivial hi
      | installed => exact absurd trivial hi
      | went hserves hserves' => exact .running hphase (update_none hwaits (Call.not_waits_of_serves hserves'))
      | settled hrunning =>
          refine .running ?_ (update_none hwaits id)
          rw [Lifecycle.settle, if_pos hphase]
          exact hrunning
      | stopped => exact .stopped rfl
      | aside hc => exact .running hphase (update_none hwaits hc)

/-- Only a start that enters a created node begins to wait, so at most one does at any time. -/
theorem Orderly.passes (h : Orderly l calls) (hpasses : Passes l (calls i) l' c) :
    Orderly l' (Function.update calls i c) := by
  cases h with
  | spent h => exact .spent (h.passes hpasses)
  | fresh hl hwaits hserves =>
      have hi := hwaits i
      have hi' := hserves i
      generalize calls i = ci at hpasses hi hi'
      cases hpasses with
      | entered =>
          subst hl
          refine .waiting i rfl (fun j hj => ?_) (update_none hserves id)
          rcases update_cases hj with ⟨hj, -⟩ | ⟨-, hw⟩
          · exact hj
          · exact absurd hw (hwaits j)
      | failed => exact absurd trivial hi
      | got => exact absurd trivial hi
      | installed => exact absurd trivial hi
      | went hs => exact absurd hs hi'
      | settled => exact absurd trivial hi'
      | stopped => exact .spent (.stopped rfl)
      | aside hc hc' => exact .fresh hl (update_none hwaits hc) (update_none hserves hc')
  | waiting k hl hwaits hserves =>
      have hi := hwaits i
      have hi' := hserves i
      -- Once the start that waited is over, no other one waits.
      have hnone (hk : i = k) (hc : ¬ c.Waits) (j : ι) : ¬ (Function.update calls i c j).Waits := fun hj => by
        rcases update_cases hj with ⟨-, hw⟩ | ⟨hne, hw⟩
        · exact hc hw
        · exact hne ((hwaits j hw).trans hk.symm)
      generalize calls i = ci at hpasses hi hi'
      subst hl
      cases hpasses with
      | entered hcreated => cases hcreated
      | failed => exact .fresh rfl (hnone (hi trivial) id) (update_none hserves id)
      | got =>
          refine .waiting k rfl (fun j hj => ?_) (update_none hserves id)
          rcases update_cases hj with ⟨hj, -⟩ | ⟨-, hw⟩
          · exact hj.trans (hi trivial)
          · exact hwaits j hw
      | installed => exact .spent (.running rfl (hnone (hi trivial) id))
      | went hs => exact absurd hs hi'
      | settled => exact absurd trivial hi'
      | stopped => exact .spent (.stopped rfl)
      | aside hc hc' =>
          refine .waiting k rfl (fun j hj => ?_) (update_none hserves hc')
          rcases update_cases hj with ⟨-, hw⟩ | ⟨-, hw⟩
          · exact absurd hw hc
          · exact hwaits j hw

end Sections

namespace Session

variable {ι : Type} {s : Session ι}

theorem installer?_eq_some {t : Turn ι} {i : ι} (h : s.installer? t = some i) :
    t = .advance i ∧ ∃ st addr, s.calls i = .bound st addr ∧ s.node.life.phase ≠ .stopped := by
  cases t with
  | advance j =>
      simp only [installer?] at h
      split at h
      · rename_i st addr hj
        split at h
        · rename_i hinstall
          cases h
          refine ⟨rfl, st, addr, hj, fun hstopped => ?_⟩
          simp [Lifecycle.install, hstopped] at hinstall
        · cases h
      · cases h
  | _ => cases h

theorem installer?_of_spent (h : Spent s.node.life s.calls) (t : Turn ι) : s.installer? t = none := by
  rw [Option.eq_none_iff_forall_ne_some]
  intro i hi
  obtain ⟨-, st, addr, hcall, hphase⟩ := installer?_eq_some hi
  cases h with
  | running _ hwaits => exact hwaits i (by rw [hcall]; trivial)
  | stopped hl => exact hphase (by rw [hl])

/-- While a start waits for its socket, the node holds nothing, and it was started or stopped. -/
theorem life_of_waits (h : Orderly s.node.life s.calls) {i : ι} (hi : (s.calls i).Waits) :
    s.node.life = { phase := .started } ∨ s.node.life = { phase := .stopped } := by
  cases h with
  | fresh hl hwaits => exact absurd hi (hwaits i)
  | waiting k hl => exact Or.inl hl
  | spent h =>
      cases h with
      | running hphase hwaits => exact absurd hi (hwaits i)
      | stopped hl => exact Or.inr hl

variable [DecidableEq ι] {net : Network}

/-! ## What every turn keeps -/

/-- A turn is a section of one call, or it leaves the life of the node and all calls alone. -/
theorem step_cases (net : Network) (s : Session ι) (t : Turn ι) :
    (∃ i c, Passes s.node.life (s.calls i) (s.step net t).node.life c ∧
      (s.step net t).calls = Function.update s.calls i c) ∨
    ((s.step net t).node.life = s.node.life ∧ (s.step net t).calls = s.calls) := by
  cases t with
  | advance i => exact Or.inl ⟨i, _, s.node.advance_passes net (s.calls i), rfl⟩
  | hear msg source now =>
      refine Or.inr ⟨?_, rfl⟩
      simp only [step, Membership.handle]
      split <;> rfl
  | round pick now => exact Or.inr ⟨rfl, rfl⟩
  | setProfile pick profile => exact Or.inr ⟨rfl, rfl⟩

theorem spent_step (h : Spent s.node.life s.calls) (t : Turn ι) :
    Spent (s.step net t).node.life (s.step net t).calls := by
  rcases step_cases net s t with ⟨i, c, hpasses, hcalls⟩ | ⟨hlife, hcalls⟩
  · rw [hcalls]
    exact h.passes hpasses
  · rwa [hlife, hcalls]

theorem orderly_step (net : Network) (h : Orderly s.node.life s.calls) (t : Turn ι) :
    Orderly (s.step net t).node.life (s.step net t).calls := by
  rcases step_cases net s t with ⟨i, c, hpasses, hcalls⟩ | ⟨hlife, hcalls⟩
  · rw [hcalls]
    exact h.passes hpasses
  · rwa [hlife, hcalls]

theorem orderly_run (h : Orderly s.node.life s.calls) (ts : List (Turn ι)) :
    Orderly (s.run net ts).node.life (s.run net ts).calls := by
  induction ts generalizing s with
  | nil => exact h
  | cons t ts ih => exact ih (orderly_step net h t)

theorem stopped_run (h : s.node.life = { phase := .stopped }) (ts : List (Turn ι)) :
    (s.run net ts).node.life = { phase := .stopped } := by
  induction ts generalizing s with
  | nil => exact h
  | cons t ts ih =>
      refine ih ?_
      rcases step_cases net s t with ⟨i, c, hpasses, -⟩ | ⟨hlife, -⟩
      · rw [h] at hpasses
        exact passes_of_stopped hpasses
      · rw [hlife, h]

/-- Only a stop stops the node. -/
theorem stopped_step {t : Turn ι} (h : (s.step net t).node.life.phase = .stopped) :
    s.node.life.phase = .stopped ∨ ∃ i, t = .advance i ∧ s.calls i = .stop := by
  cases t with
  | advance i =>
      have hpasses := s.node.advance_passes net (s.calls i)
      have h : (s.node.advance net (s.calls i)).1.life.phase = .stopped := h
      generalize hl : (s.node.advance net (s.calls i)).1.life = life at hpasses h
      generalize (s.node.advance net (s.calls i)).2.1 = c at hpasses
      generalize hc : s.calls i = c₀ at hpasses
      cases hpasses with
      | entered => cases h
      | failed =>
          simp only [Lifecycle.bindFailed] at h
          split at h
          · cases h
          · exact Or.inl h
      | @settled st joined phase hrunning =>
          simp only [Lifecycle.settle] at h
          split at h
          · have h : phase = .stopped := h
            rw [h] at hrunning
            cases hrunning
          · exact Or.inl h
      | stopped => exact Or.inr ⟨i, rfl, hc⟩
      | _ => exact Or.inl h
  | hear msg source now =>
      simp only [step, Membership.handle] at h
      split at h <;> exact Or.inl h
  | round pick now => exact Or.inl h
  | setProfile pick profile => exact Or.inl h

/-! ## Sockets -/

theorem installers_of_spent (h : Spent s.node.life s.calls) (ts : List (Turn ι)) : s.installers net ts = [] := by
  induction ts generalizing s with
  | nil => rfl
  | cons t ts ih => rw [installers, installer?_of_spent h, ih (spent_step h t)]; rfl

/-- A start with a socket in use is the last one that gets so far. -/
theorem spent_of_installer {t : Turn ι} {i : ι} (h : Orderly s.node.life s.calls) (hi : s.installer? t = some i) :
    Spent (s.step net t).node.life (s.step net t).calls := by
  obtain ⟨rfl, st, addr, hcall, hphase⟩ := installer?_eq_some hi
  have hlife : (s.step net (.advance i)).node.life.socket = some addr := by
    simp [step, hcall, Membership.advance, Lifecycle.install, hphase]
  cases orderly_step net h (.advance i) with
  | fresh hl => rw [hl] at hlife; cases hlife
  | waiting k hl => rw [hl] at hlife; cases hlife
  | spent hspent => exact hspent

theorem length_installers_le (h : Orderly s.node.life s.calls) (ts : List (Turn ι)) :
    (s.installers net ts).length ≤ 1 := by
  induction ts generalizing s with
  | nil => exact Nat.zero_le 1
  | cons t ts ih =>
      rw [installers]
      cases hi : s.installer? t with
      | none => exact ih (orderly_step net h t)
      | some i => rw [installers_of_spent (spent_of_installer h hi)]; exact Nat.le_refl 1

/-! ## A start without a socket -/

theorem step_binding (net : Network) (h : Orderly s.node.life s.calls) {i : ι} {st : Starting}
    (hi : s.calls i = .binding st) (hbound : st.bound = none) :
    (s.step net (.advance i)).calls i = .ended (.error .bind) ∧
    (s.step net (.advance i)).node = { s.node with life := { s.node.life with
      phase := if s.node.life.phase = .stopped then .stopped else .created } } := by
  have hadvance : s.node.advance net (s.calls i) = ({ s.node with life := s.node.life.bindFailed },
      .ended (.error .bind), { events := [.message Metrics.outgoing "start_failed"] }) := by
    rw [hi, Membership.advance]
    simp only [hbound]
  simp only [step, hadvance, Function.update_self, true_and]
  rcases life_of_waits h (i := i) (by rw [hi]; trivial) with hl | hl <;> rw [hl] <;> rfl

theorem run_advances (s : Session ι) (j : ι) (k : Nat) : s.run net (List.replicate k (.advance j)) =
    ⟨(s.node.proceed net k (s.calls j)).1, Function.update s.calls j (s.node.proceed net k (s.calls j)).2.1⟩ := by
  induction k generalizing s with
  | zero => simp [Membership.proceed]
  | succ k ih =>
      rw [List.replicate_succ, run_cons, ih]
      simp only [step, Function.update_self, Function.update_idem]
      rfl

theorem life_beginStart {m : Membership} (h : m.life = { phase := .created }) (addr : Net.SocketAddr) :
    (m.beginStart (some addr)).2.1 = .ok () ∧ (m.beginStart (some addr)).1.life =
      { phase := .started, socket := some addr, shutdown := true, tasks := Lifecycle.taskCount } := by
  simp [Membership.beginStart, Lifecycle.enter, Lifecycle.install, h]

/-! ## Starting and stopping -/

/-- A stop takes its section in a run. -/
def Stops (net : Network) (s : Session ι) (ts : List (Turn ι)) : Prop :=
  ∃ ts₁ j ts₂, ts = ts₁ ++ .advance j :: ts₂ ∧ (s.run net ts₁).calls j = .stop

theorem stopped_or_stops (ts : List (Turn ι)) (h : (s.run net ts).node.life.phase = .stopped) :
    s.node.life.phase = .stopped ∨ s.Stops net ts := by
  induction ts generalizing s with
  | nil => exact Or.inl h
  | cons t ts ih =>
      rcases ih h with hstopped | ⟨ts₁, j, ts₂, rfl, hcall⟩
      · rcases stopped_step hstopped with hstopped | ⟨j, rfl, hcall⟩
        · exact Or.inl hstopped
        · exact Or.inr ⟨[], j, ts, rfl, hcall⟩
      · exact Or.inr ⟨t :: ts₁, j, ts₂, rfl, hcall⟩

/-- A call stays where it is until it takes its next section. -/
theorem calls_run_of_not_mem {i : ι} (ts : List (Turn ι)) (h : .advance i ∉ ts) :
    (s.run net ts).calls i = s.calls i := by
  induction ts generalizing s with
  | nil => rfl
  | cons t ts ih =>
      rw [run_cons, ih fun hmem => h (List.mem_cons_of_mem _ hmem)]
      cases t with
      | advance j =>
          have hne : i ≠ j := fun heq => h (heq ▸ List.mem_cons_self)
          exact Function.update_of_ne hne _ _
      | _ => rfl

/-- What comes of a start that enters and gets no socket, when some turns are taken while it waits. -/
structure LeavesNoTrace (net : Network) (s : Session ι) (i : ι) (ts : List (Turn ι)) : Prop where
  enters : (s.step net (.advance i)).node = { s.node with life := { s.node.life with phase := .started } }
  fails : (((s.step net (.advance i)).run net ts).step net (.advance i)).calls i = .ended (.error .bind)
  keeps : ∃ phase, (((s.step net (.advance i)).run net ts).step net (.advance i)).node =
    { ((s.step net (.advance i)).run net ts).node with
      life := { ((s.step net (.advance i)).run net ts).node.life with phase } }
  returns : ¬ (s.step net (.advance i)).Stops net ts →
    (((s.step net (.advance i)).run net ts).step net (.advance i)).node.life.phase = .created

theorem leavesNoTrace (h : Orderly s.node.life s.calls) {i : ι} {st : Starting} (hi : s.calls i = .start st)
    (hbound : st.bound = none) (hcreated : s.node.life.phase = .created) {ts : List (Turn ι)}
    (hts : .advance i ∉ ts) : s.LeavesNoTrace net i ts := by
  have hadvance : s.node.advance net (s.calls i) =
      ({ s.node with life := { s.node.life with phase := .started } }, .binding st, {}) := by
    rw [hi, Membership.advance, Lifecycle.enter_eq_ok_iff.mpr ⟨hcreated, rfl⟩]
  have hentered : (s.step net (.advance i)).node =
      { s.node with life := { s.node.life with phase := .started } } := by
    simp only [step, hadvance]
  have hwaiting : ((s.step net (.advance i)).run net ts).calls i = .binding st := by
    rw [calls_run_of_not_mem ts hts]
    simp only [step, hadvance, Function.update_self]
  obtain ⟨hfails, hnode⟩ := step_binding net (orderly_run (orderly_step net h _) ts) hwaiting hbound
  refine ⟨hentered, hfails, ⟨_, hnode⟩, fun hstops => ?_⟩
  rw [hnode]
  refine if_neg fun hstopped => ?_
  rcases stopped_or_stops ts hstopped with hstarted | hstop
  · rw [hentered] at hstarted
    cases hstarted
  · exact hstops hstop

/-- A node whose last start left no trace can be started. -/
theorem run_start (h : Orderly s.node.life s.calls) {j : ι} {st : Starting} {addr : Net.SocketAddr}
    (hj : s.calls j = .start st) (hbound : st.bound = some addr) (hcreated : s.node.life.phase = .created) :
    (s.run net (List.replicate 3 (.advance j))).calls j = .installed st ∧
    (s.run net (List.replicate 3 (.advance j))).node.life.socket = some addr := by
  obtain ⟨hok, hinstalled⟩ := life_beginStart (h.life_of_created hcreated) addr
  rw [run_advances, hj, Membership.proceed_start, hbound]
  simp only [hok, hinstalled, Function.update_self, and_self]

/--
However the sections of the calls of one node are interleaved: a stopped node stays stopped and holds nothing, one start
at most puts a socket into use, only a running node has a socket, a start that gets none leaves no trace and does not
stand in the way of a later one, and a node that does not run shows no members.
-/
theorem starts_and_stops {c : Config} {m : Membership} {calls : ι → Call} (hcreate : Membership.create c = .ok m)
    (hfresh : ∀ i, (calls i).Fresh) (net : Network) (ts : List (Turn ι)) :
    let s := (⟨m, calls⟩ : Session ι).run net ts
    (s.node.life.phase = .stopped → ∀ us,
      (s.run net us).node.life = { phase := .stopped, socket := none, shutdown := false, tasks := 0 }) ∧
    (installers net ⟨m, calls⟩ ts).length ≤ 1 ∧
    (s.node.life.socket.isSome →
      s.node.life.phase = .started ∨ s.node.life.phase = .joined ∨ s.node.life.phase = .standalone) ∧
    (∀ i st us, s.calls i = .start st → st.bound = none → s.node.life.phase = .created → .advance i ∉ us →
      s.LeavesNoTrace net i us) ∧
    (∀ j st addr, s.calls j = .start st → st.bound = some addr → s.node.life.phase = .created →
      (s.run net (List.replicate 3 (.advance j))).calls j = .installed st ∧
        (s.run net (List.replicate 3 (.advance j))).node.life.socket = some addr) ∧
    ∀ now epoch, s.node.life.phase = .created ∨ s.node.life.phase = .stopped → s.node.members now epoch = [] := by
  intro s
  have hstart := orderly_create hcreate hfresh
  have h : Orderly s.node.life s.calls := orderly_run (s := ⟨m, calls⟩) hstart ts
  refine ⟨fun hstopped us => ?_, length_installers_le (s := ⟨m, calls⟩) hstart ts, fun hsocket => ?_,
    fun i st us hi hbound hcreated hus => leavesNoTrace h hi hbound hcreated hus,
    fun j st addr hj hbound hcreated => run_start h hj hbound hcreated, fun now epoch hphase => ?_⟩
  · exact stopped_run (h.life_of_stopped hstopped) us
  · have hrunning := h.isRunning_of_socket hsocket
    cases hphase : s.node.life.phase <;> simp_all [Phase.isRunning]
  · have hidle : s.node.life.phase.isRunning = false := by rcases hphase with hphase | hphase <;> rw [hphase] <;> rfl
    rw [Membership.members, if_neg (by simp [hidle])]

/-- A start that gets no socket, one that gets one, and a stop. -/
def sampleCalls : Fin 3 → Call
  | 0 => .start { seeds := [], bound := none, nanos := 0 }
  | 1 => .start { seeds := [], bound := some Mesh.sampleBound, nanos := 0 }
  | 2 => .stop

def sampleTurns : List (Turn (Fin 3)) :=
  [.advance 0, .round .first 0, .advance 0, .advance 1, .advance 1, .advance 1, .advance 2, .advance 1]

def sampleSession : Session (Fin 3) :=
  ⟨Mesh.sampleNodes false, sampleCalls⟩

theorem starts_and_stops_sample :
    Membership.create (Mesh.sampleConfig false) = .ok (Mesh.sampleNodes false) ∧ (∀ i, (sampleCalls i).Fresh) ∧
    sampleSession.LeavesNoTrace .literal 0 [.round .first 0] ∧
    installers .literal sampleSession sampleTurns = [1] ∧
    ∀ us, ((sampleSession.run .literal sampleTurns).run .literal us).node.life = { phase := .stopped } := by
  have hfresh : ∀ i, (sampleCalls i).Fresh := by
    intro i
    match i with
    | 0 => trivial
    | 1 => trivial
    | 2 => trivial
  have hcreate := Mesh.create_sampleNodes false
  obtain ⟨-, -, -, hvain, -⟩ := starts_and_stops hcreate hfresh .literal []
  obtain ⟨hstopped, -⟩ := starts_and_stops hcreate hfresh .literal sampleTurns
  refine ⟨hcreate, hfresh, hvain 0 _ _ rfl rfl rfl (by simp), rfl, hstopped rfl⟩

end Session

end AgentMesh.Gossip
