import AgentMesh.Discovery.Attempt
import AgentMesh.Discovery.Network
import AgentMesh.Discovery.Strategy

/-!
# Searching in virtual time

The tasks of a search, run one at a time: each goes on until it has to wait for a moment. Tasks that wait
for the same moment go on in the order in which they began to wait, and a monitor begins after the tasks
that were there before it. Nothing depends on a real clock.
-/

namespace AgentMesh.Discovery

/-! ## Tasks -/

inductive Errand
  | attempt (address : String)
  | ask (client : Handle)
  | lookup (name : String)
deriving Repr, DecidableEq, Inhabited

structure Dialling where
  address : String
  succeeds : Bool
  due : Nat
  rest : List Errand := []
deriving Repr, DecidableEq, Inhabited

inductive Purpose
  /-- Tries one address until it is registered. -/
  | seed (address : String)
  /-- Runs a round at every tick; the next tick is given. -/
  | probe (tick : Nat)
  | monitor (client : Handle) (failures : Nat)
  /-- One attempt on somebody's behalf. -/
  | call (number : Nat)
deriving Repr, DecidableEq, Inhabited

structure Task where
  purpose : Purpose
  wake : Nat
  /-- The connection that is awaited; otherwise the task waits for a moment only. -/
  dialling : Option Dialling := none
deriving Repr, DecidableEq, Inhabited

/-- Tasks stand in the order in which they began to wait. -/
structure Search where
  config : Config := {}
  network : Network := {}
  directory : Directory := {}
  /-- Seconds since the Unix epoch; the wall clock does not follow the virtual time. -/
  clock : Nat := 0
  /-- Milliseconds. -/
  now : Nat := 0
  tasks : List Task := []
  /-- Connections whose monitors have not begun yet. -/
  unwatched : List Handle := []
  calls : List (Option Bool) := []
deriving Inhabited

namespace Search

/-! ## Attempts -/

/-- One step of an attempt; only a connection that is being opened stays as it is. -/
def step (s : Search) : Attempt → Search × Attempt
  | .connecting address => (s, .connecting address)
  | .querying client =>
      let (network, answer) := s.network.poll client
      ({ s with network }, (Attempt.querying client).answered answer)
  | .closing client result =>
      ({ s with network := s.network.close client }, (Attempt.closing client result).closed)
  | .entering client resources =>
      let (directory, next) := (Attempt.entering client resources).proceed s.directory s.clock
      let unwatched := if next = .announcing then s.unwatched ++ [client] else s.unwatched
      ({ s with directory, unwatched }, next)
  | a =>
      let (directory, next) := a.proceed s.directory s.clock
      ({ s with directory }, next)

def steps : Nat → Search → Attempt → Search × Attempt
  | 0, s, a => (s, a)
  | n + 1, s, a =>
      let (s, a) := s.step a
      steps n s a

/-- Goes on with an attempt until it is finished or asks for a connection. No attempt has more places. -/
def drive (s : Search) (a : Attempt) : Search × Attempt :=
  steps 4 s a

/-- Goes on with an attempt whose connection has been opened, or has failed. -/
def complete (s : Search) (address : String) (succeeds : Bool) : Search × Bool :=
  let (s, client) := if succeeds then
      let (network, client) := s.network.connect address
      ({ s with network }, some client)
    else (s, none)
  match s.drive ((Attempt.connecting address).connected client) with
  | (s, .finished result) => (s, result)
  | (s, _) => (s, false)

/-- The outcome of an attempt, or the connection that it has to wait for. -/
def tryConnect (s : Search) (address : String) : Search × (Bool ⊕ Dialling) :=
  match s.drive (.called address) with
  | (s, .finished result) => (s, .inl result)
  | (s, _) =>
      let (network, delay, succeeds) := s.network.dial address
      let s := { s with network }
      if delay = 0 then
        let (s, result) := s.complete address succeeds
        (s, .inl result)
      else (s, .inr { address, succeeds, due := s.now + delay })

/-! ## Errands -/

/-- Tries addresses in turn, up to the first connection that has to be awaited. -/
def visit (s : Search) : List String → Search × Option Dialling
  | [] => (s, none)
  | address :: rest =>
      match s.tryConnect address with
      | (s, .inl _) => visit s rest
      | (s, .inr d) => (s, some { d with rest := rest.map .attempt })

/-- Runs errands in turn, up to the first connection that has to be awaited. -/
def run (s : Search) : List Errand → Search × Option Dialling
  | [] => (s, none)
  | errand :: rest =>
      let (s, targets) := match errand with
        | .attempt address => (s, [address])
        | .ask client => (s, (s.network.peers client).getD [])
        | .lookup name =>
            let (network, targets) := s.network.lookup name
            ({ s with network }, targets)
      match s.visit targets with
      | (s, none) => run s rest
      | (s, some d) => (s, some { d with rest := d.rest ++ rest })

def crawl (s : Search) : List Errand :=
  s.directory.registry.clients.values.map .ask

def round (s : Search) : List Errand :=
  match s.config.strategy with
  | .static _ => []
  | .orchestrator => orchestratorAddresses.map .attempt
  | .dns name => (dnsAddresses name).map .attempt ++ [.lookup (serviceRecord name)]
  | .gossipChain _ => s.crawl

/-- The time between two rounds; no round is run if it is zero. -/
def period (s : Search) : Nat :=
  match s.config.strategy with
  | .static _ => 0
  | .orchestrator => s.config.orchestratorPeriod
  | .dns _ => s.config.dnsPeriod
  | .gossipChain _ => s.config.peerPeriod

/-! ## Going on with a task -/

def wait (s : Search) (t : Task) : Search :=
  { s with tasks := s.tasks ++ [t] }

def await (s : Search) (purpose : Purpose) (d : Dialling) : Search :=
  s.wait { purpose, wake := d.due, dialling := some d }

/-- A seed that is not registered is tried again later. -/
def seedTried (s : Search) (address : String) (result : Bool) : Search :=
  if result then s else s.wait { purpose := .seed address, wake := s.now + max s.config.retry 1 }

def seed (s : Search) (address : String) : Search :=
  match s.tryConnect address with
  | (s, .inl result) => s.seedTried address result
  | (s, .inr d) => s.await (.seed address) d

/-- Runs a number of rounds that are due; the tick of the first of them is given. -/
def rounds (s : Search) (tick : Nat) : Nat → Search
  | 0 => s.wait { purpose := .probe tick, wake := tick }
  | n + 1 =>
      let tick := tick + s.period
      match s.run s.round with
      | (s, none) => rounds s tick n
      | (s, some d) => s.await (.probe tick) d

/-- How many ticks are due, of which the first is given. -/
def dueRounds (s : Search) (tick : Nat) : Nat :=
  if s.now < tick then 0 else (s.now - tick) / s.period + 1

def probe (s : Search) (tick : Nat) : Search :=
  if s.period = 0 then s else s.rounds tick (s.dueRounds tick)

def poll (s : Search) (client : Handle) (failures : Nat) : Search × Monitor :=
  let (network, answer) := s.network.poll client
  let proceed (d : Directory) (m : Monitor) :=
    m.proceed d s.config.failureThreshold client.address s.clock
  let (directory, m) := proceed s.directory ((Monitor.waiting failures).polled answer)
  let (network, m) := match m with
    | .closing (some client) => (network.close client, m.closed)
    | m => (network, m.closed)
  let (directory, m) := proceed directory m
  ({ s with network, directory }, m)

def monitor (s : Search) (client : Handle) (failures : Nat) (tick : Nat) : Search :=
  match s.poll client failures with
  | (s, .waiting failures) =>
      s.wait { purpose := .monitor client failures, wake := tick + s.config.healthPeriod }
  | (s, _) => s

def callEnded (s : Search) (number : Nat) (result : Bool) : Search :=
  { s with calls := s.calls.set number (some result) }

def resume (s : Search) (t : Task) : Search :=
  match t.dialling with
  | none =>
      match t.purpose with
      | .seed address => s.seed address
      | .probe tick => s.probe tick
      | .monitor client failures => s.monitor client failures t.wake
      | .call _ => s
  | some d =>
      let (s, result) := s.complete d.address d.succeeds
      match t.purpose with
      | .seed address => s.seedTried address result
      | .probe tick =>
          match s.run d.rest with
          | (s, none) => s.probe tick
          | (s, some d) => s.await (.probe tick) d
      | .monitor _ _ => s
      | .call number => s.callEnded number result

/-- Lets the monitors of newly registered agents begin; nothing is polled if the period is zero. -/
def watch (s : Search) : Search :=
  let monitors := if s.config.healthPeriod = 0 then [] else
    s.unwatched.map fun client =>
      { purpose := .monitor client 0, wake := s.now + s.config.healthPeriod : Task }
  { s with tasks := s.tasks ++ monitors, unwatched := [] }

def runAt (s : Search) (now : Nat) : Search :=
  let (due, tasks) := s.tasks.partition (·.wake ≤ now)
  (due.foldl resume { s with now, tasks }).watch

def settle (s : Search) : Search :=
  s.runAt s.now

def nextWake? (s : Search) : Option Nat :=
  (s.tasks.map (·.wake)).min?

def advanceFrom (s : Search) (now target : Nat) : Search :=
  match s.nextWake? with
  | none => { s with now := target }
  | some t =>
      if _ : now < t ∧ t ≤ target then advanceFrom (s.runAt t) t target
      else { s with now := target }
  termination_by target - now

def advanceTo (s : Search) (target : Nat) : Search :=
  s.settle.advanceFrom s.now target

def advance (s : Search) (ms : Nat) : Search :=
  s.advanceTo (s.now + ms)

/-! ## What a console does with a search -/

/-- Begins to look for agents: first the seeds in their order, then the probe. -/
def start (s : Search) : Except StartError Search :=
  match s.directory.start with
  | .error e => .error e
  | .ok directory =>
      let s := { s with directory }.settle
      let seeds := match s.config.strategy with
        | .static seeds => seeds
        | .gossipChain seeds => seeds
        | .orchestrator => []
        | .dns _ => []
      .ok ((seeds.foldl seed s).probe s.now).watch

/--
Tries one address, and waits for the outcome. When a connection is answered the caller goes on first, so what
else is due at that moment is left for later.
-/
def connect (s : Search) (address : String) : Search × Bool :=
  match s.tryConnect address with
  | (s, .inl result) => (s, result)
  | (s, .inr d) => { s.advanceTo (d.due - 1) with now := d.due }.complete d.address d.succeeds

/-- Begins an attempt in the background and gives the number of the call. -/
def call (s : Search) (address : String) : Search × Nat :=
  let number := s.calls.length
  let s := { s.settle with calls := s.calls ++ [none] }
  match s.tryConnect address with
  | (s, .inl result) => ((s.callEnded number result).watch, number)
  | (s, .inr d) => ((s.await (.call number) d).watch, number)

def finish (s : Search) (number : Nat) : Search × Bool :=
  let s := match s.tasks.find? (·.purpose == .call number) with
    | some t => s.advanceTo (max t.wake s.now)
    | none => s
  (s, ((s.calls[number]?).bind id).getD false)

/-- Ends all tasks but the calls, and closes every connection. Then calls whose moment has come go on. -/
def stop (s : Search) : Search :=
  match s.directory.signalStop with
  | none => s.settle
  | some directory =>
      let (directory, clients) := directory.clear
      let isCall (t : Task) : Bool := match t.purpose with
        | .call _ => true
        | _ => false
      let network := clients.foldl Network.close s.network
      { s with directory, network, tasks := s.tasks.filter isCall, unwatched := [] }.settle

def setAgent (s : Search) (address : String) (a : ScriptedAgent) : Search :=
  { s with network := { s.network with agents := s.network.agents.insert address a } }

def drain (s : Search) : Search × Option (List (List Node)) :=
  match s.directory.updates with
  | none => (s, none)
  | some box =>
      let (box, snapshots) := box.drain
      ({ s with directory := { s.directory with updates := some box } }, snapshots)

def dropUpdates (s : Search) : Search :=
  { s with directory := { s.directory with updates := s.directory.updates.map Mailbox.drop } }

end Search

end AgentMesh.Discovery
