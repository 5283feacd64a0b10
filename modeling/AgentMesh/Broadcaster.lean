import AgentMesh.AgentError
import AgentMesh.Mailbox
import AgentMesh.Metrics.Event

/-!
# Broadcasting resources

A broadcaster owns the current resources of a node and pushes them to its subscribers, each of which has a
mailbox. A mailbox whose owner is gone is struck off.
-/

namespace AgentMesh

/-! ## Broadcasters -/

/-- Mailboxes are numbered in the order in which they were made; a subscription names one of them. -/
structure Broadcaster where
  resources : Resources := {}
  nodes : List Node := []
  subscribers : List Nat := []
  mailboxes : List (Mailbox Resources) := []
  /-- Milliseconds between two announcements. -/
  interval : Nat := 30000
deriving Repr, DecidableEq, Inhabited

namespace Broadcaster

/-! ### Subscribers -/

def isOpenAt (b : Broadcaster) (i : Nat) : Bool :=
  match b.mailboxes[i]? with
  | some box => box.isOpen
  | none => false

def subscribeTimes (b : Broadcaster) (capacity times : Nat) : Broadcaster × Nat :=
  let i := b.mailboxes.length
  ({ b with mailboxes := b.mailboxes ++ [{ capacity }],
            subscribers := b.subscribers ++ List.replicate times i }, i)

/-- Makes a mailbox of at least one place and subscribes it. -/
def subscribe (b : Broadcaster) (capacity : Nat) : Broadcaster × Nat :=
  b.subscribeTimes (max capacity 1) 1

def close (b : Broadcaster) (i : Nat) : Broadcaster :=
  { b with mailboxes := b.mailboxes.modify i Mailbox.close }

def drop (b : Broadcaster) (i : Nat) : Broadcaster :=
  { b with mailboxes := b.mailboxes.modify i Mailbox.drop }

def receive (b : Broadcaster) (i : Nat) : Broadcaster × Option Resources :=
  ({ b with mailboxes := b.mailboxes.modify i fun box => box.receive.1 }, b.mailboxes[i]?.bind fun box => box.receive.2)

def drain (b : Broadcaster) (i : Nat) : Broadcaster × Option (List Resources) :=
  match b.mailboxes[i]? with
  | none => (b, none)
  | some box => ({ b with mailboxes := b.mailboxes.set i box.drain.1 }, box.drain.2)

/-! ### Pushing -/

def deliver (b : Broadcaster) (i : Nat) (r : Resources) : Broadcaster :=
  { b with mailboxes := b.mailboxes.modify i fun box => box.push r }

/-- Strikes off every subscriber whose mailbox is closed. -/
def prune (b : Broadcaster) : Broadcaster :=
  { b with subscribers := b.subscribers.filter b.isOpenAt }

/-- Pushes to a list of subscribers, and prunes if one of them was closed. -/
def fanOut (b : Broadcaster) (targets : List Nat) (r : Resources) : Broadcaster :=
  let pushed := targets.foldl (fun b i => b.deliver i r) b
  if targets.all b.isOpenAt then pushed else pushed.prune

/-- Layers are not overcommitted and not negative. -/
def check (r : Resources) : Except AgentError Unit :=
  if 0 ≤ r.maxLayers ∧ r.maxLayers < r.usedLayers then .error (.layerOvercommit r.usedLayers r.maxLayers)
  else
    match r.validate with
    | .error e => .error (.invalidResources e)
    | .ok () => .ok ()

/-- The first section of an update: keeps the resources and notes who is to be told. -/
def store (b : Broadcaster) (r : Resources) : Broadcaster × List Nat :=
  ({ b with resources := r }, b.subscribers)

/-- Replaces the resources and pushes them, unless they are invalid. -/
def update (b : Broadcaster) (r : Resources) : Broadcaster × Except AgentError Unit × List Metrics.Event :=
  match check r with
  | .error e => (b, .error e, [])
  | .ok () =>
      let (b, targets) := b.store r
      (b.fanOut targets r, .ok (), [.resources r])

def broadcast (b : Broadcaster) : Broadcaster × List Metrics.Event :=
  (b.fanOut b.subscribers b.resources, [.message Metrics.outgoing "resource_broadcast"])

def addNode (b : Broadcaster) (n : Node) : Broadcaster × List Metrics.Event :=
  let nodes := b.nodes ++ [n]
  ({ b with nodes }, [.connections nodes.length, .message Metrics.incoming "node_added"])

end Broadcaster

/-! ## Announcing in turns -/

/--
A broadcaster whose loops announce the resources. A loop ticks whenever another whole interval has passed
since its start, until all loops are shut down.
-/
structure Announcer where
  broadcaster : Broadcaster
  /-- Milliseconds. -/
  now : Nat := 0
  /-- When each loop was started. -/
  starts : List Nat := []
  isShutDown : Bool := false
deriving Repr, DecidableEq, Inhabited

namespace Announcer

/-- A loop that is started after the shutdown ends at once. -/
def start (a : Announcer) : Announcer :=
  { a with starts := a.starts ++ [a.now] }

def shutdown (a : Announcer) : Announcer :=
  { a with isShutDown := true }

def dueTicks (a : Announcer) (ms : Nat) : Nat :=
  if a.isShutDown then 0
  else
    let period := a.broadcaster.interval
    a.starts.foldl (fun ticks s => ticks + ((a.now + ms - s) / period - (a.now - s) / period)) 0

def broadcastTimes : Nat → Broadcaster → Broadcaster × List Metrics.Event
  | 0, b => (b, [])
  | n + 1, b =>
      let (b, events) := b.broadcast
      let (b, rest) := broadcastTimes n b
      (b, events ++ rest)

def advance (a : Announcer) (ms : Nat) : Announcer × List Metrics.Event :=
  let (broadcaster, events) := broadcastTimes (a.dueTicks ms) a.broadcaster
  ({ a with broadcaster, now := a.now + ms }, events)

end Announcer

end AgentMesh
