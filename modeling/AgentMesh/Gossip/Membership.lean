import AgentMesh.Gossip.Config
import AgentMesh.Gossip.Lifecycle
import AgentMesh.Gossip.Message
import AgentMesh.Gossip.Table
import AgentMesh.Metrics.Event
import AgentMesh.Text.Split

/-!
# Membership

One node of the gossip layer: its settings, its table and its life cycle. Each operation is a step that
returns the new node with what it sends and what it reports. Times are in milliseconds.
-/

namespace AgentMesh.Gossip

/-! ## What a step leaves behind -/

structure Datagram where
  target : Net.SocketAddr
  message : Message
deriving Repr, DecidableEq, Inhabited

structure Output where
  datagrams : List Datagram := []
  events : List Metrics.Event := []
deriving Repr, DecidableEq, Inhabited

instance : Append Output :=
  ⟨fun a b => ⟨a.datagrams ++ b.datagrams, a.events ++ b.events⟩⟩

/-- What a node needs to know of the network: what a seed resolves to, and where a datagram can be sent. -/
structure Network where
  resolve : String → List Net.SocketAddr
  canSend : Net.SocketAddr → Bool

namespace Network

/-- Seeds are literal addresses, and every address of the shorter family can be sent to. -/
def literal : Network where
  resolve seed := (Net.SocketAddr.parse? seed).toList
  canSend
    | .v4 _ _ => true
    | .v6 _ _ _ => false

def unreachable : Network :=
  { literal with canSend := fun _ => false }

end Network

structure Arrival where
  source : Net.SocketAddr
  payload : ByteArray

/-! ## Nodes -/

structure Membership where
  config : Config
  table : Table
  life : Lifecycle := {}
  /-- How many answers to join requests have arrived. -/
  joinAcks : Nat := 0
  seq : Nat := 0

namespace Membership

def create (c : Config) : Except Error Membership :=
  match c.validate with
  | .error e => .error (.validation e)
  | .ok () =>
      .ok { config := c,
            table := .new { name := c.nodeId, addr := .ofIp c.bindAddr c.gossipPort,
                            rpcPort := c.bindPort } }

/-! ### Reports -/

/-- What a change of one member is reported as, given the number of live members after it. -/
def outcomeEvents (live : Nat) : Outcome → List Metrics.Event
  | .joined => [.message Metrics.incoming "join", .connections live]
  | .left => [.message Metrics.incoming "leave", .connections live]
  | .updated => [.message Metrics.incoming "update"]
  | _ => []

def report (live : Nat) (outcomes : List (String × Outcome)) : List Metrics.Event :=
  outcomes.flatMap fun (_, outcome) => outcomeEvents live outcome

/-! ### Sending -/

/-- Sends a message to each target, trimmed to what a datagram can carry. -/
def send (net : Network) (m : Message) (targets : List Net.SocketAddr) : List Datagram :=
  if m.trimmed.fits then (targets.filter net.canSend).map fun target => ⟨target, m.trimmed⟩ else []

/-- Sends a message as it is, or not at all. -/
def sendWhole (net : Network) (m : Message) (targets : List Net.SocketAddr) : List Datagram :=
  if m.fits then (targets.filter net.canSend).map fun target => ⟨target, m⟩ else []

/-! ### Receiving -/

/-- What a message does to the table: a join request first lifts the tombstone of its sender. -/
def absorb (t : Table) (m : Message) (now : Nat) : Table × List (String × Outcome) :=
  let t := match m with
    | .join s => t.forget s.name
    | _ => t
  t.mergeAll (m.sender :: m.members) now

def reply? (t : Table) : Message → Option Message
  | .ping _ seq => some (.ack t.self seq)
  | .join _ => some (.joinAck t.self t.payload)
  | _ => none

/-- Handles a message from another node; a message in this node's own name is ignored. -/
def handle (m : Membership) (net : Network) (msg : Message) (source : Net.SocketAddr) (now : Nat) :
    Membership × Output :=
  if msg.sender.name = m.config.nodeId then (m, {})
  else
    let msg := msg.withSenderAddr source
    let (table, outcomes) := absorb m.table msg now
    let acks := match msg with
      | .joinAck _ _ => 1
      | _ => 0
    let datagrams := match reply? table msg with
      | some reply => send net reply [source]
      | none => []
    ({ m with table, joinAcks := m.joinAcks + acks },
      { datagrams, events := report table.liveCount outcomes })

/-- Takes a datagram while the node runs; one that is not a message is dropped. -/
def receive (m : Membership) (net : Network) (a : Arrival) (now : Nat) : Membership × Output :=
  if m.life.tasks = 0 then (m, {})
  else
    match Message.decode? a.payload with
    | none => (m, {})
    | some msg => m.handle net msg a.source now

def receiveAll (m : Membership) (net : Network) : List Arrival → Nat → Membership × Output
  | [], _ => (m, {})
  | a :: as, now =>
      let (m, out) := m.receive net a now
      let (m, rest) := m.receiveAll net as now
      (m, out ++ rest)

/-! ### Rounds -/

/-- One round: heartbeat, failure detection, the news to some peers, and a ping to one of them. -/
def round (m : Membership) (net : Network) (pick : Sampler) (now : Nat) : Membership × Output :=
  let (table, outcomes) := m.table.beat.tick now m.config.suspectAfter m.config.deadAfter
  let events := report table.liveCount outcomes
  let (table, _) := table.purge now m.config.tombstoneTtl
  let push := send net (.gossip table.self table.payload) (pick m.config.fanout table.peerAddrs)
  let ping := send net (.ping table.self m.seq) (pick 1 table.peerAddrs)
  ({ m with table, seq := m.seq + 1 }, { datagrams := push ++ ping, events })

/-! ### Joining -/

/-- A seed without a port is reached at the gossip port. -/
def seedAddress (seed : String) (port : UInt16) : String :=
  let hasPort := match Text.splitLast ':' seed.toList with
    | some (_, tail) => (Text.readPort? tail).isSome
    | none => false
  if hasPort then seed else seed ++ ":" ++ toString port.toNat

def joinRequests (m : Membership) (net : Network) (seeds : List String) : List Datagram :=
  sendWhole net (.join m.table.self) <|
    seeds.flatMap fun seed => net.resolve (seedAddress seed m.config.gossipPort)

/-- How a join ends, given the requests that went out and the answers counted before them. -/
def joinResult (m : Membership) (requests : List Datagram) (acksBefore : Nat) : Except Error Nat :=
  if requests.isEmpty then .error (.joinFailed .noSeedContacted)
  else if acksBefore < m.joinAcks then .ok m.table.liveCount
  else .error (.joinFailed (.noAnswer m.config.joinTimeout))

/-- Asks the seeds to be let in, and takes what arrives until one of them answers or time is up. -/
def join (m : Membership) (net : Network) (seeds : List String) (arrivals : List Arrival) (now : Nat) :
    Membership × Except Error Nat × Output :=
  match m.life.openSocket with
  | .error e => (m, .error e, {})
  | .ok _ =>
      let requests := m.joinRequests net seeds
      let (m', out) := m.receiveAll net arrivals now
      (m', m'.joinResult requests m.joinAcks, { datagrams := requests } ++ out)

/-! ### Starting, leaving, stopping -/

/-- The first sections of a start, given the socket that was bound, if any. -/
def beginStart (m : Membership) (bound : Option Net.SocketAddr) : Membership × Except Error Unit × Output :=
  match m.life.enter with
  | .error e => (m, .error e, {})
  | .ok life =>
      match bound with
      | none =>
          ({ m with life := life.bindFailed }, .error .bind,
            { events := [.message Metrics.outgoing "start_failed"] })
      | some addr =>
          let table := m.table.setAddr addr
          match life.install addr with
          | .error e => ({ m with life, table }, .error e, {})
          | .ok life => ({ m with life, table }, .ok (), {})

/-- The last section of a start, given how joining went, if seeds were given. -/
def finishStart (m : Membership) (joined : Option Bool) (nanos : Nat) : Membership × Output :=
  let phase : Phase := if joined = some true then .joined else .standalone
  let m := { m with life := m.life.settle phase }
  let word := match joined with
    | none => []
    | some true => [Metrics.Event.message Metrics.outgoing "join_cluster_success"]
    | some false => [Metrics.Event.message Metrics.outgoing "join_cluster_failed"]
  (m, { events := word ++ [.message Metrics.outgoing "start_success",
          .latency "local" "network_start" nanos, .connections m.table.liveCount] })

/--
Starts the node: binds, asks the seeds, runs the first round, and takes what arrives. A node that finds no
cluster stands alone.
-/
def start (m : Membership) (net : Network) (pick : Sampler) (seeds : List String)
    (bound : Option Net.SocketAddr) (arrivals : List Arrival) (now : Nat) :
    Membership × Except Error Unit × Output :=
  match m.beginStart bound with
  | (m, .error e, out) => (m, .error e, out)
  | (m, .ok (), out) =>
      let requests := if seeds.isEmpty then [] else m.joinRequests net seeds
      let acks := m.joinAcks
      let (m, first) := m.round net pick now
      let (m, answers) := m.receiveAll net arrivals now
      let joined := if seeds.isEmpty then none
        else some (m.joinResult requests acks matches .ok _)
      let (m, last) := m.finishStart joined 0
      (m, .ok (), out ++ { datagrams := requests } ++ first ++ answers ++ last)

def leave (m : Membership) (net : Network) : Membership × Except Error Unit × Output :=
  match m.life.openSocket with
  | .error e => (m, .error e, {})
  | .ok _ =>
      let table := m.table.leave
      ({ m with table }, .ok (),
        { datagrams := sendWhole net (.gossip table.self [table.self]) table.peerAddrs,
          events := [.message Metrics.outgoing "leave"] })

/-- Replaces what the node says about itself, and tells some peers if it runs. -/
def updateProfile (m : Membership) (net : Network) (pick : Sampler) (profile : Profile) :
    Membership × Output :=
  let table := m.table.setProfile profile
  let datagrams := match m.life.openSocket with
    | .error _ => []
    | .ok _ => send net (.gossip table.self [table.self]) (pick m.config.fanout table.peerAddrs)
  ({ m with table }, { datagrams })

/-- Stopping a second time changes nothing. -/
def stop (m : Membership) : Membership × Output :=
  if m.life.phase = .stopped then (m, {})
  else ({ m with life := m.life.stop }, { events := [.connections 0] })

/-! ### Views -/

/-- The live members while the node runs, at a time that is `epoch` seconds after the Unix epoch. -/
def members (m : Membership) (now epoch : Nat) : List Member :=
  if m.life.phase.isRunning then
    m.table.liveRecords.map fun r =>
      .ofRecord r <| match m.table.lastHeard? r.name with
        | some at_ => epoch - (now - at_) / 1000
        | none => epoch
  else []

def nodes (m : Membership) (now epoch : Nat) : List Node :=
  (m.members now epoch).map Member.toNode

end Membership

end AgentMesh.Gossip
