import AgentMesh.Gossip.Record
import Std.Data.ExtTreeMap

/-!
# Member tables

What one node knows about the members of its cluster: its own record, the live peers, and tombstones of
members that died or left, which keep old news from bringing them back. Times are in milliseconds and are
passed in.

Of two records about a member, the one with the higher incarnation wins, and at the same incarnation the one
with the more severe state. A higher heartbeat at the same incarnation only shows that the member lives.
-/

namespace AgentMesh.Gossip

/-- A map from names, listed in their order. -/
abbrev NameMap (α : Type) := Std.ExtTreeMap String α

/-- What a merge or a tick did to a member. -/
inductive Outcome
  | joined
  | updated
  | suspected
  | left
  | refuted
  | unchanged
deriving Repr, DecidableEq, Inhabited

structure Peer where
  record : MemberRecord
  lastHeard : Nat
  stateSince : Nat
deriving Repr, DecidableEq, Inhabited

structure Tombstone where
  record : MemberRecord
  since : Nat
deriving Repr, DecidableEq, Inhabited

/-! ## What becomes of one peer -/

namespace Peer

/-- News that do not supersede what is known; they may still show that the peer lives. -/
def refresh (p : Peer) (r : MemberRecord) (now : Nat) : Peer :=
  if r.incarnation = p.record.incarnation ∧ p.record.heartbeat < r.heartbeat then
    { p with record := { p.record with heartbeat := r.heartbeat }, lastHeard := now }
  else p

/-- News of a live peer that supersede what is known. -/
def replace (p : Peer) (r : MemberRecord) (now : Nat) : Peer where
  record := r
  lastHeard := if r.state = .alive then now else p.lastHeard
  stateSince := if r.state = p.record.state then p.stateSince else now

/-- A peer that has been silent for too long to be called alive. -/
def fallsSuspect (p : Peer) (now suspectAfter : Nat) : Bool :=
  p.record.state == .alive && suspectAfter ≤ now - p.lastHeard

/-- A suspect that is still silent and has been suspect for too long. -/
def dies (p : Peer) (now suspectAfter deadAfter : Nat) : Bool :=
  p.record.state == .suspect && suspectAfter ≤ now - p.lastHeard && deadAfter ≤ now - p.stateSince

def suspect (p : Peer) (now : Nat) : Peer :=
  { p with record := { p.record with state := .suspect }, stateSince := now }

def buried (p : Peer) (now : Nat) : Tombstone :=
  ⟨{ p.record with state := .dead }, now⟩

/-- A peer after a tick that it survives. -/
def afterTick (p : Peer) (now suspectAfter : Nat) : Peer :=
  if p.fallsSuspect now suspectAfter then p.suspect now else p

end Peer

/-! ## Tables -/

structure Table where
  self : MemberRecord
  peers : NameMap Peer := ∅
  tombstones : NameMap Tombstone := ∅

namespace Table

def new (self : MemberRecord) : Table :=
  { self }

/-! ### The node itself -/

def setAddr (t : Table) (addr : Net.SocketAddr) : Table :=
  { t with self := { t.self with addr } }

def beat (t : Table) : Table :=
  { t with self := { t.self with heartbeat := t.self.heartbeat + 1 } }

/-- A new profile comes with a new incarnation, so that peers take it over. -/
def setProfile (t : Table) (profile : Profile) : Table :=
  { t with self := { t.self with profile, incarnation := t.self.incarnation + 1 } }

/-- Leaving is final, and a second time changes nothing. -/
def leave (t : Table) : Table :=
  if t.self.state = .left then t
  else { t with self := { t.self with state := .left, incarnation := t.self.incarnation + 1 } }

/-! ### Merging -/

def forget (t : Table) (name : String) : Table :=
  { t with tombstones := t.tombstones.erase name }

def bury (t : Table) (r : MemberRecord) (now : Nat) : Table :=
  { t with tombstones := t.tombstones.insert r.name ⟨r, now⟩ }

def enroll (t : Table) (r : MemberRecord) (now : Nat) : Table :=
  { t with peers := t.peers.insert r.name ⟨r, now, now⟩ }

/-- News about the node itself: unless it has left, it outbids what disputes that it is alive. -/
def mergeSelf (t : Table) (r : MemberRecord) : Table × Outcome :=
  if t.self.state = .left then (t, .unchanged)
  else if t.self.incarnation < r.incarnation ∨
      (r.incarnation = t.self.incarnation ∧ r.state ≠ .alive) then
    ({ t with self := { t.self with incarnation := r.incarnation + 1 } }, .refuted)
  else (t, .unchanged)

/-- News about a member without a tombstone. -/
def mergePeer (t : Table) (r : MemberRecord) (now : Nat) : Table × Outcome :=
  match t.peers[r.name]? with
  | none => if r.state.isLive then (t.enroll r now, .joined) else (t.bury r now, .unchanged)
  | some p =>
      if !r.supersedes p.record then
        ({ t with peers := t.peers.insert r.name (p.refresh r now) }, .unchanged)
      else if !r.state.isLive then
        ({ t with peers := t.peers.erase r.name }.bury r now, .left)
      else
        ({ t with peers := t.peers.insert r.name (p.replace r now) },
          if r.state = .suspect ∧ p.record.state = .alive then .suspected else .updated)

def merge (t : Table) (r : MemberRecord) (now : Nat) : Table × Outcome :=
  if r.name = t.self.name then t.mergeSelf r
  else
    match t.tombstones[r.name]? with
    | none => t.mergePeer r now
    | some tomb =>
        if r.incarnation ≤ tomb.record.incarnation then (t, .unchanged)
        else if !r.state.isLive then (t.bury r now, .unchanged)
        else (t.forget r.name).mergePeer r now

/-- Merges records in order, and names each with its outcome. -/
def mergeAll (t : Table) : List MemberRecord → Nat → Table × List (String × Outcome)
  | [], _ => (t, [])
  | r :: rs, now =>
      let (t, outcome) := t.merge r now
      let (t, outcomes) := t.mergeAll rs now
      (t, (r.name, outcome) :: outcomes)

/-! ### Failure detection -/

/-- Suspects silent peers and buries silent suspects. Names first those who fell suspect, then the dead. -/
def tick (t : Table) (now suspectAfter deadAfter : Nat) : Table × List (String × Outcome) :=
  let fallen := t.peers.filter fun _ p => p.fallsSuspect now suspectAfter
  let dead := t.peers.filter fun _ p => p.dies now suspectAfter deadAfter
  let living := t.peers.filter fun _ p => !p.dies now suspectAfter deadAfter
  ({ t with
      peers := living.map fun _ p => p.afterTick now suspectAfter
      tombstones := t.tombstones ∪ dead.map fun _ p => p.buried now },
    fallen.keys.map (·, .suspected) ++ dead.keys.map (·, .left))

/-- Drops tombstones that are `ttl` old, and says how many. -/
def purge (t : Table) (now ttl : Nat) : Table × Nat :=
  let kept := t.tombstones.filter fun _ s => now - s.since < ttl
  ({ t with tombstones := kept }, t.tombstones.size - kept.size)

/-! ### Views -/

def peerRecords (t : Table) : List MemberRecord :=
  t.peers.toList.map fun (_, p) => p.record

def tombstoneRecords (t : Table) : List MemberRecord :=
  t.tombstones.toList.map fun (_, s) => s.record

/-- The node itself while it is live, then its live peers by name. -/
def liveRecords (t : Table) : List MemberRecord :=
  (if t.self.state.isLive then [t.self] else []) ++ t.peerRecords

/-- Everything worth telling a peer, the node itself first. -/
def payload (t : Table) : List MemberRecord :=
  t.self :: (t.peerRecords ++ t.tombstoneRecords)

def peerAddrs (t : Table) : List Net.SocketAddr :=
  t.peerRecords.map (·.addr)

def lastHeard? (t : Table) (name : String) : Option Nat :=
  t.peers[name]?.map (·.lastHeard)

def liveCount (t : Table) : Nat :=
  t.peers.size + if t.self.state.isLive then 1 else 0

end Table

/-! ## Choosing peers -/

/-- A way to choose some of the given addresses, at most the given number. -/
abbrev Sampler := Nat → List Net.SocketAddr → List Net.SocketAddr

def Sampler.first : Sampler := fun n addrs => addrs.take n

end AgentMesh.Gossip
