import AgentMesh.Discovery.Directory

/-!
# Attempts and monitors

The two kinds of work that change the directory. An attempt tries to register the agent at an address. A
monitor polls a registered agent and strikes it off after too many failures in a row. Both are given as the
place that the work has reached, with one step to the next place; between two steps any other work may go
on.
-/

namespace AgentMesh.Discovery

/-! ## Attempts -/

/-- The place that an attempt has reached. -/
inductive Attempt
  | called (address : String)
  /-- The search is not stopping; the address is looked up next. -/
  | allowed (address : String)
  /-- The address is not known; the network is asked for a connection. -/
  | connecting (address : String)
  /-- The agent is asked for its resources. -/
  | querying (client : Handle)
  | entering (client : Handle) (resources : Resources)
  /-- The connection is not needed. -/
  | closing (client : Handle) (result : Bool)
  | announcing
  /-- It is said whether the agent is registered. -/
  | finished (result : Bool)
deriving Repr, DecidableEq, Inhabited

namespace Attempt

/-- The next place, as far as the directory decides about it. -/
def proceed (d : Directory) (now : Nat) : Attempt → Directory × Attempt
  | called address => (d, if d.isStopping then finished false else allowed address)
  | allowed address => (d, if d.isKnown address then finished true else connecting address)
  | entering client resources =>
      match d.enter client resources now with
      | (d, .registered) => (d, announcing)
      | (d, .refused isKnown) => (d, closing client isKnown)
  | announcing => (d.announce, finished true)
  | a => (d, a)

def connected : Attempt → Option Handle → Attempt
  | connecting _, some client => querying client
  | connecting _, none => finished false
  | a, _ => a

def answered : Attempt → Option Resources → Attempt
  | querying client, some resources => entering client resources
  | querying client, none => closing client false
  | a, _ => a

def closed : Attempt → Attempt
  | closing _ result => finished result
  | a => a

end Attempt

/-! ## Monitors -/

inductive Monitor
  /-- The next poll is awaited, after so many failures in a row. -/
  | waiting (failures : Nat)
  | noting (failures : Nat) (answer : Option Resources)
  | closing (client : Option Handle)
  /-- The monitor goes on, or it ends after too many failures. -/
  | announcing (next : Option Nat)
  | ended
deriving Repr, DecidableEq, Inhabited

namespace Monitor

def polled : Monitor → Option Resources → Monitor
  | waiting failures, answer => noting failures answer
  | m, _ => m

/-- The next place, as far as the directory decides about it. -/
def proceed (d : Directory) (threshold : Nat) (address : String) (now : Nat) : Monitor → Directory × Monitor
  | noting _ (some resources) => (d.observed address resources now, announcing (some 0))
  | noting failures none =>
      if max threshold 1 ≤ failures + 1 then
        let (d, client) := d.strike address
        (d, closing client)
      else (d.missed address, announcing (some (failures + 1)))
  | announcing (some failures) => (d.announce, waiting failures)
  | announcing none => (d.announce, ended)
  | m => (d, m)

def closed : Monitor → Monitor
  | closing _ => announcing none
  | m => m

end Monitor

end AgentMesh.Discovery
