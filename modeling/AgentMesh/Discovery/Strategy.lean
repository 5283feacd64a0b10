import AgentMesh.Config
import AgentMesh.Discovery.Address

/-!
# Where agents are looked for

A strategy says which addresses are tried: given seeds, names under which agents are usually deployed,
names of a cluster's own name service, or the peers that known agents report.
-/

namespace AgentMesh.Discovery

inductive Strategy
  | static (seeds : List String)
  | orchestrator
  | dns (namespaceName : String)
  | gossipChain (seeds : List String)
deriving Repr, DecidableEq, Inhabited

namespace Strategy

def ofConsole (c : ConsoleConfig) : Strategy :=
  match c.mode with
  | .docker => .orchestrator
  | .kubernetes => .dns c.namespaceName
  | .seeds => .gossipChain c.effectiveSeeds
  | .static => .static c.effectiveSeeds

def name : Strategy → String
  | static _ => "static"
  | orchestrator => "orchestrator"
  | dns _ => "dns"
  | gossipChain _ => "gossip_chain"

end Strategy

/-! ## Well-known addresses -/

def serviceNames : List String := ["distributed-llm-agent", "agent", "llm-agent"]

def probePorts : List Nat := [8080, 8081, 8082, 8083]

/-- Every service name with every port, then the ports of the local host. -/
def orchestratorAddresses : List String :=
  (serviceNames ++ ["localhost"]).flatMap fun name =>
    probePorts.map fun port => name ++ ":" ++ toString port

def dnsAddresses (namespaceName : String) : List String :=
  serviceNames.map fun name =>
    name ++ "." ++ namespaceName ++ ".svc.cluster.local:" ++ toString defaultPort.toNat

/-- The service record that lists the agents of a namespace. -/
def serviceRecord (namespaceName : String) : String :=
  "_grpc._tcp.distributed-llm." ++ namespaceName ++ ".svc.cluster.local"

/-! ## Settings -/

/-- Periods are in milliseconds. -/
structure Config where
  strategy : Strategy := .orchestrator
  retry : Nat := 5000
  orchestratorPeriod : Nat := 5000
  dnsPeriod : Nat := 10000
  peerPeriod : Nat := 30000
  healthPeriod : Nat := 10000
  /-- Failed polls in a row after which an agent is dropped; zero counts as one. -/
  failureThreshold : Nat := 1
deriving Repr, DecidableEq, Inhabited

def Config.withFailureThreshold (c : Config) (threshold : Nat) : Config :=
  { c with failureThreshold := max threshold 1 }

end AgentMesh.Discovery
