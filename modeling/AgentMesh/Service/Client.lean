import AgentMesh.Service.ConsoleCalls
import AgentMesh.Service.DiscoveryCalls
import AgentMesh.Service.Endpoint
import AgentMesh.Service.NodeCalls

/-!
# Clients

A client calls the services of one agent. Requests and responses travel in their encoded form.
-/

namespace AgentMesh.Service

inductive CallError
  | invalidEndpoint
  | connect
  | status (s : Status)
  | undecodable
  | missingField (name : String)
deriving Repr, DecidableEq, Inhabited

structure Answer (α : Type) where
  result : Except CallError α
  events : List Metrics.Event

def Answer.map {α β : Type} (f : α → β) (a : Answer α) : Answer β :=
  ⟨a.result.map f, a.events⟩

/-- A call whose request and response are encoded on one side and decoded on the other. -/
def overWire {α β : Type} [Wire.Message α] [Wire.Message β] (handler : α → Outcome β) (req : α) :
    Answer β :=
  match Wire.Message.decode? (Wire.Message.encode req) with
  | none => ⟨.error .undecodable, []⟩
  | some req =>
      let outcome := handler req
      match outcome.result with
      | .error s => ⟨.error (.status s), outcome.events⟩
      | .ok res =>
          match Wire.Message.decode? (Wire.Message.encode res) with
          | none => ⟨.error .undecodable, outcome.events⟩
          | some res => ⟨.ok res, outcome.events⟩

/-- A client is known to agents by its name. -/
structure Client where
  requester : String := "llmesh-console"
deriving Repr, DecidableEq, Inhabited

/-- Whether a client can be made for an address at which nobody answers. -/
def connectUnanswered (address : String) : CallError :=
  if Endpoint.isValid address then .connect else .invalidEndpoint

namespace Client

def resources (c : Client) (s : Server) : Answer Resources :=
  (overWire s.getResources { nodeId := c.requester }).map fun r => r.resources.getD {}

def healthCheck (c : Client) (s : Server) (clock : Clock) : Answer Wire.HealthCheckResponse :=
  overWire (s.healthCheck clock) { nodeId := c.requester }

/-- The peers of the agent, never the agent itself. -/
def peerNodes (c : Client) (s : Server) : Answer (List Node) :=
  (overWire s.getPeers { nodeId := c.requester }).map fun r => r.peers.map Node.ofInfo

def peers (c : Client) (s : Server) : Answer (List String) :=
  (c.peerNodes s).map fun ns => ns.map Node.endpoint

def nodeMetrics (c : Client) (s : Server) (clock : Clock) : Answer Wire.NodeMetrics :=
  let answer := overWire (s.getMetrics clock) { nodeId := c.requester }
  match answer.result with
  | .error e => ⟨.error e, answer.events⟩
  | .ok { metrics := some m } => ⟨.ok m, answer.events⟩
  | .ok { metrics := none } => ⟨.error (.missingField "metrics"), answer.events⟩

def infer (_ : Client) (s : Server) (req : Wire.InferenceRequest) : Answer Wire.InferenceResponse :=
  overWire s.processInference req

def clusterInfo (c : Client) (s : Server) : Answer Wire.ClusterInfoResponse :=
  overWire s.getClusterInfo { requesterId := c.requester }

/-- The nodes that the agent knows and the caller does not. -/
def discover (c : Client) (s : Server) (known : List String) : Answer (List Node) :=
  (overWire s.discoverNodes { requesterId := c.requester, knownNodes := known }).map fun r =>
    r.discoveredNodes.map Node.ofInfo

def nodes (c : Client) (s : Server) : Answer (List Node) :=
  (overWire s.getNodeList { requesterId := c.requester }).map fun r => r.nodes.map Node.ofInfo

def models (c : Client) (s : Server) : Answer (List Model) :=
  (overWire s.getModelList { requesterId := c.requester }).map fun r => r.models.map Model.ofInfo

def execute (c : Client) (s : Server) (command : String) (args : List String) :
    Answer Wire.CommandResponse :=
  overWire s.executeCommand { requesterId := c.requester, command, args }

/-- The first message of a stream of metrics, after which the stream is dropped. -/
def firstMetrics (c : Client) (s : Server) (clock : Clock) (intervalSeconds : Int32) :
    Answer (Option Wire.NodeMetrics) :=
  let stream := s.streamMetrics { nodeId := c.requester, intervalSeconds }
  let (received, events) := stream.receive clock 1
  ⟨.ok (received.head?.map (·.2)), events⟩

def openUpdates (c : Client) (s : Server) (clock : Clock) (types : List String) : Answer Unit :=
  match s.streamUpdates { requesterId := c.requester, updateTypes := types, intervalSeconds := 1 } with
  | .error e => ⟨.error (.status e), []⟩
  | .ok stream => ⟨.ok (), (stream.receive clock 0).2⟩

end Client

/-! ## One command -/

structure Execution where
  code : Int
  stdout : String
  stderr : String
deriving Repr, DecidableEq, Inhabited

/-- Prints the output of a command that succeeds, and the error of one that fails. -/
def Execution.ofResponse (r : Wire.CommandResponse) : Execution :=
  let code := r.exitCode.toInt
  if r.success then ⟨code, r.output ++ "\n", ""⟩ else ⟨code, "", r.error ++ "\n"⟩

/-- Runs one command at the agent that answers at an address, if there is one. -/
def runCommand (agent : Option Server) (address command : String) (args : List String) :
    Except String Execution :=
  match agent with
  | none => .error ("connecting to " ++ address)
  | some s =>
      match (({} : Client).execute s command args).result with
      | .ok r => .ok (.ofResponse r)
      | .error _ => .error "rpc failed"

end AgentMesh.Service
