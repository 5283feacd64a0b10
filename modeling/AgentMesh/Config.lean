import AgentMesh.Resources

/-!
# Settings of agents and consoles
-/

namespace AgentMesh

structure AgentConfig where
  nodeId : Option String := none
  bindPort : UInt16 := 8080
  gossipPort : UInt16 := 7946
  metricsPort : UInt16 := 9090
  seeds : List String := []
  maxLayers : Int32 := 20
  gpus : List Gpu := []
deriving Repr, DecidableEq, Inhabited

def AgentConfig.validate (c : AgentConfig) : Except ValidationError Unit := do
  match c.nodeId with
  | none => pure ()
  | some id => validateNodeId id
  discard <| validatePortPair c.bindPort.toNat c.gossipPort.toNat
  if c.maxLayers < 0 then .error (.negativeMaxLayers c.maxLayers) else .ok ()

/-- The configured name of an agent, or the name of its host. -/
def AgentConfig.resolveNodeId (c : AgentConfig) (hostname : String) : Except ValidationError String := do
  let id := c.nodeId.getD hostname
  validateNodeId id
  return id

/-- The name under which an agent starts, if its settings are valid. -/
def AgentConfig.startName (c : AgentConfig) (hostname : String) : Except ValidationError String := do
  c.validate
  c.resolveNodeId hostname

inductive ConsoleMode
  | seeds
  | static
  | docker
  | kubernetes
deriving Repr, DecidableEq, Inhabited

namespace ConsoleMode

def name : ConsoleMode → String
  | seeds => "seeds"
  | static => "static"
  | docker => "docker"
  | kubernetes => "kubernetes"

def all : List ConsoleMode := [seeds, static, docker, kubernetes]

def ofName? (s : String) : Option ConsoleMode :=
  all.find? (·.name == s)

end ConsoleMode

structure ConsoleConfig where
  mode : ConsoleMode := .seeds
  seeds : List String := []
  /-- The namespace of the agents' services. -/
  namespaceName : String := "default"
  /-- How many snapshots of the nodes may wait to be shown. -/
  updateBuffer : Nat := 10
deriving Repr, DecidableEq, Inhabited

namespace ConsoleConfig

/-- Where agents are looked for when no seed is configured. -/
def defaultSeeds (c : ConsoleConfig) : List String :=
  match c.mode with
  | .docker => ["distributed-llm-agent:8080", "agent:8080", "localhost:8080", "localhost:8081",
      "localhost:8082"]
  | .kubernetes => ["distributed-llm-agent." ++ c.namespaceName ++ ".svc.cluster.local:8080",
      "agent." ++ c.namespaceName ++ ".svc.cluster.local:8080"]
  | .seeds => ["localhost:8080", "127.0.0.1:8080"]
  | .static => ["localhost:8080", "127.0.0.1:8080"]

def effectiveSeeds (c : ConsoleConfig) : List String :=
  if c.seeds.isEmpty then c.defaultSeeds else c.seeds

end ConsoleConfig

structure MeshConfig where
  agent : AgentConfig := {}
  console : ConsoleConfig := {}
deriving Repr, DecidableEq, Inhabited

end AgentMesh
