import AgentMesh.Service.Conversion
import AgentMesh.Service.Server

/-!
# The node service

Resources, inference, health, peers and metrics of one node.
-/

namespace AgentMesh.Service.Server

def registerNode (_ : Server) (req : Wire.RegisterNodeRequest) : Outcome Wire.RegisterNodeResponse :=
  timed "RegisterNode" <|
    if req.nodeId.isEmpty then .error (.invalidArgument "node_id cannot be empty")
    else .ok { success := true, message := "Node registered successfully" }

def getResources (s : Server) (_ : Wire.GetResourcesRequest) : Outcome Wire.GetResourcesResponse :=
  let r := s.view.broadcaster.resources
  timed "GetResources" (.ok { resources := some r, availableLayers := r.availableLayers })

/-! ## Inference -/

def modelOf (req : Wire.InferenceRequest) : String :=
  if req.modelId.isEmpty then defaultModel else req.modelId

/-- How an inference ends, and the outcome and tokens that it is counted with. -/
def infer (s : Server) (req : Wire.InferenceRequest) :
    Except Status Wire.InferenceResponse × String × Nat :=
  if req.prompt.isEmpty then (.error (.invalidArgument "prompt cannot be empty"), "error", 0)
  else
    let prompt : Prompt :=
      { requestId := req.requestId, modelId := modelOf req, prompt := req.prompt,
        maxTokens := req.maxTokens }
    match s.engine prompt with
    | .ok out =>
        (.ok { requestId := req.requestId, generatedText := out.text, success := true,
               tokensGenerated := clampInt32 out.tokens }, "success", out.tokens)
    | .error (.invalidRequest reason) => (.error (.invalidArgument reason), "error", 0)
    | .error e => (.ok { requestId := req.requestId, error := e.message }, "error", 0)

/-- Every request is counted once, under its model and how it ended. -/
def processInference (s : Server) (req : Wire.InferenceRequest) : Outcome Wire.InferenceResponse :=
  let (result, status, tokens) := s.infer req
  ⟨result, [.inference (modelOf req) status 0 tokens, callTime "ProcessInference"]⟩

/-! ## Health, peers and metrics -/

def healthCheck (_ : Server) (clock : Clock) (_ : Wire.HealthCheckRequest) :
    Outcome Wire.HealthCheckResponse :=
  timed "HealthCheck" <|
    .ok { healthy := true, status := "running", uptimeSeconds := Int64.ofNat clock.uptimeSecs }

def getPeers (s : Server) (_ : Wire.GetPeersRequest) : Outcome Wire.GetPeersResponse :=
  timed "GetPeers" (.ok { peers := s.view.peers.map Node.toInfo })

def getMetrics (s : Server) (clock : Clock) (_ : Wire.GetMetricsRequest) :
    Outcome Wire.GetMetricsResponse :=
  timed "GetMetrics" (.ok { metrics := some (s.view.nodeMetrics clock) })

/-- Metrics at once and then once in each period, which is at least one second. -/
def streamMetrics (s : Server) (req : Wire.StreamMetricsRequest) : Stream Wire.NodeMetrics where
  method := "StreamMetrics"
  first := 0
  period := (max 1 req.intervalSeconds.toInt).toNat * 1000
  turn clock := [s.view.nodeMetrics clock]

end AgentMesh.Service.Server
