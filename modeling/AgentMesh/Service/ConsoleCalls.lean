import AgentMesh.Service.Capacity
import AgentMesh.Service.Conversion
import AgentMesh.Service.Server

/-!
# The console service

Lists of nodes and models, a stream of updates, and a closed set of commands.
-/

namespace AgentMesh.Service

/-! ## Updates -/

inductive UpdateKind
  | nodes
  | models
  | metrics
deriving Repr, DecidableEq, Inhabited

namespace UpdateKind

def name : UpdateKind → String
  | nodes => "nodes"
  | models => "models"
  | metrics => "metrics"

def all : List UpdateKind := [nodes, models, metrics]

/-- The kind of this name, or why there is none. -/
def ofName (s : String) : Except String UpdateKind :=
  match all.find? (·.name == s) with
  | some kind => .ok kind
  | none => .error ("unknown update type: " ++ s)

/-- The requested kinds; all of them if none is named. -/
def parseList (names : List String) : Except String (List UpdateKind) :=
  if names.isEmpty then .ok all else names.mapM ofName

end UpdateKind

def View.update (v : View) (clock : Clock) (kind : UpdateKind) : Wire.ClusterUpdate :=
  let blank : Wire.ClusterUpdate :=
    { updateType := kind.name, timestamp := Int64.ofNat clock.epochSecs }
  match kind with
  | .nodes => { blank with nodes := v.nodes.map Node.toInfo }
  | .models => { blank with models := Model.catalog.map Model.toInfo }
  | .metrics => { blank with metrics := some (clusterMetrics v.nodes) }

/-! ## Commands -/

/-- Runs a command; only two are known. -/
def execute (command : String) : Wire.CommandResponse :=
  match command with
  | "status" => { success := true, output := "Cluster is running normally" }
  | "ping" => { success := true, output := "pong" }
  | other => { success := false, error := "Unknown command: " ++ other, exitCode := 1 }

/-! ## Calls -/

namespace Server

def getNodeList (s : Server) (req : Wire.NodeListRequest) : Outcome Wire.NodeListResponse :=
  let nodes := s.view.nodes
  timed "GetNodeList" <|
    .ok { nodes := nodes.map Node.toInfo,
          clusterMetrics := if req.includeMetrics then some (clusterMetrics nodes) else none }

def getModelList (_ : Server) (_ : Wire.ModelListRequest) : Outcome Wire.ModelListResponse :=
  timed "GetModelList" (.ok { models := Model.catalog.map Model.toInfo })

/-- The period of updates in milliseconds; five seconds unless a positive number of seconds is asked for. -/
def updatePeriod (seconds : Int32) : Nat :=
  if seconds.toInt < 1 then 5000 else seconds.toInt.toNat * 1000

/--
An update of each requested kind in each period, the first ones after one period. A call that asks for an
unknown kind is refused before its time is taken.
-/
def streamUpdates (s : Server) (req : Wire.UpdateStreamRequest) : Except Status (Stream Wire.ClusterUpdate) :=
  match UpdateKind.parseList req.updateTypes with
  | .error reason => .error (.invalidArgument reason)
  | .ok kinds =>
      let period := updatePeriod req.intervalSeconds
      .ok { method := "StreamUpdates", first := period, period,
            turn := fun clock => kinds.map (s.view.update clock) }

def executeCommand (_ : Server) (req : Wire.CommandRequest) : Outcome Wire.CommandResponse :=
  timed "ExecuteCommand" (.ok (execute req.command))

end Server

end AgentMesh.Service
