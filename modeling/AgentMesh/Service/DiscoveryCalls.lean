import AgentMesh.Service.Capacity
import AgentMesh.Service.Conversion
import AgentMesh.Service.Server

/-!
# The discovery service

What an agent tells about the nodes of its cluster.
-/

namespace AgentMesh.Service

def clusterId : String := "distributed-llm-cluster"

namespace Server

/-- The nodes that the caller does not know yet. -/
def discoverNodes (s : Server) (req : Wire.DiscoveryRequest) : Outcome Wire.DiscoveryResponse :=
  let found := s.view.nodes.filter fun n => !(req.knownNodes.contains n.id)
  timed "DiscoverNodes" <|
    .ok { discoveredNodes := found.map Node.toInfo, success := true,
          message := "Discovered " ++ toString found.length ++ " new nodes" }

def registerWithCluster (s : Server) (_ : Wire.ClusterJoinRequest) : Outcome Wire.ClusterJoinResponse :=
  timed "RegisterWithCluster" <|
    .ok { success := true, message := "Successfully joined cluster",
          existingNodes := s.view.nodes.map Node.toInfo, clusterId }

def leaveCluster (_ : Server) (_ : Wire.ClusterLeaveRequest) : Outcome Wire.ClusterLeaveResponse :=
  timed "LeaveCluster" (.ok { success := true, message := "Successfully left cluster" })

def getClusterInfo (s : Server) (_ : Wire.ClusterInfoRequest) : Outcome Wire.ClusterInfoResponse :=
  timed "GetClusterInfo" <|
    .ok { clusterId, nodes := s.view.nodes.map Node.toInfo, metrics := some (clusterMetrics s.view.nodes) }

end Server

end AgentMesh.Service
