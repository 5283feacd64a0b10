import AgentMesh.Wire.Schema

/-!
# Nodes and models on the wire

A node is told to others with a signed port and a signed time. A value that the other side cannot represent
is replaced by the nearest one, or by zero, since it describes a remote state that cannot be refused.
-/

namespace AgentMesh

namespace Node

def toInfo (n : Node) : Wire.NodeInfo :=
  { nodeId := n.id, address := n.address, port := Int32.ofNat n.port.toNat, resources := some n.resources,
    status := n.status.name, lastSeen := clampInt64 n.lastSeen }

def ofInfo (i : Wire.NodeInfo) : Node :=
  { id := i.nodeId, address := i.address,
    port := if 0 ≤ i.port.toInt ∧ i.port.toInt < 65536 then UInt16.ofNat i.port.toInt.toNat else 0,
    resources := i.resources.getD {}, status := .ofWire i.status, lastSeen := i.lastSeen.toInt.toNat }

end Node

namespace Model

def toInfo (m : Model) : Wire.ModelInfo :=
  { id := m.id, name := m.name, version := m.version, layerCount := m.layerCount, filePath := m.filePath,
    sizeBytes := m.size }

def ofInfo (i : Wire.ModelInfo) : Model :=
  { id := i.id, name := i.name, version := i.version, layerCount := i.layerCount, filePath := i.filePath,
    size := i.sizeBytes }

end Model

end AgentMesh
