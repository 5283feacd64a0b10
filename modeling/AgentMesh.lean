import AgentMesh.Discovery.Search
import AgentMesh.Gossip.Membership
import AgentMesh.Json.Bytes
import AgentMesh.Main
import AgentMesh.Metrics.Http
import AgentMesh.Service.Client
import AgentMesh.Proofs.Gossip.Run
import AgentMesh.Proofs.Gossip.Convergence
import AgentMesh.Proofs.Gossip.Owner
import AgentMesh.Proofs.Gossip.Knowledge
import AgentMesh.Proofs.Gossip.Cluster
import AgentMesh.Proofs.Gossip.Records
import AgentMesh.Proofs.Gossip.Ownership
import AgentMesh.Proofs.Gossip.Views
import AgentMesh.Proofs.Gossip.Refutation
import AgentMesh.Proofs.Gossip.Rejoin
import AgentMesh.Proofs.Gossip.Detection
import AgentMesh.Proofs.Gossip.Heartbeats
import AgentMesh.Proofs.Gossip.Burial
import AgentMesh.Proofs.Gossip.Departure
import AgentMesh.Proofs.Gossip.Mesh
import AgentMesh.Proofs.Gossip.Addresses
import AgentMesh.Proofs.Gossip.Absence
import AgentMesh.Proofs.Gossip.Expiry
import AgentMesh.Proofs.Gossip.ChangeLog
import AgentMesh.Proofs.Gossip.Sweep
import AgentMesh.Proofs.Metrics.Counting
import AgentMesh.Proofs.Gossip.Session
import AgentMesh.Proofs.Gossip.Monitoring
import AgentMesh.Proofs.Gossip.Footprint
import AgentMesh.Proofs.Gossip.Visibility
import AgentMesh.Proofs.Json.Size
import AgentMesh.Proofs.Gossip.Answers
import AgentMesh.Proofs.Wire.Varint
import AgentMesh.Proofs.Wire.Records
import AgentMesh.Proofs.Text.Utf8
import AgentMesh.Proofs.Wire.Faithful
import AgentMesh.Proofs.Wire.RoundTrip
import AgentMesh.Proofs.Service.RemoteView
import AgentMesh.Proofs.Text.Digits
import AgentMesh.Proofs.Net.Text
import AgentMesh.Proofs.Json.RoundTrip
import AgentMesh.Proofs.Json.Rearranged
import AgentMesh.Proofs.Gossip.Codec
import AgentMesh.Proofs.Discovery.Consistency
import AgentMesh.Proofs.Discovery.Session
import AgentMesh.Proofs.Discovery.Overlap
import AgentMesh.Proofs.Discovery.Custody
import AgentMesh.Proofs.Discovery.Tries
import AgentMesh.Proofs.Discovery.Crawl
import AgentMesh.Proofs.Discovery.Rounds
import AgentMesh.Proofs.Discovery.Watching
import AgentMesh.Proofs.Net.Spelling
import AgentMesh.Proofs.Discovery.Advertised
import AgentMesh.Proofs.Broadcaster.Run
import AgentMesh.Proofs.Broadcaster.Overlap
import AgentMesh.Proofs.Metrics.Sums
import AgentMesh.Proofs.Metrics.Windows
import AgentMesh.Proofs.Metrics.TextFormat
import AgentMesh.Proofs.Metrics.Exposition
import AgentMesh.Proofs.Service.ClusterView
import AgentMesh.Proofs.Service.CallTimes
import AgentMesh.Proofs.Service.Clamping
import AgentMesh.Proofs.Service.Capacity
import AgentMesh.Proofs.Service.Inferences
import AgentMesh.Proofs.Text.Trim
import AgentMesh.Proofs.Seeds
