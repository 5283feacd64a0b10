import AgentMesh.Text.Uri

/-!
# Endpoints

Where a client connects to: an address `host:port`, or a whole URI. An endpoint is valid if its URI is.
-/

namespace AgentMesh.Service.Endpoint

/-- The URI of an address, which is a URI already if it names a scheme. -/
def uri (address : String) : String :=
  if (address.splitOn "://").length > 1 then address else "http://" ++ address

def isValid (address : String) : Bool :=
  (Text.Uri.path? (uri address)).isSome

end AgentMesh.Service.Endpoint
