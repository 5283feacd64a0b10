import AgentMesh.Validation

/-!
# Errors of an agent
-/

namespace AgentMesh

inductive AgentError
  | layerOvercommit (used max : Int32)
  | invalidResources (e : ValidationError)
  | invalidRequest (reason : String)
  | inference (reason : String)
deriving Repr, DecidableEq, Inhabited

def AgentError.message : AgentError → String
  | layerOvercommit used max =>
      "used layers (" ++ toString used.toInt ++ ") exceed max layers (" ++ toString max.toInt ++ ")"
  | invalidResources e => "invalid resources: " ++ e.message
  | invalidRequest reason => "invalid inference request: " ++ reason
  | inference reason => "inference failed: " ++ reason

end AgentMesh
