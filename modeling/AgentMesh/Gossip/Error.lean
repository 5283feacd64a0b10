import AgentMesh.Text.Duration
import AgentMesh.Validation

/-!
# Errors of the gossip layer
-/

namespace AgentMesh.Gossip

inductive JoinFailure
  | noSeedContacted
  | noAnswer (timeout : Nat)
  | stated (reason : String)
deriving Repr, DecidableEq, Inhabited

def JoinFailure.reason : JoinFailure → String
  | noSeedContacted => "no seed could be contacted"
  | noAnswer timeout => "no seed answered within " ++ Text.duration timeout
  | stated reason => reason

inductive Error
  | validation (e : ValidationError)
  | bind
  | notStarted
  | stopped
  | alreadyStarted
  | joinFailed (why : JoinFailure)
  | leaveTimeout (ms : Nat)
deriving Repr, DecidableEq, Inhabited

def Error.message : Error → String
  | validation e => "validation error: " ++ e.message
  | bind => "failed to bind gossip socket"
  | notStarted => "membership has not been started"
  | stopped => "membership has been stopped"
  | alreadyStarted => "membership already started"
  | joinFailed why => "failed to join cluster: " ++ why.reason
  | leaveTimeout ms => "leave timed out after " ++ Text.duration ms

end AgentMesh.Gossip
