import AgentMesh.AgentError

/-!
# Inference

An engine answers a prompt with a text and the number of tokens in it.
-/

namespace AgentMesh

def defaultModel : String := "default_model"

structure Prompt where
  requestId : String := ""
  modelId : String := ""
  prompt : String := ""
  maxTokens : Int32 := 0
deriving Repr, DecidableEq, Inhabited

structure Completion where
  text : String
  tokens : Nat
deriving Repr, DecidableEq, Inhabited

abbrev Engine := Prompt → Except AgentError Completion

/-- Answers every prompt with a greeting that names the node. -/
def Engine.greeting (nodeId : String) : Engine := fun p =>
  if p.prompt.isEmpty then .error (.invalidRequest "prompt cannot be empty")
  else .ok { text := "Hello from node " ++ nodeId, tokens := 10 }

end AgentMesh
