import AgentMesh.Text.Numeral
import AgentMesh.Text.Split

/-!
# Addresses of agents

An agent is reached at a host and a port, written `host:port`. A port that is missing or cannot be read is
the default port. Brackets around the host do not belong to it.
-/

namespace AgentMesh.Discovery

def defaultPort : UInt16 := 8080

/-- The host without leading opening and trailing closing brackets. -/
def stripBrackets (host : List Char) : List Char :=
  ((host.dropWhile (· == '[')).reverse.dropWhile (· == ']')).reverse

/-- Host and port of an address. A host that is empty or ends in a colon means that no port is given. -/
def splitHostPort (address : String) : String × UInt16 :=
  let cs := address.toList
  let (host, port) := match Text.splitLast ':' cs with
    | some (host, port) =>
        if host.isEmpty || host.getLast? == some ':' then (cs, defaultPort)
        else (host, (Text.readPort? port).getD defaultPort)
    | none => (cs, defaultPort)
  (String.ofList (stripBrackets host), port)

end AgentMesh.Discovery
