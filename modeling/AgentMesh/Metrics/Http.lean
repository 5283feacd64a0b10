import AgentMesh.Json.Printer
import AgentMesh.Metrics.Exposition
import AgentMesh.Text.Uri

/-!
# Metrics over HTTP

Three pages: the text exposition, the snapshot as a document, and a sign of life. Each is read with GET, or
with HEAD for the header alone.
-/

namespace AgentMesh.Metrics.Http

structure Response where
  status : Nat
  contentType : Option String := none
  allow : Option String := none
  body : String := ""
deriving Repr, DecidableEq, Inhabited

inductive Page
  | metrics
  | stats
  | health
deriving Repr, DecidableEq, Inhabited

/-- The page at a target, of which only the path counts. -/
def Page.ofTarget? (target : String) : Option Page :=
  match Text.Uri.path? target with
  | some "/metrics" => some .metrics
  | some "/stats" => some .stats
  | some "/health" => some .health
  | _ => none

def Page.contentType : Page → String
  | metrics => "text/plain; version=0.0.4; charset=utf-8"
  | stats => "application/json"
  | health => "text/plain; charset=utf-8"

def Page.body (s : Snapshot) : Page → String
  | metrics => s.exposition
  | stats => s.toJson.compact
  | health => "OK"

def respond (s : Snapshot) (method target : String) : Response :=
  match Page.ofTarget? target with
  | none => { status := 404 }
  | some page =>
      if method == "GET" then
        { status := 200, contentType := some page.contentType, body := page.body s }
      else if method == "HEAD" then
        { status := 200, contentType := some page.contentType }
      else
        { status := 405, allow := some "GET,HEAD" }

end AgentMesh.Metrics.Http
