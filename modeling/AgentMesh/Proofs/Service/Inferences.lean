import AgentMesh.Proofs.Metrics.Sums
import AgentMesh.Service.NodeCalls

/-!
# Inferences in the books

Every call for an inference is counted once, under its model: as a success with the tokens that the engine counted, or
as an error without any. So the books of a collector agree with the replies. The engine is asked for prompts only that
are not empty.
-/

namespace AgentMesh.Service

open Metrics

/-- A call for an inference, to a server in some state. What the engine answers may be another thing at each call. -/
structure InferenceCall where
  server : Server
  request : Wire.InferenceRequest

namespace InferenceCall

def outcome (a : InferenceCall) : Outcome Wire.InferenceResponse :=
  a.server.processInference a.request

/-- The model that is asked for; without a name it is the default one. -/
def model (a : InferenceCall) : String :=
  if a.request.modelId = "" then "default_model" else a.request.modelId

/-- What the engine would be asked. -/
def prompt (a : InferenceCall) : Prompt where
  requestId := a.request.requestId
  modelId := a.model
  prompt := a.request.prompt
  maxTokens := a.request.maxTokens

/-- What the engine makes of the prompt, unless it is not asked or fails. -/
def completion? (a : InferenceCall) : Option Completion :=
  if a.request.prompt = "" then none else (a.server.engine a.prompt).toOption

/-- The caller is told of a success. -/
def succeeds (a : InferenceCall) : Bool :=
  match a.outcome.result with
  | .ok res => res.success
  | .error _ => false

/-- How the call is counted. -/
def entry (a : InferenceCall) : Series × Nat :=
  match a.completion? with
  | some out => (⟨a.model, "success"⟩, out.tokens)
  | none => (⟨a.model, "error"⟩, 0)

/-! ## One call -/

variable (a : InferenceCall)

theorem modelOf_request : Server.modelOf a.request = a.model := by
  simp only [Server.modelOf, model, String.isEmpty_iff, defaultModel]

theorem infer_of_empty (h : a.request.prompt = "") :
    a.server.infer a.request = (.error (.invalidArgument "prompt cannot be empty"), "error", 0) := by
  rw [Server.infer, if_pos (String.isEmpty_iff.2 h)]

theorem infer_of_nonempty (h : a.request.prompt ≠ "") :
    a.server.infer a.request =
      match a.server.engine a.prompt with
      | .ok out =>
          (.ok { requestId := a.request.requestId, generatedText := out.text, success := true,
                 tokensGenerated := clampInt32 out.tokens }, "success", out.tokens)
      | .error (.invalidRequest reason) => (.error (.invalidArgument reason), "error", 0)
      | .error e => (.ok { requestId := a.request.requestId, error := e.message }, "error", 0) := by
  rw [Server.infer, if_neg fun hempty => h (String.isEmpty_iff.1 hempty), modelOf_request]
  rfl

/-- How a call may end. -/
inductive Ends : Prop
  | completed {out : Completion} {res : Wire.InferenceResponse} (h : a.completion? = some out)
      (hres : res.success = true) (hinfer : a.server.infer a.request = (.ok res, "success", out.tokens))
  | refused {s : Status} (h : a.completion? = none) (hinfer : a.server.infer a.request = (.error s, "error", 0))
  | failed {res : Wire.InferenceResponse} (h : a.completion? = none) (hres : res.success = false)
      (hinfer : a.server.infer a.request = (.ok res, "error", 0))

theorem ends : a.Ends := by
  by_cases hprompt : a.request.prompt = ""
  · exact .refused (if_pos hprompt) (a.infer_of_empty hprompt)
  · have hcompletion : a.completion? = (a.server.engine a.prompt).toOption := if_neg hprompt
    have hinfer := a.infer_of_nonempty hprompt
    cases hanswer : a.server.engine a.prompt with
    | ok out =>
        rw [hanswer] at hcompletion hinfer
        exact .completed hcompletion rfl hinfer
    | error e =>
        rw [hanswer] at hcompletion hinfer
        cases e with
        | invalidRequest reason => exact .refused hcompletion hinfer
        | _ => exact .failed hcompletion rfl hinfer

/-- A success is told exactly if the engine has completed the prompt. -/
theorem succeeds_eq : a.succeeds = a.completion?.isSome := by
  cases a.ends with
  | completed h hres hinfer => simp [succeeds, outcome, Server.processInference, hinfer, h, hres]
  | refused h hinfer => simp [succeeds, outcome, Server.processInference, hinfer, h]
  | failed h hres hinfer => simp [succeeds, outcome, Server.processInference, hinfer, h, hres]

theorem inferencesOf_events : inferencesOf a.outcome.events = [a.entry] := by
  cases a.ends with
  | completed h hres hinfer =>
      simp [outcome, Server.processInference, hinfer, modelOf_request, entry, h, inferencesOf, Event.inference?,
        callTime]
  | refused h hinfer =>
      simp [outcome, Server.processInference, hinfer, modelOf_request, entry, h, inferencesOf, Event.inference?,
        callTime]
  | failed h hres hinfer =>
      simp [outcome, Server.processInference, hinfer, modelOf_request, entry, h, inferencesOf, Event.inference?,
        callTime]

/-- The engine is asked for no prompt that is empty. -/
theorem outcome_congr {engine : Engine} (h : ∀ p : Prompt, p.prompt ≠ "" → engine p = a.server.engine p) :
    { a.server with engine }.processInference a.request = a.outcome := by
  let b : InferenceCall := { server := { a.server with engine }, request := a.request }
  have hinfer : b.server.infer b.request = a.server.infer a.request := by
    by_cases hprompt : a.request.prompt = ""
    · rw [b.infer_of_empty hprompt, a.infer_of_empty hprompt]
    · rw [b.infer_of_nonempty hprompt, a.infer_of_nonempty hprompt]
      have heq : b.server.engine b.prompt = a.server.engine a.prompt := h a.prompt hprompt
      rw [heq]
  have houtcome : b.outcome = a.outcome := by
    rw [outcome, Server.processInference, hinfer]
    rfl
  exact houtcome

end InferenceCall

/-! ## Many calls -/

open InferenceCall

theorem inferencesOf_calls (calls : List InferenceCall) :
    inferencesOf (calls.flatMap (·.outcome.events)) = calls.map entry := by
  induction calls with
  | nil => rfl
  | cons a calls ih =>
      have hhead := a.inferencesOf_events
      rw [inferencesOf] at ih hhead ⊢
      rw [List.flatMap_cons, List.filterMap_append, hhead, ih]
      rfl

theorem entry_model (a : InferenceCall) : a.entry.1.subject = a.model := by
  rw [entry]
  cases a.completion? <;> rfl

theorem entry_success_iff (a : InferenceCall) (m : String) :
    a.entry.1 = ⟨m, "success"⟩ ↔ a.model = m ∧ a.succeeds := by
  rw [succeeds_eq, entry]
  cases a.completion? <;> simp

theorem entry_error_iff (a : InferenceCall) (m : String) : a.entry.1 = ⟨m, "error"⟩ ↔ a.model = m ∧ !a.succeeds := by
  rw [succeeds_eq, entry]
  cases a.completion? <;> simp

/-- The tokens that engines have counted for a model. -/
def completedTokens (calls : List InferenceCall) (m : String) : Nat :=
  (((calls.filter (·.model = m)).filterMap completion?).map Completion.tokens).sum

theorem success_tokens (calls : List InferenceCall) (m : String) :
    (((calls.map entry).filter (·.1 = ⟨m, "success"⟩)).map Prod.snd).sum = completedTokens calls m := by
  induction calls with
  | nil => rfl
  | cons a calls ih =>
      rw [completedTokens] at ih ⊢
      by_cases hmodel : a.model = m <;> cases hcompletion : a.completion? with
      | none => simpa [entry, hmodel, hcompletion] using ih
      | some out => simpa [entry, hmodel, hcompletion] using ih

theorem error_tokens (calls : List InferenceCall) (m : String) :
    (((calls.map entry).filter (·.1 = ⟨m, "error"⟩)).map Prod.snd).sum = 0 := by
  refine List.sum_eq_zero_iff_forall_eq_nat.2 fun n hn => ?_
  obtain ⟨e, he, rfl⟩ := List.mem_map.1 hn
  obtain ⟨hmem, hkey⟩ := List.mem_filter.1 he
  obtain ⟨a, -, rfl⟩ := List.mem_map.1 hmem
  rw [decide_eq_true_eq] at hkey
  rw [entry] at hkey ⊢
  cases hcompletion : a.completion? with
  | none => rfl
  | some out => simp [hcompletion] at hkey

/--
However the calls overlap, whatever else is recorded between and however long each takes: a collector that begins
empty has as many requests of a model as there were calls for it, those that were told a success under `success` with
the tokens that the engine counted, and all others under `error` without any. The engine is not asked for an empty
prompt: what it would answer to that is of no matter.
-/
theorem inferences_are_accounted (nodeId : String) (calls : List InferenceCall) (events : List Event)
    (hevents : (inferencesOf events).Perm (inferencesOf (calls.flatMap (·.outcome.events)))) :
    let c := ({ nodeId } : Collector).recordAll events
    (∀ m : String,
      c.requestsOf m = calls.countP (·.model = m) ∧
        c.requests ⟨m, "success"⟩ = calls.countP (fun a => a.model = m ∧ a.succeeds) ∧
        c.tokens ⟨m, "success"⟩ = completedTokens calls m ∧
        c.requests ⟨m, "error"⟩ = calls.countP (fun a => a.model = m ∧ !a.succeeds) ∧
        c.tokens ⟨m, "error"⟩ = 0) ∧
      ∀ a ∈ calls, ∀ engine : Engine, (∀ p : Prompt, p.prompt ≠ "" → engine p = a.server.engine p) →
        { a.server with engine }.processInference a.request = a.outcome := by
  intro c
  have hrecorded := Collector.recorded_recordAll { nodeId } events
  rw [inferencesOf_calls] at hevents
  have hrequests (key : Series) : c.requests key = calls.countP (·.entry.1 = key) := by
    rw [hrecorded.requests, hevents.countP_eq, List.countP_map]
    exact Nat.zero_add _
  have htokens (key : Series) : c.tokens key = (((calls.map entry).filter (·.1 = key)).map Prod.snd).sum := by
    rw [hrecorded.tokens, ((hevents.filter _).map _).sum_nat]
    exact Nat.zero_add _
  refine ⟨fun m => ⟨?_, ?_, ?_, ?_, ?_⟩, fun a _ engine h => a.outcome_congr h⟩
  · rw [hrecorded.requestsOf, hevents.countP_eq, List.countP_map]
    simp only [Function.comp_def, entry_model]
    exact Nat.zero_add _
  · simp only [hrequests, entry_success_iff]
  · rw [htokens, success_tokens]
  · simp only [hrequests, entry_error_iff]
  · rw [htokens, error_tokens]

/-- An engine of every temper. -/
def moodyEngine : Engine := fun p =>
  match p.prompt with
  | "" => .ok { text := "silence", tokens := 1 }
  | "refuse" => .error (.invalidRequest "not today")
  | "break" => .error (.inference "out of memory")
  | _ => .ok { text := "much", tokens := 3000000000 }

/-- To the default model, under both of its names, and to another one. -/
def sampleCalls : List InferenceCall :=
  [("", "talk"), ("default_model", "talk"), ("other", "break"), ("", "refuse"), ("other", ""), ("", "break")].map
    fun (modelId, prompt) =>
      { server := { view := { localId := "n" }, engine := moodyEngine }, request := { modelId, prompt } }

/-- The sample calls end in the opposite order and take their time, and the collector is told of other things too. -/
def sampleEvents : List Event :=
  .connections 6 :: (sampleCalls.flatMap (·.outcome.events)).reverse.map fun
    | .inference model status _ tokens => .inference model status 5000 tokens
    | e => e

theorem inferences_are_accounted_sample :
    let c := ({ nodeId := "n" } : Collector).recordAll sampleEvents
    (inferencesOf sampleEvents).Perm (inferencesOf (sampleCalls.flatMap (·.outcome.events))) ∧
      c.requestsOf "default_model" = 4 ∧ c.requests ⟨"default_model", "success"⟩ = 2 ∧
        c.tokens ⟨"default_model", "success"⟩ = 6000000000 ∧ c.requests ⟨"other", "error"⟩ = 2 ∧
        c.requestsOf "" = 0 := by
  have hevents : (inferencesOf sampleEvents).Perm (inferencesOf (sampleCalls.flatMap (·.outcome.events))) := by
    decide +kernel
  have hbooks := (inferences_are_accounted "n" sampleCalls sampleEvents hevents).1
  obtain ⟨hcalls, hsuccesses, htokens, -⟩ := hbooks "default_model"
  obtain ⟨-, -, -, herrors, -⟩ := hbooks "other"
  exact ⟨hevents, hcalls.trans (by decide +kernel), hsuccesses.trans (by decide +kernel),
    htokens.trans (by decide +kernel), herrors.trans (by decide +kernel), (hbooks "").1.trans (by decide +kernel)⟩

end AgentMesh.Service
