import Megalos.Accepted
import Megalos.Run

/-!
An environment to run the server in by evaluation: tokens of growing length, a clock
that counts, MCP calls that succeed, no JSON content.
-/

namespace Megalos

open GuardedRuns KeyedTable StatefulProgram StatefulProgram.Program

def sampleToken (draw : Nat) : SessionId := ⟨String.ofList (List.replicate (draw + 1) 's')⟩

theorem sampleToken_injective : Function.Injective sampleToken := by
  intro first second same
  simp only [sampleToken, SessionId.mk.injEq, String.ofList_inj] at same
  simpa using congrArg List.length same

def sampleEnv : Env where
  token := sampleToken
  tokenInjective := sampleToken_injective
  normalizeSessionId := SessionId.mk
  clock tick := tick
  sessionCap := 500
  mcpOutcome _ := .ok "done"
  sha256 text := text
  loads _ := .error (.decodeError "Expecting value")
  dumps _ := "\x7b\x7d"
  envelopeContained _ := contained_decodeError
  canonicalDumps _ := ""
  floatText _ := "0.0"
  floatTextPlain _ := by decide
  pyRepr value := value.typeName
  iterErrors _ _ := .ok []
  checkSchema _ := .ok ()
  reSearch _ _ := .ok false
  fuel := 20

def stepDoc (id : String) (extra : List (String × Val)) : Val :=
  .obj ([("id", .str id), ("title", .str id), ("directive_template", .str "Answer."),
    ("gates", .list []), ("anti_patterns", .list [])] ++ extra)

def mcpDoc (id : String) (extra : List (String × Val)) : Val :=
  .obj ([("id", .str id), ("title", .str id), ("action", .str "mcp_tool_call"),
    ("server", .str "tools"), ("tool", .str "run"), ("args", .obj [])] ++ extra)

def workflowDoc (name : String) (steps : List Val) : Val :=
  .obj [("name", .str name), ("description", .str name), ("category", .str "sample"),
    ("output_format", .str "text"), ("steps", .list steps)]

def sampleRegistry : Registry := ⟨Dict.set Table.empty "tools" ⟨none⟩⟩

/-- The app that `create_app` makes of the documents; one without workflows when it refuses them. -/
def appOf (env : Env) (documents : List Val) : Deployment :=
  match createApp env (some sampleRegistry) .anonymous (documents.map fun document =>
    ("workflow", document)) with
  | .ok (some deployment) => deployment
  | _ => ⟨Table.empty, Table.empty, some sampleRegistry, .anonymous⟩

theorem appOf_accepted {env : Env} {documents : List Val}
    (loads : (appOf env documents).workflows.size ≠ 0) : (appOf env documents).Accepted env := by
  unfold appOf at loads ⊢
  split
  · rename_i deployment created
    obtain ⟨sameRegistry, sameCaller⟩ := createApp_closure created
    exact ⟨_, by rw [sameRegistry, sameCaller]; exact created⟩
  · rename_i refused
    exfalso
    split at loads
    · rename_i deployment created
      exact refused deployment created
    · exact loads rfl

def nestedDocs : List Val := [
  workflowDoc "outer" [stepDoc "a" [("call", .str "middle")], stepDoc "b" []],
  workflowDoc "middle" [stepDoc "m" [("call", .str "inner")]],
  workflowDoc "inner" [stepDoc "x" []]]

/-- What `json.loads` makes of a text when it reads these. -/
def sampleLoads (texts : List (String × Val)) (text : String) : Except JsonError Val :=
  match texts.lookup text with
  | some value => .ok value
  | none => .error (.decodeError "Expecting value")

theorem sampleLoads_contained (texts : List (String × Val)) (text : String) :
    Contained (sampleLoads texts text) := by
  unfold sampleLoads
  split
  · exact contained_ok
  · exact contained_decodeError

def sampleReading (texts : List (String × Val)) : Env := { sampleEnv with
  loads := sampleLoads texts
  envelopeContained := fun _ => sampleLoads_contained _ _ }

/-- Some quoted words are JSON documents, and meet their schema. -/
def lenientEnv : Env := sampleReading
  [("\"old\"", .str "old"), ("\"new\"", .str "new"), ("\"one\"", .str "one"),
    ("\"two\"", .str "two")]

def artifactDoc (id : String) (checkpoint : Bool) : Val :=
  .obj [("id", .str id), ("description", .str id), ("checkpoint", .bool checkpoint),
    ("schema", .obj [])]

/-- A step and one after it that works in two artifacts, of which the first is checkpointed. -/
def draftDocs : List Val := [
  workflowDoc "paper" [stepDoc "plan" [], stepDoc "write" [
    ("intermediate_artifacts", .list [artifactDoc "draft" true, artifactDoc "final" false]),
    ("output_from", .str "final")]]]

/-- The state after the calls, one after the other. -/
def serveAll (env : Env) (deployment : Deployment) : World → List Call → World
  | world, [] => world
  | world, call :: rest => serveAll env deployment ((callTool env deployment call).run world).2 rest

def allEnd (env : Env) (deployment : Deployment) : World → List Call → Bool
  | _, [] => true
  | world, call :: rest =>
      (match ((callTool env deployment call).run world).1 with
        | .error .diverges => false
        | _ => true) &&
        allEnd env deployment ((callTool env deployment call).run world).2 rest

/-- Each call of the list meets the condition in the state it is served in. -/
def Permits (allowed : World → Request → Prop) (env : Env) (deployment : Deployment) : World →
    List Call → Prop
  | _, [] => True
  | world, call :: rest =>
      allowed world ⟨deployment, call⟩ ∧
        Permits allowed env deployment ((callTool env deployment call).run world).2 rest

theorem serveAll_run {allowed : World → Request → Prop} {env : Env} {deployment : Deployment}
    {calls : List Call} {world : World} (ends : allEnd env deployment world calls = true)
    (permits : Permits allowed env deployment world calls) :
    Run (Serves env) allowed world (serveAll env deployment world calls) := by
  induction calls generalizing world with
  | nil => exact Run.refl world
  | cons call rest ih =>
      simp only [allEnd, Bool.and_eq_true] at ends
      have serves : Serves env world ⟨deployment,
        call⟩ ((callTool env deployment call).run world).2 := by
        refine ⟨((callTool env deployment call).run world).1, rfl, ?_⟩
        intro endless
        simp [endless] at ends
      exact ((Run.refl world).snoc permits.1 serves).trans (ih ends.2 permits.2)

theorem serveAll_served {env : Env} {deployment : Deployment} {calls : List Call}
    (ends : allEnd env deployment World.empty calls = true) :
    ServedBy env deployment (serveAll env deployment World.empty calls) := by
  refine serveAll_run ends ?_
  clear ends
  generalize World.empty = world
  induction calls generalizing world with
  | nil => trivial
  | cons call rest ih => exact ⟨rfl, ih _⟩

def returned (outcome : Except Exn Val × World) : Val :=
  match outcome.1 with
  | .ok response => response
  | .error _ => .none

theorem serves_of_ends {env : Env} {deployment : Deployment} {world : World} {call : Call}
    (ends : allEnd env deployment world [call] = true) :
    Serves env world ⟨deployment, call⟩ (serveAll env deployment world [call]) := by
  refine ⟨((callTool env deployment call).run world).1, rfl, ?_⟩
  intro endless
  simp [allEnd, endless] at ends

def submissionVerdict (env : Env) (deployment : Deployment) (world : World)
    (sessionId stepId content branch artifactId : String) : Option Verdict := do
  let session ← world.sessions.lookup (env.normalizeSessionId sessionId)
  let wf ← deployment.workflows.get? session.workflowType
  let (idx, step) ← findStep wf (.str stepId)
  return verdictOf env deployment.registry world.outbound.length session wf idx step content branch artifactId

theorem Submits.verdict_eq {env : Env} {deployment : Deployment} {world : World}
    {sessionId stepId content branch artifactId : String} {session : Session} {wf : Workflow}
    {idx : Nat} {step : Step}
    (submits : Submits env deployment world sessionId stepId content session wf idx step) :
    submissionVerdict env deployment world sessionId stepId content branch artifactId =
      some (verdictOf env deployment.registry world.outbound.length session wf idx step content branch artifactId) := by
  have found : world.sessions.lookup (env.normalizeSessionId sessionId) = some session :=
    submits.resolves.row
  simp [submissionVerdict, found, submits.resolves.loaded, submits.accepts.found]

def submission? (env : Env) (deployment : Deployment) (world : World)
    (sessionId stepId content : String) : Option (Session × Workflow × Nat × Step) := do
  let session ← world.sessions.lookup (env.normalizeSessionId sessionId)
  let wf ← deployment.workflows.get? session.workflowType
  let (idx, step) ← findStep wf (.str stepId)
  if sessionId ≠ "" ∧ stepId ≠ "" ∧ deployment.caller = .anonymous ∧
    session.currentStep ≠ workflowChanged ∧
      (deployment.workflowFingerprints.get? session.workflowType).all (session.workflowFingerprint == ·) ∧
      session.escalation.isNone ∧ session.currentStep ≠ complete ∧ stepId = session.currentStep ∧
      content.utf8ByteSize ≤ contentMax ∧ (world.topFrameFor session.sessionId).isNone ∧
        step.isCall = false then
    some (session, wf, idx, step)
  else none

theorem Submits.of_submission {env : Env} {deployment : Deployment} {world : World}
    {sessionId stepId content : String} {session : Session} {wf : Workflow} {idx : Nat}
    {step : Step}
    (found : submission? env deployment world sessionId stepId content = some (session, wf, idx,
      step)) :
    Submits env deployment world sessionId stepId content session wf idx step := by
  unfold submission? at found
  obtain ⟨row, isRow, found⟩ := Option.bind_eq_some_iff.mp found
  obtain ⟨loaded, isLoaded, found⟩ := Option.bind_eq_some_iff.mp found
  obtain ⟨⟨place, target⟩, isTarget, found⟩ := Option.bind_eq_some_iff.mp found
  dsimp only at found
  split at found
  · rename_i guards
    obtain ⟨named, stepNamed, caller, unmarked, unchanged, calm, unfinished, inOrder, fits, bare,
      uncalled⟩ := guards
    simp only [Option.some.injEq, Prod.mk.injEq] at found
    obtain ⟨rfl, rfl, rfl, rfl⟩ := found
    refine ⟨named, stepNamed, ⟨isRow, caller, unmarked, isLoaded, ?_⟩,
      ⟨Option.isNone_iff_eq_none.mp calm, unfinished, inOrder, fits,
        Option.isNone_iff_eq_none.mp bare, isTarget, uncalled⟩⟩
    intro fp current
    simpa [current] using unchanged
  · simp at found

def Verdict.arrival? : Verdict → Option (Val × StepData × Nat)
  | .advanced (.arrived pointer data calls) => some (pointer, data, calls)
  | _ => none

theorem Verdict.arrived_of_arrival {verdict : Verdict} {pointer : Val} {data : StepData}
    {calls : Nat} (arrives : verdict.arrival? = some (pointer, data, calls)) :
    verdict = .advanced (.arrived pointer data calls) := by
  unfold Verdict.arrival? at arrives
  split at arrives
  · simp only [Option.some.injEq, Prod.mk.injEq] at arrives
    obtain ⟨rfl, rfl, rfl⟩ := arrives
    rfl
  · simp at arrives

section Room

variable {env : Env} {deployment : Deployment} {world : World} {sid : SessionId}

theorem Removes.of_start {workflowType context : String}
    (removes : Removes env deployment world (.startWorkflow workflowType context) sid) :
    sid ∈ world.evicted env := by
  cases removes with
  | evicted makesRoom chosen => exact chosen

theorem Removes.of_enter {parentSessionId callStepId : String}
    (removes : Removes env deployment world (.enterSubWorkflow parentSessionId callStepId) sid) :
    sid ∈ world.evicted env := by
  cases removes with
  | evicted makesRoom chosen => exact chosen

theorem Removes.of_push {sessionId workflowType pausedAtStep context : String}
    (removes : Removes env deployment world (.pushFlow sessionId workflowType pausedAtStep context) sid) :
    sid ∈ world.evicted env := by
  cases removes with
  | evicted makesRoom chosen => exact chosen

theorem Removes.of_submit {sessionId stepId content branch artifactId : String}
    (removes : Removes env deployment world (.submitStep sessionId stepId content branch artifactId) sid) :
    sid ∈ world.evicted env := by
  cases removes with
  | evicted makesRoom chosen => exact chosen

/-- A call that only creates orphans nobody while nothing has to be evicted. -/
theorem Orphans.not_of_room {call : Call} {lower : SessionId} {upper : Frame}
    (room : world.evicted env = []) (creates : ∀ {sid}, Removes env deployment world call sid →
      sid ∈ world.evicted env) :
    ¬Orphans env deployment world call lower upper := by
  intro orphans
  simpa [room] using creates orphans.removes

end Room

/-- A session at the step that works in artifacts. -/
def planned : World :=
  serveAll lenientEnv (appOf lenientEnv draftDocs) World.empty [.startWorkflow "paper" "",
    .submitStep "s" "plan" "one" "" ""]

end Megalos
