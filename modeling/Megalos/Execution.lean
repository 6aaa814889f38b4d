import Megalos.Library.Binary64
import Megalos.Precondition

/-!
The executor of `mcp_tool_call` steps (`mcp_executor.py`) and the loop of `tools.py`
that runs such steps for the client.
-/

namespace Megalos

open KeyedTable StatefulProgram StatefulProgram.Program

def errorResponse (code error : String) (fields : List (String × Val)) : Val :=
  .obj (("status", .str "error") :: ("code", .str code) :: ("error", .str error) :: fields)

/-- The inside of a whole-string `${…}`, when the string is one. -/
def refInner (text : String) : Option String :=
  match text.toList with
  | '$' :: '\x7b' :: rest =>
      if rest.getLast? = some '\x7d' ∧ "step_data.".toList <:+: text.toList then
        some (String.ofList rest.dropLast)
      else none
  | _ => none

mutual

/-- `resolve_args`: refs become the values they name, every other leaf stays. -/
def resolveArgs (env : Env) (stepData : StepData) (skippedSet : List String)
    (referencingStepId : String) : Val → Except Exn Val
  | .dict entries => do return .dict (← resolveEntries env stepData skippedSet referencingStepId entries)
  | .list items => do return .list (← resolveItems env stepData skippedSet referencingStepId items)
  | .str text =>
      match refInner text with
      | some inner =>
          match resolveRef env (.str inner) stepData skippedSet referencingStepId with
          | .ok resolved => .ok (resolved.getD .absent)
          | .error raised => .error raised
      | none => .ok (.str text)
  | other => .ok other

def resolveItems (env : Env) (stepData : StepData) (skippedSet : List String)
    (referencingStepId : String) : List Val → Except Exn (List Val)
  | [] => .ok []
  | item :: rest => do
      let resolved ← resolveArgs env stepData skippedSet referencingStepId item
      return resolved :: (← resolveItems env stepData skippedSet referencingStepId rest)

def resolveEntries (env : Env) (stepData : StepData) (skippedSet : List String)
    (referencingStepId : String) : List (Val × Val) → Except Exn (List (Val × Val))
  | [] => .ok []
  | (key, value) :: rest => do
      let resolved ← resolveArgs env stepData skippedSet referencingStepId value
      return (key, resolved) :: (← resolveEntries env stepData skippedSet referencingStepId rest)

end

def keyText : Val → String
  | .str text => text
  | .int value => toString value
  | .bool value => if value then "True" else "False"
  | other => other.typeName

mutual

def findAbsentRefPath : Val → String → Option String
  | .absent, path => some (if path = "" then "<root>" else path)
  | .dict entries, path => findAbsentEntry entries path
  | .list items, path => findAbsentItem items 0 path
  | _, _ => none

def findAbsentItem : List Val → Nat → String → Option String
  | [], _, _ => none
  | item :: rest, index, path =>
      match findAbsentRefPath item (path ++ "[" ++ toString index ++ "]") with
      | some found => some found
      | none => findAbsentItem rest (index + 1) path

def findAbsentEntry : List (Val × Val) → String → Option String
  | [], _ => none
  | (key, value) :: rest, path =>
      match findAbsentRefPath value (if path = "" then keyText key else path ++ "." ++
        keyText key) with
      | some found => some found
      | none => findAbsentEntry rest path

end

def Registry.get (registry : Registry) (server : Val) : Except Exn ServerConfig :=
  let found := match server with
    | .str name => registry.servers.get? name
    | _ => none
  match found with
  | some config => .ok config
  | none => .error (.uncaught "UnknownServer" ("unknown MCP server " ++ keyText server))

def floatOfInt (value : Int) : Except Exn Val :=
  match Binary64.ofInt? value with
  | some rounded => .ok (.float (.finite rounded))
  | none => .error (.uncaught "OverflowError" "int too large to convert to float")

def effectiveTimeout (step : Step) (registry : Registry) : Except Exn Val :=
  match step.get? "timeout" with
  | some (.int value) => floatOfInt value
  | some (.float value) => .ok (.float value)
  | _ =>
      match step.item "server" with
      | .error raised => .error raised
      | .ok server =>
          match registry.get server with
          | .error raised => .error raised
          | .ok config => .ok (config.timeoutDefault.getD (.float (.finite 30)))

/-- `mcp_client.call`: an unknown server raises, any other failure is an outcome. -/
def mcpCall (env : Env) (registry : Registry) (request : McpRequest) : Server CallOutcome := do
  let _ ← ofExcept (registry.get request.serverName)
  let outcome ← read fun world => env.mcpOutcome world.outbound.length
  write fun world => { world with outbound := world.outbound ++ [request] }
  return outcome

def executeMcpToolCallStep (env : Env) (registry : Option Registry) (step : Step)
    (stepData : StepData) (skippedSet : List String) : Server Val := do
  match registry with
  | none =>
      raise (.uncaught "RuntimeError"
        "registry required for mcp_tool_call execution — should have been caught at load time")
  | some registry =>
      let args ← ofExcept (step.item "args")
      let resolved ← ofExcept (resolveArgs env stepData skippedSet step.id args)
      match findAbsentRefPath resolved "" with
      | some path => return failureEnvelope ("unresolved arg ref: $\x7bstep_data." ++ path ++
        "\x7d")
      | none =>
          let timeout ← ofExcept (effectiveTimeout step registry)
          let serverName ← ofExcept (step.item "server")
          let tool ← ofExcept (step.item "tool")
          let outcome ← mcpCall env registry { serverName, tool, args := resolved, timeout }
          return mapOutcomeToEnvelope outcome

def skippedPredecessorError (sessionFingerprint : String) (stepId : Val) (sid referencing : String)
    (referencingField : String) : Val :=
  errorResponse "skipped_predecessor_reference"
    ("Step '" ++ referencing ++ "' precondition references skipped predecessor '" ++ sid ++ "'")
    [("session_fingerprint", .str sessionFingerprint), ("step_id", stepId),
     ("referenced_step", .str sid), ("referencing_field", .str referencingField)]

/-- `try … except _SkippedPredecessor`. -/
def attemptCascade {α : Type} (body : Server α) : Server (Except (String × String) α) :=
  rescue (do return .ok (← body)) fun raised =>
    match raised with
    | .skippedPredecessor sid referencing => pure (.error (sid, referencing))
    | other => raise other

def afterMcpStep (wf : Workflow) (idx : Nat) (step : Step) : Val :=
  if step.flag "branches" then (step.get? "default_branch").getD (.str complete)
  else .str (wf.following idx)

/-- `_auto_execute_mcp_steps`: the pointer, the step data, and the envelope of a cascade. -/
def autoExecuteMcpSteps (env : Env) (registry : Option Registry) (wf : Workflow)
    (sessionId : SessionId) : Nat → Val → StepData → Server (Val × StepData × Option Val)
  | 0, _, _ => raise .diverges
  | fuel + 1, nextStepId, stepData => do
      if nextStepId.isStr complete then return (nextStepId, stepData, none)
      match findStep wf nextStepId with
      | none => return (nextStepId, stepData, none)
      | some (idx, step) =>
          if !step.isMcpToolCall then return (nextStepId, stepData, none)
          let skippedSet ← ofExcept (computeSkippedSteps env wf stepData)
          match ← attemptCascade (executeMcpToolCallStep env registry step stepData skippedSet) with
          | .error (sid, referencing) =>
              return (nextStepId, stepData, some (skippedPredecessorError
                (computeFingerprint env sessionId.text) nextStepId sid referencing "args"))
          | .ok envelope =>
              let stepData := stepData.set step.id (env.dumps envelope)
              incrementVisit env sessionId (.str step.id)
              let nextStepId := afterMcpStep wf idx step
              match ← attemptCascade (ofExcept (applySkipLoop env nextStepId wf stepData false)) with
              | .error (sid, referencing) =>
                  return (nextStepId, stepData, some (skippedPredecessorError
                    (computeFingerprint env sessionId.text) nextStepId sid referencing "precondition"))
              | .ok (nextStepId, _) =>
                  autoExecuteMcpSteps env registry wf sessionId fuel nextStepId stepData

end Megalos
