import Megalos.Execution

/-!
The pieces of the response envelopes.  Reading a key the workflow does not have
raises `KeyError`, as it does while the source builds the dict.
-/

namespace Megalos

open KeyedTable

def doNotRules : Val := .strs [
  "Do NOT skip ahead to later steps.",
  "Do NOT produce final artifacts yet.",
  "Do NOT ask multiple questions at once.",
  "Do NOT proceed until all gates for this step are satisfied.",
  "Do NOT submit a step without showing your work to the user and waiting for their confirmation. Each step is a conversation, not a task you complete silently.",
  "Do NOT submit multiple steps in a single response. Complete ONE step, present it, wait for the user to respond, then move to the next.",
  "Do NOT reveal step names, step numbers, or internal workflow mechanics to the user. The workflow should feel like a natural conversation, not a numbered checklist. Never say things like 'Step 2: Decompose and Structure' or 'we are now in the plan phase'."]

def conversationRepairDefaults : List (String × Val) := [
  ("on_go_back", .str "Guide the user to use revise_step"),
  ("on_cancel", .str "Confirm cancellation, then use delete_session"),
  ("on_digression", .str "Acknowledge, then redirect to current step"),
  ("on_clarification", .str "Re-explain the current step's directive more simply")]

/-- `_check_str`: the error for a value that is not a string (or empty when required). -/
def checkStr (value : Val) (name : String) (required : Bool) : Option Val :=
  match value with
  | .str text =>
      if required && text == "" then
        some (errorResponse "invalid_argument" (name ++
          " must not be empty") [("field", .str name)])
      else none
  | other => some (errorResponse "invalid_argument"
      (name ++ " must be a string, got " ++ other.typeName) [("field", .str name)])

def repairFor (wf : Workflow) : Except Exn Val :=
  match wf.get? "conversation_repair" with
  | none => .ok (.obj conversationRepairDefaults)
  | some overrides =>
      if !overrides.truthy then .ok (.obj conversationRepairDefaults)
      else
        match overrides with
        | .dict entries =>
            let kept := conversationRepairDefaults.map fun entry =>
              (Val.str entry.1, (Val.valueAt? entries entry.1).getD entry.2)
            let added := entries.filter fun entry =>
              !conversationRepairDefaults.any fun default => entry.1.isStr default.1
            .ok (.dict (kept ++ added))
        | other => .error (.typeError ("'" ++ other.typeName ++ "' object is not a mapping"))

def optionVal (value : Option Val) : Val := value.getD .none

def summaryLimit : Nat := 500

def hashed : Val → Except Exn Val
  | .list _ => .error (.typeError "unhashable type: 'list'")
  | .dict _ => .error (.typeError "unhashable type: 'dict'")
  | value => .ok value

def contextEntry (env : Env) (stepData : StepData) (entry : Val) : Except Exn Val := do
  let source ← entry.item "from"
  let stored := match source with
    | .str sid => stepData.get? sid
    | _ => none
  match stored with
  | none => return .obj [("from", source), ("content", .none)]
  | some raw =>
      let content ← env.tryLoads raw
      let fields := (entry.get? "fields").getD .none
      match fields.truthy, content with
      | true, .ok (.dict parsed) =>
          let names ← (← fields.iter).mapM hashed
          return .obj [("from", source), ("fields", .dict (names.map fun name =>
            (name, optionVal ((parsed.find? fun pair => pair.1.pyEq name).map Prod.snd))))]
      | _, _ =>
          let short := (optionVal (entry.get? "summary")).truthy && summaryLimit < raw.length
          let content := if short then String.ofList (raw.toList.take summaryLimit) ++
            "[truncated]" else raw
          return .obj [("from", source), ("content", .str content)]

def assembleContext (env : Env) (injectContext : Val) (stepData : StepData) : Except Exn Val := do
  return .list (← (← injectContext.iter).mapM (contextEntry env stepData))

def stepRef (step : Step) (withTarget : Bool) : Except Exn Val := do
  let title ← step.item "title"
  let target := if withTarget && step.flag "call" then [("call_target",
    optionVal (step.get? "call"))] else []
  return .obj ([("id", .str step.id), ("title", title)] ++ target)

def promptFields (wf : Workflow) (step : Step) : Except Exn (List (String × Val)) := do
  return [("directive", ← step.item "directive_template"), ("do_not", doNotRules),
    ("conversation_repair", ← repairFor wf), ("gates", ← step.item "gates")]

def flaggedFields (step : Step) (keys : List String) : List (String × Val) :=
  (keys.filter step.flag).map fun key => (key, optionVal (step.get? key))

def branchFields (step : Step) : List (String × Val) :=
  if step.flag "branches" then flaggedFields step ["branches", "default_branch"] else []

def injectedFields (env : Env) (step : Step) (stepData : StepData) :
    Except Exn (List (String × Val)) := do
  if step.flag "inject_context" then
    return [("injected_context",
      ← assembleContext env (optionVal (step.get? "inject_context")) stepData)]
  else return []

def noneSubscript : Exn := .typeError "'NoneType' object is not subscriptable"

/-- What a response says about the step the pointer stands at. -/
def guidanceFields (env : Env) (wf : Workflow) (step : Step) (stepData : StepData) :
    Except Exn (List (String × Val)) := do
  let prompt ← promptFields wf step
  let injected ← injectedFields env step stepData
  return prompt ++ injected ++ flaggedFields step ["directives"] ++ branchFields step

def workflowCompleteFields (message : String) : List (String × Val) :=
  [("status", .str "workflow_complete"), ("message", .str message)]

def allStepsComplete : String :=
    "All steps complete. Call generate_artifact to produce final output."

/-- The tail of a response after the pointer moved to `nextStepId`. -/
def advanceFields (env : Env) (wf : Workflow) (nextStepId : Val) (stepData : StepData) :
    Except Exn (List (String × Val)) := do
  if nextStepId.isStr complete then return workflowCompleteFields allStepsComplete
  else
    match findStep wf nextStepId with
    | none => throw noneSubscript
    | some (_, step) => return ("next_step",
      ← stepRef step true) :: (← guidanceFields env wf step stepData)

def progressText (idx total : Nat) (verb : String) : Val :=
  .str ("step " ++ toString (idx + 1) ++ " of " ++ toString total ++ verb)

def escalationVal (escalation : Escalation) : Val :=
  .obj [("guardrail_id", escalation.guardrailId), ("message", escalation.message)]

def formatValidationError (error : ValidationError) : String :=
  if error.jsonPath = "$" then error.message
  else
    let field := match error.jsonPath.toList with
      | '$' :: '.' :: rest => String.ofList rest
      | _ => error.jsonPath
    field ++ ": " ++ error.message

def validateOutput (env : Env) (content : String) (step : Step) :
    Except Exn (Option (List String)) :=
  if step.flag "output_schema" then
    match env.tryLoads content with
    | .error raised => .error raised
    | .ok (.error message) => .ok (some ["Content is not valid JSON: " ++ message])
    | .ok (.ok parsed) =>
        match env.iterErrors (optionVal (step.get? "output_schema")) parsed with
        | .error raised => .error raised
        | .ok [] => .ok none
        | .ok errors => .ok (some (errors.map formatValidationError))
  else .ok none

/-- The step-level text of `repr` for a list of branch targets. -/
def reprTargets (targets : List Val) : String :=
  "[" ++ ", ".intercalate (targets.map fun target => "'" ++ keyText target ++ "'") ++ "]"

/-! Guardrails. -/

def anyPattern (env : Env) (content : String) : List Val → Except Exn Bool
  | [] => .ok false
  | pattern :: rest =>
      match env.reSearch pattern content with
      | .error raised => .error raised
      | .ok true => .ok true
      | .ok false => anyPattern env content rest

def guardrailFires (env : Env) (guardrail : Val) (content : String) (session : Session)
    (stepId : String) : Except Exn Bool := do
  let trigger ← guardrail.item "trigger"
  let kind ← trigger.item "type"
  let zero := Val.int 0
  if kind.isStr "keyword_match" then
    anyPattern env content (← (((← trigger.getKey "patterns").getD (.list [])).iter))
  else if kind.isStr "step_count" then
    Val.countReaches session.stepData.size ((← trigger.getKey "max").getD zero) false
  else if kind.isStr "step_revisit" then
    Val.countReaches (session.stepVisitCounts.getD stepId 0)
      ((← trigger.getKey "max_visits").getD zero) false
  else if kind.isStr "output_length" then
    Val.countReaches content.length ((← trigger.getKey "max_chars").getD zero) true
  else return false

/-- `_evaluate_guardrails`: the first that fires, in declaration order. -/
def evaluateGuardrails (env : Env) (content : String) (session : Session) (stepId : String) :
    List Val → Except Exn (Option Val)
  | [] => .ok none
  | guardrail :: rest =>
      match guardrailFires env guardrail content session stepId with
      | .error raised => .error raised
      | .ok true => .ok (some guardrail)
      | .ok false => evaluateGuardrails env content session stepId rest

end Megalos
