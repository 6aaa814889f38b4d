import Megalos.Propagation

/-!
The tools that `register_tools` puts on the server.  Each takes the strings the
transport accepts (the framework refuses any other argument type before dispatch)
and returns a response envelope or raises.
-/

namespace Megalos

open KeyedTable StatefulProgram StatefulProgram.Program

def contentMax : Nat := 262144

def artifactMax : Nat := 1048576

def defaultMaxRetries : Val := .int 3

def maxStackDepth : Nat := 3

def activeCap : Nat := 5

/-- `_trap_errors`; `sessionId` is the `session_id` keyword of the call, if it has one. -/
def trapErrors (env : Env) (field : String) (sessionId : Option String) (body : Server Val) :
    Server Val :=
  rescue body fun raised =>
    match raised with
    | .sessionNotFound => pure (sessionNotFoundError
        ((sessionId.map fun sid => Val.str (computeFingerprint env sid)).getD .none))
    | .typeError message | .valueError message =>
        pure (errorResponse "invalid_argument" message [("field", .str field)])
    | other => raise other

/-- The first error of a chain of `_check_str` calls. -/
def checkStrs (checks : List (String × String × Bool)) : Option Val :=
  checks.findSome? fun check => checkStr (.str check.1) check.2.1 check.2.2

/-- `_check_str` on the arguments, then the resolution funnel on the session named first. -/
def withSession (env : Env) (deployment : Deployment) (sessionId : String)
    (checks : List (String × String × Bool)) (body : Session → Workflow → Server Val) :
    Server Val := do
  match checkStrs checks with
  | some err => return err
  | none =>
      match ← resolveSession env deployment sessionId (env.normalizeSessionId sessionId) with
      | .error err => return err
      | .ok (session, wf) => body session wf

def fingerprintOf (env : Env) (session : Session) : Val :=
  .str (computeFingerprint env session.sessionId.text)

def sessionCapError (env : Env) (world : World) : Val :=
  errorResponse "session_cap_exceeded"
    ("Session cap reached (" ++ toString world.countActive ++
      "/5). Delete or complete a session first.")
    [("active_sessions", .list (world.activeSessions env)),
      ("depth_breakdown", world.depthBreakdown)]

def availableTypes (deployment : Deployment) : Val :=
  .strs (deployment.workflows.rows.map Prod.fst)

def listWorkflows (env : Env) (deployment : Deployment) (category : String) : Server Val :=
  trapErrors env "category" none do
    match checkStrs [(category, "category", false)] with
    | some err => return err
    | none =>
        let text := fun (wf : Workflow) key => (wf.get? key).getD (.str "")
        let items := (deployment.workflows.rows.filter fun entry =>
            category == "" || (text entry.2 "category").isStr category).map fun entry =>
          Val.obj [("name", .str entry.1), ("description", text entry.2 "description"),
            ("category", text entry.2 "category"), ("steps", .int entry.2.steps.length)]
        return .obj [("workflows", .list items), ("total", .int items.length)]

/-- The response of `start_workflow` once the pointer is stored. -/
def frontResponse (env : Env) (workflowType context : String) (wf : Workflow) (sid : SessionId)
    (nextStepId : Val) (stepData : StepData) : Except Exn Val := do
  let named := [("session_id", Val.str sid.text), ("workflow_type", .str workflowType)]
  if nextStepId.isStr complete then
    return .obj (named ++ workflowCompleteFields allStepsComplete ++ [("context", .str context)])
  else
    match findStep wf nextStepId with
    | none => throw (.uncaught "AssertionError" "")
    | some (_, step) =>
        let current ← stepRef step false
        let prompt ← promptFields wf step
        let injected ← injectedFields env step stepData
        return .obj (named ++ [("current_step", current)] ++ prompt ++
          [("context", .str context)] ++
          flaggedFields step ["directives"] ++ injected)

/-- What follows the insertion of the root session in `start_workflow`. -/
def runFront (env : Env) (deployment : Deployment) (workflowType context : String) (wf : Workflow)
    (sid : SessionId) : Server Val := do
  incrementVisit env sid (.str wf.first.id)
  let (nextStepId, stepData, cascadeErr) ←
    autoExecuteMcpSteps env deployment.registry wf sid env.fuel (.str wf.first.id) Table.empty
  match cascadeErr with
  | some err =>
      updateCurrentStep env sid nextStepId (some stepData)
      return err
  | none =>
      if !nextStepId.isStr wf.first.id then
        updateCurrentStep env sid nextStepId (some stepData)
        if !nextStepId.isStr complete then incrementVisit env sid nextStepId
      ofExcept (frontResponse env workflowType context wf sid nextStepId stepData)

def startWorkflow (env : Env) (deployment : Deployment) (workflowType context : String) :
    Server Val :=
  trapErrors env "workflow_type" none do
    match checkStrs [(workflowType, "workflow_type", true), (context, "context", false)] with
    | some err => return err
    | none =>
        match deployment.workflows.get? workflowType with
        | none =>
            return errorResponse "workflow_not_loaded" ("Unknown workflow type: " ++ workflowType)
              [("available_types", availableTypes deployment)]
        | some wf =>
            let world ← read id
            if activeCap ≤ world.countActive then return sessionCapError env world
            let sid ← createSession env workflowType wf.first.id none .call none none
              (fingerprintFor env deployment workflowType)
            runFront env deployment workflowType context wf sid

/-- `session_id` in the chain view: the root it stands under, when the chain is not empty. -/
def stackView (world : World) (sessionId : SessionId) : Val :=
  match world.ownFrame sessionId with
  | some own => world.fullStack own.rootSessionId
  | none => if 0 < world.stackDepth sessionId then world.fullStack sessionId else .list []

def getState (env : Env) (deployment : Deployment) (sessionId : String) : Server Val :=
  trapErrors env "session_id" (some sessionId) <|
    withSession env deployment sessionId [(sessionId, "session_id", true)] fun session wf => do
      let found := findStep wf (.str session.currentStep)
      let titles ← ofExcept ((wf.steps.drop ((found.map fun entry =>
        entry.1 + 1).getD wf.steps.length)).mapM
        fun step => step.item "title")
      let current ← ofExcept (found.mapM fun entry => stepRef entry.2 false)
      let progress := (found.map fun entry =>
        Val.str ("step " ++ toString (entry.1 + 1) ++ " of " ++
          toString wf.steps.length)).getD (.str "unknown")
      let injected ← ofExcept ((found.map fun entry =>
        injectedFields env entry.2 session.stepData).getD (.ok []))
      let directives := (found.map fun entry => flaggedFields entry.2 ["directives"]).getD []
      let checkpoints ← match found with
        | some (_, step) =>
            if step.flag "intermediate_artifacts" then getArtifacts session.sessionId step.id
            else pure Table.empty
        | none => pure Table.empty
      let checkpointField := if checkpoints.size = 0 then [] else
        [("artifact_checkpoints",
          Val.obj (checkpoints.rows.map fun entry => (entry.1, .str entry.2)))]
      let skipped ← ofExcept (computeSkippedSteps env wf session.stepData)
      let skippedField := if skipped.isEmpty then [] else [("skipped_steps", Val.strs skipped)]
      let world ← read id
      let called := (world.topFrameFor session.sessionId).map fun frame =>
        ("called_session", Val.str frame.sessionId.text)
      return .obj ([("session_id", .str sessionId), ("workflow_type", .str session.workflowType),
        ("current_step", optionVal current), ("progress", progress), ("pending_steps",
          .list titles),
        ("step_data", .obj (session.stepData.rows.map fun entry => (entry.1, .str entry.2)))] ++
        injected ++ directives ++ checkpointField ++ skippedField ++ called.toList ++
        [("stack", stackView world session.sessionId)])

def getGuidelines (env : Env) (deployment : Deployment) (sessionId : String) : Server Val :=
  trapErrors env "session_id" (some sessionId) <|
    withSession env deployment sessionId [(sessionId, "session_id", true)] fun session wf => do
      match findStep wf (.str session.currentStep) with
      | none => raise noneSubscript
      | some (_, step) =>
          let current ← ofExcept (stepRef step false)
          let antiPatterns ← ofExcept (step.item "anti_patterns")
          let gates ← ofExcept (step.item "gates")
          return .obj [("session_id", .str sessionId), ("current_step", current),
            ("anti_patterns", antiPatterns), ("gates", gates)]

/-! `submit_step`. -/

inductive NextStep where
  | invalidBranch (target : Val) (validTargets : List Val)
  | goTo (nextStepId : Val) (forceBranched : Bool)

/-- A force_branch guardrail overrides everything; then branches; then list order. -/
def nextStepOf (wf : Workflow) (idx : Nat) (step : Step) (fired : Option Val) (branch : String) :
    Except Exn NextStep := do
  let forced ← match fired with
    | none => pure false
    | some guardrail => (·.isStr "force_branch") <$> guardrail.item "action"
  match fired, forced with
  | some guardrail, true => return .goTo (← guardrail.item "target_step") true
  | _, _ =>
      if step.flag "branches" then
        let validTargets ← (← (optionVal (step.get? "branches")).iter).mapM (·.item "next")
        let target := if branch =
          "" then (step.get? "default_branch").getD (.str "") else .str branch
        if validTargets.any target.pyEq then return .goTo target false
        else return .invalidBranch target validTargets
      else return .goTo (.str (wf.following idx)) false

inductive Submission where
  | answered (response : Val)
  | completed (child : Session)

def submittedResponse (env : Env) (wf : Workflow) (idx : Nat) (step : Step) (sessionId : String)
    (artifactId : Option String) (warning : Option Val) (nextStepId : Val) (stepData : StepData) :
    Except Exn Val := do
  let submitted ← stepRef step false
  let tail ← advanceFields env wf nextStepId stepData
  let artifact := (artifactId.map fun id => ("artifact_id", Val.str id)).toList
  let warned := match warning with
    | some message => if message.truthy then [("guardrail_warning", message)] else []
    | none => []
  return .obj ([("session_id", .str sessionId), ("submitted", submitted)] ++ artifact ++
    [("progress", progressText idx wf.steps.length " complete")] ++ warned ++ tail)

def advanceSession (env : Env) (deployment : Deployment) (sessionId : String) (session : Session)
    (wf : Workflow) (idx : Nat) (step : Step) (artifactId : Option String) (warning : Option Val)
    (stepData : StepData) (nextStepId : Val) (forceBranched : Bool) : Server Submission := do
  let sid := session.sessionId
  match ← attemptCascade (ofExcept (applySkipLoop env nextStepId wf stepData forceBranched)) with
  | .error (skipped, referencing) =>
      return .answered (← wrapChildFailureIntoParentEscalation env sid wf "cascade_error"
        (skippedPredecessorError (computeFingerprint env sid.text) (.str step.id) skipped referencing
          "precondition"))
  | .ok (nextStepId, _) =>
      let (nextStepId, stepData, cascadeErr) ←
        autoExecuteMcpSteps env deployment.registry wf sid env.fuel nextStepId stepData
      match cascadeErr with
      | some err =>
          updateCurrentStep env sid nextStepId (some stepData)
          return .answered (← wrapChildFailureIntoParentEscalation env sid wf "cascade_error" err)
      | none =>
          if !nextStepId.isStr complete then incrementVisit env sid nextStepId
          updateCurrentStep env sid nextStepId (some stepData)
          let parentSid ← read fun world => world.parentOf sid
          if nextStepId.isStr complete && parentSid.isSome then
            return .completed { session with currentStep := complete, stepData := stepData }
          return .answered (← ofExcept
            (submittedResponse env wf idx step sessionId artifactId warning nextStepId stepData))

/-- The guardrail that fires on the content, when the workflow declares any. -/
def firedGuardrail (env : Env) (wf : Workflow) (content : String) (session : Session)
    (stepId : String) : Except Exn (Option Val) := do
  let guardrails := (wf.get? "guardrails").getD (.list [])
  if guardrails.truthy then evaluateGuardrails env content session stepId (← guardrails.iter)
  else return none

def guardrailWarning (fired action : Option Val) : Except Exn (Option Val) := do
  if (action.map (·.isStr "warn")).getD false then return some (← (optionVal fired).item "message")
  else return none

/-- The part both submit paths share: store the content, evaluate the guardrails, advance. The
snapshot's `step_data` is the dict the content was written into. -/
def commitSubmission (env : Env) (deployment : Deployment) (sessionId : String) (snapshot : Session)
    (wf : Workflow) (idx : Nat) (step : Step) (content branch : String)
    (artifactId : Option String) : Server Submission := do
  let sid := snapshot.sessionId
  let stepData := snapshot.stepData.set step.id content
  let session := { snapshot with stepData := stepData }
  let fired ← ofExcept (firedGuardrail env wf content session step.id)
  let action ← ofExcept (fired.mapM fun guardrail => guardrail.item "action")
  if (action.map (·.isStr "escalate")).getD false then
    let guardrailId ← ofExcept ((optionVal fired).item "id")
    let message ← ofExcept ((optionVal fired).item "message")
    setEscalation env sid guardrailId message
    updateStepData env sid stepData
    return .answered (← wrapChildFailureIntoParentEscalation env sid wf "guardrail_escalate"
      (errorResponse "session_escalated" "Session escalated by guardrail."
        [("session_fingerprint", fingerprintOf env session), ("guardrail_id", guardrailId),
         ("message", message)]))
  let warning ← ofExcept (guardrailWarning fired action)
  match ← ofExcept (nextStepOf wf idx step fired branch) with
  | .invalidBranch target validTargets =>
      return .answered (errorResponse "invalid_argument"
        ("Invalid branch '" ++ keyText target ++ "'. Valid options: " ++ reprTargets validTargets)
        [("field", .str "branch"), ("session_fingerprint", fingerprintOf env session),
         ("step_id", .str step.id)])
  | .goTo nextStepId forceBranched =>
      advanceSession env deployment sessionId session wf idx step artifactId warning stepData
        nextStepId forceBranched

def findArtifact (artifactId : String) : List Val → Except Exn (Option Val)
  | [] => .ok none
  | artifact :: rest =>
      match artifact.item "id" with
      | .error raised => .error raised
      | .ok id => if id.isStr artifactId then .ok (some artifact) else findArtifact artifactId rest

def submitArtifact (env : Env) (deployment : Deployment) (sessionId : String) (session : Session)
    (wf : Workflow) (idx : Nat) (step : Step) (content branch artifactId : String) :
    Server Submission := do
  let fingerprint := fingerprintOf env session
  let artifacts ← ofExcept (optionVal (step.get? "intermediate_artifacts")).iter
  let place := [("session_fingerprint", fingerprint), ("step_id", Val.str step.id)]
  let refusal := fun errors : List String => Val.obj ([("status", .str "validation_error"),
    ("errors", .strs errors)] ++ place ++ [("artifact_id", .str artifactId)])
  if artifactId = "" then
    let expected ← ofExcept (artifacts.mapM (·.item "id"))
    return .answered (errorResponse "invalid_argument"
      "Step has intermediate_artifacts. Must specify artifact_id."
      (("field", .str "artifact_id") :: place ++ [("expected_artifacts", .list expected)]))
  match ← ofExcept (findArtifact artifactId artifacts) with
  | none =>
      let expected ← ofExcept (artifacts.mapM (·.item "id"))
      return .answered (errorResponse "unknown_artifact" ("Unknown artifact_id '" ++ artifactId ++
        "'")
        (place ++ [("expected_artifacts", .list expected)]))
  | some artifact =>
      match ← ofExcept (env.tryLoads content) with
      | .error message => return .answered (refusal ["Content is not valid JSON: " ++ message])
      | .ok parsed =>
          let schema ← ofExcept (artifact.item "schema")
          let errors ← ofExcept (env.iterErrors schema parsed)
          if !errors.isEmpty then return .answered (refusal (errors.map ValidationError.message))
          if (optionVal (artifact.get? "checkpoint")).truthy then
            storeArtifact env session.sessionId step.id artifactId content
          if !((step.get? "output_from").getD (.str "")).isStr artifactId then
            return .answered (.obj [("status", .str "artifact_accepted"),
              ("session_id", .str sessionId), ("step_id", .str step.id), ("artifact_id",
                .str artifactId), ("current_step", .str step.id)])
          commitSubmission env deployment sessionId session wf idx step content branch (some artifactId)

def submitPlain (env : Env) (deployment : Deployment) (sessionId : String) (session : Session)
    (wf : Workflow) (idx : Nat) (step : Step) (content branch : String) : Server Submission := do
  match ← ofExcept (validateOutput env content step) with
  | none => commitSubmission env deployment sessionId session wf idx step content branch none
  | some errors =>
      let maxRetries := (step.get? "max_retries").getD defaultMaxRetries
      let retryCount ← incrementRetry env session.sessionId step.id
      let refusal := fun rest =>
        Val.obj ([("status", .str "validation_error"), ("errors", .strs errors),
        ("session_fingerprint", fingerprintOf env session), ("step_id", .str step.id)] ++ rest)
      if ← ofExcept (Val.countReaches retryCount maxRetries false) then
        return .answered (← wrapChildFailureIntoParentEscalation env session.sessionId wf
          "schema_violation" (refusal [("retries_exhausted", .bool true),
            ("message", .str ("Max retries (" ++ keyText maxRetries ++
              ") exceeded. Workflow stalled."))]))
      let remaining := match maxRetries with
        | .int limit => limit - retryCount
        | _ => 0
      let hint := flaggedFields step ["validation_hint"]
      return .answered (refusal (("retries_remaining", .int remaining) :: hint))

/-- The guards of `submit_step` after the session is resolved, then the path of the step. -/
def submitResolved (env : Env) (deployment : Deployment)
    (sessionId stepId content branch artifactId : String) (session : Session) (wf : Workflow) :
    Server Submission := do
  let fingerprint := fingerprintOf env session
  match session.escalation with
  | some escalation =>
      return .answered (errorResponse "session_escalated"
        "Session is escalated. Resolve the escalation before continuing."
        [("session_fingerprint", fingerprint), ("escalation", escalationVal escalation)])
  | none =>
  if session.currentStep = complete then
    return .answered (errorResponse "workflow_complete"
      "Workflow already complete. Call generate_artifact to get final output."
      [("session_fingerprint", fingerprint)])
  if stepId ≠ session.currentStep then
    return .answered (errorResponse "out_of_order_submission"
      ("Out-of-order submission: expected '" ++ session.currentStep ++ "', got '" ++ stepId ++ "'")
      [("session_fingerprint", fingerprint), ("expected_step", .str session.currentStep),
       ("submitted_step", .str stepId)])
  if contentMax < content.utf8ByteSize then
    return .answered (errorResponse "oversize_payload"
      ("content exceeds " ++ toString contentMax ++ " bytes (" ++ toString content.utf8ByteSize ++
        " bytes received)")
      [("field", .str "content"), ("max_bytes", .int contentMax),
       ("actual_bytes", .int content.utf8ByteSize), ("session_fingerprint", fingerprint),
       ("step_id", .str stepId)])
  match ← read fun world => world.topFrameFor session.sessionId with
  | some top =>
      let calledFp := computeFingerprint env top.sessionId.text
      return .answered (errorResponse "sub_workflow_pending"
        ("a child session (fingerprint '" ++ calledFp ++ "') is already in flight above session " ++
          "fingerprint '" ++ computeFingerprint env session.sessionId.text ++ "'. " ++
          "Complete or revise the child before submitting further steps.")
        [("parent_session_fingerprint", fingerprint), ("child_session_fingerprint", .str calledFp),
         ("call_step_id", .str stepId), ("frame_type", .str top.frameType.text)])
  | none =>
  match findStep wf (.str stepId) with
  | none => raise (.typeError "argument of type 'NoneType' is not iterable")
  | some (idx, step) =>
      match step.get? "call" with
      | some target =>
          return .answered (errorResponse "call_step_requires_enter_sub_workflow"
            ("step '" ++ stepId ++ "' has `call: " ++ keyText target ++
              "`. Use the `enter_sub_workflow` tool, not `submit_step`, to invoke the child workflow.")
            [("session_fingerprint", fingerprint), ("step_id", .str stepId),
             ("hint", .str "enter_sub_workflow"), ("call_target", target)])
      | none =>
          if step.flag "intermediate_artifacts" then
            submitArtifact env deployment sessionId session wf idx step content branch artifactId
          else submitPlain env deployment sessionId session wf idx step content branch

def submitStep (env : Env) (deployment : Deployment)
    (sessionId stepId content branch artifactId : String) : Server Val :=
  trapErrors env "content" (some sessionId) <|
    withSession env deployment sessionId [(sessionId, "session_id", true),
      (stepId, "step_id", true), (content, "content", false), (branch, "branch",
        false), (artifactId, "artifact_id", false)]
      fun session wf => do
        match ← submitResolved env deployment sessionId stepId content branch artifactId session wf with
        | .answered response => return response
        | .completed child => autoResumeOnTopFrameComplete env deployment child wf

/-! Tools that reshape the stack. -/

/-- The refusal of `revise_step` and `delete_session` on a session that has a frame. -/
def parentOwnedError (env : Env) (world : World) (sessionId : SessionId) (presented : String)
    (own : Frame) : Val :=
  let parentSid := world.parentOf sessionId
  let parentFp := (parentSid.map fun sid => computeFingerprint env sid.text)
  let parentStep := ((parentSid.bind world.sessions.lookup).map Session.currentStep).getD ""
  let fingerprint := computeFingerprint env presented
  errorResponse "sub_workflow_parent_owned"
    ("child session fingerprint '" ++ fingerprint ++ "' is owned by parent fingerprint '" ++
      parentFp.getD "None" ++ "' at step '" ++ parentStep ++
        "'. Revise the parent's step to unlink.")
    [("session_fingerprint", .str fingerprint),
     ("parent_session_fingerprint", (parentFp.map Val.str).getD .none),
     ("call_step_id", .str parentStep), ("frame_type", .str own.frameType.text)]

/-- The writes of an accepted `revise_step`; the child deleted, if one was. -/
def applyRevision (env : Env) (session : Session) (wf : Workflow) (idx : Nat) (target : Step)
    (childFrame : Option Frame) : Server (Option SessionId) := do
  let sid := session.sessionId
  invalidateStepsAfter env sid ((wf.steps.drop (idx + 1)).map Step.id)
  let retained ← if target.isCall then do
      match childFrame with
      | none => pure ()
      | some child =>
          -- a child that is gone already leaves only the link to clear
          rescue (do let _ ← deleteSessionRow child.sessionId) fun raised =>
            match raised with
            | .sessionNotFound => pure ()
            | other => raise other
          setCalledSession env sid none none
      clearStepDataKey env sid target.id
      pure (childFrame.map Frame.sessionId)
    else pure none
  updateCurrentStep env sid (.str target.id) none
  return retained

def reviseStep (env : Env) (deployment : Deployment) (sessionId stepId : String) : Server Val :=
  trapErrors env "step_id" (some sessionId) <|
    withSession env deployment sessionId [(sessionId, "session_id", true),
      (stepId, "step_id", true)]
      fun session wf => do
        let world ← read id
        let fingerprint := fingerprintOf env session
        let refuse := fun message => errorResponse "invalid_argument" message
          [("field", .str "step_id"), ("session_fingerprint", fingerprint)]
        match world.ownFrame session.sessionId with
        | some own => return parentOwnedError env world session.sessionId session.sessionId.text own
        | none =>
        match findStep wf (.str stepId) with
        | none => return refuse ("Step '" ++ stepId ++ "' not found in workflow")
        | some (idx, target) =>
            let childFrame := world.topFrameFor session.sessionId
            if !session.stepData.contains stepId && !(target.isCall && childFrame.isSome) then
              return refuse ("Step '" ++ stepId ++ "' has not been completed yet")
            let retained ← applyRevision env session wf idx target childFrame
            let revised ← ofExcept (stepRef target false)
            let prompt ← ofExcept (promptFields wf target)
            return .obj ([("session_id", .str sessionId), ("revised_step", revised),
              ("previous_content", .str (session.stepData.getD stepId "")),
              ("invalidated_steps", .strs ((wf.steps.drop (idx + 1)).map Step.id))] ++ prompt ++
              (retained.map fun child => ("retained_child_deleted", Val.str child.text)).toList)

def childContext (env : Env) (parent : Session) (callStep : Step) :
    Except Exn (Except Val String) :=
  if callStep.flag "call_context_from" then
    let ccf := optionVal (callStep.get? "call_context_from")
    match resolveRef env ccf parent.stepData [] callStep.id with
    | .error raised => .error raised
    | .ok (some (.str text)) => .ok (.ok text)
    | .ok (some (.none)) | .ok none =>
        .ok (.error (errorResponse "invalid_argument"
          ("call_context_from '" ++ keyText ccf ++ "' did not resolve in parent step_data")
          [("field", .str "call_context_from"), ("session_fingerprint", fingerprintOf env parent)]))
    | .ok (some extracted) => .ok (.ok (env.dumps extracted))
  else .ok (.ok "")

def spawnedResponse (childSid : SessionId) (target : Val) (childWf : Workflow) (context : String)
    (extra : List (String × Val)) : Except Exn Val := do
  let current ← stepRef childWf.first false
  let prompt ← promptFields childWf childWf.first
  return .obj ([("session_id", .str childSid.text), ("workflow_type", target),
    ("current_step", current)] ++
    prompt ++ [("context", .str context)] ++ extra ++ flaggedFields childWf.first ["directives"])

def pendingChildError (env : Env) (session : Session) (top : Frame) (message callStepId : String) :
    Val :=
  errorResponse "sub_workflow_pending" message
    [("child_session_fingerprint", .str (computeFingerprint env top.sessionId.text)),
     ("parent_session_fingerprint", fingerprintOf env session), ("call_step_id", .str callStepId),
     ("frame_type", .str top.frameType.text)]

/-- The guards that `enter_sub_workflow` and `push_flow` share: complete, escalated, elsewhere. -/
def spawnGuards (env : Env) (session : Session) (stepId done escalated whose : String) :
    Option Val :=
  let fingerprint := fingerprintOf env session
  if session.currentStep = complete then
    some (errorResponse "workflow_complete" done [("session_fingerprint", fingerprint)])
  else
    match session.escalation with
    | some escalation =>
        some (errorResponse "session_escalated" escalated
          [("session_fingerprint", fingerprint), ("escalation", escalationVal escalation)])
    | none =>
        if session.currentStep ≠ stepId then
          some (errorResponse "out_of_order_submission"
            (whose ++ " current_step is '" ++ session.currentStep ++ "', not '" ++ stepId ++ "'")
            [("session_fingerprint", fingerprint), ("expected_step", .str session.currentStep),
             ("submitted_step", .str stepId)])
        else none

def enterSubWorkflow (env : Env) (deployment : Deployment) (parentSessionId callStepId : String) :
    Server Val :=
  trapErrors env "parent_session_id" none <|
    withSession env deployment parentSessionId
      [(parentSessionId, "parent_session_id", true), (callStepId, "call_step_id", true)]
      fun parent parentWf => do
        match spawnGuards env parent callStepId "Parent workflow already complete."
          "Parent session is escalated. Resolve the escalation before continuing." "parent" with
        | some err => return err
        | none =>
        let noCall := errorResponse "invalid_argument"
          ("parent step '" ++ callStepId ++ "' has no `call` field")
          [("field", .str "call_step_id"), ("session_fingerprint", fingerprintOf env parent)]
        match (findStep parentWf (.str callStepId)).bind fun entry =>
            (entry.2.get? "call").map fun target => (entry.2, target) with
        | none => return noCall
        | some (callStep, target) =>
        let world ← read id
        match world.topFrameFor parent.sessionId with
        | some pending =>
            return pendingChildError env parent pending
              "a child session is already in flight for this call-step" callStepId
        | none =>
        let loaded := match target with
          | .str name => (deployment.workflows.get? name).map fun wf => (name, wf)
          | _ => none
        match loaded with
        | none =>
            return errorResponse "workflow_not_loaded"
              ("target workflow '" ++ keyText target ++ "' not loaded")
              [("available_types", availableTypes deployment)]
        | some (name, childWf) =>
        match ← ofExcept (childContext env parent callStep) with
        | .error err => return err
        | .ok context =>
            let childSid ← createSession env name childWf.first.id (some parent.sessionId) .call none none
              (fingerprintFor env deployment name)
            incrementVisit env childSid (.str childWf.first.id)
            setCalledSession env parent.sessionId (some childSid) (some callStepId)
            ofExcept (spawnedResponse childSid target childWf context
              [("parent_session_id", .str parentSessionId)])

def stackFullError (env : Env) (world : World) (root : SessionId) (depth limit : Nat)
    (advice : String) : Val :=
  let rootFp := computeFingerprint env root.text
  errorResponse "session_stack_full"
    ("session stack full: depth " ++ toString depth ++ " at max " ++ toString limit ++
      " for root fingerprint '" ++ rootFp ++ "'. " ++ advice)
    [("current_depth", .int depth), ("max_depth", .int limit),
     ("root_session_fingerprint", .str rootFp), ("depth_breakdown", world.depthBreakdown)]

def pushFlow (env : Env) (deployment : Deployment)
    (sessionId workflowType pausedAtStep context : String) : Server Val :=
  trapErrors env "session_id" (some sessionId) <|
    withSession env deployment sessionId [(sessionId, "session_id", true),
      (workflowType, "workflow_type", true), (pausedAtStep, "paused_at_step", true),
      (context, "context", false)]
      fun outer _ => do
        match spawnGuards env outer pausedAtStep "Outer workflow already complete — cannot push a digression."
          "Outer session is escalated. Resolve the escalation before pushing a digression." "outer" with
        | some err => return err
        | none =>
        let world ← read id
        match world.topFrameFor outer.sessionId with
        | some top =>
            return pendingChildError env outer top
              ("a child session (fingerprint '" ++ computeFingerprint env top.sessionId.text ++
                "') is already in flight above session fingerprint '" ++
                computeFingerprint env outer.sessionId.text ++
                "'. Resolve it before pushing another digression.") pausedAtStep
        | none =>
        match deployment.workflows.get? workflowType with
        | none =>
            return errorResponse "workflow_not_loaded" ("Unknown workflow type: " ++ workflowType)
              [("available_types", availableTypes deployment)]
        | some childWf =>
        let outerRoot := (world.standing outer.sessionId).1
        if maxStackDepth ≤ world.stackDepth outerRoot then
          return stackFullError env world outerRoot (world.stackDepth outerRoot) maxStackDepth
            "Resolve a frame before pushing again."
        if activeCap ≤ world.countActive then return sessionCapError env world
        let created ← rescue (do
            return Except.ok (← createSession env workflowType childWf.first.id (some outer.sessionId)
              .digression (some pausedAtStep) (some maxStackDepth)
                (fingerprintFor env deployment workflowType)))
          fun raised =>
            match raised with
            | .stackFull root depth limit => do
                let world ← read id
                return .error (stackFullError env world root depth limit
                  "Lost the race; resolve a frame and retry.")
            | other => raise other
        match created with
        | .error err => return err
        | .ok childSid =>
            incrementVisit env childSid (.str childWf.first.id)
            let frameDepth ← read fun world => world.stackDepth (world.standing childSid).1
            ofExcept (spawnedResponse childSid (.str workflowType) childWf context
              [("parent_session_id", .str sessionId), ("paused_at_step", .str pausedAtStep),
               ("frame_depth", .int frameDepth)])

def popFlow (env : Env) (deployment : Deployment) (sessionId : String) : Server Val :=
  trapErrors env "session_id" (some sessionId) <|
    withSession env deployment sessionId [(sessionId, "session_id", true)] fun session _ => do
      let fingerprint := fingerprintOf env session
      let fpText := computeFingerprint env session.sessionId.text
      match session.escalation with
      | some escalation =>
          return errorResponse "session_escalated"
            "Session is escalated. Resolve the escalation before popping."
            [("session_fingerprint", fingerprint), ("escalation", escalationVal escalation)]
      | none =>
      match ← read fun world => world.ownFrame session.sessionId with
      | none =>
          return errorResponse "no_frame_to_pop"
            ("session fingerprint '" ++ fpText ++ "' has no stack frame to pop.")
            [("session_fingerprint", fingerprint)]
      | some own =>
          match own.frameType with
          | .call =>
              return errorResponse "frame_type_not_poppable"
                ("session fingerprint '" ++ fpText ++ "' is a call-frame; call-frames are " ++
                  "author-resumed. Use revise_step on the parent's call-step to abandon.")
                [("session_fingerprint", fingerprint), ("frame_type", .str "call")]
          | .digression => resumeParentAfterDigression env deployment session.sessionId

def listSessions (env : Env) : Server Val :=
  trapErrors env "unknown" none do
    let world ← read id
    return .obj [("sessions", .list (world.listSessions env))]

def deleteSession (env : Env) (deployment : Deployment) (sessionId : String) : Server Val :=
  trapErrors env "session_id" (some sessionId) do
    match checkStrs [(sessionId, "session_id", true)] with
    | some err => return err
    | none =>
        let sid := env.normalizeSessionId sessionId
        let world ← read id
        let denied := (world.sessions.lookup sid).filter fun owner =>
          deployment.caller ≠ owner.ownerIdentity
        match denied with
        | some owner =>
            return errorResponse "cross_session_access_denied"
              ("caller identity does not own session " ++
                computeFingerprint env owner.sessionId.text)
              [("session_fingerprint", fingerprintOf env owner)]
        | none =>
        match world.ownFrame sid with
        | some own => return parentOwnedError env world sid sessionId own
        | none =>
        match ← rescue (do return some (← deleteSessionRow sid)) fun raised =>
            match raised with
            | .sessionNotFound => pure none
            | other => raise other with
        | none => return sessionNotFoundError (.str (computeFingerprint env sessionId))
        | some deleted =>
            return .obj [("session_id", .str deleted.sessionId.text),
              ("workflow_type", .str deleted.workflowType), ("current_step",
                .str deleted.currentStep),
              ("completed", .bool (deleted.currentStep == complete))]

def artifactIn (env : Env) (wf : Workflow) (stepData : StepData) (outputFormat : String) :
    Except Exn (Val × Nat) := do
  let content := fun step : Step => stepData.getD step.id ""
  if outputFormat = "auto" then return (.str (content wf.last), (content wf.last).utf8ByteSize)
  else if outputFormat = "structured_code" then
    let entries ← wf.steps.mapM fun step => do
      return Val.obj [("step_id", .str step.id), ("title", ← step.item "title"),
        ("content", .str (content step))]
    return (.list entries, (env.dumps (.list entries)).utf8ByteSize)
  else
    let text := "\n\n".intercalate (wf.steps.map content)
    return (.str text, text.utf8ByteSize)

def generateArtifact (env : Env) (deployment : Deployment) (sessionId outputFormat : String) :
    Server Val :=
  trapErrors env "session_id" (some sessionId) <|
    withSession env deployment sessionId
      [(sessionId, "session_id", true), (outputFormat, "output_format", false)] fun session wf => do
      let fingerprint := fingerprintOf env session
      if session.currentStep ≠ complete then
        -- a dangling pointer has index -1, and `steps[-1:]` is the last step
        let start := ((findStep wf (.str session.currentStep)).map Prod.fst).getD (wf.steps.length - 1)
        let remaining ← ofExcept ((wf.steps.drop start).mapM fun step => step.item "title")
        return errorResponse "invalid_argument" "Workflow not complete. Finish all steps first."
          [("field", .str "session_state"), ("session_fingerprint", fingerprint),
           ("remaining_steps", .list remaining)]
      let (artifact, size) ← ofExcept (artifactIn env wf session.stepData outputFormat)
      if artifactMax < size then
        return errorResponse "oversize_payload"
          ("artifact exceeds " ++ toString artifactMax ++ " bytes (" ++ toString size ++
            " bytes serialized)")
          [("field", .str "artifact"), ("max_bytes", .int artifactMax), ("actual_bytes", .int size),
           ("session_fingerprint", fingerprint)]
      return .obj [("session_id", .str sessionId), ("workflow_type", .str session.workflowType),
        ("output_format", .str outputFormat), ("artifact", artifact)]

/-! One request to the server. -/

inductive Call where
  | listWorkflows (category : String)
  | startWorkflow (workflowType context : String)
  | getState (sessionId : String)
  | getGuidelines (sessionId : String)
  | submitStep (sessionId stepId content branch artifactId : String)
  | reviseStep (sessionId stepId : String)
  | enterSubWorkflow (parentSessionId callStepId : String)
  | pushFlow (sessionId workflowType pausedAtStep context : String)
  | popFlow (sessionId : String)
  | listSessions
  | deleteSession (sessionId : String)
  | generateArtifact (sessionId outputFormat : String)
  deriving DecidableEq, Repr

def callTool (env : Env) (deployment : Deployment) : Call → Server Val
  | .listWorkflows category => listWorkflows env deployment category
  | .startWorkflow workflowType context => startWorkflow env deployment workflowType context
  | .getState sessionId => getState env deployment sessionId
  | .getGuidelines sessionId => getGuidelines env deployment sessionId
  | .submitStep sessionId stepId content branch artifactId =>
      submitStep env deployment sessionId stepId content branch artifactId
  | .reviseStep sessionId stepId => reviseStep env deployment sessionId stepId
  | .enterSubWorkflow parentSessionId callStepId =>
      enterSubWorkflow env deployment parentSessionId callStepId
  | .pushFlow sessionId workflowType pausedAtStep context =>
      pushFlow env deployment sessionId workflowType pausedAtStep context
  | .popFlow sessionId => popFlow env deployment sessionId
  | .listSessions => listSessions env
  | .deleteSession sessionId => deleteSession env deployment sessionId
  | .generateArtifact sessionId outputFormat =>
    generateArtifact env deployment sessionId outputFormat

end Megalos
