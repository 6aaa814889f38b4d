import Megalos.Response

/-!
The helpers of `tools.py` that the session tools share: the resolution funnel, and
the ways in which the end or the failure of a child reaches the session below it.
-/

namespace Megalos

open KeyedTable StatefulProgram StatefulProgram.Program

def workflowChangedEnvelope (env : Env) (session : Session) (currentFp : String) : Val :=
  errorResponse "workflow_changed"
    ("Workflow '" ++ session.workflowType ++ "' has changed since this session was started. " ++
      "The session is terminal; start a new one.")
    [("session_fingerprint", .str (computeFingerprint env session.sessionId.text)),
     ("workflow_type", .str session.workflowType),
     ("previous_fingerprint", .str session.workflowFingerprint),
     ("current_fingerprint", .str currentFp)]

def sessionNotFoundError (fingerprint : Val) : Val :=
  errorResponse "session_not_found" "session not found" [("session_fingerprint", fingerprint)]

def resolveSession (env : Env) (deployment : Deployment) (presented : String)
    (sessionId : SessionId) : Server (Except Val (Session × Workflow)) := do
  match ← read fun world => world.sessions.lookup sessionId with
  | none => return .error (sessionNotFoundError (.str (computeFingerprint env presented)))
  | some session =>
      let fingerprint := computeFingerprint env session.sessionId.text
      if deployment.caller ≠ session.ownerIdentity then
        return .error (errorResponse "cross_session_access_denied"
          ("caller identity does not own session " ++ fingerprint)
          [("session_fingerprint", .str fingerprint)])
      if session.currentStep = workflowChanged then
        return .error (workflowChangedEnvelope env session session.workflowFingerprint)
      match deployment.workflows.get? session.workflowType with
      | none =>
          return .error (errorResponse "workflow_not_loaded"
            ("Workflow '" ++ session.workflowType ++ "' not loaded")
            [("session_fingerprint", .str fingerprint)])
      | some wf =>
          match deployment.workflowFingerprints.get? session.workflowType with
          | some currentFp =>
              if session.workflowFingerprint ≠ currentFp then
                updateCurrentStep env sessionId (.str workflowChanged) none
                return .error (workflowChangedEnvelope env session currentFp)
              else return .ok (session, wf)
          | none => return .ok (session, wf)

def wrapChildFailureIntoParentEscalation (env : Env) (childSid : SessionId) (childWf : Workflow)
    (reason : String) (childError : Val) : Server Val := do
  match ← read fun world => world.parentOf childSid with
  | none => return childError
  | some parentSid =>
      setEscalation env parentSid (.str "called_workflow_failed")
        (.str ("child '" ++ childSid.text ++ "' failed: " ++ reason))
      let childFp := computeFingerprint env childSid.text
      let name ← ofExcept (childWf.item "name")
      return errorResponse "session_escalated"
        ("parent escalated due to sub-workflow failure in child with fingerprint '" ++ childFp ++
          "'")
        [("parent_session_fingerprint", .str (computeFingerprint env parentSid.text)),
         ("called_workflow_error", .obj [("child_session_fingerprint", .str childFp),
           ("child_workflow_type", name), ("child_error", childError)])]

def afterCallStep (wf : Workflow) (idx : Nat) (callStep : Step) : Except Exn Val :=
  if callStep.flag "branches" then callStep.item "default_branch"
  else .ok (.str (wf.following idx))

def advanceParent (env : Env) (registry : Option Registry) (parentSid : SessionId)
    (parentWf : Workflow) (callStep : Step) (idx : Nat) (stepData : StepData) : Server Val := do
  let nextStepId ← ofExcept (afterCallStep parentWf idx callStep)
  match ← attemptCascade (ofExcept (applySkipLoop env nextStepId parentWf stepData false)) with
  | .error (sid, referencing) =>
      return skippedPredecessorError (computeFingerprint env parentSid.text) (.str callStep.id)
        sid referencing "precondition"
  | .ok (nextStepId, _) =>
      let (nextStepId, stepData, cascadeErr) ←
        autoExecuteMcpSteps env registry parentWf parentSid env.fuel nextStepId stepData
      match cascadeErr with
      | some err =>
          updateCurrentStep env parentSid nextStepId (some stepData)
          return err
      | none =>
          if !nextStepId.isStr complete then incrementVisit env parentSid nextStepId
          updateCurrentStep env parentSid nextStepId (some stepData)
          let submitted ← ofExcept (stepRef callStep false)
          let tail ← ofExcept (advanceFields env parentWf nextStepId stepData)
          return .obj ([("session_id", .str parentSid.text), ("submitted", submitted),
            ("progress", progressText idx parentWf.steps.length " complete"),
            ("propagated_from_sub_workflow", .bool true)] ++ tail)

/-- `_resume_parent_after_digression`: pop the frame, delete the child, hand the outer session's
directive back. -/
def resumeParentAfterDigression (env : Env) (deployment : Deployment) (childSid : SessionId) :
    Server Val := do
  match ← read fun world => world.parentOf childSid with
  | none => raise (.uncaught "AssertionError" "resume_parent_after_digression called on a root session")
  | some outerSid =>
      match ← resolveSession env deployment outerSid.text outerSid with
      | .error err => return err
      | .ok (outerSession, outerWf) =>
          let _ ← deleteSessionRow childSid
          let base := [("session_id", Val.str outerSid.text),
            ("resumed_from_digression", .bool true), ("child_session_id", .str childSid.text)]
          let outerDone := base ++
            workflowCompleteFields "Outer workflow already complete; digression returned."
          if outerSession.currentStep = complete then return .obj outerDone
          match findStep outerWf (.str outerSession.currentStep) with
          | none => return .obj outerDone
          | some (idx, step) =>
              let current ← ofExcept (stepRef step true)
              let guidance ← ofExcept (guidanceFields env outerWf step outerSession.stepData)
              return .obj (base ++ [("current_step", current),
                ("progress", progressText idx outerWf.steps.length " resumed")] ++ guidance)

/-- `_propagate_to_parent`: write the child's artifact under the parent's call-step, delete the
child, advance the parent. -/
def propagateToParent (env : Env) (deployment : Deployment) (child : Session) (childWf : Workflow) :
    Server Val := do
  let childSid := child.sessionId
  match ← read fun world => world.parentOf childSid with
  | none => raise (.uncaught "AssertionError" "propagate_to_parent called on a root session")
  | some parentSid =>
      let artifact := child.stepData.getD childWf.last.id ""
      match ← resolveSession env deployment parentSid.text parentSid with
      | .error err => return err
      | .ok (parent, parentWf) =>
          let stateDrift : Server Val := do
            -- the parent was moved off the call-step: escalate it, retain the child
            setEscalation env parentSid (.str "sub_workflow_state_drift")
              (.str ("parent at '" ++ parent.currentStep ++ "' is not a call-step"))
            return errorResponse "session_escalated" "parent state drift during sub-workflow propagation"
              [("parent_session_fingerprint", .str (computeFingerprint env parentSid.text)),
               ("child_session_fingerprint", .str (computeFingerprint env childSid.text))]
          match findStep parentWf (.str parent.currentStep) with
          | none => stateDrift
          | some (idx, callStep) =>
              if !callStep.isCall then stateDrift
              else
                match ← ofExcept (validateOutput env artifact callStep) with
                | some errors =>
                    wrapChildFailureIntoParentEscalation env childSid childWf
                      "parent_output_schema_fail"
                      (.obj [("status", .str "validation_error"), ("errors", .strs errors),
                        ("session_fingerprint", .str (computeFingerprint env childSid.text)),
                        ("step_id", .str childWf.last.id),
                        ("reason", .str "parent_output_schema_fail"),
                        ("message", .str "child artifact failed parent call-step output_schema")])
                | none =>
                    let stepData := parent.stepData.set parent.currentStep artifact
                    let _ ← deleteSessionRow childSid
                    setCalledSession env parentSid none none
                    advanceParent env deployment.registry parentSid parentWf callStep idx stepData

def autoResumeOnTopFrameComplete (env : Env) (deployment : Deployment) (child : Session)
    (childWf : Workflow) : Server Val := do
  let own ← read fun world => world.ownFrame child.sessionId
  match (own.map Frame.frameType).getD .call with
  | .digression => resumeParentAfterDigression env deployment child.sessionId
  | .call => propagateToParent env deployment child childWf

end Megalos
