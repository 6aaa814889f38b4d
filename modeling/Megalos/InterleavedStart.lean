import Megalos.Interleaved

/-!
`start_workflow` as a thread.  Between its look at the cap and its transaction other calls
may come, and so they may between the steps that it runs for the client.
-/

namespace Megalos

open Interleaving KeyedTable StatefulProgram StatefulProgram.Program

namespace Interleaved

def attemptCascade {α : Type} (body : Tool α) : Tool (Except (String × String) α) :=
  Thread.rescue (do return .ok (← body)) fun raised =>
    match raised with
    | .skippedPredecessor sid referencing => pure (.error (sid, referencing))
    | other => .raise other

/-- A step that is run leaves the tables alone: the call that goes out is one access. -/
def autoExecuteMcpSteps (env : Env) (registry : Option Registry) (wf : Workflow)
    (sessionId : SessionId) :
    Nat → Val → StepData → Tool (Val × StepData × Option Val)
  | 0, _, _ => .raise .diverges
  | fuel + 1, nextStepId, stepData => do
      if nextStepId.isStr complete then return (nextStepId, stepData, none)
      match findStep wf nextStepId with
      | none => return (nextStepId, stepData, none)
      | some (idx, step) =>
          if !step.isMcpToolCall then return (nextStepId, stepData, none)
          let skippedSet ← ofResult (computeSkippedSteps env wf stepData)
          match ← attemptCascade (update (executeMcpToolCallStep env registry step stepData skippedSet)) with
          | .error (sid, referencing) =>
              return (nextStepId, stepData, some (skippedPredecessorError
                (computeFingerprint env sessionId.text) nextStepId sid referencing "args"))
          | .ok envelope =>
              let stepData := stepData.set step.id (env.dumps envelope)
              update (incrementVisit env sessionId (.str step.id))
              let nextStepId := afterMcpStep wf idx step
              match ← attemptCascade (ofResult (applySkipLoop env nextStepId wf stepData false)) with
              | .error (sid, referencing) =>
                  return (nextStepId, stepData, some (skippedPredecessorError
                    (computeFingerprint env sessionId.text) nextStepId sid referencing "precondition"))
              | .ok (nextStepId, _) =>
                  autoExecuteMcpSteps env registry wf sessionId fuel nextStepId stepData

def createRoot (env : Env) (workflowType currentStep workflowFingerprint : String) :
    Tool SessionId :=
  .atomic (fun outcome => match outcome with | .ok _ => .creates | .error _ => .plain)
    (Megalos.createSession env workflowType currentStep none .call none none workflowFingerprint)

def runFront (env : Env) (deployment : Deployment) (workflowType context : String) (wf : Workflow)
    (sid : SessionId) : Tool Val := do
  update (incrementVisit env sid (.str wf.first.id))
  let (nextStepId, stepData, cascadeErr) ←
    autoExecuteMcpSteps env deployment.registry wf sid env.fuel (.str wf.first.id) Table.empty
  match cascadeErr with
  | some err =>
      update (updateCurrentStep env sid nextStepId (some stepData))
      return err
  | none =>
      if !nextStepId.isStr wf.first.id then
        update (updateCurrentStep env sid nextStepId (some stepData))
        if !nextStepId.isStr complete then update (incrementVisit env sid nextStepId)
      ofResult (frontResponse env workflowType context wf sid nextStepId stepData)

def startWorkflow (env : Env) (deployment : Deployment) (workflowType context : String) :
    Tool Val :=
  trapErrors env "workflow_type" none do
    match checkStrs [(workflowType, "workflow_type", true), (context, "context", false)] with
    | some err => return err
    | none =>
        match deployment.workflows.get? workflowType with
        | none =>
            return errorResponse "workflow_not_loaded" ("Unknown workflow type: " ++ workflowType)
              [("available_types", availableTypes deployment)]
        | some wf =>
            let active ← query World.countActive
            if activeCap ≤ active then sessionCapError env active
            else
              let sid ← createRoot env workflowType wf.first.id (fingerprintFor env deployment workflowType)
              runFront env deployment workflowType context wf sid

/-! Without other accesses in between, the thread is the tool. -/

variable {env : Env} {deployment : Deployment} {world : World} {α : Type}

theorem whole_attemptCascade (body : Tool α) :
    (attemptCascade body).whole = Megalos.attemptCascade body.whole := by
  unfold attemptCascade Megalos.attemptCascade
  rw [Thread.whole_rescue, Thread.whole_bind]
  congr 1
  funext raised
  cases raised <;> rfl

theorem whole_autoExecuteMcpSteps (registry : Option Registry) (wf : Workflow) (sid : SessionId)
    (fuel : Nat) (pointer : Val) (stepData : StepData) :
    (autoExecuteMcpSteps env registry wf sid fuel pointer stepData).whole =
      Megalos.autoExecuteMcpSteps env registry wf sid fuel pointer stepData := by
  induction fuel generalizing pointer stepData with
  | zero => rfl
  | succ fuel ih =>
      unfold autoExecuteMcpSteps Megalos.autoExecuteMcpSteps
      split
      · rfl
      cases findStep wf pointer with
      | none => rfl
      | some entry =>
      dsimp only
      split
      · rfl
      rw [Thread.whole_bind]
      congr 1
      funext skippedSet
      rw [Thread.whole_bind, whole_attemptCascade]
      congr 1
      funext ran
      cases ran with
      | error cascade => rfl
      | ok envelope =>
      dsimp only
      rw [Thread.whole_bind]
      congr 1
      funext counted
      rw [Thread.whole_bind, whole_attemptCascade]
      congr 1
      funext skips
      cases skips with
      | error cascade => rfl
      | ok skips => exact ih _ _

theorem whole_runFront (workflowType context : String) (wf : Workflow) (sid : SessionId) :
    (runFront env deployment workflowType context wf sid).whole =
      Megalos.runFront env deployment workflowType context wf sid := by
  unfold runFront Megalos.runFront
  rw [Thread.whole_bind]
  congr 1
  funext counted
  rw [Thread.whole_bind, whole_autoExecuteMcpSteps]
  congr 1
  funext ran
  obtain ⟨pointer, stepData, cascade⟩ := ran
  cases cascade with
  | some err =>
      dsimp only
      rw [Thread.whole_bind]
      rfl
  | none =>
      dsimp only
      split
      · rw [Thread.whole_bind]
        congr 1
        funext stored
        split
        · rw [Thread.whole_bind]
          rfl
        · rfl
      · rfl

theorem whole_startWorkflow (workflowType context : String) :
    (startWorkflow env deployment workflowType context).whole =
      Megalos.startWorkflow env deployment workflowType context := by
  suffices same : ∀ world, SameAt world (startWorkflow env deployment workflowType context).whole
      (Megalos.startWorkflow env deployment workflowType context) from congrArg Program.mk (funext same)
  intro world
  refine SameAt.trapped ?_
  cases checkStrs [(workflowType, "workflow_type", true), (context, "context", false)] with
  | some err => rfl
  | none =>
  dsimp only
  cases deployment.workflows.get? workflowType with
  | none => rfl
  | some wf =>
  dsimp only
  rw [Thread.whole_bind]
  refine SameAt.read (SameAt.symm (SameAt.read (SameAt.symm ?_)))
  dsimp only [id]
  by_cases full : activeCap ≤ world.countActive
  · rw [if_pos full, if_pos full]
    rfl
  rw [if_neg full, if_neg full, Thread.whole_bind]
  refine SameAt.bind rfl fun sid created _ => ?_
  rw [whole_runFront]
  rfl

end Interleaved

end Megalos
