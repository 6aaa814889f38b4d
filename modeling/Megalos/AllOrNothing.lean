import Megalos.Delivery
import Megalos.Presented
import Megalos.Versioning

/-!
Spawning, popping and revising as all or nothing.  The four tools commit before they
build their response; what the response reads has to be there.
-/

namespace Megalos

open GuardedRuns KeyedTable StatefulProgram StatefulProgram.Program

def Call.reshapes : Call → Bool
  | .reviseStep _ _ => true
  | .enterSubWorkflow _ _ => true
  | .pushFlow _ _ _ _ => true
  | .popFlow _ => true
  | _ => false

def LeavesTables (deployment : Deployment) (before after : World) : Prop :=
  after.ledger = before.ledger ∨ ∃ sid session new, GoesStale deployment before.ledger sid session ∧
    session.Marked new ∧ after.ledger = before.ledger.setRow sid new

/-- The call answers without an error or leaves the tables alone. -/
def AllOrNothing (env : Env) (deployment : Deployment) (world : World) (call : Call) : Prop :=
  ∀ outcome after, (callTool env deployment call).run world = (outcome, after) →
    succeeds outcome = false →
    LeavesTables deployment world after

/-- A call that gets as far as to commit can also answer: the step it hands out is no
`mcp_tool_call`, the context it injects names fields by keys, and no parent is evicted by its own
child. -/
def Completes (env : Env) (deployment : Deployment) (world : World) : Call → Prop
  | .reviseStep sessionId stepId => ∀ session wf idx target,
      Revises env deployment world sessionId stepId session wf idx target →
        target.isMcpToolCall = false
  | .enterSubWorkflow parentSessionId callStepId => ∀ parent parentWf workflowType childWf,
      Spawns env deployment world parentSessionId callStepId parent parentWf workflowType childWf →
      CallsInto env parent parentWf callStepId workflowType →
      childWf.first.isMcpToolCall = false ∧ parent.sessionId ∉ world.evicted env
  | .pushFlow sessionId workflowType pausedAtStep _ => ∀ outer outerWf childWf,
      Spawns env deployment world sessionId pausedAtStep outer outerWf workflowType childWf →
      workflowType ≠ "" → world.stackDepth (world.standing outer.sessionId).1 < maxStackDepth →
      world.countActive < activeCap → childWf.first.isMcpToolCall = false
  | .popFlow sessionId => ∀ session frame outer outerSession outerWf,
      Pops env deployment world sessionId session frame outer →
      Resolves deployment world.ledger outer outerSession outerWf →
        outerSession.currentStep ≠ complete →
      ∀ idx step, findStep outerWf (.str outerSession.currentStep) = some (idx, step) →
        step.isMcpToolCall = false ∧ step.Injectable env outerSession.stepData
  | _ => True

variable {env : Env} {deployment : Deployment} {world after : World} {call : Call} {success : Bool}

theorem first_mem (wf : Workflow) : wf.first ∈ wf.steps := List.mem_cons_self ..

/-- A spawn or a pop that fails has left the tables alone. -/
theorem Reshaped.leavesTables (accepted : deployment.Accepted env)
    (reshaped : Reshaped env deployment world call success after)
    (completes : Completes env deployment world call)
    (failed : success = false) : LeavesTables deployment world after := by
  cases reshaped with
  | unmoved same grown => exact .inl same
  | marked stale marks resolving reaches => exact .inr ⟨_, _, _, stale, marks, reaches.ledger_eq⟩
  | entered spawns calls spawned minted =>
      obtain ⟨prompted, kept⟩ := completes _ _ _ _ spawns calls
      rw [(accepted.presentable spawns.loaded).presents (first_mem _), prompted,
        decide_eq_true kept] at failed
      cases failed
  | pushed spawns named shallow room spawned minted =>
      have prompted := completes _ _ _ spawns named shallow room
      rw [(accepted.presentable spawns.loaded).presents (first_mem _), prompted] at failed
      cases failed
  | popped pops below reaches =>
      have resumed := (accepted.presentable below.loaded).resumes_iff.mpr (completes _ _ _ _ _ pops below)
      rw [resumed] at failed
      cases failed

theorem Revision.leavesTables {sessionId stepId : String} {ledger : Ledger}
    (accepted : deployment.Accepted env)
    (revision : Revision env deployment world sessionId stepId success ledger)
    (completes : Completes env deployment world (.reviseStep sessionId stepId))
    (failed : success = false)
    (reaches : Reaches world ledger after) : LeavesTables deployment world after := by
  cases revision with
  | refused closed => exact .inl reaches.ledger_eq
  | marked stale marks => exact .inr ⟨_, _, _, stale, marks, reaches.ledger_eq⟩
  | revised revises moved =>
      have prompted := completes _ _ _ _ revises
      have presentable := accepted.presentable revises.resolves.loaded
      rw [presentable.presents (findStep_mem revises.found), prompted] at failed
      cases failed

/-- Under accepted workflows, a call that can answer once it commits is all or nothing. -/
theorem Reachable.allOrNothing (reachable : Reachable env (ServedVersion env) world)
    (accepted : deployment.Accepted env) (reshapes : call.reshapes = true)
    (completes : Completes env deployment world call) : AllOrNothing env deployment world call := by
  intro outcome after ran failed
  have sound := reachable.sound
  cases call with
  | reviseStep sessionId stepId =>
      have ends := Wp.elim (ends_reviseStep sound sessionId stepId) ran
      obtain ⟨ledger, revision, reaches⟩ := ends
      exact revision.leavesTables accepted completes failed reaches
  | enterSubWorkflow parentSessionId callStepId =>
      exact (Wp.elim (ends_enterSubWorkflow sound parentSessionId callStepId) ran).leavesTables accepted completes failed
  | pushFlow sessionId workflowType pausedAtStep context =>
      exact (Wp.elim (ends_pushFlow sound sessionId workflowType pausedAtStep context) ran).leavesTables accepted
        completes failed
  | popFlow sessionId =>
    exact (Wp.elim (ends_popFlow sessionId) ran).leavesTables accepted completes failed
  | _ => cases reshapes

/-- A call into a workflow whose only step is for the client. -/
theorem enterSubWorkflow_allOrNothing :
    AllOrNothing sampleEnv (appOf sampleEnv deliveryDocs)
    (serveAll sampleEnv (appOf sampleEnv deliveryDocs) World.empty [.startWorkflow "parent" ""])
    (.enterSubWorkflow "s" "c") := by
  have accepted : (appOf sampleEnv deliveryDocs).Accepted sampleEnv := appOf_accepted (by decide)
  refine Reachable.allOrNothing (serveAll_run (by rfl) ⟨accepted, trivial⟩) accepted rfl ?_
  intro parent parentWf workflowType childWf spawns calls
  refine ⟨?_, by rw [show World.evicted sampleEnv _ = [] by rfl]; exact List.not_mem_nil⟩
  have plain : ∀ entry ∈ (appOf sampleEnv deliveryDocs).workflows.rows,
      entry.2.first.isMcpToolCall = false := by decide
  exact plain _ (Dict.mem_of_get? spawns.loaded)

/-- The workflow that is called opens with a tool call, which has no prompt to hand out. -/
def toolFirstDocs : List Val := [
  workflowDoc "outer" [stepDoc "a" [("call", .str "tool")]],
  workflowDoc "tool" [mcpDoc "m" [], stepDoc "x" []]]

def beforeToolFirst : World :=
  serveAll sampleEnv (appOf sampleEnv toolFirstDocs) World.empty [.startWorkflow "outer" ""]

theorem not_always_allOrNothing :
    ¬∀ env deployment world call, Reachable env (ServedVersion env) world →
      deployment.Accepted env →
      call.reshapes = true → AllOrNothing env deployment world call := by
  intro always
  have accepted : (appOf sampleEnv toolFirstDocs).Accepted sampleEnv := appOf_accepted (by decide)
  have leaves := always sampleEnv _ beforeToolFirst (.enterSubWorkflow "s" "a")
    (serveAll_run (by rfl) ⟨accepted, trivial⟩) accepted rfl _ _ rfl (by rfl)
  have framed : ((serveAll sampleEnv (appOf sampleEnv toolFirstDocs) beforeToolFirst
      [.enterSubWorkflow "s" "a"]).ledger.frame (sampleToken 1)).isSome = true := by rfl
  rcases leaves with same | ⟨sid, session, new, -, -, same⟩
  · have kept := congrArg (fun ledger => (ledger.frame (sampleToken 1)).isSome) same
    exact nomatch framed.symm.trans kept
  · have kept := congrArg (fun ledger => (ledger.frame (sampleToken 1)).isSome) same
    exact nomatch framed.symm.trans kept

end Megalos
