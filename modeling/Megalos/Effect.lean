import Megalos.Chains
import Megalos.Verdict

/-!
What one tool call does to the ledger.  Each tool has its guards as a structure; the
effect of a call is nothing, a `__workflow_changed__` mark, or the change its guards allow.
-/

namespace Megalos

open KeyedTable StatefulProgram StatefulProgram.Program

/-- `submit_step` reaches the step it names. -/
structure Submits (env : Env) (deployment : Deployment) (world : World)
    (sessionId stepId content : String) (session : Session) (wf : Workflow) (idx : Nat)
    (step : Step) : Prop where
  named : sessionId ≠ ""
  stepNamed : stepId ≠ ""
  resolves : Resolves deployment world.ledger (env.normalizeSessionId sessionId) session wf
  accepts : Accepts world session wf stepId content idx step

inductive Submitted (env : Env) (deployment : Deployment) (world : World) (session : Session)
    (wf : Workflow) (idx : Nat) (step : Step) (content branch artifactId : String) : Ledger → Prop
  | answered {ledger : Ledger}
      (ends : Answered env world.ledger session.sessionId session (session.stepData.set step.id content)
        (verdictOf env deployment.registry world.outbound.length session wf idx step content branch artifactId)
        ledger) :
      Submitted env deployment world session wf idx step content branch artifactId ledger
  | finished {pointer : Val} {data : StepData} {calls : Nat} {new : Session} {frame : Frame}
      {ledger : Ledger}
      (reached : verdictOf env deployment.registry world.outbound.length session wf idx step content branch
        artifactId = .advanced (.arrived pointer data calls))
      (atEnd : pointer.isStr complete = true) (moved : session.Moved new complete data)
      (framed : world.ledger.frame session.sessionId = some frame)
      (finished : Finished env deployment (world.ledger.setRow session.sessionId new) calls
        session.sessionId (data.getD wf.last.id "") frame.frameType ledger) :
      Submitted env deployment world session wf idx step content branch artifactId ledger

/-- `revise_step` accepts the step: a root, and a step it has an entry for or a call-step with a
frame above. -/
structure Revises (env : Env) (deployment : Deployment) (world : World) (sessionId stepId : String)
    (session : Session) (wf : Workflow) (idx : Nat) (target : Step) : Prop where
  named : sessionId ≠ ""
  stepNamed : stepId ≠ ""
  resolves : Resolves deployment world.ledger (env.normalizeSessionId sessionId) session wf
  root : world.ledger.frame session.sessionId = none
  found : findStep wf (.str stepId) = some (idx, target)
  allowed : session.stepData.contains stepId = true ∨
    target.isCall = true ∧ (world.topFrameFor session.sessionId).isSome = true

def revisedData (wf : Workflow) (idx : Nat) (target : Step) (stepData : StepData) : StepData :=
  let kept := ((wf.steps.drop (idx + 1)).map Step.id).foldl (fun data sid =>
    data.erase sid) stepData
  if target.isCall then kept.erase target.id else kept

def revisedChild (world : World) (sid : SessionId) (target : Step) : Option Frame :=
  if target.isCall then world.topFrameFor sid else none

def Ledger.afterRevision (ledger : Ledger) (sid : SessionId) : Option Frame → Ledger
  | none => ledger
  | some child => (ledger.drop child.sessionId).dropAbove sid

/-- `enter_sub_workflow` and `push_flow` go on to create a session above the one they name. -/
structure Spawns (env : Env) (deployment : Deployment) (world : World) (sessionId stepId : String)
    (outer : Session) (outerWf : Workflow) (workflowType : String) (childWf : Workflow) : Prop where
  named : sessionId ≠ ""
  stepNamed : stepId ≠ ""
  resolves : Resolves deployment world.ledger (env.normalizeSessionId sessionId) outer outerWf
  unfinished : outer.currentStep ≠ complete
  unescalated : outer.escalation = none
  inOrder : outer.currentStep = stepId
  bare : world.topFrameFor outer.sessionId = none
  loaded : deployment.workflows.get? workflowType = some childWf

/-- `enter_sub_workflow` finds a call of the workflow at the step, and a context for the child. -/
def CallsInto (env : Env) (parent : Session) (wf : Workflow) (stepId workflowType : String) :
    Prop :=
  ∃ idx step context, findStep wf (.str stepId) = some (idx, step) ∧
    step.get? "call" = some (.str workflowType) ∧ childContext env parent step = .ok (.ok context)

structure Pops (env : Env) (deployment : Deployment) (world : World) (sessionId : String)
    (session : Session) (frame : Frame) (outer : SessionId) : Prop where
  resolves : ∃ wf, Resolves deployment world.ledger (env.normalizeSessionId sessionId) session wf
  unescalated : session.escalation = none
  framed : world.ledger.frame session.sessionId = some frame
  digression : frame.frameType = .digression
  owner : world.parentOf session.sessionId = some outer
  outerResolves : ∃ outerSession outerWf,
    Resolves deployment world.ledger outer outerSession outerWf

structure Deletes (env : Env) (deployment : Deployment) (world : World) (sessionId : String)
    (session : Session) : Prop where
  named : sessionId ≠ ""
  caller : deployment.caller = .anonymous
  row : world.ledger.row (env.normalizeSessionId sessionId) = some session
  root : world.ledger.frame session.sessionId = none

/-- The ids evicted by a call that creates a session. -/
def World.evicted (env : Env) (world : World) : List SessionId :=
    evictedIds env.sessionCap world.sessions

structure Grown (env : Env) (world : World) (outer : Session) (workflowType : String)
    (childWf : Workflow) (fingerprint : String) (frameType : FrameType) (ledger : Ledger) :
    Prop where
  unused : (world.ledger.without (world.evicted env)).row (env.token world.minted) = none
  child : ∃ now row, ledger.row (env.token world.minted) = some row ∧
    (newSession (env.token world.minted) workflowType childWf.first.id (some outer.sessionId) fingerprint
      now).Counted row
  frame : ∃ now stamp, ledger.frame (env.token world.minted) =
    some ((world.ledger.without (world.evicted env)).childFrame (env.token world.minted) outer.sessionId
      frameType stamp now)
  otherFrames : ∀ sid, sid ≠ env.token world.minted →
    ledger.frame sid = (world.ledger.without (world.evicted env)).frame sid
  outerRow : ∀ row, (world.ledger.without (world.evicted env)).row outer.sessionId = some row →
    ∃ linked, ledger.row outer.sessionId = some linked ∧ row.Counted linked
  otherRows : ∀ sid, sid ≠ env.token world.minted →
    (sid ≠ outer.sessionId ∨ (world.ledger.without (world.evicted env)).row sid = none) →
    ledger.row sid = (world.ledger.without (world.evicted env)).row sid

structure Spawned (env : Env) (world : World) (outer : Session) (workflowType : String)
    (childWf : Workflow) (fingerprint : String) (frameType : FrameType) (stepId : String)
    (ledger : Ledger) : Prop
    extends Grown env world outer workflowType childWf fingerprint frameType ledger where
  stamped : outer.sessionId ∈ world.evicted env ∨
    ∀ frame, ledger.frame (env.token world.minted) = some frame → frame.callStepId = some stepId

def Opened (env : Env) (registry : Option Registry) (wf : Workflow) (calls : Nat)
    (fresh new : Session) : Prop :=
  let result := autoRun env registry wf env.fuel calls (.str wf.first.id) Table.empty
  Applies env result fresh new ∨
    (∃ data calls, result = .ok (.arrived (.str wf.first.id) data calls)) ∧ fresh.Counted new

def Call.passed : Call → Option String
  | .listWorkflows _ => none
  | .startWorkflow _ _ => none
  | .getState sessionId => some sessionId
  | .getGuidelines sessionId => some sessionId
  | .submitStep sessionId _ _ _ _ => some sessionId
  | .reviseStep sessionId _ => some sessionId
  | .enterSubWorkflow parentSessionId _ => some parentSessionId
  | .pushFlow sessionId _ _ _ => some sessionId
  | .popFlow sessionId => some sessionId
  | .listSessions => none
  | .deleteSession sessionId => some sessionId
  | .generateArtifact sessionId _ => some sessionId

def Call.Resolving (env : Env) (ledger : Ledger) (call : Call) (sid : SessionId) : Prop :=
  ∃ passed, call.passed = some passed ∧
    (sid = env.normalizeSessionId passed ∨ ledger.Parent (env.normalizeSessionId passed) sid)

inductive Effect (env : Env) (deployment : Deployment) (world : World) : Call → Ledger → Nat → Prop
  | idle {call : Call} {minted : Nat} (grown : world.minted ≤ minted) :
      Effect env deployment world call world.ledger minted
  | marked {call : Call} {sid : SessionId} {session new : Session}
      (stale : GoesStale deployment world.ledger sid session) (marks : session.Marked new)
      (resolving : call.Resolving env world.ledger sid) :
      Effect env deployment world call (world.ledger.setRow sid new) world.minted
  | started {workflowType context : String} {wf : Workflow} {now : Timestamp} {new : Session}
      (named : workflowType ≠ "") (loaded : deployment.workflows.get? workflowType = some wf)
      (room : world.countActive < activeCap)
      (unused : (world.ledger.without (world.evicted env)).row (env.token world.minted) = none)
      (opened : Opened env deployment.registry wf world.outbound.length
        (newSession (env.token world.minted) workflowType wf.first.id none
          (fingerprintFor env deployment workflowType) now) new) :
      Effect env deployment world (.startWorkflow workflowType context)
        ((world.ledger.without (world.evicted env)).setRow (env.token world.minted) new)
          (world.minted + 1)
  | submitted {sessionId stepId content branch artifactId : String} {session : Session}
      {wf : Workflow}
      {idx : Nat} {step : Step} {ledger : Ledger}
      (submits : Submits env deployment world sessionId stepId content session wf idx step)
      (submitted : Submitted env deployment world session wf idx step content branch artifactId ledger) :
      Effect env deployment world (.submitStep sessionId stepId content branch artifactId) ledger world.minted
  | revised {sessionId stepId : String} {session new : Session} {wf : Workflow} {idx : Nat}
      {target : Step}
      (revises : Revises env deployment world sessionId stepId session wf idx target)
      (moved : session.Moved new target.id (revisedData wf idx target session.stepData)) :
      Effect env deployment world (.reviseStep sessionId stepId)
        ((world.ledger.afterRevision session.sessionId (revisedChild world session.sessionId target)).setRow
          session.sessionId new) world.minted
  | entered {parentSessionId callStepId workflowType : String} {parent : Session}
      {parentWf childWf : Workflow} {ledger : Ledger}
      (spawns : Spawns env deployment world parentSessionId callStepId parent parentWf workflowType childWf)
      (calls : CallsInto env parent parentWf callStepId workflowType)
      (spawned : Spawned env world parent workflowType childWf (fingerprintFor env deployment workflowType) .call
        callStepId ledger) :
      Effect env deployment world (.enterSubWorkflow parentSessionId callStepId) ledger (world.minted + 1)
  | pushed {sessionId workflowType pausedAtStep context : String} {outer : Session}
      {outerWf childWf : Workflow} {ledger : Ledger}
      (spawns : Spawns env deployment world sessionId pausedAtStep outer outerWf workflowType childWf)
      (named : workflowType ≠ "")
      (shallow : world.stackDepth (world.standing outer.sessionId).1 < maxStackDepth)
      (room : world.countActive < activeCap)
      (spawned : Spawned env world outer workflowType childWf (fingerprintFor env deployment workflowType) .digression
        pausedAtStep ledger) :
      Effect env deployment world (.pushFlow sessionId workflowType pausedAtStep context) ledger
        (world.minted + 1)
  | popped {sessionId : String} {session : Session} {frame : Frame} {outer : SessionId}
      (pops : Pops env deployment world sessionId session frame outer) :
      Effect env deployment world (.popFlow sessionId)
        (world.ledger.drop session.sessionId) world.minted
  | deleted {sessionId : String} {session : Session}
      (deletes : Deletes env deployment world sessionId session) :
      Effect env deployment world (.deleteSession sessionId)
        (world.ledger.drop session.sessionId) world.minted

variable {env : Env} {deployment : Deployment} {world : World} {sid : SessionId}

theorem Call.Resolving.own {call : Call} {ledger : Ledger} {passed : String}
    (passes : call.passed = some passed) :
    call.Resolving env ledger (env.normalizeSessionId passed) := ⟨passed, passes, .inl rfl⟩

theorem settles_trapErrors {post : World → Prop} {field : String} {sessionId : Option String}
    {body : Server Val} (holds : Settles .diverges post body world) :
    Settles .diverges post (trapErrors env field sessionId body) world := by
  refine holds.rescue ?_
  intro raised
  cases raised with
  | sessionNotFound => exact .inr ⟨by simp, _, rfl⟩
  | typeError message => exact .inr ⟨by simp, _, rfl⟩
  | valueError message => exact .inr ⟨by simp, _, rfl⟩
  | stackFull rootSessionId currentDepth maxDepth => exact .inl rfl
  | skippedPredecessor sid referencing => exact .inl rfl
  | uncaught kind message => exact .inl rfl
  | diverges => exact .inl rfl

theorem checkStrs_none {checks : List (String × String × Bool)} (passed : checkStrs checks = none)
    {value : String} (name : String) (member : (value, name, true) ∈ checks) : value ≠ "" := by
  intro empty
  have := List.findSome?_eq_none_iff.mp passed _ member
  simp [checkStr, empty] at this

theorem settles_withSession {post : World → Prop} {sessionId : String}
    {checks : List (String × String × Bool)} {body : Session → Workflow → Server Val}
    (refused : (checkStrs checks = none →
      ∀ session wf, ¬Resolves deployment world.ledger (env.normalizeSessionId sessionId) session wf) →
      post world)
    (marked : ∀ session new after,
      GoesStale deployment world.ledger (env.normalizeSessionId sessionId) session →
        session.Marked new →
      Becomes world (world.ledger.setRow (env.normalizeSessionId sessionId) new) after → post after)
    (next : ∀ session wf, checkStrs checks = none →
      Resolves deployment world.ledger (env.normalizeSessionId sessionId) session wf →
      Settles .diverges post (body session wf) world) :
    Settles .diverges post (withSession env deployment sessionId checks body) world := by
  unfold withSession
  cases passed : checkStrs checks with
  | some err => exact settles_pure (refused (by simp [passed]))
  | none =>
      refine settles_bind ?_
      refine wp_resolveSession ?_ ?_ ?_
      · intro session wf resolves
        exact next session wf passed resolves
      · intro err _ unresolved _
        exact settles_pure (refused fun _ => unresolved)
      · intro err session new after _ stale marks becomes
        exact settles_pure (marked session new after stale marks becomes)

theorem Resolves.sessionId_eq {session : Session} {wf : Workflow}
    (resolves : Resolves deployment world.ledger sid session wf) : session.sessionId = sid :=
  World.row_sessionId resolves.row

theorem World.Sound.apart (sound : world.Sound env) {child parent : SessionId}
    (owner : world.ledger.Parent child parent) : parent ≠ child :=
  ChainForest.Covers.ne ((Ledger.parent_iff_covers sound.forest).mp owner)

inductive SubmitEffect (env : Env) (deployment : Deployment) (world : World)
    (sessionId stepId content branch artifactId : String) : Ledger → Prop
  | refused (closed : ∀ session wf idx step,
      ¬Submits env deployment world sessionId stepId content session wf idx step) :
      SubmitEffect env deployment world sessionId stepId content branch artifactId world.ledger
  | marked {session new : Session}
      (stale : GoesStale deployment world.ledger (env.normalizeSessionId sessionId) session)
      (marks : session.Marked new) :
      SubmitEffect env deployment world sessionId stepId content branch artifactId
        (world.ledger.setRow (env.normalizeSessionId sessionId) new)
  | submitted {session : Session} {wf : Workflow} {idx : Nat} {step : Step} {ledger : Ledger}
      (submits : Submits env deployment world sessionId stepId content session wf idx step)
      (submitted : Submitted env deployment world session wf idx step content branch artifactId ledger) :
      SubmitEffect env deployment world sessionId stepId content branch artifactId ledger

theorem settles_submitStep (sound : world.Sound env)
    (sessionId stepId content branch artifactId : String) :
    Settles .diverges (fun after => ∃ ledger,
        SubmitEffect env deployment world sessionId stepId content branch artifactId ledger ∧
        Reaches world ledger after)
    (submitStep env deployment sessionId stepId content branch artifactId) world := by
  unfold submitStep
  refine settles_trapErrors ?_
  refine settles_withSession ?_ ?_ ?_
  · intro unresolved
    refine ⟨_, .refused ?_, (Becomes.refl world).toReaches⟩
    intro session wf idx step submits
    refine unresolved ?_ session wf submits.resolves
    simp [checkStrs, checkStr, submits.named, submits.stepNamed]
  · intro session new after stale marks becomes
    exact ⟨_, .marked stale marks, becomes.toReaches⟩
  intro session wf passed resolves
  have sameId := resolves.sessionId_eq
  have row : world.ledger.row session.sessionId = some session := by rw [sameId]; exact resolves.row
  refine settles_bind ?_
  refine (wp_submitResolved row).mono ?_
  intro outcome after post
  rcases post with ⟨open_, rfl, closed⟩ | ⟨idx, step, accepts, post⟩
  · have refused : ∃ ledger,
        SubmitEffect env deployment after sessionId stepId content branch artifactId ledger ∧
        Reaches after ledger after := by
      refine ⟨_, .refused ?_, (Becomes.refl after).toReaches⟩
      intro other otherWf idx step submits
      obtain ⟨rfl, rfl⟩ := resolves.unique submits.resolves
      exact closed idx step submits.accepts
    match outcome with
    | .ok (.answered _) => exact settles_pure refused
    | .ok (.completed child) => exact absurd rfl (open_ child)
    | .error _ => exact fun _ => refused
  have submits : Submits env deployment world sessionId stepId content session wf idx step :=
    ⟨checkStrs_none passed "session_id" (by simp), checkStrs_none passed "step_id" (by simp),
      resolves, accepts⟩
  rcases outcome with raised | (response | child)
  case error =>
    intro finite
    obtain ⟨ledger, ends, reaches⟩ := post finite
    exact ⟨ledger, .submitted submits (.answered ends), reaches⟩
  case ok.answered =>
    obtain ⟨ledger, ends, reaches⟩ := post
    exact settles_pure ⟨ledger, .submitted submits (.answered ends), reaches⟩
  have completed : Completed env world session _ child after := post
  obtain ⟨⟨pointer, atEnd, reached⟩, childEq, ⟨new, moved, reaches⟩, parent, owner⟩ := completed
  have childId : child.sessionId = session.sessionId := by rw [childEq]
  obtain ⟨frame, framed, -⟩ := owner
  have foundAfter : after.ledger.row child.sessionId = some new := by
    rw [reaches.ledger_eq, childId]; simp
  have framedAfter : after.ledger.frame child.sessionId = some frame := by
    rw [reaches.ledger_eq, childId]; exact framed
  have apart : ∀ other, after.ledger.Parent child.sessionId other → other ≠ child.sessionId := by
    intro other owned
    rw [reaches.ledger_eq, Ledger.Parent.of_setRow] at owned
    exact sound.apart owned
  refine (settles_autoResume foundAfter framedAfter apart).mono ?_
  intro outcome final finishes finite
  obtain ⟨ledger, finished, ended⟩ := finishes finite
  rw [reaches.ledger_eq, childId] at finished
  exact ⟨ledger, .submitted submits (.finished reached atEnd moved framed finished),
    ended.ledger_eq, ended.minted_eq.trans reaches.minted_eq⟩

theorem Effect.unchanged {call : Call} :
    Effect env deployment world call world.ledger world.minted := .idle (Nat.le_refl _)

def Affects (env : Env) (deployment : Deployment) (world : World) (call : Call) (after : World) :
    Prop :=
  Effect env deployment world call after.ledger after.minted

theorem Affects.of_reaches {call : Call} {ledger : Ledger} {after : World}
    (effect : Effect env deployment world call ledger world.minted)
    (reaches : Reaches world ledger after) :
    Affects env deployment world call after := by
  rw [Affects, reaches.ledger_eq, reaches.minted_eq]
  exact effect

theorem settles_reading {call : Call} {sessionId : String} {checks : List (String × String × Bool)}
    {body : Session → Workflow → Server Val}
    (passes : call.passed = some sessionId)
    (reads : ∀ session wf,
      Settles .diverges (Affects env deployment world call) (body session wf) world) :
    Settles .diverges (Affects env deployment world call)
    (withSession env deployment sessionId checks body) world := by
  refine settles_withSession ?_ ?_ ?_
  · exact fun _ => .unchanged
  · intro session new after stale marks becomes
    exact .of_reaches (.marked stale marks (.own passes)) becomes.toReaches
  · exact fun session wf _ _ => reads session wf

end Megalos
