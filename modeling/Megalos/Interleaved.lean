import Megalos.AutoRun
import Megalos.Library.Interleaving
import Megalos.StoreSpec

/-!
`push_flow` and `enter_sub_workflow` as threads: each query outside a transaction is an
access of its own, and so is each transaction.  The token and the clock that a
transaction uses are drawn in its access.
-/

namespace Megalos

open Interleaving KeyedTable StatefulProgram StatefulProgram.Program

inductive Access where
  | plain
  /-- The first of the two queries of `top_frame_for`. -/
  | looks
  /-- A transaction of `create_session` that commits. -/
  | creates
  deriving DecidableEq

abbrev Tool (α : Type) := Thread Access World Exn α

namespace Interleaved

def query {α : Type} (view : World → α) : Tool α := .atomic (fun _ => .plain) (read view)

def update {α : Type} (body : Server α) : Tool α := .atomic (fun _ => .plain) body

def ofResult {α : Type} (result : Except Exn α) : Tool α := .done result

def topFrameFor (sessionId : SessionId) : Tool (Option Frame) := do
  let (rootSid, depth) ← Thread.atomic (fun _ => .looks)
    (read fun world => world.standing sessionId)
  query fun world => world.frameAt rootSid (depth + 1)

def createSession (env : Env) (workflowType currentStep : String) (parentSessionId : SessionId)
    (frameType : FrameType) (callStepId : Option String) (maxStackDepth : Option Nat)
    (workflowFingerprint : String) : Tool SessionId :=
  .atomic (fun outcome => match outcome with | .ok _ => .creates | .error _ => .plain)
    (Megalos.createSession env workflowType currentStep (some parentSessionId) frameType callStepId maxStackDepth
      workflowFingerprint)

def resolveSession (env : Env) (deployment : Deployment) (presented : String)
    (sessionId : SessionId) : Tool (Except Val (Session × Workflow)) := do
  match ← query fun world => world.sessions.lookup sessionId with
  | none => return .error (sessionNotFoundError (.str (computeFingerprint env presented)))
  | some session =>
      let fingerprint := computeFingerprint env session.sessionId.text
      if deployment.caller ≠ session.ownerIdentity then
        return .error (errorResponse "cross_session_access_denied"
          ("caller identity does not own session " ++ fingerprint)
          [("session_fingerprint", .str fingerprint)])
      if session.currentStep = workflowChanged then
        return .error (workflowChangedEnvelope env session session.workflowFingerprint)
      match deployment.workflows.get? session.workflowType with
      | none =>
          return .error (errorResponse "workflow_not_loaded"
            ("Workflow '" ++ session.workflowType ++ "' not loaded")
            [("session_fingerprint", .str fingerprint)])
      | some wf =>
          match deployment.workflowFingerprints.get? session.workflowType with
          | some currentFp =>
              if session.workflowFingerprint ≠ currentFp then
                update (updateCurrentStep env sessionId (.str workflowChanged) none)
                return .error (workflowChangedEnvelope env session currentFp)
              else return .ok (session, wf)
          | none => return .ok (session, wf)

def withSession (env : Env) (deployment : Deployment) (sessionId : String)
    (checks : List (String × String × Bool)) (body : Session → Workflow → Tool Val) : Tool Val := do
  match checkStrs checks with
  | some err => return err
  | none =>
      match ← resolveSession env deployment sessionId (env.normalizeSessionId sessionId) with
      | .error err => return err
      | .ok (session, wf) => body session wf

def trapErrors (env : Env) (field : String) (sessionId : Option String) (body : Tool Val) :
    Tool Val :=
  body.rescue fun raised =>
    match raised with
    | .sessionNotFound => pure (sessionNotFoundError
        ((sessionId.map fun sid => Val.str (computeFingerprint env sid)).getD .none))
    | .typeError message | .valueError message =>
        pure (errorResponse "invalid_argument" message [("field", .str field)])
    | other => .raise other

def enterSubWorkflow (env : Env) (deployment : Deployment) (parentSessionId callStepId : String) :
    Tool Val :=
  trapErrors env "parent_session_id" none <|
    withSession env deployment parentSessionId
      [(parentSessionId, "parent_session_id", true), (callStepId, "call_step_id", true)]
      fun parent parentWf => do
        match spawnGuards env parent callStepId "Parent workflow already complete."
          "Parent session is escalated. Resolve the escalation before continuing." "parent" with
        | some err => return err
        | none =>
        let noCall := errorResponse "invalid_argument"
          ("parent step '" ++ callStepId ++ "' has no `call` field")
          [("field", .str "call_step_id"), ("session_fingerprint", fingerprintOf env parent)]
        match (findStep parentWf (.str callStepId)).bind fun entry =>
            (entry.2.get? "call").map fun target => (entry.2, target) with
        | none => return noCall
        | some (callStep, target) =>
        match ← topFrameFor parent.sessionId with
        | some pending =>
            return pendingChildError env parent pending
              "a child session is already in flight for this call-step" callStepId
        | none =>
        let loaded := match target with
          | .str name => (deployment.workflows.get? name).map fun wf => (name, wf)
          | _ => none
        match loaded with
        | none =>
            return errorResponse "workflow_not_loaded"
              ("target workflow '" ++ keyText target ++ "' not loaded")
              [("available_types", availableTypes deployment)]
        | some (name, childWf) =>
        match ← ofResult (childContext env parent callStep) with
        | .error err => return err
        | .ok context =>
            let childSid ← createSession env name childWf.first.id parent.sessionId .call none none
              (fingerprintFor env deployment name)
            update (incrementVisit env childSid (.str childWf.first.id))
            update (setCalledSession env parent.sessionId (some childSid) (some callStepId))
            ofResult (spawnedResponse childSid target childWf context
              [("parent_session_id", .str parentSessionId)])

def stackFullError (env : Env) (root : SessionId) (depth limit : Nat) (advice : String) :
    Tool Val := do
  let breakdown ← query World.depthBreakdown
  let rootFp := computeFingerprint env root.text
  return errorResponse "session_stack_full"
    ("session stack full: depth " ++ toString depth ++ " at max " ++ toString limit ++
      " for root fingerprint '" ++ rootFp ++ "'. " ++ advice)
    [("current_depth", .int depth), ("max_depth", .int limit),
     ("root_session_fingerprint", .str rootFp), ("depth_breakdown", breakdown)]

/-- The rows and the frames that `list_sessions` puts together come from two queries. -/
def sessionCapError (env : Env) (active : Nat) : Tool Val := do
  let rows ← query World.sessions
  let frames ← query World.sessionStack
  let breakdown ← query World.depthBreakdown
  return errorResponse "session_cap_exceeded"
    ("Session cap reached (" ++ toString active ++ "/5). Delete or complete a session first.")
    [("active_sessions", .list (World.activeSessions env ⟨rows, frames, 0, 0, []⟩)),
      ("depth_breakdown", breakdown)]

def pushFlow (env : Env) (deployment : Deployment)
    (sessionId workflowType pausedAtStep context : String) : Tool Val :=
  trapErrors env "session_id" (some sessionId) <|
    withSession env deployment sessionId [(sessionId, "session_id", true),
      (workflowType, "workflow_type", true), (pausedAtStep, "paused_at_step", true),
      (context, "context", false)]
      fun outer _ => do
        match spawnGuards env outer pausedAtStep "Outer workflow already complete — cannot push a digression."
          "Outer session is escalated. Resolve the escalation before pushing a digression." "outer" with
        | some err => return err
        | none =>
        match ← topFrameFor outer.sessionId with
        | some top =>
            return pendingChildError env outer top
              ("a child session (fingerprint '" ++ computeFingerprint env top.sessionId.text ++
                "') is already in flight above session fingerprint '" ++
                computeFingerprint env outer.sessionId.text ++
                "'. Resolve it before pushing another digression.") pausedAtStep
        | none =>
        match deployment.workflows.get? workflowType with
        | none =>
            return errorResponse "workflow_not_loaded" ("Unknown workflow type: " ++ workflowType)
              [("available_types", availableTypes deployment)]
        | some childWf =>
        let (outerRoot, _) ← query fun world => world.standing outer.sessionId
        let currentDepth ← query fun world => world.stackDepth outerRoot
        if maxStackDepth ≤ currentDepth then
          stackFullError env outerRoot currentDepth maxStackDepth "Resolve a frame before pushing again."
        else
        let active ← query World.countActive
        if activeCap ≤ active then sessionCapError env active
        else
        let created ← Thread.rescue (do
            return Except.ok (← createSession env workflowType childWf.first.id outer.sessionId
              .digression (some pausedAtStep) (some maxStackDepth)
                (fingerprintFor env deployment workflowType)))
          fun raised =>
            match raised with
            | .stackFull root depth limit => do
                return .error (← stackFullError env root depth limit "Lost the race; resolve a frame and retry.")
            | other => .raise other
        match created with
        | .error err => return err
        | .ok childSid =>
            update (incrementVisit env childSid (.str childWf.first.id))
            match ← query fun world => world.ownFrame childSid with
            | none => .raise (.typeError "'NoneType' object is not subscriptable")
            | some own =>
                let frameDepth ← query fun world => world.stackDepth own.rootSessionId
                ofResult (spawnedResponse childSid (.str workflowType) childWf context
                  [("parent_session_id", .str sessionId), ("paused_at_step", .str pausedAtStep),
                   ("frame_depth", .int frameDepth)])

/-! Without other accesses in between, the threads are the tools. -/

variable {env : Env} {deployment : Deployment} {world : World} {α β : Type}

/-- Two programs that do the same in one state. -/
def SameAt (world : World) (first second : Server α) : Prop := first.run world = second.run world

theorem SameAt.bind {first second : Server α} {next later : α → Server β}
    (start : SameAt world first second)
    (rest : ∀ value reached, second.run world = (.ok value, reached) →
      SameAt reached (next value) (later value)) :
    SameAt world (first >>= next) (second >>= later) := by
  change (Program.bind first next).run world = (Program.bind second later).run world
  simp only [Program.bind, show first.run world = second.run world from start]
  cases ran : second.run world with
  | mk outcome reached =>
      cases outcome with
      | error raised => rfl
      | ok value => exact rest value reached ran

theorem SameAt.read {view : World → α} {next : α → Server β} {second : Server β}
    (rest : SameAt world (next (view world)) second) :
    SameAt world (Program.read view >>= next) second := rest

theorem SameAt.symm {first second : Server α} (same : SameAt world first second) :
    SameAt world second first :=
  Eq.symm same

theorem SameAt.trapped {field : String} {sessionId : Option String} {body : Tool Val}
    {whole : Server Val} (same : SameAt world body.whole whole) :
    SameAt world (trapErrors env field sessionId body).whole (Megalos.trapErrors env field sessionId whole) := by
  unfold trapErrors Megalos.trapErrors
  rw [SameAt, Thread.whole_rescue]
  simp only [Program.rescue, show body.whole.run world = whole.run world from same]
  cases whole.run world with
  | mk outcome reached =>
      cases outcome with
      | ok value => rfl
      | error raised => cases raised <;> rfl

theorem whole_resolveSession (presented : String) (sessionId : SessionId) :
    (resolveSession env deployment presented sessionId).whole =
      Megalos.resolveSession env deployment presented sessionId := by
  unfold resolveSession Megalos.resolveSession
  rw [Thread.whole_bind]
  congr 1
  funext found
  cases found with
  | none => rfl
  | some session =>
      dsimp only
      split
      · rfl
      split
      · rfl
      cases deployment.workflows.get? session.workflowType with
      | none => rfl
      | some wf =>
          dsimp only
          cases deployment.workflowFingerprints.get? session.workflowType with
          | none => rfl
          | some currentFp =>
              dsimp only
              split
              · rw [Thread.whole_bind]
                rfl
              · rfl

theorem SameAt.inSession {sessionId : String} {checks : List (String × String × Bool)}
    {body : Session → Workflow → Tool Val} {whole : Session → Workflow → Server Val}
    (same : ∀ session wf reached, SameAt reached (body session wf).whole (whole session wf)) :
    SameAt world (withSession env deployment sessionId checks body).whole
      (Megalos.withSession env deployment sessionId checks whole) := by
  unfold withSession Megalos.withSession
  cases checkStrs checks with
  | some err => rfl
  | none =>
      dsimp only
      rw [Thread.whole_bind, whole_resolveSession]
      refine SameAt.bind rfl ?_
      rintro (err | ⟨session, wf⟩) reached -
      · rfl
      · exact same session wf reached

theorem whole_enterSubWorkflow (parentSessionId callStepId : String) :
    (enterSubWorkflow env deployment parentSessionId callStepId).whole =
      Megalos.enterSubWorkflow env deployment parentSessionId callStepId := by
  suffices same : ∀ world,
    SameAt world (enterSubWorkflow env deployment parentSessionId callStepId).whole
      (Megalos.enterSubWorkflow env deployment parentSessionId callStepId) from congrArg Program.mk (funext same)
  intro world
  refine SameAt.trapped (SameAt.inSession fun parent parentWf reached => ?_)
  cases spawnGuards env parent callStepId "Parent workflow already complete."
      "Parent session is escalated. Resolve the escalation before continuing." "parent" with
  | some err => rfl
  | none =>
  dsimp only
  cases (findStep parentWf (.str callStepId)).bind fun entry =>
      (entry.2.get? "call").map fun target => (entry.2, target) with
  | none => rfl
  | some entry =>
  obtain ⟨callStep, target⟩ := entry
  dsimp only
  rw [Thread.whole_bind]
  change SameAt reached (read (fun world => world.topFrameFor parent.sessionId) >>= _) _
  refine SameAt.read (SameAt.symm (SameAt.read (SameAt.symm ?_)))
  dsimp only [id]
  cases reached.topFrameFor parent.sessionId with
  | some pending => rfl
  | none =>
  dsimp only
  cases target with
  | str name =>
      cases loaded : deployment.workflows.get? name with
      | none =>
          simp only [loaded]
          rfl
      | some childWf =>
          simp only [loaded, Option.map_some]
          rw [Thread.whole_bind]
          refine SameAt.bind rfl ?_
          rintro (err | context) later -
          · rfl
          dsimp only
          rw [Thread.whole_bind]
          refine SameAt.bind rfl fun childSid created _ => ?_
          rw [Thread.whole_bind]
          refine SameAt.bind rfl fun _ visited _ => ?_
          rw [Thread.whole_bind]
          exact SameAt.bind rfl fun _ _ _ => rfl
  | _ => rfl

theorem wp_createSession_framed {workflowType currentStep fingerprint : String}
    {frameType : FrameType} {callStepId : Option String} {maxStackDepth : Option Nat}
    {parent : SessionId} :
    Wp (Megalos.createSession env workflowType currentStep (some parent) frameType callStepId maxStackDepth fingerprint)
    (fun outcome after => ∀ child, outcome = .ok child → (after.ledger.frame child).isSome) world :=
        by
  refine wp_createSession ?_ ?_
  · intro now after row _ creates child same
    cases same
    simp [creates.ledger_eq, Ledger.insert]
  · intro raised after _ _ _ child same
    cases same

theorem wp_spawn_framed {body : Server SessionId} {handler : Exn → Server (Except Val SessionId)}
    (framed : Wp body (fun outcome after => ∀ child, outcome = .ok child →
      (after.ledger.frame child).isSome) world)
    (refuses : ∀ raised after,
      Wp (handler raised) (fun outcome _ => ∀ child, outcome ≠ .ok (.ok child)) after) :
    Wp (Program.rescue (do return Except.ok (← body)) handler) (fun outcome after =>
      ∀ child, outcome = .ok (.ok child) → (after.ledger.frame child).isSome) world := by
  rw [wp_rescue, wp_bind]
  refine framed.mono ?_
  rintro (raised | child) after framed
  · exact (refuses raised after).mono fun _ _ fails child same => absurd same (fails child)
  · intro other same
    cases same
    exact framed _ rfl

theorem incrementVisit_frame {sid : SessionId} {stepId : Val} {outcome : Except Exn Unit}
    {after : World} (ran : (incrementVisit env sid stepId).run world = (outcome, after)) :
    after.ledger.frame = world.ledger.frame := by
  have framed : Wp (incrementVisit env sid stepId)
    (fun _ after => after.ledger.frame = world.ledger.frame) world := by
    unfold incrementVisit
    rw [wp_bind, wp_ofExcept]
    cases jsonKey env stepId with
    | error raised => rfl
    | ok key =>
        refine wp_changeRow ?_ ?_
        · intro session now after _ becomes
          rw [becomes.ledger_eq]
          rfl
        · intro after _ becomes
          rw [becomes.ledger_eq]
  exact Wp.elim framed ran

theorem whole_pushFlow (sessionId workflowType pausedAtStep context : String) :
    (pushFlow env deployment sessionId workflowType pausedAtStep context).whole =
      Megalos.pushFlow env deployment sessionId workflowType pausedAtStep context := by
  suffices same : ∀ world,
    SameAt world (pushFlow env deployment sessionId workflowType pausedAtStep context).whole
      (Megalos.pushFlow env deployment sessionId workflowType pausedAtStep context) from congrArg Program.mk (funext same)
  intro world
  refine SameAt.trapped (SameAt.inSession fun outer outerWf reached => ?_)
  cases spawnGuards env outer pausedAtStep "Outer workflow already complete — cannot push a digression."
      "Outer session is escalated. Resolve the escalation before pushing a digression." "outer" with
  | some err => rfl
  | none =>
  dsimp only
  rw [Thread.whole_bind]
  change SameAt reached (read (fun world => world.topFrameFor outer.sessionId) >>= _) _
  refine SameAt.read (SameAt.symm (SameAt.read (SameAt.symm ?_)))
  dsimp only [id]
  cases reached.topFrameFor outer.sessionId with
  | some top => rfl
  | none =>
  dsimp only
  cases deployment.workflows.get? workflowType with
  | none => rfl
  | some childWf =>
  dsimp only
  rw [Thread.whole_bind]
  refine SameAt.read ?_
  rw [Thread.whole_bind]
  refine SameAt.read ?_
  by_cases deep : maxStackDepth ≤ reached.stackDepth (reached.standing outer.sessionId).1
  · rw [if_pos deep, if_pos deep]
    rfl
  rw [if_neg deep, if_neg deep, Thread.whole_bind]
  refine SameAt.read ?_
  by_cases full : activeCap ≤ reached.countActive
  · rw [if_pos full, if_pos full]
    rfl
  rw [if_neg full, if_neg full, Thread.whole_bind, Thread.whole_rescue, Thread.whole_bind]
  refine SameAt.bind ?_ ?_
  · congr 2
    funext raised
    cases raised <;> rfl
  rintro (err | childSid) created ran
  · rfl
  dsimp only
  rw [Thread.whole_bind]
  refine SameAt.bind rfl fun _ visited counted => ?_
  obtain ⟨own, isOwn⟩ : ∃ own, visited.ownFrame childSid = some own := by
    have framed := Wp.elim (wp_spawn_framed wp_createSession_framed fun raised after =>
      by cases raised <;> rintro _ ⟨⟩)
      ran childSid rfl
    rw [← incrementVisit_frame counted] at framed
    exact Option.isSome_iff_exists.mp framed
  rw [Thread.whole_bind]
  refine SameAt.read ?_
  rw [isOwn]
  dsimp only
  rw [Thread.whole_bind]
  refine SameAt.read (SameAt.symm (SameAt.read (SameAt.symm ?_)))
  rw [World.standing, isOwn]
  rfl

end Interleaved

end Megalos
