import Megalos.Library.Lockstep
import Megalos.PropagationSpec

/-!
Two stores that the shared helpers cannot tell apart.  A relation between stores that the
helpers of `state.py` keep is kept by what `tools.py` builds from them, and the answers are
the same.
-/

namespace Megalos

open KeyedTable StatefulProgram StatefulProgram.Program

def Session.stamped (session : Session) (created updated : Timestamp) (completed : Option Timestamp)
    (checkpoints : Dict (Dict String)) : Session :=
  { session with
    createdAt := created
    updatedAt := updated
    completedAt := completed
    artifactCheckpoints := checkpoints }

/-- A row without its times and checkpoints, and what `see` makes of these. -/
def Session.seen {κ : Type} (see : Timestamp → Option Timestamp → Dict (Dict String) → κ)
    (session : Session) : Session × κ :=
  (session.stamped 0 0 none Table.empty,
    see session.createdAt session.completedAt session.artifactCheckpoints)

/-- A relation between stores that the helpers of `state.py` keep on the sessions of a set. -/
structure Mirror {κ : Type} (env : Env) (see : Timestamp → Option Timestamp → Dict (Dict String) →
    κ)
    (inside : SessionId → Prop) (related : World → World → Prop) : Prop where
  stamps : ∀ {created other : Timestamp} {completed another stamp restamp : Option Timestamp}
    {checkpoints kept : Dict (Dict String)}, see created completed checkpoints =
      see other another kept →
    stamp.isSome = restamp.isSome →
      see created (stamp.or completed) checkpoints = see other (restamp.or another) kept
  lookup : ∀ {left right sid}, related left right → inside sid →
    (left.sessions.lookup sid).map (Session.seen see) =
      (right.sessions.lookup sid).map (Session.seen see)
  ownFrame : ∀ {left right sid}, related left right → inside sid →
    left.ownFrame sid = right.ownFrame sid
  parentOf : ∀ {left right sid}, related left right → inside sid →
    left.parentOf sid = right.parentOf sid
  parentInside : ∀ {left right sid parent}, related left right → inside sid →
    right.parentOf sid = some parent →
    inside parent
  nowIso : Lockstep related related (fun _ _ => True) (nowIso env) (nowIso env)
  changeRow : ∀ {sid} {change other : Session → Session}
    {keeps : ∀ session, (change session).sessionId = session.sessionId}
    {otherKeeps : ∀ session, (other session).sessionId = session.sessionId}, inside sid →
    (∀ first second, first.seen see = second.seen see →
      (change first).seen see = (other second).seen see) →
    Lockstep related related Eq (changeRow env sid change keeps)
      (changeRow env sid other otherKeeps)
  unlink : ∀ {sid}, inside sid →
    Lockstep related related Eq (setCalledSession env sid none none)
      (setCalledSession env sid none none)
  deleteSessionRow : ∀ {sid}, inside sid →
    Lockstep related related (fun _ _ => True) (deleteSessionRow sid) (deleteSessionRow sid)
  mcpCall : ∀ (registry : Registry) (request : McpRequest),
    Lockstep related related Eq (mcpCall env registry request) (mcpCall env registry request)

variable {κ : Type} {env : Env} {see : Timestamp → Option Timestamp → Dict (Dict String) → κ}
  {inside : SessionId → Prop} {related : World → World → Prop} {deployment : Deployment}
  {sid : SessionId}

theorem Session.seen_eq {session other : Session} (same : session.seen see = other.seen see) :
    ∃ created updated completed checkpoints,
      see session.createdAt session.completedAt session.artifactCheckpoints =
      see created completed checkpoints ∧
        other = session.stamped created updated completed checkpoints := by
  simp only [Session.seen, Prod.mk.injEq] at same
  refine ⟨other.createdAt, other.updatedAt, other.completedAt, other.artifactCheckpoints, same.2,
    ?_⟩
  cases session
  cases other
  simp only [Session.stamped, Session.mk.injEq] at same ⊢
  simp [same]

abbrev Mirrors {α : Type} (related : World → World → Prop) (body : Server α) : Prop :=
  Lockstep related related Eq body body

theorem mirrors_attemptCascade {α : Type} {body : Server α} (mirrors : Mirrors related body) :
    Mirrors related (attemptCascade body) := by
  refine lockstep_rescue (lockstep_bind_eq mirrors fun _ => lockstep_return _) ?_
  intro raised
  cases raised with
  | skippedPredecessor skipped referencing => exact lockstep_return _
  | _ => exact lockstep_raise _

/-- What the resolution funnel hands over on both sides. -/
def HandedAlike (see : Timestamp → Option Timestamp → Dict (Dict String) → κ) (sid : SessionId) :
    Except Val (Session × Workflow) → Except Val (Session × Workflow) → Prop :=
  Alike fun first second => first.1.seen see = second.1.seen see ∧ first.2 = second.2 ∧
    first.1.sessionId = sid

def SubmittedAlike (shown : Val → Val → Prop) (sid : SessionId) : Submission → Submission → Prop
  | .answered first, .answered second => shown first second
  | .completed first, .completed second => first = second ∧ first.sessionId = sid
  | _, _ => False

def finishSubmission (env : Env) (wf : Workflow) (idx : Nat) (step : Step) (sessionId : String)
    (artifactId : Option String) (warning : Option Val) (session : Session) (pointer : Val)
    (stepData : StepData) : Server Submission := do
  updateCurrentStep env session.sessionId pointer (some stepData)
  let parentSid ← read fun world => world.parentOf session.sessionId
  if pointer.isStr complete && parentSid.isSome then
    return .completed { session with currentStep := complete, stepData := stepData }
  return .answered (← ofExcept (submittedResponse env wf idx step sessionId artifactId warning pointer stepData))

namespace Mirror

variable (mirror : Mirror env see inside related)
include mirror

theorem change {change : Session → Session}
    {keeps : ∀ session, (change session).sessionId = session.sessionId}
    (member : inside sid)
    (blind : ∀ session created updated completed checkpoints,
      see session.createdAt session.completedAt session.artifactCheckpoints =
        see created completed checkpoints →
      (change session).seen see =
        (change (session.stamped created updated completed checkpoints)).seen see) :
    Mirrors related (Megalos.changeRow env sid change keeps) := by
  refine mirror.changeRow member ?_
  intro first second same
  obtain ⟨created, updated, completed, checkpoints, kept, rfl⟩ := Session.seen_eq same
  exact blind first created updated completed checkpoints kept

theorem updateCurrentStep (member : inside sid) (pointer : Val) (stepData : Option StepData) :
    Mirrors related (Megalos.updateCurrentStep env sid pointer stepData) := by
  refine lockstep_bind_eq (lockstep_ofExcept _) fun text => ?_
  refine lockstep_bind mirror.nowIso fun now later _ => ?_
  refine mirror.changeRow member ?_
  intro first second same
  obtain ⟨created, updated, completed, checkpoints, kept, rfl⟩ := Session.seen_eq same
  have both : (if text = complete then some now else none).isSome =
    (if text = complete then some later else none).isSome := by
    split <;> rfl
  exact Prod.ext rfl (mirror.stamps kept both)

theorem incrementVisit (member : inside sid) (stepId : Val) :
    Mirrors related (Megalos.incrementVisit env sid stepId) := by
  refine lockstep_bind_eq (lockstep_ofExcept _) fun key => ?_
  exact mirror.change member fun session _ _ _ _ kept =>
    by simp [Session.seen, Session.stamped, kept]

theorem setEscalation (member : inside sid) (guardrailId message : Val) :
    Mirrors related (Megalos.setEscalation env sid guardrailId message) :=
  mirror.change member fun session _ _ _ _ kept => by simp [Session.seen, Session.stamped, kept]

theorem updateStepData (member : inside sid) (stepData : StepData) :
    Mirrors related (Megalos.updateStepData env sid stepData) :=
  mirror.change member fun session _ _ _ _ kept => by simp [Session.seen, Session.stamped, kept]

theorem parent (member : inside sid) :
    Lockstep related related (fun first second => first = second ∧ ∀ parent, first = some parent →
      inside parent)
    (read fun world => world.parentOf sid : Server (Option SessionId))
        (read fun world => world.parentOf sid) := by
  refine lockstep_read fun left right twin => ⟨mirror.parentOf twin member, ?_⟩
  intro parent owner
  rw [mirror.parentOf twin member] at owner
  exact mirror.parentInside twin member owner

theorem executeMcpToolCallStep (registry : Option Registry) (step : Step) (stepData : StepData)
    (skippedSet : List String) :
    Mirrors related (Megalos.executeMcpToolCallStep env registry step stepData skippedSet) := by
  unfold Megalos.executeMcpToolCallStep
  cases registry with
  | none => exact lockstep_raise _
  | some registry =>
      refine lockstep_bind_eq (lockstep_ofExcept _) fun args => ?_
      refine lockstep_bind_eq (lockstep_ofExcept _) fun resolved => ?_
      split
      · exact lockstep_return _
      · refine lockstep_bind_eq (lockstep_ofExcept _) fun timeout => ?_
        refine lockstep_bind_eq (lockstep_ofExcept _) fun serverName => ?_
        refine lockstep_bind_eq (lockstep_ofExcept _) fun tool => ?_
        exact lockstep_bind_eq (mirror.mcpCall _ _) fun _ => lockstep_return _

theorem autoExecuteMcpSteps (member : inside sid) (registry : Option Registry) (wf : Workflow)
    (fuel : Nat) (pointer : Val) (stepData : StepData) :
    Mirrors related (Megalos.autoExecuteMcpSteps env registry wf sid fuel pointer stepData) := by
  induction fuel generalizing pointer stepData with
  | zero => exact lockstep_raise _
  | succ fuel ih =>
      unfold Megalos.autoExecuteMcpSteps
      split
      · exact lockstep_return _
      split
      · exact lockstep_return _
      split
      · exact lockstep_return _
      refine lockstep_bind_eq (lockstep_ofExcept _) fun skippedSet => ?_
      refine lockstep_bind_eq (mirrors_attemptCascade (mirror.executeMcpToolCallStep _ _ _ _)) fun attempt => ?_
      cases attempt with
      | error cascade => exact lockstep_return _
      | ok envelope =>
          refine lockstep_bind_eq (mirror.incrementVisit member _) fun _ => ?_
          refine lockstep_bind_eq (mirrors_attemptCascade (lockstep_ofExcept _)) fun skipping => ?_
          cases skipping with
          | error cascade => exact lockstep_return _
          | ok rest => exact ih _ _

theorem wrapChildFailure (member : inside sid) (childWf : Workflow) (reason : String)
    (childError : Val) :
    Mirrors related (wrapChildFailureIntoParentEscalation env sid childWf reason childError) := by
  refine lockstep_bind (mirror.parent member) ?_
  rintro owner _ ⟨rfl, below⟩
  cases owner with
  | none => exact lockstep_return _
  | some parent =>
      refine lockstep_bind_eq (mirror.setEscalation (below parent rfl) _ _) fun _ => ?_
      exact lockstep_bind_eq (lockstep_ofExcept _) fun name => lockstep_return _

theorem resolveSession (member : inside sid) (presented : String) :
    Lockstep related related (HandedAlike see sid)
    (Megalos.resolveSession env deployment presented sid)
    (Megalos.resolveSession env deployment presented sid) := by
  have looked : Lockstep related related
      (fun first second => first.map (Session.seen see) = second.map (Session.seen see) ∧
        ∀ session, first = some session → session.sessionId = sid)
      (read fun world => world.sessions.lookup sid : Server (Option Session))
      (read fun world => world.sessions.lookup sid) :=
    lockstep_read fun left right twin =>
      ⟨mirror.lookup twin member, fun session found => World.row_sessionId found⟩
  refine lockstep_bind looked ?_
  rintro first second ⟨same, keyed⟩
  cases first with
  | none =>
      cases second with
      | none => exact lockstep_pure (.error _)
      | some other => simp at same
  | some session =>
      cases second with
      | none => simp at same
      | some other =>
          simp only [Option.map_some, Option.some.injEq] at same
          obtain ⟨created, updated, completed, checkpoints, kept, rfl⟩ := Session.seen_eq same
          simp only [Session.ownerIdentity, Session.stamped]
          refine lockstep_ite (fun _ => lockstep_pure (Alike.error _)) fun _ => ?_
          refine lockstep_ite (fun _ => lockstep_pure (Alike.error _)) fun _ => ?_
          cases deployment.workflows.get? session.workflowType with
          | none => exact lockstep_pure (Alike.error _)
          | some wf =>
              cases deployment.workflowFingerprints.get? session.workflowType with
              | none => exact lockstep_pure (Alike.ok ⟨same, rfl, keyed session rfl⟩)
              | some currentFp =>
                  refine lockstep_ite (fun _ => ?_) fun _ => ?_
                  · refine lockstep_bind_eq (mirror.updateCurrentStep member _ _) fun _ => ?_
                    exact lockstep_pure (Alike.error _)
                  · exact lockstep_pure (Alike.ok ⟨same, rfl, keyed session rfl⟩)

theorem advanceParent (member : inside sid) (registry : Option Registry) (parentWf : Workflow)
    (callStep : Step) (idx : Nat) (stepData : StepData) :
    Mirrors related (Megalos.advanceParent env registry sid parentWf callStep idx stepData) := by
  refine lockstep_bind_eq (lockstep_ofExcept _) fun nextStepId => ?_
  refine lockstep_bind_eq (mirrors_attemptCascade (lockstep_ofExcept _)) fun skipping => ?_
  cases skipping with
  | error cascade => exact lockstep_return _
  | ok rest =>
      refine lockstep_bind_eq (mirror.autoExecuteMcpSteps member _ _ _ _ _) fun ran => ?_
      obtain ⟨pointer, data, cascade⟩ := ran
      cases cascade with
      | some err =>
          exact lockstep_bind_eq (mirror.updateCurrentStep member _ _) fun _ => lockstep_return _
      | none =>
          refine lockstep_ite (fun _ => ?_) fun _ => ?_
          · refine lockstep_bind_eq (mirror.incrementVisit member _) fun _ => ?_
            refine lockstep_bind_eq (mirror.updateCurrentStep member _ _) fun _ => ?_
            refine lockstep_bind_eq (lockstep_ofExcept _) fun submitted => ?_
            exact lockstep_bind_eq (lockstep_ofExcept _) fun tail => lockstep_return _
          · refine lockstep_bind_eq (mirror.updateCurrentStep member _ _) fun _ => ?_
            refine lockstep_bind_eq (lockstep_ofExcept _) fun submitted => ?_
            exact lockstep_bind_eq (lockstep_ofExcept _) fun tail => lockstep_return _

/-- After the funnel: what does not read what is hidden runs alike on both sides. -/
theorem resolved (member : inside sid) (presented : String) {body : Session → Workflow → Server Val}
    (blind : ∀ session created updated completed checkpoints wf,
      body (session.stamped created updated completed checkpoints) wf = body session wf)
    (mirrors : ∀ session wf, session.sessionId = sid → Mirrors related (body session wf)) :
    Mirrors related (do
      match ← Megalos.resolveSession env deployment presented sid with
      | .error err => return err
      | .ok (session, wf) => body session wf) := by
  refine lockstep_bind (mirror.resolveSession member presented) ?_
  intro first second alike
  cases alike with
  | error err => exact lockstep_return err
  | @ok resolved other related =>
      obtain ⟨session, wf⟩ := resolved
      obtain ⟨twinSession, twinWf⟩ := other
      obtain ⟨same, rfl, keyed⟩ := related
      obtain ⟨created, updated, completed, checkpoints, kept, rfl⟩ := Session.seen_eq same
      dsimp only
      rw [blind session created updated completed checkpoints wf]
      exact mirrors session wf keyed

theorem resumeParentAfterDigression (member : inside sid) :
    Mirrors related (Megalos.resumeParentAfterDigression env deployment sid) := by
  refine lockstep_bind (mirror.parent member) ?_
  rintro owner _ ⟨rfl, below⟩
  cases owner with
  | none => exact lockstep_raise _
  | some outer =>
      refine mirror.resolved (below outer rfl) _ (fun _ _ _ _ _ _ => rfl) ?_
      intro session wf keyed
      refine lockstep_bind (mirror.deleteSessionRow member) fun _ _ _ => ?_
      refine lockstep_ite (fun _ => lockstep_return _) fun _ => ?_
      split
      · exact lockstep_return _
      · refine lockstep_bind_eq (lockstep_ofExcept _) fun current => ?_
        exact lockstep_bind_eq (lockstep_ofExcept _) fun guidance => lockstep_return _

theorem propagateToParent {child : Session} (member : inside child.sessionId) (childWf : Workflow) :
    Mirrors related (Megalos.propagateToParent env deployment child childWf) := by
  refine lockstep_bind (mirror.parent member) ?_
  rintro owner _ ⟨rfl, below⟩
  cases owner with
  | none => exact lockstep_raise _
  | some parentSid =>
      have under : inside parentSid := below parentSid rfl
      refine mirror.resolved under _ (fun _ _ _ _ _ _ => rfl) ?_
      intro parent parentWf keyed
      have drifts : ∀ message err : Val, Mirrors related (do
          Megalos.setEscalation env parentSid (.str "sub_workflow_state_drift") message
          return err) :=
        fun _ _ => lockstep_bind_eq (mirror.setEscalation under _ _) fun _ => lockstep_return _
      split
      · exact drifts _ _
      refine lockstep_ite (fun _ => drifts _ _) fun _ => ?_
      refine lockstep_bind_eq (lockstep_ofExcept _) fun errors => ?_
      cases errors with
      | some messages => exact mirror.wrapChildFailure member _ _ _
      | none =>
          refine lockstep_bind (mirror.deleteSessionRow member) fun _ _ _ => ?_
          refine lockstep_bind_eq (mirror.unlink under) fun _ => ?_
          exact mirror.advanceParent under _ _ _ _ _

theorem autoResumeOnTopFrameComplete {child : Session} (member : inside child.sessionId)
    (childWf : Workflow) :
    Mirrors related (Megalos.autoResumeOnTopFrameComplete env deployment child childWf) := by
  refine lockstep_bind_eq (lockstep_read fun _ _ twin => mirror.ownFrame twin member) fun own => ?_
  split
  · exact mirror.resumeParentAfterDigression member
  · exact mirror.propagateToParent member childWf

/-! The part of `submit_step` behind its checks, for two artifact ids. -/

variable {session : Session} {wf : Workflow} {idx : Nat} {step : Step} {sessionId : String}
  {artifactId other : Option String} {shown : Val → Val → Prop}

omit mirror in
theorem answered (alike : ∀ response, shown response response) {body : Server Val}
    (mirrors : Mirrors related body) :
    Lockstep related related (SubmittedAlike shown sid) (do return Submission.answered (← body))
    (do return Submission.answered (← body)) :=
  lockstep_bind_eq mirrors fun response => lockstep_pure (alike response)

theorem advanceSession (member : inside session.sessionId)
    (alike : ∀ response, shown response response) (responses : ∀ warning pointer stepData,
      Alike shown (submittedResponse env wf idx step sessionId artifactId warning pointer stepData)
        (submittedResponse env wf idx step sessionId other warning pointer stepData))
    (warning : Option Val) (stepData : StepData) (pointer : Val) (forceBranched : Bool) :
    Lockstep related related (SubmittedAlike shown session.sessionId)
    (Megalos.advanceSession env deployment sessionId session wf idx step artifactId warning stepData pointer forceBranched)
    (Megalos.advanceSession env deployment sessionId session wf idx step other warning stepData pointer forceBranched) := by
  refine lockstep_bind_eq (mirrors_attemptCascade (lockstep_ofExcept _)) fun skipping => ?_
  cases skipping with
  | error cascade => exact answered alike (mirror.wrapChildFailure member _ _ _)
  | ok rest =>
      refine lockstep_bind_eq (mirror.autoExecuteMcpSteps member _ _ _ _ _) fun ran => ?_
      obtain ⟨pointer, data, cascade⟩ := ran
      cases cascade with
      | some err =>
          refine lockstep_bind_eq (mirror.updateCurrentStep member _ _) fun _ => ?_
          exact answered alike (mirror.wrapChildFailure member _ _ _)
      | none =>
          have stored : Lockstep related related (SubmittedAlike shown session.sessionId)
              (finishSubmission env wf idx step sessionId artifactId warning session pointer data)
              (finishSubmission env wf idx step sessionId other warning session pointer data) := by
            refine lockstep_bind_eq (mirror.updateCurrentStep member _ _) fun _ => ?_
            refine lockstep_bind_eq ((mirror.parent member).mono fun _ _ same =>
              same.1) fun parentSid => ?_
            refine lockstep_ite (fun _ => lockstep_pure ⟨rfl, rfl⟩) fun _ => ?_
            refine lockstep_bind (lockstep_ofAlike (responses warning pointer data)) ?_
            exact fun _ _ same => lockstep_pure same
          refine lockstep_ite (fun _ => ?_) fun _ => stored
          exact lockstep_bind_eq (mirror.incrementVisit member _) fun _ => stored

theorem commitSubmission (member : inside session.sessionId)
    (alike : ∀ response, shown response response) (responses : ∀ warning pointer stepData,
      Alike shown (submittedResponse env wf idx step sessionId artifactId warning pointer stepData)
        (submittedResponse env wf idx step sessionId other warning pointer stepData)) (content branch : String) :
    Lockstep related related (SubmittedAlike shown session.sessionId)
    (Megalos.commitSubmission env deployment sessionId session wf idx step content branch artifactId)
    (Megalos.commitSubmission env deployment sessionId session wf idx step content branch other) := by
  refine lockstep_bind_eq (lockstep_ofExcept _) fun fired => ?_
  refine lockstep_bind_eq (lockstep_ofExcept _) fun action => ?_
  refine lockstep_ite (fun _ => ?_) fun _ => ?_
  · refine lockstep_bind_eq (lockstep_ofExcept _) fun guardrailId => ?_
    refine lockstep_bind_eq (lockstep_ofExcept _) fun message => ?_
    refine lockstep_bind_eq (mirror.setEscalation member _ _) fun _ => ?_
    refine lockstep_bind_eq (mirror.updateStepData member _) fun _ => ?_
    exact answered alike (mirror.wrapChildFailure member _ _ _)
  · refine lockstep_bind_eq (lockstep_ofExcept _) fun warning => ?_
    refine lockstep_bind_eq (lockstep_ofExcept _) fun next => ?_
    cases next with
    | invalidBranch target validTargets => exact lockstep_pure (alike _)
    | goTo pointer forceBranched =>
        refine mirror.advanceSession ?_ alike responses _ _ _ _
        exact member

end Mirror

end Megalos
