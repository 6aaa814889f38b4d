import Megalos.PropagationSpec

/-!
What a submission comes to, as a function of the session, the workflow, the
arguments and the number of MCP calls made so far; and the proof that
`submit_step`, from the guards to the pointer, does what this function says.
-/

namespace Megalos

open KeyedTable StatefulProgram StatefulProgram.Program

inductive Verdict where
  /-- Refused, accepted as a checkpoint, or interrupted: pointer and step data stay. -/
  | kept
  | retriesExhausted
  /-- An `escalate` guardrail fired. -/
  | escalated
  | advanced (advance : Advance)

def Verdict.ofAdvance : Except Exn Advance → Verdict
  | .ok advance => .advanced advance
  | .error _ => .kept

def committed (env : Env) (registry : Option Registry) (calls : Nat) (session : Session)
    (wf : Workflow) (idx : Nat) (step : Step) (content branch : String) : Verdict :=
  let stepData := session.stepData.set step.id content
  match firedGuardrail env wf content { session with stepData := stepData } step.id with
  | .error _ => .kept
  | .ok fired =>
      match fired.mapM fun guardrail => guardrail.item "action" with
      | .error _ => .kept
      | .ok action =>
          if (action.map (·.isStr "escalate")).getD false then
            match (optionVal fired).item "id", (optionVal fired).item "message" with
            | .ok _, .ok _ => .escalated
            | _, _ => .kept
          else
            match guardrailWarning fired action with
            | .error _ => .kept
            | .ok _ =>
                match nextStepOf wf idx step fired branch with
                | .ok (.goTo pointer forceBranched) =>
                    .ofAdvance (skipAndRun env registry wf calls pointer stepData forceBranched)
                | _ => .kept

/-- The content passes the schema of the artifact that moves the step. -/
def artifactPasses (env : Env) (step : Step) (content artifactId : String) : Bool :=
  match (optionVal (step.get? "intermediate_artifacts")).iter with
  | .error _ => false
  | .ok artifacts =>
      if artifactId = "" then false
      else
        match findArtifact artifactId artifacts with
        | .ok (some artifact) =>
            match env.loads content with
            | .error _ => false
            | .ok parsed =>
                match artifact.item "schema" with
                | .error _ => false
                | .ok schema =>
                    match env.iterErrors schema parsed with
                    | .ok [] => ((step.get? "output_from").getD (.str "")).isStr artifactId
                    | _ => false
        | _ => false

/-- The verdict on a submission that passed the guards of `submit_step`. -/
def verdictOf (env : Env) (registry : Option Registry) (calls : Nat) (session : Session)
    (wf : Workflow) (idx : Nat) (step : Step) (content branch artifactId : String) : Verdict :=
  if step.flag "intermediate_artifacts" then
    bif artifactPasses env step content artifactId then
      committed env registry calls session wf idx step content branch
    else .kept
  else
    match validateOutput env content step with
    | .error _ => .kept
    | .ok none => committed env registry calls session wf idx step content branch
    | .ok (some _) =>
        match Val.countReaches (session.retryCounts.getD step.id 0 + 1)
            ((step.get? "max_retries").getD defaultMaxRetries) false with
        | .ok true => .retriesExhausted
        | _ => .kept

/-- The submission ends in a failure that a parent is told of. -/
def Verdict.fails (env : Env) : Verdict → Bool
  | .kept => false
  | .retriesExhausted | .escalated => true
  | .advanced .skipCascade => true
  | .advanced (.stopped pointer stepData calls) =>
      (storedBy env (.ok (.stopped pointer stepData calls))).isSome
  | .advanced (.arrived _ _ _) => false

/-- The submission brings the pointer to the end of the workflow. -/
def Verdict.completes : Verdict → Bool
  | .advanced (.arrived pointer _ _) => pointer.isStr complete
  | _ => false

def Verdict.Changes (env : Env) (verdict : Verdict) (stepData : StepData) (old new : Session) :
    Prop :=
  match verdict with
  | .kept | .retriesExhausted => old.Counted new
  | .escalated => old.Escalated new stepData
  | .advanced advance => Applies env (.ok advance) old new

inductive Answered (env : Env) (before : Ledger) (sid : SessionId) (session : Session)
    (stepData : StepData) (verdict : Verdict) : Ledger → Prop
  | settled {new : Session} (calm : verdict.fails env = false)
      (changes : verdict.Changes env stepData session new)
      (unowned : verdict.completes = true → ∀ parent, ¬before.Parent sid parent) :
      Answered env before sid session stepData verdict (before.setRow sid new)
  | failed {new : Session} {ledger : Ledger} (fails : verdict.fails env = true)
      (changes : verdict.Changes env stepData session new)
      (wrapped : Wrapped (before.setRow sid new) sid ledger) :
      Answered env before sid session stepData verdict ledger

variable {env : Env} {deployment : Deployment} {start world : World} {sid : SessionId}
  {session row : Session} {wf : Workflow} {idx : Nat} {step : Step} {stepData : StepData}

structure Completed (env : Env) (start : World) (session : Session) (verdict : Verdict)
    (child : Session) (after : World) : Prop where
  verdict_eq : ∃ pointer, pointer.isStr complete = true ∧
    verdict = .advanced (.arrived pointer child.stepData after.outbound.length)
  child_eq : child = { session with currentStep := complete, stepData := child.stepData }
  reaches : ∃ new, session.Moved new complete child.stepData ∧
    Reaches start (start.ledger.setRow session.sessionId new) after
  owned : ∃ parent, start.ledger.Parent session.sessionId parent

def SubmissionPost (env : Env) (start : World) (session : Session) (stepData : StepData)
    (verdict : Verdict) (outcome : Except Exn Submission) (after : World) : Prop :=
  match outcome with
  | .ok (.completed child) => Completed env start session verdict child after
  | .ok (.answered _) =>
      ∃ ledger, Answered env start.ledger session.sessionId session stepData verdict ledger ∧
        Reaches start ledger after
  | .error raised => raised ≠ .diverges →
      ∃ ledger, Answered env start.ledger session.sessionId session stepData verdict ledger ∧
        Reaches start ledger after

theorem SubmissionPost.answered {verdict : Verdict} {outcome : Except Exn Submission}
    {after : World} {ledger : Ledger} (open_ : ∀ child, outcome ≠ .ok (.completed child))
    (ends : Answered env start.ledger session.sessionId session stepData verdict ledger)
    (reaches : Reaches start ledger after) :
    SubmissionPost env start session stepData verdict outcome after := by
  match outcome with
  | .ok (.completed child) => exact absurd rfl (open_ child)
  | .ok (.answered _) => exact ⟨ledger, ends, reaches⟩
  | .error _ => exact fun _ => ⟨ledger, ends, reaches⟩

theorem wp_reportFailure {verdict : Verdict} {new : Session} {reason : String} {err : Val}
    (fails : verdict.fails env = true) (changes : verdict.Changes env stepData session new)
    (reached : Reaches start (start.ledger.setRow session.sessionId new) world) :
    Wp (do
          return Submission.answered
            (← wrapChildFailureIntoParentEscalation env session.sessionId wf reason err))
    (SubmissionPost env start session stepData verdict) world := by
  rw [wp_bind]
  refine wp_wrapChildFailure ?_
  intro outcome after ledger _ wrapped becomes
  rw [reached.ledger_eq] at wrapped
  have reaches : Reaches start ledger after :=
    ⟨becomes.ledger_eq, becomes.minted_eq.trans reached.minted_eq⟩
  cases outcome with
  | ok response =>
      simp only [wp_pure]
      exact .answered (by simp) (.failed fails changes wrapped) reaches
  | error raised => exact .answered (by simp) (.failed fails changes wrapped) reaches

theorem SubmissionPost.kept {outcome : Except Exn Submission} {after : World}
    (open_ : ∀ child, outcome ≠ .ok (.completed child)) (counted : session.Counted row)
    (reached : Reaches start (start.ledger.setRow session.sessionId row) after) :
    SubmissionPost env start session stepData .kept outcome after :=
  .answered open_ (.settled rfl counted (by simp [Verdict.completes])) reached

theorem wp_advanceSession {sessionId : String} {artifactId : Option String} {warning : Option Val}
    {pointer : Val} {forceBranched : Bool} (counted : session.Counted row)
    (reached : Reaches start (start.ledger.setRow session.sessionId row) world)
    (calls : world.outbound = start.outbound) :
    Wp (advanceSession env deployment sessionId { session with stepData :=
      stepData } wf idx step artifactId
        warning stepData pointer forceBranched)
      (SubmissionPost env start session stepData (.ofAdvance
        (skipAndRun env deployment.registry wf start.outbound.length pointer stepData forceBranched)))
      world := by
  have found : world.ledger.row session.sessionId = some row := by rw [reached.ledger_eq]; simp
  unfold advanceSession skipAndRun
  dsimp only
  rw [wp_bind, wp_attemptCascade, wp_ofExcept]
  cases skipped : applySkipLoop env pointer wf stepData forceBranched with
  | error raised =>
      cases raised with
      | skippedPredecessor => exact wp_reportFailure rfl counted reached
      | _ => exact .answered (by simp) (.settled rfl counted (by simp [Verdict.completes, Verdict.ofAdvance])) reached
  | ok next =>
  dsimp only
  rw [wp_bind]
  refine (wp_autoExecuteMcpSteps env.fuel next.1 stepData found).mono ?_
  rw [calls]
  intro outcome ranTo ran
  cases ran with
  | raised computed visits reaches =>
      rw [computed]
      refine .answered (by simp) (.settled rfl (counted.trans visits) ?_)
        (reached.then_setRow reaches)
      simp [Verdict.completes, Verdict.ofAdvance]
  | stopped computed visits reaches =>
      rename_i stoppedAt stoppedData err visited
      have foundAfter : ranTo.ledger.row session.sessionId = some visited := by
        rw [reaches.ledger_eq]; simp
      have reachedAfter := reached.then_setRow reaches
      rw [computed]
      dsimp only
      rw [wp_bind]
      refine wp_storePointer (.stopped stoppedAt stoppedData ranTo.outbound.length) rfl foundAfter ?_ ?_
      · intro text new after bound applies becomes
        refine wp_reportFailure ?_ (applies.after_counting (counted.trans visits))
          (reachedAfter.then_setRow becomes.toReaches)
        simp [Verdict.ofAdvance, Verdict.fails, storedBy, Advance.stored, Advance.resting, bound]
      · intro raised broken applies
        refine .answered (by simp)
          (.settled ?_ (applies.after_counting (counted.trans visits)) ?_) reachedAfter
        · simp [Verdict.ofAdvance, Verdict.fails, storedBy, Advance.stored, Advance.resting, broken]
        · simp [Verdict.completes, Verdict.ofAdvance]
  | arrived computed visits reaches =>
      rename_i arrivedAt arrivedData visited
      have foundAfter : ranTo.ledger.row session.sessionId = some visited := by
        rw [reaches.ledger_eq]; simp
      have reachedAfter := reached.then_setRow reaches
      rw [computed]
      dsimp only
      refine wp_enterPointer ranTo.outbound.length foundAfter ?_ ?_
      · intro text new after bound applies becomes
        have changes := applies.after_counting (counted.trans visits)
        have reachedEnd := reachedAfter.then_setRow becomes.toReaches
        have sameParents : ∀ {parent}, after.ledger.Parent session.sessionId parent ↔
            start.ledger.Parent session.sessionId parent := by
          intro parent
          rw [reachedEnd.ledger_eq, Ledger.Parent.of_setRow]
        rw [wp_bind, wp_read]
        dsimp only
        split
        · rename_i childDone
          rw [Bool.and_eq_true] at childDone
          obtain ⟨atEnd, framed⟩ := childDone
          obtain ⟨parent, owner⟩ := Option.isSome_iff_exists.mp framed
          rw [wp_pure]
          refine ⟨⟨arrivedAt, atEnd, ?_⟩, rfl, ⟨new, ?_, reachedEnd⟩, parent,
            sameParents.mp (World.parentOf_some owner)⟩
          · rw [becomes.outbound_eq]
            rfl
          · rw [Applies] at changes
            simpa [storedBy, Advance.stored, Advance.resting, columnText_isStr atEnd] using changes
        · rename_i openEnd
          have unowned : arrivedAt.isStr complete = true →
              ∀ parent, ¬start.ledger.Parent session.sessionId parent := by
            intro atEnd parent owned
            have none : after.parentOf session.sessionId = none := by simpa [atEnd] using openEnd
            exact World.parentOf_none none parent (sameParents.mpr owned)
          have ends : Answered env start.ledger session.sessionId session stepData
              (.advanced (.arrived arrivedAt arrivedData ranTo.outbound.length))
              (start.ledger.setRow session.sessionId new) := .settled rfl changes unowned
          rw [wp_bind, wp_ofExcept]
          split
          · rw [wp_pure]
            exact .answered (by simp) ends reachedEnd
          · exact .answered (by simp) ends reachedEnd
      · intro raised new after _ elsewhere applies becomes
        refine .answered (by simp) (.settled rfl (applies.after_counting (counted.trans visits)) ?_)
          (reachedAfter.then_setRow becomes.toReaches)
        simp [Verdict.completes, Verdict.ofAdvance, elsewhere]

theorem wp_commitSubmission {sessionId content branch : String} {artifactId : Option String}
    (counted : session.Counted row)
    (reached : Reaches start (start.ledger.setRow session.sessionId row) world)
    (calls : world.outbound = start.outbound) :
    Wp (commitSubmission env deployment sessionId session wf idx step content branch artifactId)
    (SubmissionPost env start session (session.stepData.set step.id content)
        (committed env deployment.registry start.outbound.length session wf idx step content branch))
      world := by
  have found : world.ledger.row session.sessionId = some row := by rw [reached.ledger_eq]; simp
  unfold commitSubmission committed
  dsimp only
  rw [wp_bind, wp_ofExcept]
  cases guarded : firedGuardrail env wf content
      { session with stepData := session.stepData.set step.id content } step.id with
  | error raised => exact .kept (by simp) counted reached
  | ok fired =>
  dsimp only
  rw [wp_bind, wp_ofExcept]
  cases acts : fired.mapM fun guardrail => guardrail.item "action" with
  | error raised => exact .kept (by simp) counted reached
  | ok action =>
  dsimp only
  by_cases escalates : (action.map (·.isStr "escalate")).getD false = true
  · rw [if_pos escalates, if_pos escalates, wp_bind, wp_ofExcept]
    cases id : (optionVal fired).item "id" with
    | error raised => exact .kept (by simp) counted reached
    | ok guardrailId =>
    dsimp only
    rw [wp_bind, wp_ofExcept]
    cases told : (optionVal fired).item "message" with
    | error raised => exact .kept (by simp) counted reached
    | ok message =>
    dsimp only
    rw [wp_bind]
    refine wp_setEscalation ?_ ?_
    · intro looked escalated between foundRow sets _ becomes
      obtain rfl : row = looked := Option.some.inj (found.symm.trans foundRow)
      have foundBetween : between.ledger.row session.sessionId = some escalated := by
        rw [becomes.ledger_eq]; simp
      have reachedBetween := reached.then_setRow becomes.toReaches
      dsimp only
      rw [wp_bind]
      refine wp_changeRow_of foundBetween ?_
      intro now after stores
      refine wp_reportFailure rfl ?_ (reachedBetween.then_setRow stores.toReaches)
      exact ⟨counted.toSame.trans (sets.toSame.trans ⟨rfl, rfl, rfl, rfl⟩),
        sets.currentStep_eq.trans counted.currentStep_eq, rfl, sets.escalation_isSome⟩
    · intro after gone
      exact absurd found (by simp [gone])
  · rw [if_neg escalates, if_neg escalates, wp_bind, wp_ofExcept]
    cases warns : guardrailWarning fired action with
    | error raised => exact .kept (by simp) counted reached
    | ok warning =>
    dsimp only
    rw [wp_bind, wp_ofExcept]
    cases goes : nextStepOf wf idx step fired branch with
    | error raised => exact .kept (by simp) counted reached
    | ok next =>
    cases next with
    | invalidBranch target validTargets =>
      exact .kept (by simp [pure, Program.pure]) counted reached
    | goTo pointer forceBranched => exact wp_advanceSession counted reached calls

theorem wp_submitArtifact {sessionId content branch artifactId : String}
    (found : start.ledger.row session.sessionId = some session) :
    Wp (submitArtifact env deployment sessionId session wf idx step content branch artifactId)
    (SubmissionPost env start session (session.stepData.set step.id content)
        (bif artifactPasses env step content artifactId then
          committed env deployment.registry start.outbound.length session wf idx step content branch
        else .kept)) start := by
  have kept : ∀ {outcome : Except Exn Submission}, (∀ child, outcome ≠ .ok (.completed child)) →
      SubmissionPost env start session (session.stepData.set step.id content) .kept outcome start :=
    fun open_ => .kept open_ (Session.Counted.refl session) (Reaches.unmoved found)
  unfold submitArtifact artifactPasses
  dsimp only
  rw [wp_bind, wp_ofExcept]
  cases listed : (optionVal (step.get? "intermediate_artifacts")).iter with
  | error raised => exact kept (by simp)
  | ok artifacts =>
  dsimp only
  by_cases unnamed : artifactId = ""
  · simp only [unnamed, if_true]
    rw [wp_bind, wp_ofExcept]
    cases artifacts.mapM (·.item "id") with
    | error raised => exact kept (by simp)
    | ok expected => exact kept (by simp [pure, Program.pure])
  simp only [unnamed, if_false]
  rw [wp_bind, wp_ofExcept]
  cases chosen : findArtifact artifactId artifacts with
  | error raised => exact kept (by simp)
  | ok choice =>
  cases choice with
  | none =>
      dsimp only
      rw [wp_bind, wp_ofExcept]
      cases artifacts.mapM (·.item "id") with
      | error raised => exact kept (by simp)
      | ok expected => exact kept (by simp [pure, Program.pure])
  | some artifact =>
  dsimp only
  rw [wp_bind, wp_ofExcept]
  cases read : env.tryLoads content with
  | error raised =>
      obtain ⟨refusal, refused⟩ := @tryLoads_refused env content (fun value => by simp [read])
      rw [refused]
      exact kept (by simp)
  | ok loaded =>
  cases loaded with
  | error message =>
      obtain ⟨refusal, refused⟩ := @tryLoads_refused env content (fun value => by simp [read])
      rw [refused]
      exact kept (by simp [pure, Program.pure])
  | ok parsed =>
  rw [tryLoads_parsed.mp read]
  dsimp only
  rw [wp_bind, wp_ofExcept]
  cases artifact.item "schema" with
  | error raised => exact kept (by simp)
  | ok schema =>
  dsimp only
  rw [wp_bind, wp_ofExcept]
  cases env.iterErrors schema parsed with
  | error raised => exact kept (by simp)
  | ok errors =>
  cases errors with
  | cons first rest => exact kept (by simp [pure, Program.pure])
  | nil =>
  simp only [List.isEmpty_nil, Bool.not_true, Bool.false_eq_true, if_false]
  -- both ways of checkpointing end in the same choice
  have choose : ∀ {world : World} {row : Session}, session.Counted row →
      Reaches start (start.ledger.setRow session.sessionId row) world →
        world.outbound = start.outbound →
      Wp (if !((step.get? "output_from").getD (.str "")).isStr artifactId then
            pure (Submission.answered (.obj [("status", .str "artifact_accepted"),
              ("session_id", .str sessionId), ("step_id", .str step.id), ("artifact_id",
                .str artifactId),
              ("current_step", .str step.id)]))
          else commitSubmission env deployment sessionId session wf idx step content branch (some artifactId))
        (SubmissionPost env start session (session.stepData.set step.id content)
          (bif ((step.get? "output_from").getD (.str "")).isStr artifactId then
            committed env deployment.registry start.outbound.length session wf idx step content branch
          else .kept)) world := by
    intro world row counted reached calls
    cases ((step.get? "output_from").getD (.str "")).isStr artifactId with
    | false => exact .kept (by simp [pure, Program.pure]) counted reached
    | true => exact wp_commitSubmission counted reached calls
  split
  · rw [wp_bind]
    refine wp_changeRow_of found ?_
    intro now after becomes
    refine choose ?_ becomes.toReaches becomes.outbound_eq
    exact ⟨⟨rfl, rfl, rfl, rfl⟩, rfl, rfl, rfl⟩
  · exact choose (Session.Counted.refl session) (Reaches.unmoved found) rfl

theorem wp_submitPlain {sessionId content branch : String}
    (found : start.ledger.row session.sessionId = some session) :
    Wp (submitPlain env deployment sessionId session wf idx step content branch)
    (SubmissionPost env start session (session.stepData.set step.id content)
        (match validateOutput env content step with
        | .error _ => .kept
        | .ok none => committed env deployment.registry start.outbound.length session wf idx step content branch
        | .ok (some _) =>
            match Val.countReaches (session.retryCounts.getD step.id 0 + 1)
                ((step.get? "max_retries").getD defaultMaxRetries) false with
            | .ok true => .retriesExhausted
            | _ => .kept)) start := by
  unfold submitPlain
  rw [wp_bind, wp_ofExcept]
  cases validateOutput env content step with
  | error raised => exact .kept (by simp) (Session.Counted.refl session) (Reaches.unmoved found)
  | ok verdict =>
  cases verdict with
  | none => exact wp_commitSubmission (Session.Counted.refl session) (Reaches.unmoved found) rfl
  | some errors =>
  dsimp only
  rw [wp_bind]
  refine wp_incrementRetry found ?_
  intro new after counted becomes
  dsimp only
  rw [wp_bind, wp_ofExcept]
  cases Val.countReaches (session.retryCounts.getD step.id 0 + 1)
      ((step.get? "max_retries").getD defaultMaxRetries) false with
  | error raised => exact .kept (by simp) counted becomes.toReaches
  | ok exhausted =>
  cases exhausted with
  | false => exact .kept (by simp [pure, Program.pure]) counted becomes.toReaches
  | true => exact wp_reportFailure rfl counted becomes.toReaches

/-- The guards of `submit_step` on a resolved session. -/
structure Accepts (world : World) (session : Session) (wf : Workflow) (stepId content : String)
    (idx : Nat) (step : Step) : Prop where
  unescalated : session.escalation = none
  unfinished : session.currentStep ≠ complete
  inOrder : stepId = session.currentStep
  fits : content.utf8ByteSize ≤ contentMax
  bare : world.topFrameFor session.sessionId = none
  found : findStep wf (.str stepId) = some (idx, step)
  uncalled : step.isCall = false

/-- A submission leaves the tables alone or passes the guards and meets its verdict. -/
theorem wp_submitResolved {sessionId stepId content branch artifactId : String}
    (found : start.ledger.row session.sessionId = some session) :
    Wp (submitResolved env deployment sessionId stepId content branch artifactId session wf)
    (fun outcome after =>
        ((∀ child, outcome ≠ .ok (.completed child)) ∧ after = start ∧
            ∀ idx step, ¬Accepts start session wf stepId content idx step) ∨
          ∃ idx step, Accepts start session wf stepId content idx step ∧
            SubmissionPost env start session (session.stepData.set step.id content)
              (verdictOf env deployment.registry start.outbound.length session wf idx step content branch
                artifactId) outcome after) start := by
  have refused : ∀ {outcome : Except Exn Submission}, (∀ child, outcome ≠ .ok (.completed child)) →
      (∀ idx step, ¬Accepts start session wf stepId content idx step) →
      ((∀ child, outcome ≠ .ok (.completed child)) ∧ start = start ∧
          ∀ idx step, ¬Accepts start session wf stepId content idx step) ∨
        ∃ idx step, Accepts start session wf stepId content idx step ∧
          SubmissionPost env start session (session.stepData.set step.id content)
            (verdictOf env deployment.registry start.outbound.length session wf idx step content branch
              artifactId) outcome start :=
    fun open_ closed => .inl ⟨open_, rfl, closed⟩
  unfold submitResolved
  dsimp only
  cases escalated : session.escalation with
  | some escalation =>
      exact refused (by simp [pure, Program.pure]) fun _ _ accepts => by
        simp [accepts.unescalated] at escalated
  | none =>
  dsimp only
  by_cases finished : session.currentStep = complete
  · rw [if_pos finished]
    exact refused (by simp [pure, Program.pure]) fun _ _ accepts => accepts.unfinished finished
  rw [if_neg finished]
  by_cases elsewhere : stepId = session.currentStep
  case neg =>
    rw [if_pos elsewhere]
    exact refused (by simp [pure, Program.pure]) fun _ _ accepts => elsewhere accepts.inOrder
  rw [if_neg (by simpa using elsewhere)]
  by_cases oversize : contentMax < content.utf8ByteSize
  · rw [if_pos oversize]
    exact refused (by simp [pure, Program.pure]) fun _ _ accepts => by
      have := accepts.fits
      omega
  rw [if_neg oversize, wp_bind, wp_read]
  dsimp only
  cases bare : start.topFrameFor session.sessionId with
  | some top =>
      exact refused (by simp [pure, Program.pure]) fun _ _ accepts => by simp [accepts.bare] at bare
  | none =>
  dsimp only
  cases at_ : findStep wf (.str stepId) with
  | none => exact refused (by simp [raise]) fun _ _ accepts => by simp [accepts.found] at at_
  | some entry =>
  obtain ⟨idx, step⟩ := entry
  dsimp only
  cases called : step.get? "call" with
  | some target =>
      refine refused (by simp [pure, Program.pure]) fun _ _ accepts => ?_
      have same := accepts.found.symm.trans at_
      simp only [Option.some.injEq, Prod.mk.injEq] at same
      obtain ⟨rfl, rfl⟩ := same
      exact absurd accepts.uncalled (by simp [Step.isCall, called])
  | none =>
  have accepts : Accepts start session wf stepId content idx step :=
    ⟨escalated, finished, elsewhere, by omega, bare, at_, by simp [Step.isCall, called]⟩
  dsimp only
  unfold verdictOf
  split
  · rename_i artifacts
    refine (wp_submitArtifact found).mono fun outcome after post => .inr ⟨idx, step, accepts, ?_⟩
    rw [if_pos artifacts]
    exact post
  · rename_i plain
    refine (wp_submitPlain found).mono fun outcome after post => .inr ⟨idx, step, accepts, ?_⟩
    rw [if_neg plain]
    exact post

end Megalos
