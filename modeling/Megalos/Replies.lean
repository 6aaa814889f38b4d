import Megalos.RowChange

/-!
What a client may conclude from the responses of `start_workflow`, `submit_step` and
`enter_sub_workflow`: whose completion a completion is, and whose session is gone.
-/

namespace Megalos

open KeyedTable StatefulProgram StatefulProgram.Program

variable {env : Env} {deployment : Deployment} {registry : Option Registry} {start world : World}
  {sid : SessionId} {session row : Session} {wf : Workflow} {idx : Nat} {step : Step}
  {stepData data : StepData} {response : Val}
  {pointer : Val} {fields : List (String × Val)}

def Val.saysComplete (response : Val) : Bool :=
  (optionVal (response.get? "status")).isStr "workflow_complete"

def Val.saysInvalid (response : Val) : Bool :=
  (optionVal (response.get? "status")).isStr "validation_error"

def Val.propagated (response : Val) : Bool :=
  ((response.get? "propagated_from_sub_workflow").map Val.truthy).getD false

/-- Every response that is no error has the property, in the state that the program leaves. -/
def Replies (reply : Val → World → Prop) (body : Server Val) (world : World) : Prop :=
  Wp body (fun outcome after => ∀ response, outcome = .ok response → response.isError = false →
    reply response after)
    world

section Replies

variable {reply : Val → World → Prop}

theorem replies_pure (holds : response.isError = false → reply response world) :
    Replies reply (pure response) world := by
  rw [Replies, wp_pure]
  rintro other same plain
  cases same
  exact holds plain

theorem replies_refusal (failed : response.isError = true) : Replies reply (pure response) world :=
  replies_pure fun plain => absurd (failed.symm.trans plain) (by decide)

theorem replies_ofExcept {result : Except Exn Val}
    (holds : ∀ response, result = .ok response → response.isError = false → reply response world) :
    Replies reply (ofExcept result) world := holds

theorem replies_bind {α : Type} {first : Server α} {next : α → Server Val}
    (holds : Wp first (fun outcome reached => ∀ value, outcome = .ok value →
      Replies reply (next value) reached) world) :
    Replies reply (first >>= next) world := by
  rw [Replies, wp_bind]
  refine Wp.mono holds ?_
  rintro (raised | value) reached holds
  · exact nofun
  · exact holds value rfl

theorem replies_ofExcept_bind {α : Type} {result : Except Exn α} {next : α → Server Val}
    (holds : ∀ value, result = .ok value → Replies reply (next value) world) :
    Replies reply (ofExcept result >>= next) world :=
  replies_bind holds

theorem replies_read_bind {α : Type} {view : World → α} {next : α → Server Val}
    (holds : Replies reply (next (view world)) world) :
    Replies reply (read view >>= next) world := by
  refine replies_bind ?_
  rintro value same
  cases same
  exact holds

theorem replies_trapErrors {field : String} {sessionId : Option String} {body : Server Val}
    (holds : Replies reply body world) :
    Replies reply (trapErrors env field sessionId body) world := by
  unfold trapErrors
  rw [Replies, wp_rescue]
  refine Wp.mono holds ?_
  rintro (raised | response) reached holds
  · cases raised with
    | sessionNotFound => exact replies_refusal (errorResponse_isError _ _ _)
    | typeError message => exact replies_refusal (errorResponse_isError _ _ _)
    | valueError message => exact replies_refusal (errorResponse_isError _ _ _)
    | _ => exact nofun
  · exact holds

theorem replies_resolveSession {presented : String}
    {next : Except Val (Session × Workflow) → Server Val}
    (onOk : ∀ session wf, Resolves deployment world.ledger sid session wf →
      Replies reply (next (.ok (session, wf))) world)
    (onRefusal : ∀ err after, err.isError = true → Replies reply (next (.error err)) after) :
    Replies reply (resolveSession env deployment presented sid >>= next) world := by
  refine replies_bind ?_
  refine wp_resolveSession ?_ ?_ ?_
  · rintro session wf resolves value same
    cases same
    exact onOk session wf resolves
  · rintro err refusal - - value same
    cases same
    exact onRefusal err world refusal.isError
  · rintro err session new after refusal - - - value same
    cases same
    exact onRefusal err after refusal.isError

theorem replies_withSession {sessionId : String} {checks : List (String × String × Bool)}
    {body : Session → Workflow → Server Val}
    (next : ∀ session wf, checkStrs checks = none →
      Resolves deployment world.ledger (env.normalizeSessionId sessionId) session wf →
      Replies reply (body session wf) world) :
    Replies reply (withSession env deployment sessionId checks body) world := by
  unfold withSession
  cases passed : checkStrs checks with
  | some err => exact replies_refusal (checkStrs_isError passed)
  | none =>
      refine replies_resolveSession ?_ ?_
      · exact fun session wf resolves => next session wf passed resolves
      · exact fun err after failed => replies_refusal failed

end Replies

/-! The tail of a response. -/

theorem advanceFields_keyed (tail : advanceFields env wf pointer data = .ok fields) :
    field? fields "propagated_from_sub_workflow" = none ∧
      ((field? fields "status").isSome = true → pointer.isStr complete = true) := by
  unfold advanceFields at tail
  by_cases atEnd : pointer.isStr complete = true
  · rw [if_pos atEnd] at tail
    obtain rfl := Except.ok.inj tail
    exact ⟨rfl, fun _ => atEnd⟩
  · rw [if_neg atEnd] at tail
    split at tail
    · cases tail
    · obtain ⟨ref, -, tail⟩ := except_bind_ok.mp tail
      obtain ⟨guidance, guided, tail⟩ := except_bind_ok.mp tail
      obtain rfl := Except.ok.inj tail
      have keyed := guidanceFields_keyed guided
      refine ⟨?_, fun there => ?_⟩
      · rw [field?_cons, if_neg (by simp), keyed.field?_none (by decide)]
      · rw [field?_cons, if_neg (by simp), keyed.field?_none (by decide)] at there
        cases there

theorem advanceFields_valid (tail : advanceFields env wf pointer data = .ok fields) :
    (optionVal (field? fields "status")).isStr "validation_error" = false := by
  unfold advanceFields at tail
  split at tail
  · obtain rfl := Except.ok.inj tail
    rfl
  · split at tail
    · cases tail
    · obtain ⟨ref, -, tail⟩ := except_bind_ok.mp tail
      obtain ⟨guidance, guided, tail⟩ := except_bind_ok.mp tail
      obtain rfl := Except.ok.inj tail
      rw [field?_cons, if_neg (by simp), (guidanceFields_keyed guided).field?_none (by decide)]
      rfl

theorem Val.saysInvalid_append {keys : List String} {front tail : List (String × Val)}
    (keyed : KeyedBy keys front) (foreign : "status" ∉ keys)
    (valid : (optionVal (field? tail "status")).isStr "validation_error" = false) :
    (Val.obj (front ++ tail)).saysInvalid = false := by
  rw [saysInvalid, get?_obj, field?_append, keyed.field?_none foreign, Option.none_or]
  exact valid

theorem Val.saysComplete_obj (told : (Val.obj fields).saysComplete = true) :
    (field? fields "status").isSome = true := by
  unfold saysComplete at told
  rw [get?_obj] at told
  cases there : field? fields "status" with
  | none => simp [there, optionVal, isStr] at told
  | some value => rfl

theorem submittedResponse_shape {sessionId : String} {shown : Option String} {warning : Option Val}
    (answers : submittedResponse env wf idx step sessionId shown warning pointer data =
      .ok response) :
    ∃ front tail, response = .obj (front ++ tail) ∧ advanceFields env wf pointer data = .ok tail ∧
      KeyedBy ["session_id", "submitted", "artifact_id", "progress",
        "guardrail_warning"] front := by
  obtain ⟨ref, -, answers⟩ := except_bind_ok.mp answers
  obtain ⟨tail, tailed, answers⟩ := except_bind_ok.mp answers
  obtain rfl := Except.ok.inj answers
  refine ⟨_, tail, rfl, tailed, ((KeyedBy.append ?_ ?_).append ?_).append ?_⟩
  · simp [KeyedBy]
  · cases shown <;> simp [KeyedBy]
  · simp [KeyedBy]
  · cases warning with
    | none => simp [KeyedBy]
    | some message =>
        dsimp only
        split <;> simp [KeyedBy]

theorem submittedResponse_tells {sessionId : String} {shown : Option String} {warning : Option Val}
    (answers : submittedResponse env wf idx step sessionId shown warning pointer data =
      .ok response) :
    response.propagated = false ∧
      (response.saysComplete = true → pointer.isStr complete = true) := by
  obtain ⟨front, tail, rfl, tailed, keyed⟩ := submittedResponse_shape answers
  obtain ⟨unmarked, status⟩ := advanceFields_keyed tailed
  constructor
  · rw [Val.propagated, Val.get?_obj, field?_append, keyed.field?_none (by decide), unmarked]
    rfl
  · intro told
    refine status ?_
    have there := Val.saysComplete_obj told
    rwa [field?_append, keyed.field?_none (by decide), Option.none_or] at there

/-! A submission that is answered without the completion of a child. -/

theorem wp_bind_any {α β : Type} {first : Server α} {next : α → Server β}
    {post : Except Exn β → World → Prop} (onOk : ∀ value reached, Wp (next value) post reached)
    (onRaise : ∀ raised reached, post (.error raised) reached) :
    Wp (first >>= next) post world :=
  wp_bind_of (show Wp first (fun _ _ => True) world from trivial)
    (fun value reached _ => onOk value reached)
    fun raised reached _ => onRaise raised reached

theorem wp_autoExecuteMcpSteps_refusal (fuel : Nat) (pointer : Val) (data : StepData)
    (world : World) :
    Wp (autoExecuteMcpSteps env registry wf sid fuel pointer data) (fun outcome _ =>
      ∀ last stored err, outcome = .ok (last, stored, some err) → err.isError = true) world := by
  induction fuel generalizing pointer data world with
  | zero =>
      intro last stored err same
      cases same
  | succ fuel ih =>
      unfold autoExecuteMcpSteps
      split
      · intro last stored err same
        cases same
      split
      · intro last stored err same
        cases same
      split
      · intro last stored err same
        cases same
      refine wp_bind_any (fun skippedSet reached => ?_) fun _ _ last stored err same =>
        by cases same
      refine wp_bind_any (fun attempt reached => ?_) fun _ _ last stored err same => by cases same
      cases attempt with
      | error signal =>
          rintro last stored err same
          cases same
          exact errorResponse_isError _ _ _
      | ok envelope =>
          refine wp_bind_any (fun _ reached => ?_) fun _ _ last stored err same => by cases same
          refine wp_bind_any (fun attempt reached => ?_) fun _ _ last stored err same =>
            by cases same
          cases attempt with
          | error signal =>
              rintro last stored err same
              cases same
              exact errorResponse_isError _ _ _
          | ok next => exact ih _ _ _

theorem replies_skip {α : Type} {reply : Val → World → Prop} {first : Server α}
    {next : α → Server Val} (holds : ∀ value reached, Replies reply (next value) reached) :
    Replies reply (first >>= next) world :=
  replies_bind (Wp.mono (show Wp first (fun _ _ =>
    True) world from trivial) fun _ reached _ value _ =>
    holds value reached)

theorem replies_wrapChildFailure {reply : Val → World → Prop} {reason : String} {childError : Val}
    {parent : SessionId} (owner : world.parentOf sid = some parent) :
    Replies reply (wrapChildFailureIntoParentEscalation env sid wf reason childError) world := by
  unfold wrapChildFailureIntoParentEscalation
  refine replies_read_bind ?_
  rw [owner]
  refine replies_skip fun _ _ => ?_
  exact replies_skip fun _ _ => replies_refusal (errorResponse_isError _ _ _)

/-- A failure that is reported and no error: nothing stands below the session. -/
theorem replies_wrapChildFailure_root {reason : String} {childError : Val} :
    Replies (fun response after => response = childError ∧ after = world)
    (wrapChildFailureIntoParentEscalation env sid wf reason childError) world := by
  cases owner : world.parentOf sid with
  | some parent => exact replies_wrapChildFailure owner
  | none =>
      unfold wrapChildFailureIntoParentEscalation
      refine replies_read_bind ?_
      rw [owner]
      exact replies_pure fun _ => ⟨rfl, rfl⟩

/-- An answer in the name of the session itself: only its own row has changed. -/
def Stays (start : World) (sid : SessionId) (response : Val) (after : World) : Prop :=
  response.propagated = false ∧ ∃ new, after.ledger = start.ledger.setRow sid new ∧
    (response.saysComplete = true → new.currentStep = complete ∧
      ∀ parent, ¬start.ledger.Parent sid parent)

def AnswersCall (start : World) (sid : SessionId) (outcome : Except Exn Submission)
    (after : World) : Prop :=
  ∀ response, outcome = .ok (.answered response) → response.isError = false →
    Stays start sid response after

theorem answers_refusal {err : Val} (failed : err.isError = true) :
    AnswersCall start sid (.ok (.answered err)) world := by
  rintro response same plain
  cases same
  exact absurd (failed.symm.trans plain) (by decide)

/-- A failure that is an error of its own is one for the client, whoever hears of it. -/
theorem wp_reportFailure_answers {reason : String} {err : Val} (failed : err.isError = true) :
    Wp (do
          return Submission.answered (← wrapChildFailureIntoParentEscalation env sid wf reason err))
    (AnswersCall start sid) world := by
  refine wp_bind_of replies_wrapChildFailure_root ?_ fun _ _ _ => nofun
  intro value reached answered response same plain
  cases same
  obtain ⟨rfl, -⟩ := answered _ rfl plain
  exact absurd (failed.symm.trans plain) (by decide)

theorem Applies.complete {calls : Nat} {old new : Session}
    (applies : Applies env (.ok (.arrived pointer data calls)) old new)
    (atEnd : pointer.isStr complete = true) :
    new.currentStep = Megalos.complete := by
  unfold Applies at applies
  rw [show storedBy env (.ok (.arrived pointer data calls)) = some (Megalos.complete, data) by
    simp [storedBy, Advance.stored, Advance.resting, columnText_isStr atEnd]] at applies
  exact applies.currentStep_eq

theorem wp_advanceSession_answers {sessionId : String} {shown : Option String}
    {warning : Option Val} {pointer : Val} {forceBranched : Bool}
    (reached : Reaches start (start.ledger.setRow session.sessionId row) world) :
    Wp (advanceSession env deployment sessionId session wf idx step shown warning data pointer forceBranched)
    (AnswersCall start session.sessionId) world := by
  have found : world.ledger.row session.sessionId = some row := by rw [reached.ledger_eq]; simp
  unfold advanceSession
  dsimp only
  refine wp_bind_of (show Wp _ (fun _ after => after = world) world from ?_) ?_ fun _ _ _ => nofun
  · rw [wp_attemptCascade, wp_ofExcept]
    cases applySkipLoop env pointer wf data forceBranched with
    | error raised => cases raised <;> rfl
    | ok next => rfl
  rintro attempt middle rfl
  cases attempt with
  | error signal => exact wp_reportFailure_answers (errorResponse_isError _ _ _)
  | ok next =>
  dsimp only
  rw [wp_bind]
  refine Wp.using (wp_autoExecuteMcpSteps_refusal _ _ _ _)
    ((wp_autoExecuteMcpSteps env.fuel next.1 data found).mono ?_)
  intro outcome ranTo ran refusal
  cases ran with
  | raised => exact nofun
  | stopped computed counted reaches =>
      refine wp_bind_any (fun _ _ => ?_) fun _ _ => nofun
      exact wp_reportFailure_answers (refusal _ _ _ rfl)
  | arrived computed counted reaches =>
      rename_i arrivedAt arrivedData visited
      have foundAfter : ranTo.ledger.row session.sessionId = some visited :=
        by rw [reaches.ledger_eq]; simp
      dsimp only
      refine wp_enterPointer ranTo.outbound.length foundAfter ?_ fun _ _ _ _ _ _ _ => nofun
      intro text new after bound applies becomes
      have reachedEnd := (reached.then_setRow reaches).then_setRow becomes.toReaches
      rw [wp_bind, wp_read]
      dsimp only
      split
      · exact nofun
      · rename_i open_
        rw [wp_bind, wp_ofExcept]
        cases answers : submittedResponse env wf idx step sessionId shown warning arrivedAt arrivedData with
        | error raised => exact nofun
        | ok response =>
            rintro other same -
            cases same
            obtain ⟨unmarked, told⟩ := submittedResponse_tells answers
            refine ⟨unmarked, new, reachedEnd.ledger_eq, fun finished =>
              ⟨applies.complete (told finished), ?_⟩⟩
            intro parent owner
            have none : after.parentOf session.sessionId = none :=
              by simpa [told finished] using open_
            refine World.parentOf_none none parent ?_
            rwa [reachedEnd.ledger_eq, Ledger.Parent.of_setRow]

theorem wp_commitSubmission_answers {sessionId content branch : String} {shown : Option String}
    (reached : Reaches start (start.ledger.setRow session.sessionId row) world) :
    Wp (commitSubmission env deployment sessionId session wf idx step content branch shown)
    (AnswersCall start session.sessionId) world := by
  unfold commitSubmission
  dsimp only
  rw [wp_bind, wp_ofExcept]
  cases firedGuardrail env wf content { session with stepData := session.stepData.set step.id content } step.id with
  | error raised => exact nofun
  | ok fired =>
  dsimp only
  rw [wp_bind, wp_ofExcept]
  cases fired.mapM fun guardrail => guardrail.item "action" with
  | error raised => exact nofun
  | ok action =>
  dsimp only
  split
  · refine wp_bind_any (fun _ _ => ?_) fun _ _ => nofun
    refine wp_bind_any (fun _ _ => ?_) fun _ _ => nofun
    refine wp_bind_any (fun _ _ => ?_) fun _ _ => nofun
    refine wp_bind_any (fun _ _ => ?_) fun _ _ => nofun
    exact wp_reportFailure_answers (errorResponse_isError _ _ _)
  · rw [wp_bind, wp_ofExcept]
    cases guardrailWarning fired action with
    | error raised => exact nofun
    | ok warning =>
    dsimp only
    rw [wp_bind, wp_ofExcept]
    cases nextStepOf wf idx step fired branch with
    | error raised => exact nofun
    | ok next =>
        cases next with
        | invalidBranch target validTargets => exact answers_refusal (errorResponse_isError _ _ _)
        | goTo pointer forceBranched =>
            exact wp_advanceSession_answers reached

theorem stays_validationError {new : Session} {errors fingerprint stepId : Val}
    {rest : List (String × Val)}
    (keyed : KeyedBy ["retries_exhausted", "message", "retries_remaining",
      "validation_hint"] rest)
    (left : world.ledger = start.ledger.setRow sid new) :
    Stays start sid (.obj ([("status", .str "validation_error"), ("errors", errors),
      ("session_fingerprint", fingerprint), ("step_id", stepId)] ++ rest)) world := by
  refine ⟨?_, new, left, fun told => ?_⟩
  · rw [Val.propagated, Val.get?_obj, field?_append, keyed.field?_none (by decide)]
    rfl
  · rw [Val.saysComplete, Val.get?_obj] at told
    cases told

theorem wp_submitPlain_answers {sessionId content branch : String}
    (found : start.ledger.row session.sessionId = some session) :
    Wp (submitPlain env deployment sessionId session wf idx step content branch)
    (AnswersCall start session.sessionId)
      start := by
  unfold submitPlain
  rw [wp_bind, wp_ofExcept]
  cases validateOutput env content step with
  | error raised => exact nofun
  | ok verdict =>
  cases verdict with
  | none => exact wp_commitSubmission_answers (Reaches.unmoved found)
  | some errors =>
  dsimp only
  rw [wp_bind]
  refine wp_incrementRetry found ?_
  intro new after counted becomes
  dsimp only
  rw [wp_bind, wp_ofExcept]
  cases Val.countReaches (session.retryCounts.getD step.id 0 + 1)
    ((step.get? "max_retries").getD defaultMaxRetries)
      false with
  | error raised => exact nofun
  | ok exhausted =>
  cases exhausted with
  | true =>
      refine wp_bind_of replies_wrapChildFailure_root ?_ fun _ _ _ => nofun
      rintro value reached answered response same plain
      cases same
      obtain ⟨rfl, rfl⟩ := answered _ rfl plain
      exact stays_validationError (by simp [KeyedBy]) becomes.ledger_eq
  | false =>
      rintro response same -
      cases same
      refine stays_validationError ?_ becomes.ledger_eq
      intro entry member
      rcases List.mem_cons.mp member with rfl | member
      · simp
      · have hinted := flaggedFields_keyed step ["validation_hint"] entry member
        simp only [List.mem_singleton] at hinted
        simp [hinted]

theorem wp_submitArtifact_answers {sessionId content branch : String} :
    Wp (submitArtifact env deployment sessionId session wf idx step content branch "")
    (AnswersCall start sid) world := by
  unfold submitArtifact
  refine wp_bind_any (fun artifacts reached => ?_) fun _ _ => nofun
  dsimp only
  rw [if_pos rfl]
  refine wp_bind_any (fun expected reached => ?_) fun _ _ => nofun
  exact answers_refusal (errorResponse_isError _ _ _)

theorem wp_submitResolved_answers {sessionId stepId content branch : String}
    (found : start.ledger.row session.sessionId = some session) :
    Wp (submitResolved env deployment sessionId stepId content branch "" session wf)
    (AnswersCall start session.sessionId)
      start := by
  unfold submitResolved
  dsimp only
  split
  · exact answers_refusal (errorResponse_isError _ _ _)
  split
  · exact answers_refusal (errorResponse_isError _ _ _)
  split
  · exact answers_refusal (errorResponse_isError _ _ _)
  split
  · exact answers_refusal (errorResponse_isError _ _ _)
  rw [wp_bind, wp_read]
  dsimp only
  split
  · exact answers_refusal (errorResponse_isError _ _ _)
  split
  · exact nofun
  split
  · exact answers_refusal (errorResponse_isError _ _ _)
  split
  · exact wp_submitArtifact_answers
  · exact wp_submitPlain_answers found

/-! A submission that completes a called child. -/

def EndsWith (env : Env) (result : Except Exn Advance) : Prop :=
    (storedBy env result).map Prod.fst = some complete

/-- The answer of the parent: it bears the marker and names the parent, of which alone the row has
changed. -/
def AnswersFor (env : Env) (result : Except Exn Advance) (start : World) (sid : SessionId)
    (response : Val) (after : World) : Prop :=
  response.propagated = true ∧ response.saysInvalid = false ∧
    response.get? "session_id" = some (.str sid.text) ∧
    ∃ new, after.ledger = start.ledger.setRow sid new ∧
      (response.saysComplete = true → new.currentStep = complete ∧ EndsWith env result)

theorem replies_advanceParent (found : world.ledger.row sid = some row) :
    Replies (AnswersFor env (parentAdvance env registry wf idx step data world.outbound.length) world sid)
    (advanceParent env registry sid wf step idx data) world := by
  unfold advanceParent
  refine replies_ofExcept_bind ?_
  intro pointer goes
  refine replies_bind ?_
  rw [wp_attemptCascade, wp_ofExcept]
  unfold parentAdvance skipAndRun
  rw [goes]
  dsimp only
  cases skipped : applySkipLoop env pointer wf data false with
  | error raised =>
      cases raised with
      | skippedPredecessor =>
          rintro value same
          cases same
          exact replies_refusal (errorResponse_isError _ _ _)
      | _ => exact nofun
  | ok next =>
      rintro value same
      cases same
      dsimp only
      refine replies_bind ?_
      refine Wp.using (wp_autoExecuteMcpSteps_refusal _ _ _ _)
        ((wp_autoExecuteMcpSteps env.fuel next.1 data found).mono ?_)
      intro outcome ranTo ran refusal
      cases ran with
      | raised => exact nofun
      | stopped computed counted reaches =>
          rintro value same
          cases same
          exact replies_skip fun _ _ => replies_refusal (refusal _ _ _ rfl)
      | arrived computed counted reaches =>
          rename_i arrivedAt arrivedData visited
          have foundAfter : ranTo.ledger.row sid = some visited := by rw [reaches.ledger_eq]; simp
          rintro value same
          cases same
          dsimp only
          refine wp_enterPointer ranTo.outbound.length foundAfter ?_ fun _ _ _ _ _ _ _ => nofun
          intro text new after bound applies becomes
          have reachedEnd := reaches.then_setRow becomes.toReaches
          refine replies_ofExcept_bind fun ref _ => ?_
          refine replies_ofExcept_bind fun tail tailed => ?_
          refine replies_pure fun _ => ⟨rfl, ?_, rfl, new, reachedEnd.ledger_eq, fun told => ?_⟩
          · refine Val.saysInvalid_append (show KeyedBy ["session_id", "submitted", "progress",
              "propagated_from_sub_workflow"] _ from ?_) (by decide) (advanceFields_valid tailed)
            simp [KeyedBy]
          have atEnd : arrivedAt.isStr complete = true := by
            refine (advanceFields_keyed tailed).2 ?_
            have there := Val.saysComplete_obj told
            rw [field?_append] at there
            exact there
          refine ⟨applies.complete atEnd, ?_⟩
          rw [computed]
          simp [EndsWith, storedBy, Advance.stored, Advance.resting, columnText_isStr atEnd]

structure Delivers (env : Env) (deployment : Deployment) (before : Ledger) (calls : Nat)
    (child : SessionId) (artifact : String) (parent : SessionId) (session : Session) (wf : Workflow)
    (idx : Nat) (step : Step)
    (response : Val) (after : Ledger) : Prop where
  owner : before.Parent child parent
  resolves : Resolves deployment before parent session wf
  at_ : findStep wf (.str session.currentStep) = some (idx, step)
  marked : response.propagated = true
  valid : response.saysInvalid = false
  names : response.get? "session_id" = some (.str parent.text)
  left : ∃ new, after = ((before.drop child).dropAbove parent).setRow parent new ∧
    (response.saysComplete = true → new.currentStep = complete ∧
      EndsWith env (parentAdvance env deployment.registry wf
      idx step (session.stepData.set session.currentStep artifact) calls))

theorem replies_propagateToParent {child : Session} {childWf : Workflow}
    (apart : ∀ parent, world.ledger.Parent child.sessionId parent → parent ≠ child.sessionId) :
    Replies (fun response after => ∃ parent session wf idx step,
      Delivers env deployment world.ledger
        world.outbound.length child.sessionId (child.stepData.getD childWf.last.id "") parent session wf idx step response
        after.ledger)
    (propagateToParent env deployment child childWf) world := by
  unfold propagateToParent
  refine replies_read_bind ?_
  cases owner : world.parentOf child.sessionId with
  | none => exact nofun
  | some parent =>
  have owned := World.parentOf_some owner
  dsimp only
  refine replies_resolveSession ?_ fun err after failed => replies_refusal failed
  intro session wf resolves
  dsimp only
  cases at_ : findStep wf (.str session.currentStep) with
  | none =>
      exact replies_skip fun _ _ => replies_refusal (errorResponse_isError _ _ _)
  | some entry =>
  obtain ⟨idx, step⟩ := entry
  dsimp only
  split
  · exact replies_skip fun _ _ => replies_refusal (errorResponse_isError _ _ _)
  refine replies_ofExcept_bind fun verdict checked => ?_
  cases verdict with
  | some errors =>
      exact replies_wrapChildFailure owner
  | none =>
      dsimp only
      refine replies_bind ?_
      refine wp_deleteSessionRow ?_ fun _ => nofun
      intro _ deleted _ dropped _ _
      have kept : deleted.ledger.row parent = some session := by
        rw [dropped.ledger_eq, Ledger.drop_row, if_neg (apart parent owned)]
        exact resolves.row
      refine replies_bind ?_
      refine wp_setCalledSession_unlink kept ?_
      intro linked unlinked counted becomes _ _
      have foundLinked : unlinked.ledger.row parent = some linked := by
        rw [becomes.ledger_eq, dropAbove_setRow]
        simp
      have calls : unlinked.outbound.length = world.outbound.length := by
        rw [becomes.outbound_eq, dropped.outbound_eq]
      refine (replies_advanceParent foundLinked).mono ?_
      intro outcome after answers response same plain
      obtain ⟨marked, valid, names, new, left, done⟩ := answers response same plain
      rw [calls] at done
      refine ⟨parent, session, wf, idx, step, owned, resolves, at_, marked, valid, names, new, ?_,
        done⟩
      rw [left, becomes.ledger_eq, dropped.ledger_eq, dropAbove_setRow, Ledger.setRow_setRow]

theorem replies_resumeParentAfterDigression :
    Replies (fun response _ => response.saysInvalid = false)
    (resumeParentAfterDigression env deployment sid) world := by
  have based : ∀ {child : SessionId} {outer : String},
    KeyedBy ["session_id", "resumed_from_digression", "child_session_id"]
      [("session_id", Val.str outer), ("resumed_from_digression", .bool true),
        ("child_session_id", .str child.text)] := by
    simp [KeyedBy]
  unfold resumeParentAfterDigression
  refine replies_read_bind ?_
  split
  · intro response same
    cases same
  refine replies_resolveSession ?_ fun err after failed => replies_refusal failed
  intro session wf resolves
  refine replies_skip fun _ _ => ?_
  dsimp only
  split
  · exact replies_pure fun _ => Val.saysInvalid_append based (by decide) rfl
  split
  · exact replies_pure fun _ => Val.saysInvalid_append based (by decide) rfl
  refine replies_ofExcept_bind fun current _ => ?_
  refine replies_ofExcept_bind fun guidance guided => ?_
  refine replies_pure fun _ => ?_
  rw [List.append_assoc]
  refine Val.saysInvalid_append based (by decide) ?_
  rw [field?_append, (guidanceFields_keyed guided).field?_none (by decide)]
  rfl

inductive Replied (env : Env) (deployment : Deployment) (world : World) (sessionId stepId content branch : String)
    (response : Val) (after : World) : Prop
  | stayed (stays : Stays world (env.normalizeSessionId sessionId) response after)
  | delivered {session new parentRow : Session} {wf parentWf : Workflow} {idx place calls : Nat}
      {step callStep : Step} {pointer : Val} {data : StepData} {parent : SessionId}
      (submits : Submits env deployment world sessionId stepId content session wf idx step)
      (reached : verdictOf env deployment.registry world.outbound.length session wf idx step content branch "" =
        .advanced (.arrived pointer data calls))
      (delivers : Delivers env deployment (world.ledger.setRow session.sessionId new) calls session.sessionId
        (data.getD wf.last.id "") parent parentRow parentWf place callStep response after.ledger)
  | resumed {frame : Frame} (framed : world.ledger.frame (env.normalizeSessionId sessionId) = some frame)
      (digression : frame.frameType = .digression) (valid : response.saysInvalid = false)

theorem Replied.unmarked {sessionId stepId content branch : String}
    (replied : Replied env deployment world sessionId stepId content branch response start)
    (invalid : response.saysInvalid = true) : response.propagated = false := by
  cases replied with
  | stayed stays => exact stays.1
  | delivered submits reached delivers => exact absurd (delivers.valid.symm.trans invalid) (by decide)
  | resumed framed digression valid => exact absurd (valid.symm.trans invalid) (by decide)

theorem replies_submitStep (sound : world.Sound env) (sessionId stepId content branch : String) :
    Replies (Replied env deployment world sessionId stepId content branch)
    (submitStep env deployment sessionId stepId content branch "") world := by
  unfold submitStep
  refine replies_trapErrors (replies_withSession ?_)
  intro session wf passed resolves
  have sameId := resolves.sessionId_eq
  have found : world.ledger.row session.sessionId = some session :=
    by rw [sameId]; exact resolves.row
  refine replies_bind ?_
  refine Wp.using (wp_submitResolved_answers found) ((wp_submitResolved found).mono ?_)
  rintro outcome after post answers submission rfl
  cases submission with
  | answered response =>
      refine replies_pure fun plain => .stayed ?_
      rw [← sameId]
      exact answers response rfl plain
  | completed child =>
      rcases post with ⟨open_, -⟩ | ⟨idx, step, accepts, post⟩
      · exact absurd rfl (open_ child)
      have completed : Completed env world session _ child after := post
      obtain ⟨⟨pointer, atEnd, reached⟩, childEq, ⟨new, moved, reaches⟩, parent, owner⟩ := completed
      have childId : child.sessionId = session.sessionId := by rw [childEq]
      have submits : Submits env deployment world sessionId stepId content session wf idx step :=
        ⟨checkStrs_none passed "session_id" (by simp), checkStrs_none passed "step_id" (by simp),
          resolves, accepts⟩
      obtain ⟨frame, framed, -⟩ := owner
      have framedAfter : after.ownFrame child.sessionId = some frame := by
        change after.ledger.frame child.sessionId = some frame
        rw [reaches.ledger_eq, childId]
        exact framed
      dsimp only
      unfold autoResumeOnTopFrameComplete
      refine replies_read_bind ?_
      rw [framedAfter, Option.map_some, Option.getD_some]
      cases kind : frame.frameType with
      | digression =>
          refine replies_resumeParentAfterDigression.mono fun outcome final valid response same plain => ?_
          exact .resumed (sameId ▸ framed) kind (valid response same plain)
      | call =>
          refine (replies_propagateToParent ?_).mono ?_
          · intro other owned
            rw [reaches.ledger_eq, Ledger.Parent.of_setRow] at owned
            exact sound.apart (childId ▸ owned)
          · intro outcome final delivered response same plain
            obtain ⟨parent, parentRow, parentWf, place, callStep, delivers⟩ :=
              delivered response same plain
            rw [reaches.ledger_eq, childId] at delivers
            exact .delivered submits reached delivers

/-! The start of a session, and of one above another. -/

theorem frontResponse_tells {workflowType context : String}
    (answers : frontResponse env workflowType context wf sid pointer data = .ok response) :
    response.get? "session_id" = some (.str sid.text) ∧ response.propagated = false ∧
      (response.saysComplete = true → pointer.isStr complete = true) := by
  unfold frontResponse at answers
  dsimp only at answers
  by_cases atEnd : pointer.isStr complete = true
  · rw [if_pos atEnd] at answers
    obtain rfl := Except.ok.inj answers
    exact ⟨rfl, rfl, fun _ => atEnd⟩
  · rw [if_neg atEnd] at answers
    split at answers
    · cases answers
    · rename_i step there
      obtain ⟨ref, -, answers⟩ := except_bind_ok.mp answers
      obtain ⟨prompt, prompted, answers⟩ := except_bind_ok.mp answers
      obtain ⟨injected, injects, answers⟩ := except_bind_ok.mp answers
      obtain rfl := Except.ok.inj answers
      have prompts := promptFields_keyed prompted
      have injections := injectedFields_keyed injects
      have keyed : KeyedBy ["session_id", "workflow_type", "current_step", "directive", "do_not",
          "conversation_repair", "gates", "context", "directives", "injected_context"]
          ([("session_id", Val.str sid.text), ("workflow_type", .str workflowType)] ++
            [("current_step", ref)] ++ prompt ++
            [("context", .str context)] ++ flaggedFields step ["directives"] ++ injected) := by
        refine ((((KeyedBy.append ?_ ?_).append (prompts.mono ?_)).append ?_).append
          ((flaggedFields_keyed _ _).mono ?_)).append (injections.mono ?_)
        all_goals simp [KeyedBy]
      refine ⟨rfl, ?_, fun told => ?_⟩
      · rw [Val.propagated, Val.get?_obj, keyed.field?_none (by decide)]
        rfl
      · have there := Val.saysComplete_obj told
        rw [keyed.field?_none (by decide)] at there
        cases there

structure OpensRoot (env : Env) (world : World) (response : Val) (after : World) : Prop where
  names : response.get? "session_id" = some (.str (env.token world.minted).text)
  unmarked : response.propagated = false
  bare : after.ledger.frame (env.token world.minted) = none
  minted : after.minted = world.minted + 1
  done : response.saysComplete = true →
    ∃ row, after.ledger.row (env.token world.minted) = some row ∧ row.currentStep = complete

theorem replies_startWorkflow (sound : world.Sound env) (workflowType context : String) :
    Replies (OpensRoot env world) (startWorkflow env deployment workflowType context) world := by
  unfold startWorkflow
  refine replies_trapErrors ?_
  split
  · rename_i err refused
    exact replies_refusal (checkStrs_isError refused)
  cases deployment.workflows.get? workflowType with
  | none => exact replies_refusal (errorResponse_isError _ _ _)
  | some wf =>
  dsimp only
  refine replies_read_bind ?_
  dsimp only [id]
  split
  · exact replies_refusal (errorResponse_isError _ _ _)
  refine replies_bind ?_
  refine wp_createSession ?_ fun _ _ _ _ _ => nofun
  rintro now created row rowEq creates sid same
  cases same
  have rowId : row.sessionId = env.token world.minted := creates.sessionId_eq
  have ledgerCreated : created.ledger =
    (world.ledger.without (world.evicted env)).setRow row.sessionId row :=
    creates.ledger_eq
  have foundRow : created.ledger.row row.sessionId = some row := by rw [ledgerCreated]; simp
  have bare : ∀ {after : World} {new : Session},
    Reaches created (created.ledger.setRow row.sessionId new) after →
      after.ledger.frame (env.token world.minted) = none ∧ after.minted = world.minted + 1 := by
    intro after new reaches
    refine ⟨?_, reaches.minted_eq.trans creates.minted_eq⟩
    rw [reaches.ledger_eq, ledgerCreated, Ledger.setRow_frame, Ledger.setRow_frame,
      Ledger.without_frame, sound.unframed, ite_self]
  unfold runFront
  refine replies_bind ?_
  refine wp_incrementVisit foundRow ?_ fun _ _ => nofun
  intro visited counted _ visits becomes _ _
  have foundVisited : counted.ledger.row row.sessionId = some visited :=
    by rw [becomes.ledger_eq]; simp
  refine replies_bind ?_
  refine Wp.using (wp_autoExecuteMcpSteps_refusal _ _ _ _)
    ((wp_autoExecuteMcpSteps env.fuel (.str wf.first.id) Table.empty foundVisited).mono ?_)
  intro outcome ranTo ran refusal
  cases ran with
  | raised => exact nofun
  | stopped computed more reaches =>
      rintro value same
      cases same
      exact replies_skip fun _ _ => replies_refusal (refusal _ _ _ rfl)
  | arrived computed more reaches =>
      rename_i arrivedAt arrivedData new
      have foundNew : ranTo.ledger.row row.sessionId = some new := by rw [reaches.ledger_eq]; simp
      have reached := becomes.toReaches.then_setRow reaches
      rintro value same
      cases same
      dsimp only
      split
      · refine replies_bind ?_
        refine wp_storePointer (.arrived arrivedAt arrivedData ranTo.outbound.length) rfl foundNew ?_ fun _ _ _ => nofun
        intro text stored after bound applies stores _ _
        have foundStored : after.ledger.row row.sessionId = some stored :=
          by rw [stores.ledger_eq]; simp
        have reachedStored := reached.then_setRow stores.toReaches
        split
        · rename_i elsewhere
          refine replies_bind ?_
          refine wp_incrementVisit foundStored ?_ fun _ _ => nofun
          intro last final _ counts ticks _ _
          refine replies_ofExcept fun response answers _ => ?_
          obtain ⟨names, unmarked, told⟩ := frontResponse_tells answers
          obtain ⟨bareAfter, mintedAfter⟩ := bare (reachedStored.then_setRow ticks.toReaches)
          refine ⟨rowId ▸ names, unmarked, bareAfter, mintedAfter, fun finished => ?_⟩
          rw [told finished] at elsewhere
          cases elsewhere
        · refine replies_ofExcept fun response answers _ => ?_
          obtain ⟨names, unmarked, told⟩ := frontResponse_tells answers
          obtain ⟨bareAfter, mintedAfter⟩ := bare reachedStored
          refine ⟨rowId ▸ names, unmarked, bareAfter, mintedAfter, fun finished => ⟨stored, ?_, ?_⟩⟩
          · rw [← rowId, foundStored]
          · exact applies.complete (told finished)
      · rename_i atFirst
        refine replies_ofExcept fun response answers _ => ?_
        obtain ⟨names, unmarked, told⟩ := frontResponse_tells answers
        obtain ⟨bareAfter, mintedAfter⟩ := bare reached
        refine ⟨rowId ▸ names, unmarked, bareAfter, mintedAfter, fun finished => ⟨new, ?_, ?_⟩⟩
        · rw [← rowId, foundNew]
        · have isFirst := Val.isStr_iff.mp (show arrivedAt.isStr wf.first.id =
            true by simpa using atFirst)
          have isEnd := told finished
          rw [isFirst, Val.isStr_str, beq_iff_eq] at isEnd
          rw [(visits.trans more).currentStep_eq, rowEq]
          exact isEnd

/-- The answer to a descent: it names the new child, which is not at its end yet for all the client
can tell. -/
structure Hands (env : Env) (world : World) (response : Val) : Prop where
  names : response.get? "session_id" = some (.str (env.token world.minted).text)
  unmarked : response.propagated = false
  unfinished : response.saysComplete = false

theorem spawnedResponse_hands {child : SessionId} {target : Val} {context : String}
    {extra : List (String × Val)} (keyed : KeyedBy ["parent_session_id"] extra)
    (isChild : child = env.token world.minted)
    (answers : spawnedResponse child target wf context extra = .ok response) :
    Hands env world response := by
  obtain ⟨ref, -, answers⟩ := except_bind_ok.mp answers
  obtain ⟨prompt, prompted, answers⟩ := except_bind_ok.mp answers
  obtain rfl := Except.ok.inj answers
  have prompts := promptFields_keyed prompted
  have all : KeyedBy ["session_id", "workflow_type", "current_step", "directive", "do_not",
      "conversation_repair", "gates", "context", "parent_session_id", "directives"]
      ([("session_id", Val.str child.text), ("workflow_type", target), ("current_step", ref)] ++
        prompt ++
        [("context", .str context)] ++ extra ++ flaggedFields wf.first ["directives"]) := by
    refine (((KeyedBy.append ?_ (prompts.mono ?_)).append ?_).append (keyed.mono ?_)).append
      ((flaggedFields_keyed _ _).mono ?_)
    all_goals simp [KeyedBy]
  refine ⟨by rw [← isChild]; rfl, ?_, ?_⟩
  · rw [Val.propagated, Val.get?_obj, all.field?_none (by decide)]
    rfl
  · rw [Val.saysComplete, Val.get?_obj, all.field?_none (by decide)]
    rfl

theorem replies_enterSubWorkflow (parentSessionId callStepId : String) :
    Replies (fun response _ => Hands env world response)
    (enterSubWorkflow env deployment parentSessionId callStepId)
      world := by
  unfold enterSubWorkflow
  refine replies_trapErrors (replies_withSession ?_)
  intro parent parentWf passed resolves
  split
  · rename_i err refused
    exact replies_refusal (spawnGuards_isError refused)
  dsimp only
  split
  · exact replies_refusal (errorResponse_isError _ _ _)
  refine replies_read_bind ?_
  dsimp only [id]
  split
  · exact replies_refusal (errorResponse_isError _ _ _)
  split
  · exact replies_refusal (errorResponse_isError _ _ _)
  refine replies_ofExcept_bind fun context computed => ?_
  cases context with
  | error err => exact replies_refusal (childContext_isError computed)
  | ok context =>
      refine replies_bind ?_
      refine wp_createSession ?_ fun _ _ _ _ _ => nofun
      rintro now created row rowEq creates child same
      cases same
      refine replies_skip fun _ _ => ?_
      refine replies_skip fun _ _ => ?_
      refine replies_ofExcept fun response answers _ => ?_
      exact spawnedResponse_hands (by simp [KeyedBy]) creates.sessionId_eq answers

end Megalos
