import Megalos.StoreSpec

/-!
What resolution, the failure of a child and the completion of a child do to the
ledger.  The decisions of a parent's advance are stated as a function of the
parent's row, the artifact and the number of MCP calls made so far.
-/

namespace Megalos

open KeyedTable StatefulProgram StatefulProgram.Program

variable {env : Env} {deployment : Deployment} {world : World} {sid : SessionId}

/-- `_resolve_session` hands the session to the tool. -/
structure Resolves (deployment : Deployment) (ledger : Ledger) (sid : SessionId) (session : Session)
    (wf : Workflow) : Prop where
  row : ledger.row sid = some session
  caller : deployment.caller = .anonymous
  unmarked : session.currentStep ≠ workflowChanged
  loaded : deployment.workflows.get? session.workflowType = some wf
  unchanged : ∀ fp, deployment.workflowFingerprints.get? session.workflowType = some fp →
    session.workflowFingerprint = fp

structure GoesStale (deployment : Deployment) (ledger : Ledger) (sid : SessionId)
    (session : Session) : Prop where
  row : ledger.row sid = some session
  caller : deployment.caller = .anonymous
  unmarked : session.currentStep ≠ workflowChanged
  loaded : (deployment.workflows.get? session.workflowType).isSome
  changed : ∃ fp, deployment.workflowFingerprints.get? session.workflowType = some fp ∧
    session.workflowFingerprint ≠ fp

theorem Resolves.not_stale {ledger : Ledger} {session other : Session} {wf : Workflow}
    (resolves : Resolves deployment ledger sid session wf) :
    ¬GoesStale deployment ledger sid other := by
  intro stale
  have same : session = other := Option.some.inj (resolves.row.symm.trans stale.row)
  subst same
  obtain ⟨fp, current, differs⟩ := stale.changed
  exact differs (resolves.unchanged fp current)

theorem Resolves.unique {ledger : Ledger} {session other : Session} {wf otherWf : Workflow}
    (resolves : Resolves deployment ledger sid session wf)
    (again : Resolves deployment ledger sid other otherWf) : session = other ∧ wf = otherWf := by
  have same : session = other := Option.some.inj (resolves.row.symm.trans again.row)
  subst same
  exact ⟨rfl, Option.some.inj (resolves.loaded.symm.trans again.loaded)⟩

def FunnelRefusal (err : Val) : Prop :=
  ∃ code message fields, err = errorResponse code message fields ∧
    code ∈ ["session_not_found", "cross_session_access_denied", "workflow_changed",
      "workflow_not_loaded"] ∧
    ∀ entry ∈ fields, entry.1 ∈ ["session_fingerprint", "workflow_type", "previous_fingerprint",
      "current_fingerprint"]

theorem wp_resolveSession {presented : String}
    {post : Except Exn (Except Val (Session × Workflow)) → World → Prop}
    (onOk : ∀ session wf, Resolves deployment world.ledger sid session wf →
      post (.ok (.ok (session, wf))) world)
    (onRefusal : ∀ err, FunnelRefusal err →
      (∀ session wf, ¬Resolves deployment world.ledger sid session wf) →
      (∀ session, ¬GoesStale deployment world.ledger sid session) → post (.ok (.error err)) world)
    (onStale : ∀ err session new after, FunnelRefusal err →
      GoesStale deployment world.ledger sid session →
      session.Marked new → Becomes world (world.ledger.setRow sid new) after →
      post (.ok (.error err)) after) :
    Wp (resolveSession env deployment presented sid) post world := by
  unfold resolveSession
  rw [wp_bind, wp_read]
  dsimp only
  cases found : world.sessions.lookup sid with
  | none =>
      have missing : world.ledger.row sid = none := found
      refine onRefusal _ ⟨_, _, _, rfl, by simp, by simp⟩ ?_ ?_
      · intro session wf resolves
        exact absurd resolves.row (by simp [missing])
      · intro session stale
        exact absurd stale.row (by simp [missing])
  | some session =>
      have row : world.ledger.row sid = some session := found
      have refused : ∀ err, FunnelRefusal err →
        (∀ wf, ¬Resolves deployment world.ledger sid session wf) →
          ¬GoesStale deployment world.ledger sid session → post (.ok (.error err)) world := by
        intro err refusal unresolved fresh
        refine onRefusal err refusal ?_ ?_
        · intro other wf resolves
          have same : other = session := Option.some.inj (resolves.row.symm.trans row)
          exact unresolved wf (same ▸ resolves)
        · intro other stale
          have same : other = session := Option.some.inj (stale.row.symm.trans row)
          exact fresh (same ▸ stale)
      dsimp only
      by_cases caller : deployment.caller = .anonymous
      case neg =>
        rw [if_pos (by simpa [Session.ownerIdentity] using caller)]
        exact refused _ ⟨_, _, _, rfl, by simp, by simp⟩ (fun _ resolves =>
          caller resolves.caller) fun stale => caller stale.caller
      rw [if_neg (by simpa [Session.ownerIdentity] using caller)]
      by_cases marked : session.currentStep = workflowChanged
      case pos =>
        rw [if_pos marked]
        exact refused _ ⟨_, _, _, rfl, by simp, by simp⟩ (fun _ resolves =>
          resolves.unmarked marked) fun stale => stale.unmarked marked
      rw [if_neg marked]
      cases loaded : deployment.workflows.get? session.workflowType with
      | none =>
          refine refused _ ⟨_, _, _, rfl, by simp, by simp⟩ (fun _ resolves => ?_) fun stale => ?_
          · exact absurd resolves.loaded (by simp [loaded])
          · exact absurd stale.loaded (by simp [loaded])
      | some wf =>
          dsimp only
          cases current : deployment.workflowFingerprints.get? session.workflowType with
          | none =>
              exact onOk session wf ⟨row, caller, marked, loaded, by simp [current]⟩
          | some currentFp =>
              dsimp only
              by_cases same : session.workflowFingerprint = currentFp
              · rw [if_neg (by simpa using same)]
                exact onOk session wf ⟨row, caller, marked, loaded, by simp [current, same]⟩
              · rw [if_pos same, wp_bind]
                refine wp_updateCurrentStep row ?_ ?_
                · intro text new after stored marks becomes
                  cases stored
                  exact onStale _ session new after ⟨_, _, _, rfl, by simp, by simp⟩
                    ⟨row, caller, marked, by simp [loaded], currentFp, current, same⟩ marks becomes
                · intro raised broken
                  cases broken

inductive Wrapped (before : Ledger) (sid : SessionId) : Ledger → Prop
  | root (unowned : ∀ parent, ¬before.Parent sid parent) : Wrapped before sid before
  | missing {parent : SessionId} (owner : before.Parent sid parent)
      (gone : before.row parent = none) : Wrapped before sid before
  | escalated {parent : SessionId} {row new : Session} (owner : before.Parent sid parent)
      (found : before.row parent = some row) (escalates : row.Escalated new row.stepData) :
      Wrapped before sid (before.setRow parent new)

theorem wp_wrapChildFailure_owned {childWf : Workflow} {reason : String} {childError : Val}
    {parent : SessionId} {post : Except Exn Val → World → Prop}
    (owner : world.parentOf sid = some parent)
    (onRow : ∀ outcome row new after, outcome ≠ .error .diverges →
      world.ledger.row parent = some row →
      row.Escalated new row.stepData → Becomes world (world.ledger.setRow parent new) after →
      post outcome after)
    (onMissing : ∀ after, world.ledger.row parent = none → Becomes world world.ledger after →
      post (.error .sessionNotFound) after) :
    Wp (wrapChildFailureIntoParentEscalation env sid childWf reason childError) post world := by
  unfold wrapChildFailureIntoParentEscalation
  rw [wp_bind, wp_read]
  simp only [owner]
  rw [wp_bind]
  refine wp_setEscalation ?_ onMissing
  intro row new after found escalates _ becomes
  dsimp only
  rw [wp_bind, wp_ofExcept]
  cases name : childWf.item "name" with
  | error raised =>
      have finite : raised ≠ .diverges := by
        intro same
        subst same
        simp only [Workflow.item, fieldItem] at name
        split at name <;> simp at name
      exact onRow _ row new after (by simpa using finite) found escalates becomes
  | ok value =>
      simp only [wp_pure]
      exact onRow _ row new after (by simp) found escalates becomes

theorem wp_wrapChildFailure {childWf : Workflow} {reason : String} {childError : Val}
    {post : Except Exn Val → World → Prop}
    (next : ∀ outcome after ledger, outcome ≠ .error .diverges → Wrapped world.ledger sid ledger →
      Becomes world ledger after → post outcome after) :
    Wp (wrapChildFailureIntoParentEscalation env sid childWf reason childError) post world := by
  cases owner : world.parentOf sid with
  | none =>
      unfold wrapChildFailureIntoParentEscalation
      rw [wp_bind, wp_read]
      simp only [owner, wp_pure]
      exact next _ world _ (by simp) (.root (World.parentOf_none owner)) (Becomes.refl world)
  | some parent =>
      have owned := World.parentOf_some owner
      refine wp_wrapChildFailure_owned owner ?_ ?_
      · intro outcome row new after finite found escalates becomes
        exact next outcome after _ finite (.escalated owned found escalates) becomes
      · intro after gone becomes
        exact next _ after _ (by simp) (.missing owned gone) becomes

def Advance.resting : Advance → Option (Val × StepData)
  | .skipCascade => none
  | .stopped pointer stepData _ | .arrived pointer stepData _ => some (pointer, stepData)

def Advance.stored (env : Env) (advance : Advance) : Option (String × StepData) :=
  advance.resting.bind fun rest =>
    match columnText env rest.1 with
    | .ok text => some (text, rest.2)
    | .error _ => none

def storedBy (env : Env) : Except Exn Advance → Option (String × StepData)
  | .ok advance => advance.stored env
  | .error _ => none

def Applies (env : Env) (result : Except Exn Advance) (old new : Session) : Prop :=
  match storedBy env result with
  | some (step, stepData) => old.Moved new step stepData
  | none => old.Counted new

theorem Applies.same {result : Except Exn Advance} {old new : Session}
    (applies : Applies env result old new) : old.Same new := by
  unfold Applies at applies
  split at applies
  · exact applies.toSame
  · exact applies.toSame

theorem Applies.escalation_eq {result : Except Exn Advance} {old new : Session}
    (applies : Applies env result old new) : new.escalation = old.escalation := by
  unfold Applies at applies
  split at applies
  · exact applies.escalation_eq
  · exact applies.escalation_eq

theorem Applies.after_counting {result : Except Exn Advance} {old between new : Session}
    (counted : old.Counted between) (applies : Applies env result between new) :
    Applies env result old new := by
  unfold Applies at applies ⊢
  split at applies
  · exact counted.moved applies
  · exact counted.trans applies

theorem Applies.before_counting {result : Except Exn Advance} {old between new : Session}
    (applies : Applies env result old between) (counted : between.Counted new) :
    Applies env result old new := by
  unfold Applies at applies ⊢
  split at applies
  · exact applies.counted counted
  · exact applies.trans counted

/-- Where a parent goes once its child's artifact is in `stepData`. -/
def parentAdvance (env : Env) (registry : Option Registry) (wf : Workflow) (idx : Nat)
    (callStep : Step) (stepData : StepData) (calls : Nat) : Except Exn Advance :=
  match afterCallStep wf idx callStep with
  | .error raised => .error raised
  | .ok pointer => skipAndRun env registry wf calls pointer stepData false

variable {registry : Option Registry} {wf : Workflow} {old : Session}

theorem wp_storePointer (advance : Advance) {pointer : Val} {stepData : StepData}
    {post : Except Exn Unit → World → Prop} (rests : advance.resting = some (pointer, stepData))
    (found : world.ledger.row sid = some old)
    (onOk : ∀ text new after, columnText env pointer = .ok text →
      Applies env (.ok advance) old new →
      Becomes world (world.ledger.setRow sid new) after → post (.ok ()) after)
    (onRaise : ∀ raised, columnText env pointer = .error raised →
      Applies env (.ok advance) old old →
      post (.error raised) world) :
    Wp (updateCurrentStep env sid pointer (some stepData)) post world := by
  refine wp_updateCurrentStep found ?_ ?_
  · intro text new after bound moves becomes
    refine onOk text new after bound ?_ becomes
    have stored : storedBy env (.ok advance) = some (text, stepData) := by
      simp [storedBy, Advance.stored, rests, bound]
    rw [Applies, stored]
    exact moves.toMoved
  · intro raised broken
    refine onRaise raised broken ?_
    have unstored : storedBy env (.ok advance) = none := by
      simp [storedBy, Advance.stored, rests, broken]
    rw [Applies, unstored]
    exact Session.Counted.refl old

theorem columnText_finite {pointer : Val} {raised : Exn}
    (broken : columnText env pointer = .error raised) : raised ≠ .diverges := by
  intro same
  subst same
  unfold columnText at broken
  split at broken
  case h_2 =>
    split at broken
    · cases broken
    · cases broken
  all_goals cases broken

theorem wp_enterPointer (calls : Nat) {α : Type} {next : Server α} {pointer : Val}
    {stepData : StepData} {post : Except Exn α → World → Prop}
    (found : world.ledger.row sid = some old)
    (onOk : ∀ text new after, columnText env pointer = .ok text →
      Applies env (.ok (.arrived pointer stepData calls)) old new →
      Becomes world (world.ledger.setRow sid new) after → Wp next post after)
    (onRaise : ∀ raised new after, raised ≠ .diverges → pointer.isStr complete = false →
      Applies env (.ok (.arrived pointer stepData calls)) old new →
      Becomes world (world.ledger.setRow sid new) after → post (.error raised) after) :
    Wp (if !pointer.isStr complete then do
          incrementVisit env sid pointer
          updateCurrentStep env sid pointer (some stepData)
          next
        else do
          updateCurrentStep env sid pointer (some stepData)
          next) post world := by
  have elsewhere : ∀ {raised : Exn}, columnText env pointer = .error raised →
      pointer.isStr complete = false := by
    intro raised broken
    by_contra atEnd
    rw [columnText_isStr (by simpa using atEnd)] at broken
    simp at broken
  have store : ∀ {between : World} {row : Session}, between.ledger.row sid = some row →
      old.Counted row → Becomes world (world.ledger.setRow sid row) between →
      Wp (updateCurrentStep env sid pointer (some stepData) >>= fun _ => next) post between := by
    intro between row foundBetween counted reached
    have extend : ∀ {new : Session} {after : World},
        Becomes between (between.ledger.setRow sid new) after →
        Becomes world (world.ledger.setRow sid new) after := by
      intro new after becomes
      rw [reached.ledger_eq, Ledger.setRow_setRow] at becomes
      exact ⟨⟨becomes.ledger_eq, becomes.minted_eq.trans reached.minted_eq⟩,
        becomes.outbound_eq.trans reached.outbound_eq⟩
    rw [wp_bind]
    refine wp_storePointer (.arrived pointer stepData calls) rfl foundBetween ?_ ?_
    · intro text new after bound applies becomes
      exact onOk text new after bound (applies.after_counting counted) (extend becomes)
    · intro raised broken applies
      exact onRaise raised row between (columnText_finite broken) (elsewhere broken)
        (applies.after_counting counted) reached
  split
  · rw [wp_bind]
    refine wp_incrementVisit found ?_ ?_
    · intro new visited _ counted becomes
      exact store (by rw [becomes.ledger_eq]; simp) counted becomes
    · intro raised broken
      have unstorable : ∃ raised, columnText env pointer = .error raised := by
        cases bound : columnText env pointer with
        | error raised => exact ⟨raised, rfl⟩
        | ok text =>
            obtain ⟨key, keyed⟩ := jsonKey_of_columnText bound
            simp [keyed] at broken
      obtain ⟨unbound, unstored⟩ := unstorable
      have finite : raised ≠ .diverges := by
        cases pointer <;> simp only [jsonKey, Except.error.injEq, reduceCtorEq] at broken <;>
          subst broken <;> simp
      refine onRaise raised old world finite (elsewhere unstored) ?_ ⟨⟨(Ledger.setRow_self found).symm, rfl⟩, rfl⟩
      have unstored : storedBy env (.ok (.arrived pointer stepData calls)) = none := by
        simp [storedBy, Advance.stored, Advance.resting, unstored]
      rw [Applies, unstored]
      exact Session.Counted.refl old
  · exact store found (Session.Counted.refl old) ⟨⟨(Ledger.setRow_self found).symm, rfl⟩, rfl⟩

theorem settles_advanceParent {idx : Nat} {callStep : Step} {stepData : StepData}
    (found : world.ledger.row sid = some old) :
    Settles .diverges (fun after => ∃ new,
        Applies env (parentAdvance env registry wf idx callStep stepData world.outbound.length) old new ∧
        parentAdvance env registry wf idx callStep stepData world.outbound.length ≠ .error .diverges ∧
        Reaches world (world.ledger.setRow sid new) after)
    (advanceParent env registry sid wf callStep idx stepData) world := by
  have kept : ∀ {result : Except Exn Advance}, storedBy env result = none →
    result ≠ .error .diverges →
      ∃ new, Applies env result old new ∧ result ≠ .error .diverges ∧
        Reaches world (world.ledger.setRow sid new) world :=
    fun unstored ends =>
      ⟨old, by rw [Applies, unstored]; exact Session.Counted.refl old, ends, Reaches.unmoved found⟩
  unfold advanceParent parentAdvance
  refine settles_ofExcept_bind ?_ ?_
  case refine_2 =>
    intro raised broken finite
    rw [broken]
    exact kept rfl (by simpa using finite)
  intro pointer goes
  rw [goes]
  refine settles_bind ?_
  rw [wp_attemptCascade, wp_ofExcept]
  unfold skipAndRun
  dsimp only
  cases skipped : applySkipLoop env pointer wf stepData false with
  | error raised =>
      cases raised with
      | skippedPredecessor => exact settles_pure (kept rfl (by simp))
      | _ => exact fun finite => kept rfl fun same => finite (Except.error.inj same)
  | ok next =>
      dsimp only
      refine settles_bind ?_
      refine (wp_autoExecuteMcpSteps env.fuel next.1 stepData found).mono ?_
      intro outcome ranTo ran
      cases ran with
      | raised computed counted reaches =>
          rw [computed]
          exact fun finite => ⟨_, counted, by simpa using finite, reaches⟩
      | stopped computed counted reaches =>
          rename_i stoppedAt stoppedData err row
          have foundAfter : ranTo.ledger.row sid = some row := by rw [reaches.ledger_eq]; simp
          rw [computed]
          refine settles_bind ?_
          refine wp_storePointer (.stopped stoppedAt stoppedData ranTo.outbound.length) rfl foundAfter ?_ ?_
          · intro text new after _ applies becomes
            exact settles_pure
              ⟨new, applies.after_counting counted, by simp, reaches.then_setRow becomes.toReaches⟩
          · intro raised _ applies _
            exact ⟨row, applies.after_counting counted, by simp, reaches⟩
      | arrived computed counted reaches =>
          rename_i arrivedAt arrivedData row
          have foundAfter : ranTo.ledger.row sid = some row := by rw [reaches.ledger_eq]; simp
          rw [computed]
          refine wp_enterPointer ranTo.outbound.length foundAfter ?_ ?_
          · intro text new after _ applies becomes
            have answered : ∃ new,
              Applies env (.ok (.arrived arrivedAt arrivedData ranTo.outbound.length))
                old new ∧ (.ok (.arrived arrivedAt arrivedData ranTo.outbound.length) : Except Exn Advance) ≠
                  .error .diverges ∧ Reaches world (world.ledger.setRow sid new) after :=
              ⟨new, applies.after_counting counted, by simp, reaches.then_setRow becomes.toReaches⟩
            refine settles_ofExcept_bind (fun _ _ => ?_) fun _ _ _ => answered
            exact settles_ofExcept_bind (fun _ _ => settles_pure answered) fun _ _ _ => answered
          · intro raised new after finite _ applies becomes _
            exact ⟨new, applies.after_counting counted, by simp,
              reaches.then_setRow becomes.toReaches⟩

/-- What the end of a child leaves: `before` is the ledger in which the child is complete, `calls`
the number of MCP calls made by then. -/
inductive Finished (env : Env) (deployment : Deployment) (before : Ledger) (calls : Nat)
    (sid : SessionId) (artifact : String) : FrameType → Ledger → Prop
  | orphan {frameType : FrameType} (unowned : ∀ parent, ¬before.Parent sid parent) :
      Finished env deployment before calls sid artifact frameType before
  | retained {frameType : FrameType} {parent : SessionId} (owner : before.Parent sid parent)
      (unresolved : ∀ session wf, ¬Resolves deployment before parent session wf)
      (fresh : ∀ session, ¬GoesStale deployment before parent session) :
      Finished env deployment before calls sid artifact frameType before
  | marked {frameType : FrameType} {parent : SessionId} {session new : Session}
      (owner : before.Parent sid parent) (stale : GoesStale deployment before parent session)
      (marks : session.Marked new) :
      Finished env deployment before calls sid artifact frameType (before.setRow parent new)
  | popped {parent : SessionId} {session : Session} {wf : Workflow}
      (owner : before.Parent sid parent)
      (resolves : Resolves deployment before parent session wf) :
      Finished env deployment before calls sid artifact .digression (before.drop sid)
  | drifted {parent : SessionId} {session new : Session} {wf : Workflow}
      (owner : before.Parent sid parent) (resolves : Resolves deployment before parent session wf)
      (off : ∀ idx step, findStep wf (.str session.currentStep) = some (idx, step) →
        step.isCall = false)
      (escalates : session.Escalated new session.stepData)
      (drift : new.escalation.map Escalation.guardrailId = some (.str "sub_workflow_state_drift")) :
      Finished env deployment before calls sid artifact .call (before.setRow parent new)
  | unchecked {parent : SessionId} {session : Session} {wf : Workflow} {idx : Nat} {step : Step}
      {raised : Exn} (owner : before.Parent sid parent)
      (resolves : Resolves deployment before parent session wf)
      (at_ : findStep wf (.str session.currentStep) = some (idx, step)) (call : step.isCall = true)
      (broken : validateOutput env artifact step = .error raised) :
      Finished env deployment before calls sid artifact .call before
  | rejected {parent : SessionId} {session new : Session} {wf : Workflow} {idx : Nat} {step : Step}
      {errors : List String} (owner : before.Parent sid parent)
      (resolves : Resolves deployment before parent session wf)
      (at_ : findStep wf (.str session.currentStep) = some (idx, step)) (call : step.isCall = true)
      (invalid : validateOutput env artifact step = .ok (some errors))
      (escalates : session.Escalated new session.stepData) :
      Finished env deployment before calls sid artifact .call (before.setRow parent new)
  | delivered {parent : SessionId} {session new : Session} {wf : Workflow} {idx : Nat} {step : Step}
      (owner : before.Parent sid parent) (resolves : Resolves deployment before parent session wf)
      (at_ : findStep wf (.str session.currentStep) = some (idx, step)) (call : step.isCall = true)
      (valid : validateOutput env artifact step = .ok none)
      (applies : Applies env (parentAdvance env deployment.registry wf idx step
        (session.stepData.set session.currentStep artifact) calls) session new)
      (ends : parentAdvance env deployment.registry wf idx step
        (session.stepData.set session.currentStep artifact) calls ≠ .error .diverges) :
      Finished env deployment before calls sid artifact .call
        (((before.drop sid).dropAbove parent).setRow parent new)

def Finishes (env : Env) (deployment : Deployment) (sid : SessionId) (artifact : String)
    (frameType : FrameType) (world after : World) : Prop :=
  ∃ ledger, Finished env deployment world.ledger world.outbound.length sid artifact frameType ledger ∧
    Reaches world ledger after

theorem Ledger.Parent.of_setRow {ledger : Ledger} {target sid parent : SessionId} {row : Session} :
    (ledger.setRow target row).Parent sid parent ↔ ledger.Parent sid parent := Iff.rfl

theorem settles_resumeParentAfterDigression {row : Session} {artifact : String}
    (found : world.ledger.row sid = some row) :
    Settles .diverges (Finishes env deployment sid artifact .digression world)
    (resumeParentAfterDigression env deployment sid) world := by
  unfold resumeParentAfterDigression
  refine settles_read_bind ?_
  cases owner : world.parentOf sid with
  | none =>
      exact settles_raise fun _ =>
        ⟨_, .orphan (World.parentOf_none owner), (Becomes.refl world).toReaches⟩
  | some outer =>
      have owned := World.parentOf_some owner
      dsimp only
      refine settles_bind ?_
      refine wp_resolveSession ?_ ?_ ?_
      · intro session wf resolves
        dsimp only
        refine settles_bind ?_
        refine wp_deleteSessionRow ?_ ?_
        · intro _ after _ becomes
          have popped : Finishes env deployment sid artifact .digression world after :=
            ⟨_, .popped owned resolves, becomes.toReaches⟩
          dsimp only
          split
          · exact settles_pure popped
          split
          · exact settles_pure popped
          refine settles_ofExcept_bind (fun _ _ => ?_) fun _ _ _ => popped
          exact settles_ofExcept_bind (fun _ _ => settles_pure popped) fun _ _ _ => popped
        · intro gone
          exact absurd found (by simp [gone])
      · intro err _ unresolved fresh
        exact settles_pure ⟨_, .retained owned unresolved fresh, (Becomes.refl world).toReaches⟩
      · intro err session new after _ stale marks becomes
        exact settles_pure ⟨_, .marked owned stale marks, becomes.toReaches⟩

theorem dropAbove_setRow {ledger : Ledger} {sid : SessionId} {row : Session} :
    (ledger.setRow sid row).dropAbove sid = (ledger.dropAbove sid).setRow sid row := rfl

theorem settles_propagateToParent {child row : Session} {childWf : Workflow}
    (found : world.ledger.row child.sessionId = some row)
    (apart : ∀ parent, world.ledger.Parent child.sessionId parent → parent ≠ child.sessionId) :
    Settles .diverges
      (Finishes env deployment child.sessionId (child.stepData.getD childWf.last.id "") .call world)
    (propagateToParent env deployment child childWf) world := by
  unfold propagateToParent
  refine settles_read_bind ?_
  cases owner : world.parentOf child.sessionId with
  | none =>
      exact settles_raise fun _ =>
        ⟨_, .orphan (World.parentOf_none owner), (Becomes.refl world).toReaches⟩
  | some parent =>
  have owned := World.parentOf_some owner
  dsimp only
  refine settles_bind ?_
  refine wp_resolveSession ?_ ?_ ?_
  case refine_2 =>
    intro err _ unresolved fresh
    exact settles_pure ⟨_, .retained owned unresolved fresh, (Becomes.refl world).toReaches⟩
  case refine_3 =>
    intro err session new after _ stale marks becomes
    exact settles_pure ⟨_, .marked owned stale marks, becomes.toReaches⟩
  intro session wf resolves
  dsimp only
  have drift : ∀ {response : Val},
    (∀ idx step, findStep wf (.str session.currentStep) = some (idx, step) →
        step.isCall = false) →
      Settles .diverges (Finishes env deployment child.sessionId
          (child.stepData.getD childWf.last.id "") .call world)
        (do
          setEscalation env parent (.str "sub_workflow_state_drift")
            (.str ("parent at '" ++ session.currentStep ++ "' is not a call-step"))
          return response) world := by
    intro response off
    refine settles_bind ?_
    refine wp_setEscalation ?_ ?_
    · intro other new after looked escalates written becomes
      obtain rfl : session = other := Option.some.inj (resolves.row.symm.trans looked)
      have drift : new.escalation.map Escalation.guardrailId =
        some (.str "sub_workflow_state_drift") := by
        rw [written]
        rfl
      exact settles_pure ⟨_, .drifted owned resolves off escalates drift, becomes.toReaches⟩
    · intro after gone
      exact absurd resolves.row (by simp [gone])
  cases at_ : findStep wf (.str session.currentStep) with
  | none => exact drift (by simp [at_])
  | some entry =>
  obtain ⟨idx, step⟩ := entry
  dsimp only
  by_cases call : step.isCall = true
  case neg =>
    rw [if_pos (by simpa using call)]
    refine drift ?_
    intro idx' step' again
    rw [at_] at again
    simp only [Option.some.injEq, Prod.mk.injEq] at again
    obtain ⟨rfl, rfl⟩ := again
    simpa using call
  rw [if_neg (by simp [call])]
  refine settles_ofExcept_bind ?_ ?_
  case refine_2 =>
    intro raised broken _
    exact ⟨_, .unchecked owned resolves at_ call broken, (Becomes.refl world).toReaches⟩
  intro verdict checked
  cases verdict with
  | some errors =>
      refine wp_wrapChildFailure_owned owner ?_ ?_
      · intro outcome other new after _ looked escalates becomes _
        obtain rfl : session = other := Option.some.inj (resolves.row.symm.trans looked)
        exact ⟨_, .rejected owned resolves at_ call checked escalates, becomes.toReaches⟩
      · intro after gone
        exact absurd resolves.row (by simp [gone])
  | none =>
      dsimp only
      refine settles_bind ?_
      refine wp_deleteSessionRow ?_ ?_
      case refine_2 =>
        intro gone
        exact absurd found (by simp [gone])
      intro _ deleted _ dropped
      have kept : deleted.ledger.row parent = some session := by
        rw [dropped.ledger_eq, Ledger.drop_row, if_neg (apart parent owned)]
        exact resolves.row
      refine settles_bind ?_
      refine wp_setCalledSession_unlink kept ?_
      intro linked unlinked counted becomes
      have foundLinked : unlinked.ledger.row parent = some linked := by
        rw [becomes.ledger_eq, dropAbove_setRow]
        simp
      refine (settles_advanceParent foundLinked).mono ?_
      intro outcome after advanced finite
      obtain ⟨new, applies, ends, reaches⟩ := advanced finite
      have calls : unlinked.outbound.length = world.outbound.length := by
        rw [becomes.outbound_eq, dropped.outbound_eq]
      rw [calls] at applies ends
      refine ⟨_, .delivered owned resolves at_ call checked (applies.after_counting counted) ends,
        ?_, ?_⟩
      · rw [reaches.ledger_eq, becomes.ledger_eq, dropped.ledger_eq, dropAbove_setRow,
          Ledger.setRow_setRow]
      · rw [reaches.minted_eq, becomes.minted_eq, dropped.minted_eq]

theorem settles_autoResume {child row : Session} {childWf : Workflow} {frame : Frame}
    (found : world.ledger.row child.sessionId = some row)
    (framed : world.ledger.frame child.sessionId = some frame)
    (apart : ∀ parent, world.ledger.Parent child.sessionId parent → parent ≠ child.sessionId) :
    Settles .diverges
      (Finishes env deployment child.sessionId (child.stepData.getD childWf.last.id "") frame.frameType world)
    (autoResumeOnTopFrameComplete env deployment child childWf) world := by
  unfold autoResumeOnTopFrameComplete
  refine settles_read_bind ?_
  have own : world.ownFrame child.sessionId = some frame := framed
  simp only [own, Option.map_some, Option.getD_some]
  cases frame.frameType with
  | digression => exact settles_resumeParentAfterDigression found
  | call => exact settles_propagateToParent found apart

end Megalos
