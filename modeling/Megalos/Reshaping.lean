import Megalos.Effect
import Megalos.Envelope

/-!
The tools that reshape a stack: `revise_step`, `enter_sub_workflow`, `push_flow` and
`pop_flow`.  Each commits before it builds its response, so what is left behind and
whether the caller is told of a success are two things.
-/

namespace Megalos

open KeyedTable StatefulProgram StatefulProgram.Program

variable {env : Env} {deployment : Deployment} {world : World} {sid : SessionId}

theorem FunnelRefusal.isError {err : Val} (refusal : FunnelRefusal err) : err.isError = true := by
  obtain ⟨code, message, fields, rfl, -, -⟩ := refusal
  exact errorResponse_isError code message fields

/-- Whether a call answers, and with an envelope that is no error. -/
def succeeds : Except Exn Val → Bool
  | .ok response => !response.isError
  | .error _ => false

/-- The postcondition holds of the success of the program and of the state it leaves. -/
def Ends (post : Bool → World → Prop) (body : Server Val) (world : World) : Prop :=
  Wp body (fun outcome after => post (succeeds outcome) after) world

section Ends

variable {post : Bool → World → Prop}

theorem ends_refusal {response : Val} (failed : response.isError = true)
    (holds : post false world) :
    Ends post (pure response) world := by
  have unsuccessful : succeeds (.ok response) = false := by simp [succeeds, failed]
  rw [Ends, wp_pure, unsuccessful]
  exact holds

theorem ends_answer {response : Val} (plain : response.isError = false) (holds : post true world) :
    Ends post (pure response) world := by
  have success : succeeds (.ok response) = true := by simp [succeeds, plain]
  rw [Ends, wp_pure, success]
  exact holds

theorem ends_bind {α : Type} {first : Server α} {next : α → Server Val}
    (holds : Wp first (fun outcome reached =>
      match outcome with
      | .ok value => Ends post (next value) reached
      | .error _ => post false reached) world) : Ends post (first >>= next) world := by
  rw [Ends, wp_bind]
  refine Wp.mono holds ?_
  rintro (raised | value) reached holds
  · exact holds
  · exact holds

theorem ends_read_bind {α : Type} {view : World → α} {next : α → Server Val}
    (holds : Ends post (next (view world)) world) : Ends post (read view >>= next) world := by
  rw [Ends, wp_bind]
  exact holds

theorem ends_trapErrors {field : String} {sessionId : Option String} {body : Server Val}
    (holds : Ends post body world) : Ends post (trapErrors env field sessionId body) world := by
  unfold trapErrors
  rw [Ends, wp_rescue]
  refine Wp.mono holds ?_
  rintro (raised | response) reached holds
  · cases raised with
    | sessionNotFound => exact ends_refusal (errorResponse_isError _ _ _) holds
    | typeError message => exact ends_refusal (errorResponse_isError _ _ _) holds
    | valueError message => exact ends_refusal (errorResponse_isError _ _ _) holds
    | stackFull rootSessionId currentDepth maxDepth => exact holds
    | skippedPredecessor sid referencing => exact holds
    | uncaught kind message => exact holds
    | diverges => exact holds
  · exact holds

theorem checkStrs_isError {checks : List (String × String × Bool)} {err : Val}
    (refused : checkStrs checks = some err) : err.isError = true := by
  obtain ⟨check, -, failed⟩ := List.exists_of_findSome?_eq_some refused
  unfold checkStr at failed
  dsimp only at failed
  split at failed
  · rw [Option.some.injEq] at failed
    rw [← failed]
    exact errorResponse_isError _ _ _
  · simp at failed

theorem ends_resolveSession {presented : String}
    {next : Except Val (Session × Workflow) → Server Val}
    (onOk : ∀ session wf, Resolves deployment world.ledger sid session wf →
      Ends post (next (.ok (session, wf))) world)
    (onRefusal : ∀ err, err.isError = true →
      (∀ session wf, ¬Resolves deployment world.ledger sid session wf) →
      (∀ session, ¬GoesStale deployment world.ledger sid session) →
        Ends post (next (.error err)) world)
    (onStale : ∀ err session new after, err.isError = true →
      GoesStale deployment world.ledger sid session →
      session.Marked new → Becomes world (world.ledger.setRow sid new) after →
      Ends post (next (.error err)) after) :
    Ends post (resolveSession env deployment presented sid >>= next) world := by
  refine ends_bind ?_
  refine wp_resolveSession onOk ?_ ?_
  · exact fun err refusal => onRefusal err refusal.isError
  · exact fun err session new after refusal => onStale err session new after refusal.isError

theorem ends_withSession {sessionId : String} {checks : List (String × String × Bool)}
    {body : Session → Workflow → Server Val}
    (refused : (checkStrs checks = none →
      ∀ session wf, ¬Resolves deployment world.ledger (env.normalizeSessionId sessionId) session wf) →
      post false world)
    (marked : ∀ session new after,
      GoesStale deployment world.ledger (env.normalizeSessionId sessionId) session →
        session.Marked new →
      Becomes world (world.ledger.setRow (env.normalizeSessionId sessionId) new) after →
        post false after)
    (next : ∀ session wf, checkStrs checks = none →
      Resolves deployment world.ledger (env.normalizeSessionId sessionId) session wf →
      Ends post (body session wf) world) :
    Ends post (withSession env deployment sessionId checks body) world := by
  unfold withSession
  cases passed : checkStrs checks with
  | some err => exact ends_refusal (checkStrs_isError passed) (refused (by simp [passed]))
  | none =>
      refine ends_resolveSession ?_ ?_ ?_
      · intro session wf resolves
        exact next session wf passed resolves
      · intro err failed unresolved _
        exact ends_refusal failed (refused fun _ => unresolved)
      · intro err session new after failed stale marks becomes
        exact ends_refusal failed (marked session new after stale marks becomes)

end Ends

/-- What a response needs to hand the step out is there. -/
def presents (wf : Workflow) (step : Step) : Bool :=
    (stepRef step false).isOk && (promptFields wf step).isOk

theorem Ledger.Above.sessionId_ne {ledger : Ledger} {frame : Frame} (above : ledger.Above sid frame)
    (root : ledger.frame sid = none) : frame.sessionId ≠ sid := by
  intro same
  have found := above.1
  rw [same, root] at found
  simp at found

theorem wp_applyRevision {session : Session} {wf : Workflow} {idx : Nat} {target : Step}
    {post : Except Exn (Option SessionId) → World → Prop} (sound : world.Sound env)
    (found : world.ledger.row session.sessionId = some session)
    (root : world.ledger.frame session.sessionId = none)
    (next : ∀ retained new after,
      session.Moved new target.id (revisedData wf idx target session.stepData) →
      Becomes world ((world.ledger.afterRevision session.sessionId
        (revisedChild world session.sessionId target)).setRow session.sessionId new) after →
      post (.ok retained) after) :
    Wp (applyRevision env session wf idx target (world.topFrameFor session.sessionId)) post world := by
  let kept := ((wf.steps.drop (idx + 1)).map Step.id).foldl (fun data sid =>
    data.erase sid) session.stepData
  -- a row whose step data is pruned, over some base ledger, still has to get its pointer
  have point : ∀ {base : Ledger} {between : World} {row : Session} {stepData : StepData}
      {retained : Option SessionId}, Becomes world (base.setRow session.sessionId row) between →
      session.Moved row session.currentStep stepData →
      (∀ new after, session.Moved new target.id stepData →
        Becomes world (base.setRow session.sessionId new) after → post (.ok retained) after) →
      Wp (do
          let retained ← (pure retained : Server (Option SessionId))
          updateCurrentStep env session.sessionId (.str target.id) none
          return retained) post between := by
    intro base between row stepData retained reached moved finish
    have foundBetween : between.ledger.row session.sessionId = some row := by
      rw [reached.ledger_eq]; simp
    rw [wp_bind, wp_pure]
    dsimp only
    rw [wp_bind]
    refine wp_updateCurrentStep foundBetween ?_ fun raised broken => by simp [columnText] at broken
    intro text new after bound stores becomes
    simp only [columnText, Except.ok.injEq] at bound
    subst bound
    rw [reached.ledger_eq, Ledger.setRow_setRow] at becomes
    refine finish new after ?_ ⟨⟨becomes.ledger_eq, becomes.minted_eq.trans reached.minted_eq⟩,
      becomes.outbound_eq.trans reached.outbound_eq⟩
    exact ⟨moved.toSame.trans stores.toSame, stores.currentStep_eq,
      stores.stepData_eq.trans moved.stepData_eq, stores.escalation_eq.trans moved.escalation_eq⟩
  -- clearing the entry of the call-step comes before it
  have clear : ∀ {base : Ledger} {between : World} {row : Session} {retained : Option SessionId},
      Becomes world (base.setRow session.sessionId row) between →
      session.Moved row session.currentStep kept →
      (∀ new after, session.Moved new target.id (kept.erase target.id) →
        Becomes world (base.setRow session.sessionId new) after → post (.ok retained) after) →
      Wp (do
          clearStepDataKey env session.sessionId target.id
          let retained ← (pure retained : Server (Option SessionId))
          updateCurrentStep env session.sessionId (.str target.id) none
          return retained) post between := by
    intro base between row retained reached moved finish
    have foundBetween : between.ledger.row session.sessionId = some row := by
      rw [reached.ledger_eq]; simp
    rw [wp_bind]
    refine wp_changeRow_of foundBetween ?_
    intro now after becomes
    rw [reached.ledger_eq, Ledger.setRow_setRow] at becomes
    refine point ⟨⟨becomes.ledger_eq, becomes.minted_eq.trans reached.minted_eq⟩,
      becomes.outbound_eq.trans reached.outbound_eq⟩ ?_ finish
    exact ⟨moved.toSame.trans ⟨rfl, rfl, rfl, rfl⟩, moved.currentStep_eq,
      congrArg (fun data : StepData => data.erase target.id) moved.stepData_eq, moved.escalation_eq⟩
  unfold applyRevision
  dsimp only
  rw [wp_bind]
  refine wp_changeRow_of found ?_
  intro now pruned becomes
  have prunes : ∀ {row : Session}, row = { session with stepData := kept, updatedAt := now } →
      session.Moved row session.currentStep kept := by
    intro row rowEq
    subst rowEq
    exact ⟨⟨rfl, rfl, rfl, rfl⟩, rfl, rfl, rfl⟩
  dsimp only
  by_cases call : target.isCall = true
  case neg =>
    rw [if_neg call]
    refine point becomes (prunes rfl) ?_
    intro new after moved reached
    refine next none new after ?_ ?_
    · rw [revisedData, if_neg call]
      exact moved
    · rw [revisedChild, if_neg call]
      exact reached
  rw [if_pos call]
  have finish : ∀ new after, session.Moved new target.id (kept.erase target.id) →
      Becomes world ((world.ledger.afterRevision session.sessionId
        (world.topFrameFor session.sessionId)).setRow session.sessionId new) after →
      post (.ok ((world.topFrameFor session.sessionId).map Frame.sessionId)) after := by
    intro new after moved reached
    refine next _ new after ?_ ?_
    · rw [revisedData, if_pos call]
      exact moved
    · rw [revisedChild, if_pos call]
      exact reached
  cases top : world.topFrameFor session.sessionId with
  | none =>
      rw [top] at finish
      exact clear becomes (prunes rfl) finish
  | some child =>
      rw [top] at finish
      have above := World.topFrameFor_some top
      have differs := above.sessionId_ne root
      have housed := sound.housed above.1
      dsimp only
      rw [wp_bind, wp_rescue, wp_bind]
      refine wp_deleteSessionRow ?_ ?_
      case refine_2 =>
        intro gone
        rw [becomes.ledger_eq, Ledger.setRow_row, if_neg differs] at gone
        simp [gone] at housed
      intro _ deleted _ dropped
      rw [becomes.ledger_eq, Ledger.drop_setRow differs] at dropped
      have foundDeleted := congrArg (fun ledger => ledger.row session.sessionId) dropped.ledger_eq
      simp only [Ledger.setRow_row, if_true] at foundDeleted
      dsimp only [wp_pure]
      rw [wp_pure]
      dsimp only
      rw [wp_bind]
      refine wp_setCalledSession_unlink foundDeleted ?_
      intro linked unlinked counted unlinks
      rw [dropped.ledger_eq, Ledger.setRow_setRow, dropAbove_setRow] at unlinks
      have reached : Becomes world ((world.ledger.afterRevision session.sessionId (some child)).setRow
          session.sessionId linked) unlinked :=
        ⟨⟨unlinks.ledger_eq, unlinks.minted_eq.trans (dropped.minted_eq.trans becomes.minted_eq)⟩,
          unlinks.outbound_eq.trans (dropped.outbound_eq.trans becomes.outbound_eq)⟩
      exact clear reached ((prunes rfl).counted counted) finish

inductive ReviseEffect (env : Env) (deployment : Deployment) (world : World)
    (sessionId stepId : String) : Ledger → Prop
  | refused (closed : ∀ session wf idx target,
      ¬Revises env deployment world sessionId stepId session wf idx target) :
      ReviseEffect env deployment world sessionId stepId world.ledger
  | marked {session new : Session}
      (stale : GoesStale deployment world.ledger (env.normalizeSessionId sessionId) session)
      (marks : session.Marked new) : ReviseEffect env deployment world sessionId stepId
        (world.ledger.setRow (env.normalizeSessionId sessionId) new)
  | revised {session new : Session} {wf : Workflow} {idx : Nat} {target : Step}
      (revises : Revises env deployment world sessionId stepId session wf idx target)
      (moved : session.Moved new target.id (revisedData wf idx target session.stepData)) :
      ReviseEffect env deployment world sessionId stepId
        ((world.ledger.afterRevision session.sessionId (revisedChild world session.sessionId target)).setRow
          session.sessionId new)

/-- … and whether the call says so: the response is built after the writes. -/
inductive Revision (env : Env) (deployment : Deployment) (world : World)
    (sessionId stepId : String) : Bool → Ledger → Prop
  | refused (closed : ∀ session wf idx target,
      ¬Revises env deployment world sessionId stepId session wf idx target) :
      Revision env deployment world sessionId stepId false world.ledger
  | marked {session new : Session}
      (stale : GoesStale deployment world.ledger (env.normalizeSessionId sessionId) session)
      (marks : session.Marked new) : Revision env deployment world sessionId stepId false
        (world.ledger.setRow (env.normalizeSessionId sessionId) new)
  | revised {session new : Session} {wf : Workflow} {idx : Nat} {target : Step}
      (revises : Revises env deployment world sessionId stepId session wf idx target)
      (moved : session.Moved new target.id (revisedData wf idx target session.stepData)) :
      Revision env deployment world sessionId stepId (presents wf target)
        ((world.ledger.afterRevision session.sessionId (revisedChild world session.sessionId target)).setRow
          session.sessionId new)

theorem Revision.effect {sessionId stepId : String} {success : Bool} {ledger : Ledger}
    (revision : Revision env deployment world sessionId stepId success ledger) :
    ReviseEffect env deployment world sessionId stepId ledger := by
  cases revision with
  | refused closed => exact .refused closed
  | marked stale marks => exact .marked stale marks
  | revised revises moved => exact .revised revises moved

theorem ends_reviseStep (sound : world.Sound env) (sessionId stepId : String) :
    Ends (fun success after => ∃ ledger,
        Revision env deployment world sessionId stepId success ledger ∧ Reaches world ledger after)
    (reviseStep env deployment sessionId stepId) world := by
  unfold reviseStep
  refine ends_trapErrors ?_
  refine ends_withSession ?_ ?_ ?_
  · intro unresolved
    refine ⟨_, .refused ?_, (Becomes.refl world).toReaches⟩
    intro session wf idx target revises
    refine unresolved ?_ session wf revises.resolves
    simp [checkStrs, checkStr, revises.named, revises.stepNamed]
  · intro session new after stale marks becomes
    exact ⟨_, .marked stale marks, becomes.toReaches⟩
  intro session wf passed resolves
  have sameId := resolves.sessionId_eq
  have row : world.ledger.row session.sessionId = some session := by rw [sameId]; exact resolves.row
  have refused : ¬(∃ idx target,
    Revises env deployment world sessionId stepId session wf idx target) →
      ∃ ledger, Revision env deployment world sessionId stepId false ledger ∧
        Reaches world ledger world := by
    intro closed
    refine ⟨_, .refused ?_, (Becomes.refl world).toReaches⟩
    intro other otherWf idx target revises
    obtain ⟨rfl, rfl⟩ := resolves.unique revises.resolves
    exact closed ⟨idx, target, revises⟩
  refine ends_read_bind ?_
  dsimp only [id]
  cases own : world.ownFrame session.sessionId with
  | some frame =>
      refine ends_refusal (errorResponse_isError _ _ _) (refused ?_)
      rintro ⟨idx, target, revises⟩
      have root : world.ownFrame session.sessionId = none := revises.root
      simp [own] at root
  | none =>
  have root : world.ledger.frame session.sessionId = none := own
  dsimp only
  cases at_ : findStep wf (.str stepId) with
  | none =>
      refine ends_refusal (errorResponse_isError _ _ _) (refused ?_)
      rintro ⟨idx, target, revises⟩
      exact absurd revises.found (by simp [at_])
  | some entry =>
  obtain ⟨idx, target⟩ := entry
  dsimp only
  split
  · rename_i unentered
    refine ends_refusal (errorResponse_isError _ _ _) (refused ?_)
    rintro ⟨idx', target', revises⟩
    have same := revises.found.symm.trans at_
    simp only [Option.some.injEq, Prod.mk.injEq] at same
    obtain ⟨rfl, rfl⟩ := same
    simp only [Bool.and_eq_true, Bool.not_eq_eq_eq_not, Bool.not_true,
      Bool.and_eq_false_imp] at unentered
    rcases revises.allowed with entered | ⟨call, framed⟩
    · simp [entered] at unentered
    · simp [unentered.2 call] at framed
  · rename_i entered
    have revises : Revises env deployment world sessionId stepId session wf idx target := by
      refine ⟨checkStrs_none passed "session_id" (by simp),
        checkStrs_none passed "step_id" (by simp), resolves, root, at_, ?_⟩
      simp only [Bool.and_eq_true, Bool.not_eq_eq_eq_not, Bool.not_true, Bool.and_eq_false_imp,
        not_and, not_forall, Bool.not_eq_false] at entered
      by_cases has : session.stepData.contains stepId = true
      · exact .inl has
      · obtain ⟨call, framed⟩ := entered (by simpa using has)
        exact .inr ⟨call, framed⟩
    refine ends_bind ?_
    refine wp_applyRevision sound row root ?_
    intro retained new after moved becomes
    have revised : ∃ ledger,
      Revision env deployment world sessionId stepId (presents wf target) ledger ∧
        Reaches world ledger after := ⟨_, .revised revises moved, becomes.toReaches⟩
    rw [presents] at revised
    refine ends_bind ?_
    rw [wp_ofExcept]
    cases ref : stepRef target false with
    | error raised =>
        rw [ref] at revised
        exact revised
    | ok shown =>
    refine ends_bind ?_
    rw [wp_ofExcept]
    cases prompted : promptFields wf target with
    | error raised =>
        rw [ref, prompted] at revised
        exact revised
    | ok prompt =>
        rw [ref, prompted] at revised
        refine ends_answer (Val.isError_obj ?_) revised
        have foreign := (promptFields_keyed prompted).field?_none (show "status" ∉ _ by simp)
        simp only [List.cons_append, List.nil_append, field?_cons, field?_append, foreign]
        cases retained <;> simp [field?]

theorem settles_reviseStep (sound : world.Sound env) (sessionId stepId : String) :
    Settles .diverges (fun after => ∃ ledger,
        ReviseEffect env deployment world sessionId stepId ledger ∧ Reaches world ledger after)
    (reviseStep env deployment sessionId stepId) world := by
  refine Wp.mono (ends_reviseStep sound sessionId stepId) ?_
  rintro outcome after ⟨ledger, revision, reaches⟩ -
  exact ⟨ledger, revision.effect, reaches⟩

theorem Creates.grown {outer row visited : Session} {workflowType fingerprint : String}
    {childWf : Workflow} {frameType : FrameType} {stamp : Option String} {now : Timestamp}
    {created : World}
    (rowEq : row = newSession (env.token world.minted) workflowType childWf.first.id (some outer.sessionId)
      fingerprint now)
    (creates : Creates env world row (some ((world.ledger.without (world.evicted env)).childFrame row.sessionId
      outer.sessionId frameType stamp now)) created)
    (apart : outer.sessionId ≠ env.token world.minted) (visits : row.Counted visited) :
    Grown env world outer workflowType childWf fingerprint frameType
      (created.ledger.setRow row.sessionId visited) := by
  have rowId : row.sessionId = env.token world.minted := creates.sessionId_eq
  have unused := creates.unused
  have ledgerEq := creates.ledger_eq
  rw [rowId] at unused
  simp only [Ledger.insert, rowId] at ledgerEq
  refine ⟨unused, ⟨now, visited, ?_, rowEq ▸ visits⟩, ⟨now, stamp, ?_⟩, ?_, ?_, ?_⟩
  · simp [rowId]
  · simp [ledgerEq, World.evicted]
  · intro sid differs
    simp [ledgerEq, differs, World.evicted]
  · intro row' found
    refine ⟨row', ?_, Session.Counted.refl row'⟩
    rw [← found]
    simp only [Ledger.setRow_row, rowId, if_neg apart, ledgerEq, Ledger.setFrame_row]
    rfl
  · intro sid differs _
    simp only [Ledger.setRow_row, rowId, if_neg differs, ledgerEq, Ledger.setFrame_row]
    rfl

theorem Grown.linked {outer row linked : Session} {workflowType fingerprint stepId : String}
    {childWf : Workflow} {frameType : FrameType} {frame : Frame} {ledger : Ledger}
    (grown : Grown env world outer workflowType childWf fingerprint frameType ledger)
    (apart : outer.sessionId ≠ env.token world.minted)
    (framed : ledger.frame (env.token world.minted) = some frame)
    (found : ledger.row outer.sessionId = some row) (counts : row.Counted linked) :
    Spawned env world outer workflowType childWf fingerprint frameType stepId
      ((ledger.setRow outer.sessionId linked).setFrame (env.token world.minted)
        { frame with callStepId := some stepId }) := by
  obtain ⟨now, child, childRow, childCounts⟩ := grown.child
  obtain ⟨stampTime, stamp, frameEq⟩ := grown.frame
  rw [framed, Option.some.injEq] at frameEq
  refine ⟨⟨grown.unused, ⟨now, child, ?_, childCounts⟩, ⟨stampTime, some stepId, ?_⟩, ?_, ?_, ?_⟩,
    .inr ?_⟩
  · simp [apart.symm, childRow]
  · simp only [Ledger.setFrame_frame, if_true, frameEq, Ledger.childFrame]
  · intro sid differs
    rw [Ledger.setFrame_frame, if_neg differs]
    exact grown.otherFrames sid differs
  · intro before kept
    obtain ⟨after, foundAfter, more⟩ := grown.outerRow before kept
    rw [found, Option.some.injEq] at foundAfter
    subst foundAfter
    exact ⟨linked, by simp, more.trans counts⟩
  · intro sid differs other
    by_cases isOuter : sid = outer.sessionId
    · subst isOuter
      have gone := other.resolve_left (by simp)
      have missing := grown.otherRows outer.sessionId differs (.inr gone)
      rw [found, gone] at missing
      simp at missing
    · simp only [Ledger.setFrame_row, Ledger.setRow_row, if_neg isOuter]
      exact grown.otherRows sid differs other
  · intro stampedFrame found
    simp only [Ledger.setFrame_frame, if_true, Option.some.injEq] at found
    subst found
    rfl

theorem spawnGuards_none {session : Session} {stepId done escalated whose : String}
    (passed : spawnGuards env session stepId done escalated whose = none) :
    session.currentStep ≠ complete ∧ session.escalation = none ∧ session.currentStep = stepId := by
  unfold spawnGuards at passed
  dsimp only at passed
  split at passed
  · simp at passed
  rename_i unfinished
  split at passed
  · simp at passed
  rename_i unescalated
  split at passed
  · simp at passed
  · rename_i inOrder
    exact ⟨unfinished, unescalated, by simpa using inOrder⟩

theorem spawnGuards_isError {session : Session} {stepId done escalated whose : String} {err : Val}
    (refused : spawnGuards env session stepId done escalated whose = some err) :
    err.isError = true := by
  unfold spawnGuards at refused
  dsimp only at refused
  split at refused
  · rw [← Option.some.inj refused]
    exact errorResponse_isError _ _ _
  split at refused
  · rw [← Option.some.inj refused]
    exact errorResponse_isError _ _ _
  split at refused
  · rw [← Option.some.inj refused]
    exact errorResponse_isError _ _ _
  · simp at refused

theorem childContext_isError {parent : Session} {callStep : Step} {err : Val}
    (refused : childContext env parent callStep = .ok (.error err)) : err.isError = true := by
  unfold childContext at refused
  split at refused
  · dsimp only at refused
    split at refused
    · simp at refused
    · simp at refused
    · rw [← Except.error.inj (Except.ok.inj refused)]
      exact errorResponse_isError _ _ _
    · rw [← Except.error.inj (Except.ok.inj refused)]
      exact errorResponse_isError _ _ _
    · simp at refused
  · simp at refused

theorem World.Sound.outer_ne_token (sound : world.Sound env) {outer : Session} {wf : Workflow}
    (resolves : Resolves deployment world.ledger sid outer wf) :
    outer.sessionId ≠ env.token world.minted := by
  intro same
  rw [resolves.sessionId_eq] at same
  subst same
  exact Issued.not_next (sound.rowIssued resolves.row)

/-- `pop_flow` has what its response needs: the step that the session below stands at, with
guidance. -/
def resumes (env : Env) (wf : Workflow) (session : Session) : Bool :=
  if session.currentStep = complete then true
  else
    match findStep wf (.str session.currentStep) with
    | none => true
    | some (_, step) => (stepRef step true).isOk && (guidanceFields env wf step session.stepData).isOk

/-- How a spawn or a pop ends: whether it says that it succeeded, and what it leaves. -/
inductive Reshaped (env : Env) (deployment : Deployment) (world : World) : Call → Bool → World →
    Prop
  | unmoved {call : Call} {after : World} (same : after.ledger = world.ledger)
      (grown : world.minted ≤ after.minted) : Reshaped env deployment world call false after
  | marked {call : Call} {sid : SessionId} {session new : Session} {after : World}
      (stale : GoesStale deployment world.ledger sid session) (marks : session.Marked new)
      (resolving : call.Resolving env world.ledger sid)
      (reaches : Reaches world (world.ledger.setRow sid new) after) :
      Reshaped env deployment world call false after
  | entered {parentSessionId callStepId workflowType : String} {parent : Session}
      {parentWf childWf : Workflow} {after : World}
      (spawns : Spawns env deployment world parentSessionId callStepId parent parentWf workflowType childWf)
      (calls : CallsInto env parent parentWf callStepId workflowType)
      (spawned : Spawned env world parent workflowType childWf (fingerprintFor env deployment workflowType) .call
        callStepId after.ledger) (minted : after.minted = world.minted + 1) :
      Reshaped env deployment world (.enterSubWorkflow parentSessionId callStepId)
        (decide (parent.sessionId ∉ world.evicted env) && presents childWf childWf.first) after
  | pushed {sessionId workflowType pausedAtStep context : String} {outer : Session}
      {outerWf childWf : Workflow} {after : World}
      (spawns : Spawns env deployment world sessionId pausedAtStep outer outerWf workflowType childWf)
      (named : workflowType ≠ "")
      (shallow : world.stackDepth (world.standing outer.sessionId).1 < maxStackDepth)
      (room : world.countActive < activeCap)
      (spawned : Spawned env world outer workflowType childWf (fingerprintFor env deployment workflowType) .digression
        pausedAtStep after.ledger) (minted : after.minted = world.minted + 1) :
      Reshaped env deployment world (.pushFlow sessionId workflowType pausedAtStep context)
        (presents childWf childWf.first) after
  | popped {sessionId : String} {session outerSession : Session} {frame : Frame} {outer : SessionId}
      {outerWf : Workflow} {after : World}
      (pops : Pops env deployment world sessionId session frame outer)
      (below : Resolves deployment world.ledger outer outerSession outerWf)
      (reaches : Reaches world (world.ledger.drop session.sessionId) after) :
      Reshaped env deployment world (.popFlow sessionId) (resumes env outerWf outerSession) after

theorem Reshaped.affects {call : Call} {success : Bool} {after : World}
    (reshaped : Reshaped env deployment world call success after) :
    Affects env deployment world call after := by
  cases reshaped with
  | unmoved same grown =>
      rw [Affects, same]
      exact .idle grown
  | marked stale marks resolving reaches =>
    exact .of_reaches (.marked stale marks resolving) reaches
  | entered spawns calls spawned minted =>
      rw [Affects, minted]
      exact .entered spawns calls spawned
  | pushed spawns named shallow room spawned minted =>
      rw [Affects, minted]
      exact .pushed spawns named shallow room spawned
  | popped pops below reaches => exact .of_reaches (.popped pops) reaches

theorem Reshaped.idle {call : Call} : Reshaped env deployment world call false world :=
  .unmoved rfl (Nat.le_refl _)

theorem ends_reshaping_settles {call : Call} {body : Server Val}
    (ends : Ends (Reshaped env deployment world call) body world) :
    Settles .diverges (Affects env deployment world call) body world := by
  refine Wp.mono ends ?_
  exact fun outcome after reshaped _ => reshaped.affects

theorem ends_spawnedResponse {post : Bool → World → Prop} {childSid : SessionId} {target : Val}
    {childWf : Workflow} {context : String} {extra : List (String × Val)}
    (unmarked : field? extra "status" = none)
    (holds : post (presents childWf childWf.first) world) :
    Ends post (ofExcept (spawnedResponse childSid target childWf context extra)) world := by
  rw [Ends, wp_ofExcept]
  rw [presents] at holds
  unfold spawnedResponse
  cases ref : stepRef childWf.first false with
  | error raised =>
      rw [ref] at holds
      exact holds
  | ok current =>
  cases prompted : promptFields childWf childWf.first with
  | error raised =>
      rw [ref, prompted] at holds
      exact holds
  | ok prompt =>
      rw [ref, prompted] at holds
      refine ends_answer (Val.isError_obj ?_) holds
      have prompts := (promptFields_keyed prompted).field?_none (show "status" ∉ _ by simp)
      have flags := (flaggedFields_keyed childWf.first ["directives"]).field?_none (show "status" ∉ _ by simp)
      simp [field?_cons, field?_append, prompts, flags, unmarked]

theorem ends_enterSubWorkflow (sound : world.Sound env) (parentSessionId callStepId : String) :
    Ends (Reshaped env deployment world (.enterSubWorkflow parentSessionId callStepId))
    (enterSubWorkflow env deployment parentSessionId callStepId) world := by
  unfold enterSubWorkflow
  refine ends_trapErrors ?_
  refine ends_withSession (fun _ => .idle) ?_ ?_
  · intro session new after stale marks becomes
    exact .marked stale marks (.own rfl) becomes.toReaches
  intro parent parentWf checked resolves
  have apart := sound.outer_ne_token resolves
  split
  · rename_i err refused
    exact ends_refusal (spawnGuards_isError refused) .idle
  rename_i passed
  obtain ⟨unfinished, unescalated, inOrder⟩ := spawnGuards_none passed
  dsimp only
  cases target : (findStep parentWf (.str callStepId)).bind fun entry =>
      (entry.2.get? "call").map fun target => (entry.2, target) with
  | none => exact ends_refusal (errorResponse_isError _ _ _) .idle
  | some entry =>
  obtain ⟨callStep, targetVal⟩ := entry
  dsimp only
  refine ends_read_bind ?_
  dsimp only [id]
  cases bare : world.topFrameFor parent.sessionId with
  | some pending => exact ends_refusal (errorResponse_isError _ _ _) .idle
  | none =>
  dsimp only
  cases targetVal with
  | str name =>
      dsimp only
      cases loaded : deployment.workflows.get? name with
      | none => exact ends_refusal (errorResponse_isError _ _ _) .idle
      | some childWf =>
      simp only [Option.map_some]
      refine ends_bind ?_
      rw [wp_ofExcept]
      cases given : childContext env parent callStep with
      | error raised => exact .idle
      | ok context =>
      cases context with
      | error err => exact ends_refusal (childContext_isError given) .idle
      | ok context =>
      dsimp only
      have calls : CallsInto env parent parentWf callStepId name := by
        obtain ⟨⟨idx, step⟩, at_, called⟩ := Option.bind_eq_some_iff.mp target
        obtain ⟨called_, eq, pair⟩ := Option.map_eq_some_iff.mp called
        simp only [Prod.mk.injEq] at pair
        exact ⟨idx, step, context, at_, by rw [eq, pair.2], by rw [pair.1]; exact given⟩
      have spawns : Spawns env deployment world parentSessionId callStepId parent parentWf name childWf :=
        ⟨checkStrs_none checked "parent_session_id" (by simp),
          checkStrs_none checked "call_step_id" (by simp), resolves, unfinished, unescalated, inOrder, bare, loaded⟩
      refine ends_bind ?_
      refine wp_createSession ?_ ?_
      case refine_2 =>
        intro raised after _ ledgerEq mintedEq
        exact .unmoved ledgerEq (by omega)
      intro now created row rowEq creates
      have rowId : row.sessionId = env.token world.minted := creates.sessionId_eq
      have foundRow : created.ledger.row row.sessionId = some row := by
        rw [creates.ledger_eq]
        simp [Ledger.insert]
      dsimp only
      refine ends_bind ?_
      refine wp_incrementVisit foundRow ?_ fun raised broken => by simp [jsonKey] at broken
      intro visited counted _ visits becomes
      have grown := creates.grown rowEq apart visits
      rw [← becomes.ledger_eq] at grown
      have framed : ∃ frame, counted.ledger.frame (env.token world.minted) = some frame := by
        obtain ⟨_, _, frameEq⟩ := grown.frame
        exact ⟨_, frameEq⟩
      obtain ⟨frame, framed⟩ := framed
      have minted : counted.minted = world.minted + 1 := becomes.minted_eq.trans creates.minted_eq
      have row : world.ledger.row parent.sessionId = some parent := by
        rw [resolves.sessionId_eq]; exact resolves.row
      dsimp only
      refine ends_bind ?_
      rw [rowId]
      refine wp_setCalledSession_link framed ?_ ?_
      · intro before linked after found counts links
        have kept : parent.sessionId ∉ world.evicted env := by
          intro chosen
          have gone : (world.ledger.without (world.evicted env)).row parent.sessionId = none :=
            if_pos chosen
          rw [grown.otherRows _ apart (.inr gone), gone] at found
          simp at found
        have entered : Reshaped env deployment world (.enterSubWorkflow parentSessionId callStepId)
            (decide (parent.sessionId ∉ world.evicted env) && presents childWf childWf.first) after := by
          refine .entered spawns calls ?_ (links.minted_eq.trans minted)
          rw [links.ledger_eq]
          exact grown.linked apart framed found counts
        rw [decide_eq_true kept, Bool.true_and] at entered
        exact ends_spawnedResponse (by simp [field?_cons]; rfl) entered
      · intro after gone unlinked
        have chosen : parent.sessionId ∈ world.evicted env := by
          by_contra kept
          obtain ⟨linked, foundLinked, -⟩ := grown.outerRow parent (by simp [kept, row])
          simp [gone] at foundLinked
        have entered : Reshaped env deployment world (.enterSubWorkflow parentSessionId callStepId)
            (decide (parent.sessionId ∉ world.evicted env) && presents childWf childWf.first) after := by
          refine .entered spawns calls ?_ (unlinked.minted_eq.trans minted)
          rw [unlinked.ledger_eq]
          exact ⟨grown, .inl chosen⟩
        rw [decide_eq_false (not_not.mpr chosen), Bool.false_and] at entered
        exact entered
  | _ => exact ends_refusal (errorResponse_isError _ _ _) .idle

theorem settles_enterSubWorkflow (sound : world.Sound env) (parentSessionId callStepId : String) :
    Settles .diverges (Affects env deployment world (.enterSubWorkflow parentSessionId callStepId))
    (enterSubWorkflow env deployment parentSessionId callStepId) world :=
  ends_reshaping_settles (ends_enterSubWorkflow sound parentSessionId callStepId)

theorem ends_pushFlow (sound : world.Sound env)
    (sessionId workflowType pausedAtStep context : String) :
    Ends (Reshaped env deployment world (.pushFlow sessionId workflowType pausedAtStep context))
    (pushFlow env deployment sessionId workflowType pausedAtStep context) world := by
  unfold pushFlow
  refine ends_trapErrors ?_
  refine ends_withSession (fun _ => .idle) ?_ ?_
  · intro session new after stale marks becomes
    exact .marked stale marks (.own rfl) becomes.toReaches
  intro outer outerWf checked resolves
  have apart := sound.outer_ne_token resolves
  split
  · rename_i err refused
    exact ends_refusal (spawnGuards_isError refused) .idle
  rename_i passed
  obtain ⟨unfinished, unescalated, inOrder⟩ := spawnGuards_none passed
  dsimp only
  refine ends_read_bind ?_
  dsimp only [id]
  cases bare : world.topFrameFor outer.sessionId with
  | some top => exact ends_refusal (errorResponse_isError _ _ _) .idle
  | none =>
  dsimp only
  cases loaded : deployment.workflows.get? workflowType with
  | none => exact ends_refusal (errorResponse_isError _ _ _) .idle
  | some childWf =>
  dsimp only
  by_cases deep : maxStackDepth ≤ world.stackDepth (world.standing outer.sessionId).1
  · rw [if_pos deep]
    exact ends_refusal (errorResponse_isError _ _ _) .idle
  rw [if_neg deep]
  by_cases full : activeCap ≤ world.countActive
  · rw [if_pos full]
    exact ends_refusal (errorResponse_isError _ _ _) .idle
  rw [if_neg full]
  refine ends_bind ?_
  rw [wp_rescue, wp_bind]
  refine wp_createSession ?_ ?_
  case refine_2 =>
    intro raised after _ ledgerEq mintedEq
    have lost : Reshaped env deployment world (.pushFlow sessionId workflowType pausedAtStep context) false after :=
      .unmoved ledgerEq (by omega)
    cases raised with
    | stackFull root depth limit => exact ends_refusal (errorResponse_isError _ _ _) lost
    | _ => exact lost
  intro now created row rowEq creates
  have rowId : row.sessionId = env.token world.minted := creates.sessionId_eq
  have foundRow : created.ledger.row row.sessionId = some row := by
    rw [creates.ledger_eq]
    simp [Ledger.insert]
  have spawns : Spawns env deployment world sessionId pausedAtStep outer outerWf workflowType childWf :=
    ⟨checkStrs_none checked "session_id" (by simp),
      checkStrs_none checked "paused_at_step" (by simp), resolves, unfinished, unescalated, inOrder, bare, loaded⟩
  simp only [wp_pure]
  refine ends_bind ?_
  refine wp_incrementVisit foundRow ?_ fun raised broken => by simp [jsonKey] at broken
  intro visited counted _ visits becomes
  have grown := creates.grown rowEq apart visits
  have stamped : ∀ frame,
    (created.ledger.setRow row.sessionId visited).frame (env.token world.minted) = some frame →
      frame.callStepId = some pausedAtStep := by
    intro frame found
    rw [Ledger.setRow_frame, creates.ledger_eq, ← rowId] at found
    simp only [Ledger.insert, Option.map_some, Ledger.setFrame_frame, if_true,
      Option.some.injEq] at found
    subst found
    rfl
  rw [← becomes.ledger_eq] at grown stamped
  refine ends_read_bind (ends_spawnedResponse (by simp [field?_cons]; rfl) ?_)
  exact .pushed spawns (checkStrs_none checked "workflow_type" (by simp)) (by omega) (by omega)
    ⟨grown, .inr stamped⟩ (becomes.minted_eq.trans creates.minted_eq)

theorem settles_pushFlow (sound : world.Sound env)
    (sessionId workflowType pausedAtStep context : String) :
    Settles .diverges (Affects env deployment world (.pushFlow sessionId workflowType pausedAtStep context))
    (pushFlow env deployment sessionId workflowType pausedAtStep context) world :=
  ends_reshaping_settles (ends_pushFlow sound sessionId workflowType pausedAtStep context)

theorem ends_popFlow (sessionId : String) :
    Ends (Reshaped env deployment world (.popFlow sessionId))
    (popFlow env deployment sessionId) world := by
  unfold popFlow
  refine ends_trapErrors ?_
  refine ends_withSession (fun _ => .idle) ?_ ?_
  · intro session new after stale marks becomes
    exact .marked stale marks (.own rfl) becomes.toReaches
  intro session wf _ resolves
  dsimp only
  cases unescalated : session.escalation with
  | some escalation => exact ends_refusal (errorResponse_isError _ _ _) .idle
  | none =>
  dsimp only
  refine ends_read_bind ?_
  cases own : world.ownFrame session.sessionId with
  | none => exact ends_refusal (errorResponse_isError _ _ _) .idle
  | some frame =>
  dsimp only
  cases kind : frame.frameType with
  | call => exact ends_refusal (errorResponse_isError _ _ _) .idle
  | digression =>
  dsimp only
  have row : world.ledger.row session.sessionId = some session := by
    rw [resolves.sessionId_eq]; exact resolves.row
  unfold resumeParentAfterDigression
  refine ends_read_bind ?_
  cases owner : world.parentOf session.sessionId with
  | none => exact Reshaped.idle
  | some outer =>
  dsimp only
  refine ends_resolveSession ?_ ?_ ?_
  case refine_2 => exact fun err failed _ _ => ends_refusal failed .idle
  case refine_3 =>
    intro err outerSession new after failed stale marks becomes
    have resolving : (Call.popFlow sessionId).Resolving env world.ledger outer := by
      refine ⟨sessionId, rfl, .inr ?_⟩
      rw [← resolves.sessionId_eq]
      exact World.parentOf_some owner
    exact ends_refusal failed (.marked stale marks resolving becomes.toReaches)
  intro outerSession outerWf below
  dsimp only
  refine ends_bind ?_
  refine wp_deleteSessionRow ?_ ?_
  case refine_2 =>
    intro gone
    exact absurd row (by simp [gone])
  intro _ after _ becomes
  have popped : Reshaped env deployment world (.popFlow sessionId)
    (resumes env outerWf outerSession) after :=
    .popped ⟨⟨wf, resolves⟩, unescalated, own, kind, owner,
      ⟨outerSession, outerWf, below⟩⟩ below becomes.toReaches
  have finished : Val.isError (.obj ([("session_id", Val.str outer.text),
      ("resumed_from_digression", .bool true), ("child_session_id", .str session.sessionId.text)] ++
      workflowCompleteFields "Outer workflow already complete; digression returned.")) = false := by
    simp [Val.isError, Val.get?_obj, field?_cons, workflowCompleteFields]
  unfold resumes at popped
  dsimp only
  by_cases done : outerSession.currentStep = complete
  · rw [if_pos done] at popped
    rw [if_pos done]
    exact ends_answer finished popped
  rw [if_neg done] at popped
  rw [if_neg done]
  cases at_ : findStep outerWf (.str outerSession.currentStep) with
  | none =>
      rw [at_] at popped
      exact ends_answer finished popped
  | some entry =>
  obtain ⟨idx, step⟩ := entry
  rw [at_] at popped
  dsimp only at popped
  refine ends_bind ?_
  rw [wp_ofExcept]
  cases ref : stepRef step true with
  | error raised =>
      rw [ref] at popped
      exact popped
  | ok current =>
  refine ends_bind ?_
  rw [wp_ofExcept]
  cases guided : guidanceFields env outerWf step outerSession.stepData with
  | error raised =>
      rw [ref, guided] at popped
      exact popped
  | ok guidance =>
      rw [ref, guided] at popped
      refine ends_answer (Val.isError_obj ?_) popped
      have foreign := (guidanceFields_keyed guided).field?_none (show "status" ∉ _ by simp)
      simp [field?_cons, foreign]

theorem settles_popFlow (sessionId : String) :
    Settles .diverges (Affects env deployment world (.popFlow sessionId))
    (popFlow env deployment sessionId) world :=
  ends_reshaping_settles (ends_popFlow sessionId)

end Megalos
