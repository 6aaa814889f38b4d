import Megalos.Run

/-!
What a call does to one row.  A row that is there after a call was there before and
changed in one of a few ways, or the call created it.
-/

namespace Megalos

open ChainForest KeyedTable

inductive RowChange (env : Env) (deployment : Deployment) (world : World) (after : Ledger) :
    Call → Session → Session → Prop
  | counted {call : Call} {row new : Session} (counts : row.Counted new) :
      RowChange env deployment world after call row new
  | marked {call : Call} {row new : Session}
      (stale : GoesStale deployment world.ledger row.sessionId row)
      (marks : row.Marked new) : RowChange env deployment world after call row new
  | submitted {sessionId stepId content branch artifactId : String} {row new : Session}
      {wf : Workflow}
      {idx : Nat} {step : Step}
      (submits : Submits env deployment world sessionId stepId content row wf idx step)
      (changes : (verdictOf env deployment.registry world.outbound.length row wf idx step content branch
        artifactId).Changes env (row.stepData.set step.id content) row new) :
      RowChange env deployment world after (.submitStep sessionId stepId content branch artifactId) row new
  | revised {sessionId stepId : String} {row new : Session} {wf : Workflow} {idx : Nat}
      {target : Step}
      (revises : Revises env deployment world sessionId stepId row wf idx target)
      (moved : row.Moved new target.id (revisedData wf idx target row.stepData))
      (dropped : ∀ child, revisedChild world row.sessionId target = some child →
        after.frame child.sessionId = none) :
      RowChange env deployment world after (.reviseStep sessionId stepId) row new
  | escalated {sessionId stepId content branch artifactId : String} {child row new : Session}
      {wf : Workflow}
      {idx : Nat} {step : Step} {frame : Frame}
      (submits : Submits env deployment world sessionId stepId content child wf idx step)
      (framed : world.ledger.frame child.sessionId = some frame)
      (owner : world.ledger.Parent child.sessionId row.sessionId)
      (cause : (verdictOf env deployment.registry world.outbound.length child wf idx step content branch
        artifactId).fails env = true ∨ frame.frameType = .call)
      (escalates : row.Escalated new row.stepData) :
      RowChange env deployment world after (.submitStep sessionId stepId content branch artifactId) row new
  | delivered {sessionId stepId content branch artifactId : String} {child row new : Session}
      {childWf wf : Workflow} {childIdx idx calls : Nat} {childStep step : Step} {frame : Frame}
      {pointer : Val} {data : StepData}
      (submits : Submits env deployment world sessionId stepId content child childWf childIdx childStep)
      (reached : verdictOf env deployment.registry world.outbound.length child childWf childIdx childStep
        content branch artifactId = .advanced (.arrived pointer data calls))
      (atEnd : pointer.isStr complete = true)
      (framed : world.ledger.frame child.sessionId = some frame) (calls_ : frame.frameType = .call)
      (owner : world.ledger.Parent child.sessionId row.sessionId)
      (resolves : Resolves deployment world.ledger row.sessionId row wf)
      (at_ : findStep wf (.str row.currentStep) = some (idx, step)) (call : step.isCall = true)
      (valid : validateOutput env (data.getD childWf.last.id "") step = .ok none)
      (applies : Applies env (parentAdvance env deployment.registry wf idx step
        (row.stepData.set row.currentStep (data.getD childWf.last.id "")) calls) row new)
      (gone : after.frame child.sessionId = none) :
      RowChange env deployment world after (.submitStep sessionId stepId content branch artifactId) row new

inductive RowBirth (env : Env) (deployment : Deployment) (world : World) : Call → Session → Prop
  | started {workflowType context : String} {wf : Workflow} {now : Timestamp} {new : Session}
      (loaded : deployment.workflows.get? workflowType = some wf)
      (opened : Opened env deployment.registry wf world.outbound.length
        (newSession (env.token world.minted) workflowType wf.first.id none
          (fingerprintFor env deployment workflowType) now) new) :
      RowBirth env deployment world (.startWorkflow workflowType context) new
  | spawned {call : Call} {outer : SessionId} {workflowType : String} {wf : Workflow}
      {now : Timestamp} {new : Session} (above : SpawnsAbove env deployment world call outer)
      (loaded : deployment.workflows.get? workflowType = some wf)
      (counts : (newSession (env.token world.minted) workflowType wf.first.id (some outer)
        (fingerprintFor env deployment workflowType) now).Counted new) :
      RowBirth env deployment world call new

/-- How a call creates a frame: above a session, and stamped with its step unless that session is
evicted. -/
inductive FrameBirth (env : Env) (deployment : Deployment) (world : World) (after : Ledger) :
    Call → Frame → Prop
  | spawned {call : Call} {outer : Session} {frame : Frame}
      (above : SpawnsAbove env deployment world call outer.sessionId)
      (found : world.ledger.row outer.sessionId = some outer)
      (placed : after.Above outer.sessionId frame)
      (stamped : (after.row outer.sessionId).isSome → frame.callStepId = some outer.currentStep)
      (others : ∀ sid, sid ≠ env.token world.minted →
        after.frame sid = (world.ledger.without (world.evicted env)).frame sid) :
      FrameBirth env deployment world after call frame

variable {env : Env} {deployment : Deployment} {world : World} {call : Call} {sid : SessionId}
  {session row new : Session} {ledger after : Ledger}

def RowEffect (env : Env) (deployment : Deployment) (world : World) (after : Ledger) (call : Call)
    (sid : SessionId) (new : Session) : Prop :=
  (∃ row, world.ledger.row sid = some row ∧ RowChange env deployment world after call row new) ∨
    sid = env.token world.minted ∧ RowBirth env deployment world call new

theorem RowEffect.same (found : world.ledger.row sid = some new) :
    RowEffect env deployment world after call sid new :=
  .inl ⟨new, found, .counted (Session.Counted.refl new)⟩

theorem RowEffect.of_setRow {base : Ledger} {target : SessionId} {written : Session}
    (kept : ∀ {other row}, base.row other = some row → world.ledger.row other = some row)
    (onTarget : RowEffect env deployment world after call target written)
    (found : (base.setRow target written).row sid = some new) :
    RowEffect env deployment world after call sid new := by
  rw [Ledger.setRow_row] at found
  split at found
  · rename_i isTarget
    rw [Option.some.injEq] at found
    rw [isTarget, ← found]
    exact onTarget
  · exact .same (kept found)

theorem Resolves.of_setRow {target : SessionId} {written : Session} {wf : Workflow}
    (differs : sid ≠ target)
    (resolves : Resolves deployment (ledger.setRow target written) sid row wf) :
    Resolves deployment ledger sid row wf := by
  obtain ⟨found, caller, unmarked, loaded, unchanged⟩ := resolves
  rw [Ledger.setRow_row, if_neg differs] at found
  exact ⟨found, caller, unmarked, loaded, unchanged⟩

theorem GoesStale.of_setRow {target : SessionId} {written : Session} (differs : sid ≠ target)
    (stale : GoesStale deployment (ledger.setRow target written) sid row) :
    GoesStale deployment ledger sid row := by
  obtain ⟨found, caller, unmarked, loaded, changed⟩ := stale
  rw [Ledger.setRow_row, if_neg differs] at found
  exact ⟨found, caller, unmarked, loaded, changed⟩

/-! The one submission that the guards let through. -/

theorem Submits.unique {sessionId stepId content : String} {session other : Session}
    {wf otherWf : Workflow} {idx otherIdx : Nat} {step otherStep : Step}
    (submits : Submits env deployment world sessionId stepId content session wf idx step)
    (again : Submits env deployment world sessionId stepId content other otherWf otherIdx otherStep) :
    session = other ∧ wf = otherWf ∧ idx = otherIdx ∧ step = otherStep := by
  obtain ⟨rfl, rfl⟩ := submits.resolves.unique again.resolves
  have sameStep := submits.accepts.found.symm.trans again.accepts.found
  simp only [Option.some.injEq, Prod.mk.injEq] at sameStep
  exact ⟨rfl, rfl, sameStep⟩

theorem Submits.carriedOut {sessionId stepId content branch artifactId : String} {session : Session}
    {wf : Workflow} {idx : Nat} {step : Step} {final : World}
    (submits : Submits env deployment world sessionId stepId content session wf idx step)
    (sound : world.Sound env)
    (serves : Serves env world ⟨deployment,
      .submitStep sessionId stepId content branch artifactId⟩ final) :
    Submitted env deployment world session wf idx step content branch artifactId final.ledger := by
  obtain ⟨outcome, ran, finite⟩ := serves
  obtain ⟨ledger, effect, reaches⟩ :=
    (settles_submitStep sound sessionId stepId content branch artifactId).elim ran finite
  rw [reaches.ledger_eq]
  cases effect with
  | refused closed => exact absurd submits (closed _ _ _ _)
  | marked stale => exact absurd stale submits.resolves.not_stale
  | submitted again submitted =>
      obtain ⟨rfl, rfl, rfl, rfl⟩ := submits.unique again
      exact submitted

theorem Resolves.setRow {target : SessionId} {written : Session} {wf : Workflow}
    (differs : sid ≠ target) (resolves : Resolves deployment ledger sid row wf) :
    Resolves deployment (ledger.setRow target written) sid row wf := by
  refine ⟨?_, resolves.caller, resolves.unmarked, resolves.loaded, resolves.unchanged⟩
  rw [Ledger.setRow_row, if_neg differs]
  exact resolves.row

theorem GoesStale.change {new : Session} (stale : GoesStale deployment world.ledger sid row)
    (marks : row.Marked new) : RowChange env deployment world after call row new := by
  have sameId : row.sessionId = sid := World.row_sessionId stale.row
  rw [← sameId] at stale
  exact .marked stale marks

theorem Submitted.rowEffect {sessionId stepId content branch artifactId : String} {wf : Workflow}
    {idx : Nat} {step : Step} (sound : world.Sound env)
    (submits : Submits env deployment world sessionId stepId content session wf idx step)
    (submitted : Submitted env deployment world session wf idx step content branch artifactId ledger)
    (found : ledger.row sid = some new) :
    RowEffect env deployment world ledger (.submitStep sessionId stepId content branch artifactId) sid new := by
  have row : world.ledger.row session.sessionId = some session := by
    rw [submits.resolves.sessionId_eq]
    exact submits.resolves.row
  have own : ∀ {written : Session},
      (verdictOf env deployment.registry world.outbound.length session wf idx step content branch
        artifactId).Changes env (session.stepData.set step.id content) session written →
      RowEffect env deployment world ledger (.submitStep sessionId stepId content branch artifactId)
        session.sessionId written :=
    fun changes => .inl ⟨session, row, .submitted submits changes⟩
  -- the parent's row is written over a ledger in which the child's row is already new
  have parentWritten : ∀ {base : Ledger} {parent : SessionId} {written last : Session},
      (∀ {other row}, base.row other = some row →
        (world.ledger.setRow session.sessionId written).row other = some row) →
      RowEffect env deployment world ledger (.submitStep sessionId stepId content branch artifactId)
        session.sessionId written →
      RowEffect env deployment world ledger (.submitStep sessionId stepId content branch artifactId) parent last →
      (base.setRow parent last).row sid = some new →
      RowEffect env deployment world ledger (.submitStep sessionId stepId content branch artifactId) sid new := by
    intro base parent written last kept child onParent there
    rw [Ledger.setRow_row] at there
    split at there
    · rename_i isParent
      rw [Option.some.injEq] at there
      rw [isParent, ← there]
      exact onParent
    · exact RowEffect.of_setRow id child (kept there)
  cases submitted with
  | answered ends =>
      cases ends with
      | settled calm changes unowned => exact RowEffect.of_setRow id (own changes) found
      | failed fails changes wrapped =>
          cases wrapped with
          | root => exact RowEffect.of_setRow id (own changes) found
          | missing => exact RowEffect.of_setRow id (own changes) found
          | @escalated parent old written owner foundParent escalates =>
              rw [Ledger.Parent.of_setRow] at owner
              have apart := sound.apart owner
              rw [Ledger.setRow_row, if_neg apart] at foundParent
              have parentId : old.sessionId = parent := World.row_sessionId foundParent
              obtain ⟨frame, framed, -⟩ := id owner
              refine parentWritten id (own changes) (.inl ⟨old, foundParent, ?_⟩) found
              rw [← parentId] at owner
              exact .escalated submits framed owner (.inl fails) escalates
  | @finished pointer data calls last frame _ reached atEnd moved framed finished =>
      have changes : (verdictOf env deployment.registry world.outbound.length session wf idx step content
          branch artifactId).Changes env (session.stepData.set step.id content) session last := by
        rw [reached]
        simp only [Verdict.Changes, Applies, storedBy, Advance.stored, Advance.resting,
          Option.bind_some, columnText_isStr atEnd]
        exact moved
      have parentRow : ∀ {parent : SessionId} {old : Session},
        world.ledger.Parent session.sessionId parent →
          (world.ledger.setRow session.sessionId last).row parent = some old →
          world.ledger.row parent = some old ∧ old.sessionId = parent := by
        intro parent old owner there
        rw [Ledger.setRow_row, if_neg (sound.apart owner)] at there
        exact ⟨there, World.row_sessionId there⟩
      generalize kind : frame.frameType = frameType at finished
      cases finished with
      | orphan => exact RowEffect.of_setRow id (own changes) found
      | retained => exact RowEffect.of_setRow id (own changes) found
      | unchecked => exact RowEffect.of_setRow id (own changes) found
      | marked owner stale marks =>
          rw [Ledger.Parent.of_setRow] at owner
          have there := (parentRow owner stale.row).1
          have staleBefore := GoesStale.of_setRow (sound.apart owner) stale
          exact parentWritten id (own changes) (.inl ⟨_, there, staleBefore.change marks⟩) found
      | popped owner resolves =>
          rw [Ledger.drop_row] at found
          split at found
          · simp at found
          · exact RowEffect.of_setRow id (own changes) found
      | drifted owner resolves off escalates =>
          rw [Ledger.Parent.of_setRow] at owner
          obtain ⟨there, sameId⟩ := parentRow owner resolves.row
          refine parentWritten id (own changes) (.inl ⟨_, there, ?_⟩) found
          rw [← sameId] at owner
          exact .escalated submits framed owner (.inr kind) escalates
      | rejected owner resolves at_ call invalid escalates =>
          rw [Ledger.Parent.of_setRow] at owner
          obtain ⟨there, sameId⟩ := parentRow owner resolves.row
          refine parentWritten id (own changes) (.inl ⟨_, there, ?_⟩) found
          rw [← sameId] at owner
          exact .escalated submits framed owner (.inr kind) escalates
      | delivered owner resolves at_ call valid applies =>
          rw [Ledger.Parent.of_setRow] at owner
          obtain ⟨there, sameId⟩ := parentRow owner resolves.row
          refine parentWritten ?_ (own changes) (.inl ⟨_, there, ?_⟩) found
          · intro other row kept
            rw [Ledger.dropAbove, Ledger.dropAt_row, Ledger.drop_row] at kept
            split at kept
            · simp at kept
            · exact kept
          · have resolvesBefore := Resolves.of_setRow (sound.apart owner) resolves
            rw [← sameId] at owner resolvesBefore
            refine .delivered submits reached atEnd framed kind owner resolvesBefore at_ call valid applies ?_
            simp [Ledger.dropAbove, Ledger.dropAt]

theorem Revises.rowEffect {sessionId stepId : String} {wf : Workflow} {idx : Nat} {target : Step}
    {written : Session} (revises : Revises env deployment world sessionId stepId session wf idx target)
    (moved : session.Moved written target.id (revisedData wf idx target session.stepData))
    (ledger_eq : ledger = (world.ledger.afterRevision session.sessionId
      (revisedChild world session.sessionId target)).setRow session.sessionId written)
    (found : ledger.row sid = some new) :
    RowEffect env deployment world ledger (.reviseStep sessionId stepId) sid new := by
  have row : world.ledger.row session.sessionId = some session := by
    rw [revises.resolves.sessionId_eq]
    exact revises.resolves.row
  subst ledger_eq
  refine RowEffect.of_setRow ?_ (.inl ⟨session, row, .revised revises moved ?_⟩) found
  · intro other otherRow kept
    cases child : revisedChild world session.sessionId target with
    | none =>
        rw [child] at kept
        exact kept
    | some frame =>
        rw [child, Ledger.afterRevision, Ledger.dropAbove, Ledger.dropAt_row,
          Ledger.drop_row] at kept
        split at kept
        · simp at kept
        · exact kept
  · intro child retained
    simp [retained, Ledger.afterRevision, Ledger.dropAbove, Ledger.dropAt]

theorem Grown.rowEffect {outer : Session} {workflowType : String} {childWf : Workflow}
    {frameType : FrameType}
    (grown : Grown env world outer workflowType childWf (fingerprintFor env deployment workflowType) frameType
      ledger)
    (above : SpawnsAbove env deployment world call outer.sessionId)
    (loaded : deployment.workflows.get? workflowType = some childWf)
    (found : ledger.row sid = some new) :
    RowEffect env deployment world ledger call sid new := by
  have kept : ∀ {other row}, (world.ledger.without (world.evicted env)).row other = some row →
      world.ledger.row other = some row := by
    intro other row there
    rw [Ledger.without_row] at there
    split at there
    · simp at there
    · exact there
  by_cases isFresh : sid = env.token world.minted
  · obtain ⟨now, row, childRow, counts⟩ := grown.child
    rw [isFresh, childRow, Option.some.injEq] at found
    subst found
    exact .inr ⟨isFresh, .spawned above loaded counts⟩
  · by_cases isOuter : sid = outer.sessionId
    · subst isOuter
      cases there : (world.ledger.without (world.evicted env)).row outer.sessionId with
      | none =>
          rw [grown.otherRows _ isFresh (.inr there), there] at found
          simp at found
      | some row =>
          obtain ⟨linked, foundLinked, counts⟩ := grown.outerRow row there
          rw [found, Option.some.injEq] at foundLinked
          subst foundLinked
          exact .inl ⟨row, kept there, .counted counts⟩
    · rw [grown.otherRows sid isFresh (.inl isOuter)] at found
      exact .same (kept found)

/-- Every row after a call was there and changed in one of the ways, or is new. -/
theorem Effect.rowEffect {minted : Nat} (sound : world.Sound env)
    (effect : Effect env deployment world call ledger minted) (found : ledger.row sid = some new) :
    RowEffect env deployment world ledger call sid new := by
  cases effect with
  | idle => exact .same found
  | marked stale marks =>
    exact RowEffect.of_setRow id (.inl ⟨_, stale.row, stale.change marks⟩) found
  | started named loaded room unused opened =>
      rw [Ledger.setRow_row] at found
      split at found
      · rename_i isFresh
        rw [Option.some.injEq] at found
        subst found
        exact .inr ⟨isFresh, .started loaded opened⟩
      · rw [Ledger.without_row] at found
        split at found
        · simp at found
        · exact .same found
  | submitted submits submitted => exact submitted.rowEffect sound submits found
  | revised revises moved => exact revises.rowEffect moved rfl found
  | entered spawns calls spawned =>
    exact spawned.toGrown.rowEffect (.entered spawns calls) spawns.loaded found
  | pushed spawns named shallow room spawned =>
      exact spawned.toGrown.rowEffect (.pushed spawns named shallow room) spawns.loaded found
  | popped pops =>
      rw [Ledger.drop_row] at found
      split at found
      · simp at found
      · exact .same found
  | deleted deletes =>
      rw [Ledger.drop_row] at found
      split at found
      · simp at found
      · exact .same found

theorem World.Sound.unframed (sound : world.Sound env) :
    world.ledger.frame (env.token world.minted) = none := by
  cases framed : world.ledger.frame (env.token world.minted) with
  | none => rfl
  | some frame =>
      obtain ⟨row, house⟩ := Option.isSome_iff_exists.mp (sound.housed framed)
      exact absurd (sound.rowIssued house) Issued.not_next

theorem Spawned.frameBirth {outer : Session} {outerWf childWf : Workflow}
    {sessionId stepId workflowType fingerprint : String} {frameType : FrameType} {frame : Frame}
    (spawned : Spawned env world outer workflowType childWf fingerprint frameType stepId ledger)
    (spawns : Spawns env deployment world sessionId stepId outer outerWf workflowType childWf)
    (above : SpawnsAbove env deployment world call outer.sessionId) (sound : world.Sound env)
    (found : ledger.frame (env.token world.minted) = some frame) :
    FrameBirth env deployment world ledger call frame := by
  have row := spawns.resolves.row
  have apart := sound.outer_ne_token spawns.resolves
  rw [← spawns.resolves.sessionId_eq] at row
  obtain ⟨now, stamp, placed⟩ := spawned.frame
  rw [placed, Option.some.injEq] at found
  have standing : ledger.standing outer.sessionId =
      (world.ledger.without (world.evicted env)).standing outer.sessionId := by
    rw [Ledger.standing, Ledger.standing, spawned.otherFrames _ apart]
  refine .spawned above row ⟨?_, ?_, ?_⟩ ?_ spawned.otherFrames
  · rw [← found]
    exact placed
  · rw [← found, standing]
    rfl
  · rw [← found, standing]
    rfl
  · intro kept
    rw [spawns.inOrder]
    rcases spawned.stamped with chosen | stamped
    · have gone : (world.ledger.without (world.evicted env)).row outer.sessionId = none :=
        if_pos chosen
      rw [spawned.otherRows _ apart (.inr gone), gone] at kept
      simp at kept
    · exact stamped frame (found ▸ placed)

theorem Effect.frameBirth {minted : Nat} {frame : Frame} (sound : world.Sound env)
    (effect : Effect env deployment world call ledger minted)
    (found : ledger.frame (env.token world.minted) = some frame) :
    FrameBirth env deployment world ledger call frame := by
  have childless : (∀ outer, ¬SpawnsAbove env deployment world call outer) → False := by
    intro none
    cases effect.shape sound with
    | shrunk shrinks cause grown => simpa [sound.unframed] using (shrinks.frame_of_after found).2
    | rooted => simpa [sound.unframed] using ((Ledger.Shrinks.without world.ledger _).frame_of_after found).2
    | spawned above => exact none _ above
  cases effect with
  | idle => simp [sound.unframed] at found
  | marked => simp [sound.unframed] at found
  | entered spawns calls spawned =>
    exact spawned.frameBirth spawns (.entered spawns calls) sound found
  | pushed spawns named shallow room spawned =>
      exact spawned.frameBirth spawns (.pushed spawns named shallow room) sound found
  | started => exact (childless fun outer above => by cases above).elim
  | submitted => exact (childless fun outer above => by cases above).elim
  | revised => exact (childless fun outer above => by cases above).elim
  | popped => exact (childless fun outer above => by cases above).elim
  | deleted => exact (childless fun outer above => by cases above).elim

theorem Serves.frameBirth {request : Request} {before after : World} {frame : Frame}
    (sound : before.Sound env) (serves : Serves env before request after)
    (found : after.ledger.frame (env.token before.minted) = some frame) :
    FrameBirth env request.deployment before after.ledger request.call frame :=
  (serves.effect sound).frameBirth sound found

theorem Serves.rowEffect {request : Request} {before after : World} (sound : before.Sound env)
    (serves : Serves env before request after) (found : after.ledger.row sid = some new) :
    RowEffect env request.deployment before after.ledger request.call sid new :=
  (serves.effect sound).rowEffect sound found

theorem Serves.rowChange {request : Request} {before after : World} (sound : before.Sound env)
    (serves : Serves env before request after) (there : before.ledger.row sid = some row)
    (found : after.ledger.row sid = some new) :
    RowChange env request.deployment before after.ledger request.call row new := by
  rcases serves.rowEffect sound found with ⟨old, isOld, change⟩ | ⟨isFresh, -⟩
  · rw [there, Option.some.injEq] at isOld
    rw [isOld]
    exact change
  · rw [isFresh] at there
    exact absurd (sound.rowIssued there) Issued.not_next

/-- An id that was handed out and has no row never gets one again. -/
theorem Run.gone_forever {allowed : World → Request → Prop} {start final : World}
    (run : GuardedRuns.Run (Serves env) allowed start final) (sound : start.Sound env)
    (issued : Issued env start.minted sid) (gone : start.ledger.row sid = none) :
    final.ledger.row sid = none := by
  refine (run.invariant (fun state => state.Sound env ∧ Issued env state.minted sid ∧
    state.ledger.row sid = none) ⟨sound, issued, gone⟩ ?_).2.2
  rintro before request after ⟨sound, issued, gone⟩ - serves
  refine ⟨serves.sound sound, issued.mono (serves.shape sound).minted_le, ?_⟩
  cases found : after.ledger.row sid with
  | none => rfl
  | some new =>
      rcases serves.rowEffect sound found with ⟨old, isOld, -⟩ | ⟨isFresh, -⟩
      · simp [gone] at isOld
      · exact absurd (isFresh ▸ issued) Issued.not_next

theorem get?_eraseAll (ids : List String) (data : StepData) (key : String) :
    (ids.foldl (fun data sid => data.erase sid) data).get? key =
      if key ∈ ids then none else data.get? key := by
  induction ids generalizing data with
  | nil => simp
  | cons first rest ih =>
      rw [List.foldl_cons, ih, Dict.get?_erase]
      by_cases isFirst : key = first <;> simp [isFirst]

theorem get?_revisedData (wf : Workflow) (idx : Nat) (target : Step) (data : StepData)
    (key : String) :
    (revisedData wf idx target data).get? key =
      if key ∈ (wf.steps.drop (idx + 1)).map Step.id ∨ target.isCall = true ∧
        key = target.id then none
      else data.get? key := by
  unfold revisedData
  dsimp only
  split
  · rename_i call
    rw [Dict.get?_erase, get?_eraseAll]
    by_cases isTarget : key = target.id <;> simp [isTarget, call]
  · rename_i call
    rw [get?_eraseAll]
    simp [call]

theorem RowChange.same (change : RowChange env deployment world after call row new) :
    row.Same new := by
  cases change with
  | counted counts => exact counts.toSame
  | marked stale marks => exact marks.toSame
  | submitted submits changes => exact changes.same
  | revised revises moved dropped => exact moved.toSame
  | escalated submits framed owner cause escalates => exact escalates.toSame
  | delivered submits reached atEnd framed called owner resolves at_ isCall valid applies gone =>
    exact applies.same

theorem Opened.same {registry : Option Registry} {wf : Workflow} {calls : Nat} {fresh : Session}
    (opened : Opened env registry wf calls fresh new) : fresh.Same new := by
  rcases opened with applies | ⟨-, counts⟩
  · exact applies.same
  · exact counts.toSame

/-- Every session carries the fingerprint under which the deployment serves its workflow. -/
def Ledger.Current (env : Env) (deployment : Deployment) (ledger : Ledger) : Prop :=
  ∀ sid row, ledger.row sid = some row →
    row.workflowFingerprint = fingerprintFor env deployment row.workflowType

theorem Ledger.Current.not_stale (current : ledger.Current env deployment) :
    ¬GoesStale deployment ledger sid row := by
  intro stale
  obtain ⟨fp, found, differs⟩ := stale.changed
  have same := current _ _ stale.row
  rw [fingerprintFor, found] at same
  exact differs same

theorem Serves.current {request : Request} {before after : World} (sound : before.Sound env)
    (serves : Serves env before request after)
    (current : before.ledger.Current env request.deployment) :
    after.ledger.Current env request.deployment := by
  intro sid new found
  rcases serves.rowEffect sound found with ⟨row, there, change⟩ | ⟨-, birth⟩
  · rw [change.same.workflowFingerprint_eq, change.same.workflowType_eq]
    exact current _ _ there
  · generalize request.call = call at birth
    cases birth with
    | started loaded opened =>
      rw [opened.same.workflowFingerprint_eq, opened.same.workflowType_eq]; rfl
    | spawned above loaded counts => rw [counts.workflowFingerprint_eq, counts.workflowType_eq]; rfl

theorem Reachable.current {allowed : World → Request → Prop}
    (one : ∀ state request, allowed state request → request.deployment = deployment)
    (reachable : Reachable env allowed world) : world.ledger.Current env deployment := by
  refine reachable.invariant (fun state => state.ledger.Current env deployment) ?_ ?_
  · intro sid row found
    exact nomatch found
  · intro before request after sound current meets serves
    have same := one _ _ meets
    subst same
    exact serves.current sound current

end Megalos
