import Megalos.Advancing
import Megalos.RowChange
import Megalos.Sample

/-!
A called child that is complete and still on the stack.  It waits there for a parent
that is escalated or not served, as long as no call strands it.
-/

namespace Megalos

open ChainForest GuardedRuns KeyedTable StatefulProgram StatefulProgram.Program

variable {env : Env} {deployment : Deployment} {world : World} {sid : SessionId} {ledger : Ledger}

def Ledger.Excused (deployment : Deployment) (ledger : Ledger) (sid : SessionId) : Prop :=
  ∃ parent row, ledger.Covers parent sid ∧ ledger.row parent = some row ∧
    (row.escalation.isSome ∨ ∀ session wf, ¬Resolves deployment ledger parent session wf)

def Ledger.Unstranded (deployment : Deployment) (ledger : Ledger) : Prop :=
  ∀ sid row frame, ledger.row sid = some row → ledger.frame sid = some frame →
    frame.frameType = .call →
    row.currentStep = complete → ledger.Excused deployment sid

/-- Calls that leave a complete called child without a parent to wait for. -/
inductive Strands (env : Env) (deployment : Deployment) (world : World) : Call → Prop
  /-- The delivery completes the parent, which is called itself. -/
  | propagated {sessionId stepId content branch artifactId : String} {child parent : Session}
      {childWf wf : Workflow} {childIdx idx calls : Nat} {childStep step : Step} {frame own : Frame}
      {pointer : Val} {data : StepData}
      (submits : Submits env deployment world sessionId stepId content child childWf childIdx childStep)
      (reached : verdictOf env deployment.registry world.outbound.length child childWf childIdx childStep
        content branch artifactId = .advanced (.arrived pointer data calls))
      (framed : world.ledger.frame child.sessionId = some frame) (called : frame.frameType = .call)
      (owner : world.ledger.Parent child.sessionId parent.sessionId)
      (resolves : Resolves deployment world.ledger parent.sessionId parent wf)
      (at_ : findStep wf (.str parent.currentStep) = some (idx, step)) (call : step.isCall = true)
      (ends : (storedBy env (parentAdvance env deployment.registry wf idx step
        (parent.stepData.set parent.currentStep (data.getD childWf.last.id "")) calls)).map Prod.fst = some complete)
      (parentFramed : world.ledger.frame parent.sessionId = some own)
      (parentCalled : own.frameType = .call) :
      Strands env deployment world (.submitStep sessionId stepId content branch artifactId)
  /-- The check of the child's artifact raises. -/
  | unchecked {sessionId stepId content branch artifactId : String} {child parent : Session}
      {childWf wf : Workflow} {childIdx idx calls : Nat} {childStep step : Step} {frame : Frame}
      {pointer : Val} {data : StepData} {raised : Exn}
      (submits : Submits env deployment world sessionId stepId content child childWf childIdx childStep)
      (reached : verdictOf env deployment.registry world.outbound.length child childWf childIdx childStep
        content branch artifactId = .advanced (.arrived pointer data calls))
      (framed : world.ledger.frame child.sessionId = some frame) (called : frame.frameType = .call)
      (owner : world.ledger.Parent child.sessionId parent.sessionId)
      (resolves : Resolves deployment world.ledger parent.sessionId parent wf)
      (at_ : findStep wf (.str parent.currentStep) = some (idx, step)) (call : step.isCall = true)
      (broken : validateOutput env (data.getD childWf.last.id "") step = .error raised) :
      Strands env deployment world (.submitStep sessionId stepId content branch artifactId)
  /-- A child without a parent completes. -/
  | unparented {sessionId stepId content branch artifactId : String} {child : Session}
      {childWf : Workflow}
      {childIdx : Nat} {childStep : Step} {frame : Frame}
      (submits : Submits env deployment world sessionId stepId content child childWf childIdx childStep)
      (completes : (verdictOf env deployment.registry world.outbound.length child childWf childIdx childStep
        content branch artifactId).completes = true)
      (framed : world.ledger.frame child.sessionId = some frame) (called : frame.frameType = .call)
      (missing : ∀ parent, world.ledger.Parent child.sessionId parent →
        world.ledger.row parent = none) :
      Strands env deployment world (.submitStep sessionId stepId content branch artifactId)
  /-- The parent of a complete child is removed. -/
  | orphaned {call : Call} {lower : SessionId} {upper : Frame} {row : Session}
      (orphans : Orphans env deployment world call lower upper) (called : upper.frameType = .call)
      (found : world.ledger.row upper.sessionId = some row) (done : row.currentStep = complete) :
      Strands env deployment world call
  /-- The called workflow starts at a step named like the end. -/
  | entered {parentSessionId callStepId workflowType : String} {parent : Session}
      {parentWf childWf : Workflow}
      (spawns : Spawns env deployment world parentSessionId callStepId parent parentWf workflowType childWf)
      (calls : CallsInto env parent parentWf callStepId workflowType)
      (done : childWf.first.id = complete) :
      Strands env deployment world (.enterSubWorkflow parentSessionId callStepId)

theorem RowChange.escalated_stays {after : Ledger} {call : Call} {row new : Session}
    (change : RowChange env deployment world after call row new)
    (escalated : row.escalation.isSome) :
    new.escalation.isSome := by
  cases change with
  | counted counts => exact counts.escalation_eq ▸ escalated
  | marked stale marks => exact marks.escalation_eq ▸ escalated
  | submitted submits changes => simp [submits.accepts.unescalated] at escalated
  | revised revises moved dropped => exact moved.escalation_eq ▸ escalated
  | escalated submits framed owner cause escalates => exact escalates.escalation_isSome
  | delivered submits reached atEnd framed called owner resolves at_ isCall valid applies gone =>
      exact applies.escalation_eq ▸ escalated

theorem RowChange.unserved_stays {after : Ledger} {call : Call} {row new : Session}
    (change : RowChange env deployment world after call row new)
    (there : world.ledger.row row.sessionId = some row)
    (unserved : ∀ session wf, ¬Resolves deployment world.ledger row.sessionId session wf)
    (found : after.row row.sessionId = some new) :
    ∀ session wf, ¬Resolves deployment after row.sessionId session wf := by
  intro session wf resolves
  have isNew := resolves.row
  rw [found, Option.some.injEq] at isNew
  subst isNew
  have pointer : row.currentStep ≠ workflowChanged → False := by
    intro unmarked
    refine unserved row wf ⟨there, resolves.caller, unmarked, ?_, ?_⟩
    · rw [← change.same.workflowType_eq]
      exact resolves.loaded
    · rw [← change.same.workflowType_eq, ← change.same.workflowFingerprint_eq]
      exact resolves.unchanged
  cases change with
  | counted counts => exact pointer (counts.currentStep_eq ▸ resolves.unmarked)
  | marked stale marks => exact resolves.unmarked marks.currentStep_eq
  | submitted submits changes =>
      have own := submits.resolves
      rw [← own.sessionId_eq] at own
      exact unserved _ _ own
  | revised revises moved dropped =>
      have own := revises.resolves
      rw [← own.sessionId_eq] at own
      exact unserved _ _ own
  | escalated submits framed owner cause escalates =>
    exact pointer (escalates.currentStep_eq ▸ resolves.unmarked)
  | delivered submits reached atEnd framed called owner own => exact unserved _ _ own

theorem Serves.excused {request : Request} {after : World} {child new : Session} {frame : Frame}
    (sound : world.Sound env) (serves : Serves env world request after)
    (calm : ¬Strands env request.deployment world request.call)
    (found : world.ledger.row sid = some child) (framed : world.ledger.frame sid = some frame)
    (called : frame.frameType = .call) (done : child.currentStep = complete)
    (excused : world.ledger.Excused request.deployment sid)
    (foundNew : after.ledger.row sid = some new) :
    after.ledger.Excused request.deployment sid := by
  obtain ⟨parent, row, covers, there, reason⟩ := excused
  have shape := serves.shape sound
  have frameId : frame.sessionId = sid := World.frame_sessionId framed
  have childOld : sid ≠ env.token world.minted :=
    fun fresh => Issued.not_next (fresh ▸ sound.rowIssued found)
  have parentOld : parent ≠ env.token world.minted :=
    fun fresh => Issued.not_next (fresh ▸ sound.rowIssued there)
  cases parentRow : after.ledger.row parent with
  | none =>
      obtain ⟨upper, above, same⟩ := Ledger.covers_above covers fun _ => World.frame_sessionId
      have isFrame := above.1
      rw [same, framed, Option.some.injEq] at isFrame
      rw [← isFrame] at above
      rcases shape.gone_above sound there above parentRow with gone | orphans
      · simp [frameId, foundNew] at gone
      · exact absurd (.orphaned orphans called (frameId ▸ found) done) calm
  | some parentNew =>
      refine ⟨parent, parentNew, shape.covers_after covers parentOld childOld parentRow foundNew,
        parentRow, ?_⟩
      have rowId : row.sessionId = parent := World.row_sessionId there
      subst rowId
      have change := serves.rowChange sound there parentRow
      rcases reason with escalated | unserved
      · exact .inl (change.escalated_stays escalated)
      · exact .inr (change.unserved_stays there unserved parentRow)

theorem Verdict.completes_of_stored {advance : Advance} {pointer : Val} {data : StepData}
    (resting : advance.resting = some (pointer, data))
    (column : columnText env pointer = .ok complete)
    (open_ : ∀ last stored calls, advance = .stopped last stored calls →
      last.isStr complete = false) :
    (Verdict.advanced advance).completes = true := by
  have atEnd := columnText_underscore column (by decide)
  subst atEnd
  cases advance with
  | skipCascade => simp [Advance.resting] at resting
  | stopped last stored calls =>
      have short := open_ last stored calls rfl
      simp only [Advance.resting, Option.some.injEq, Prod.mk.injEq] at resting
      simp [resting.1] at short
  | arrived last stored calls =>
      simp only [Advance.resting, Option.some.injEq, Prod.mk.injEq] at resting
      simp [Verdict.completes, resting.1]

theorem Verdict.Changes.completes {registry : Option Registry} {calls : Nat} {session new : Session}
    {wf : Workflow} {idx : Nat} {step : Step} {content branch artifactId : String} {data : StepData}
    (changes : (verdictOf env registry calls session wf idx step content branch artifactId).Changes env data session
      new) (open_ : session.currentStep ≠ complete) (done : new.currentStep = complete) :
    (verdictOf env registry calls session wf idx step content branch artifactId).completes =
      true := by
  generalize reached : verdictOf env registry calls session wf idx step content branch artifactId =
    verdict
    at changes ⊢
  have stays : new.currentStep = session.currentStep → False :=
    fun same => open_ (same.symm.trans done)
  cases verdict with
  | kept => exact (stays changes.currentStep_eq).elim
  | retriesExhausted => exact (stays changes.currentStep_eq).elim
  | escalated => exact (stays changes.currentStep_eq).elim
  | advanced advance =>
      have applies : Applies env (.ok advance) session new := changes
      rcases applies.cases with ⟨-, counts⟩ | ⟨advance', pointer, text, stored, same, resting,
        column, moved⟩
      · exact (stays counts.currentStep_eq).elim
      · rw [Except.ok.injEq] at same
        subst same
        rw [moved.currentStep_eq] at done
        subst done
        refine Verdict.completes_of_stored resting column ?_
        rintro last stored calls rfl
        obtain ⟨fired, next, forced, -, -, ran⟩ := verdictOf_advanced reached
        exact skipAndRun_stopped ran

theorem Submitted.excused {sessionId stepId content branch artifactId : String}
    {child new : Session} {childWf : Workflow} {childIdx : Nat} {childStep : Step} {frame : Frame}
    (sound : world.Sound env)
    (submits : Submits env deployment world sessionId stepId content child childWf childIdx childStep)
    (submitted : Submitted env deployment world child childWf childIdx childStep content branch artifactId ledger)
    (calm : ¬Strands env deployment world (.submitStep sessionId stepId content branch artifactId))
    (framed : world.ledger.frame child.sessionId = some frame) (called : frame.frameType = .call)
    (foundNew : ledger.row child.sessionId = some new) (done : new.currentStep = complete) :
    ledger.Excused deployment child.sessionId := by
  have unfinished := submits.accepts.unfinished
  have parented : (verdictOf env deployment.registry world.outbound.length child childWf childIdx childStep content
      branch artifactId).completes = true →
      ∃ parent row, world.ledger.Parent child.sessionId parent ∧
        world.ledger.row parent = some row := by
    intro completes
    by_contra missing
    refine calm (.unparented submits completes framed called ?_)
    intro parent owner
    cases found : world.ledger.row parent with
    | none => rfl
    | some row => exact absurd ⟨parent, row, owner, found⟩ missing
  -- the parent that the stack finds is the only one
  have only : ∀ {first second}, world.ledger.Parent child.sessionId first →
      world.ledger.Parent child.sessionId second → first = second := by
    intro first second owner again
    rw [Ledger.parent_iff_covers sound.forest] at owner again
    exact sound.forest.covers_lower owner again
  have escalatedBy : ∀ {written parentRow parentNew : Session} {parent : SessionId},
      world.ledger.Parent child.sessionId parent →
        parentRow.Escalated parentNew parentRow.stepData →
      ((world.ledger.setRow child.sessionId written).setRow parent parentNew).Excused deployment child.sessionId := by
    intro written parentRow parentNew parent owner escalates
    refine ⟨parent, parentNew, (Ledger.parent_iff_covers sound.forest).mp owner, ?_,
      .inl escalates.escalation_isSome⟩
    rw [Ledger.setRow_row, if_pos rfl]
  cases submitted with
  | answered ends =>
      cases ends with
      | settled fails changes unowned =>
          rw [Ledger.setRow_row, if_pos rfl, Option.some.injEq] at foundNew
          subst foundNew
          have completes := changes.completes unfinished done
          obtain ⟨parent, row, owner, -⟩ := parented completes
          exact absurd owner (unowned completes parent)
      | failed fails changes wrapped =>
          cases wrapped with
          | root =>
              rw [Ledger.setRow_row, if_pos rfl, Option.some.injEq] at foundNew
              subst foundNew
              have completes := changes.completes unfinished done
              generalize verdictOf _ _ _ _ _ _ _ _ _ _ = verdict at fails completes
              cases verdict with
              | advanced advance =>
                cases advance <;> simp [Verdict.completes, Verdict.fails] at completes fails
              | _ => simp [Verdict.completes] at completes
          | missing =>
              rw [Ledger.setRow_row, if_pos rfl, Option.some.injEq] at foundNew
              subst foundNew
              have completes := changes.completes unfinished done
              generalize verdictOf _ _ _ _ _ _ _ _ _ _ = verdict at fails completes
              cases verdict with
              | advanced advance =>
                cases advance <;> simp [Verdict.completes, Verdict.fails] at completes fails
              | _ => simp [Verdict.completes] at completes
          | escalated owner found escalates =>
            exact escalatedBy (Ledger.Parent.of_setRow.mp owner) escalates
  | @finished pointer data calls last own _ reached atEnd moved ownFramed finished =>
      rw [framed, Option.some.injEq] at ownFramed
      subst ownFramed
      have completes : (verdictOf env deployment.registry world.outbound.length child childWf childIdx childStep content
          branch artifactId).completes = true := by
        rw [reached]
        exact atEnd
      obtain ⟨parent, row, owner, found⟩ := parented completes
      have apart := sound.apart owner
      rw [called] at finished
      have unserved : ∀ {parentLedger : Ledger}, parentLedger.places = world.ledger.places →
          (∃ parentRow, parentLedger.row parent = some parentRow) →
          (∀ session wf, ¬Resolves deployment parentLedger parent session wf) →
          parentLedger.Excused deployment child.sessionId := by
        rintro parentLedger samePlaces ⟨parentRow, there⟩ unserved
        refine ⟨parent, parentRow, ?_, there, .inr unserved⟩
        rw [Ledger.Covers, samePlaces]
        exact (Ledger.parent_iff_covers sound.forest).mp owner
      cases finished with
      | orphan unowned => exact absurd owner (unowned parent)
      | retained again unresolved fresh =>
          obtain rfl := only again owner
          refine unserved rfl ⟨row, ?_⟩ unresolved
          rw [Ledger.setRow_row, if_neg apart, found]
      | @marked _ _ staleRow written again stale marks =>
          obtain rfl := only again owner
          refine unserved rfl ⟨written, by simp⟩ ?_
          intro session wf resolves
          have isWritten := resolves.row
          rw [Ledger.setRow_row, if_pos rfl, Option.some.injEq] at isWritten
          exact resolves.unmarked (isWritten ▸ marks.currentStep_eq)
      | drifted again resolves off escalates =>
        exact escalatedBy (Ledger.Parent.of_setRow.mp again) escalates
      | unchecked again resolves at_ isCall broken =>
          have before := resolves.of_setRow (sound.apart (Ledger.Parent.of_setRow.mp again))
          have parentId := before.sessionId_eq
          subst parentId
          exact absurd (.unchecked submits reached framed called (Ledger.Parent.of_setRow.mp again) before at_ isCall
            broken) calm
      | rejected again resolves at_ isCall invalid escalates =>
          exact escalatedBy (Ledger.Parent.of_setRow.mp again) escalates
      | delivered again =>
          rw [Ledger.setRow_row, if_neg (sound.apart (Ledger.Parent.of_setRow.mp again)).symm,
            Ledger.dropAbove, Ledger.dropAt_row, Ledger.drop_row, if_pos rfl] at foundNew
          simp at foundNew

/-- A call frame is created by `enter_sub_workflow`, above a child at its first step. -/
theorem Effect.entered_of_call {call : Call} {minted : Nat} {frame : Frame}
    (sound : world.Sound env) (effect : Effect env deployment world call ledger minted)
    (found : ledger.frame (env.token world.minted) = some frame)
    (called : frame.frameType = .call) :
    ∃ parentSessionId callStepId workflowType parent parentWf childWf row,
      call = .enterSubWorkflow parentSessionId callStepId ∧
      Spawns env deployment world parentSessionId callStepId parent parentWf workflowType childWf ∧
      CallsInto env parent parentWf callStepId workflowType ∧
      ledger.row (env.token world.minted) = some row ∧ row.currentStep = childWf.first.id := by
  cases effect.frameBirth sound found with
  | spawned above =>
      cases effect with
      | idle => simp [sound.unframed] at found
      | marked => simp [sound.unframed] at found
      | entered spawns calls spawned =>
          obtain ⟨now, row, childRow, counts⟩ := spawned.child
          exact ⟨_, _, _, _, _, _, row, rfl, spawns, calls, childRow, counts.currentStep_eq⟩
      | pushed spawns named shallow room spawned =>
          obtain ⟨now, stamp, placed⟩ := spawned.frame
          rw [placed, Option.some.injEq] at found
          rw [← found] at called
          simp [Ledger.childFrame] at called
      | started => cases above
      | submitted => cases above
      | revised => cases above
      | popped => cases above
      | deleted => cases above

theorem Serves.unstranded {request : Request} {after : World} (sound : world.Sound env)
    (serves : Serves env world request after)
    (calm : ¬Strands env request.deployment world request.call)
    (unstranded : world.ledger.Unstranded request.deployment) :
    after.ledger.Unstranded request.deployment := by
  intro sid new frame foundNew framed called done
  have shape := serves.shape sound
  have effect := serves.effect sound
  by_cases isFresh : sid = env.token world.minted
  · subst isFresh
    obtain ⟨_, _, _, _, _, childWf, row, isEnter, spawns, calls, childRow, first⟩ :=
      effect.entered_of_call sound framed called
    rw [foundNew, Option.some.injEq] at childRow
    rw [← childRow, done] at first
    rw [isEnter] at calm
    exact absurd (.entered spawns calls first.symm) calm
  have framedBefore : world.ledger.frame sid = some frame :=
    (shape.frame_eq isFresh foundNew).symm.trans framed
  rcases serves.rowEffect sound foundNew with ⟨row, there, change⟩ | ⟨fresh, -⟩
  case inr => exact absurd fresh isFresh
  by_cases wasDone : row.currentStep = complete
  · exact serves.excused sound calm there framedBefore called wasDone
      (unstranded sid row frame there framedBefore called wasDone) foundNew
  have rowId : row.sessionId = sid := World.row_sessionId there
  subst rowId
  generalize request.call = call at change effect calm
  generalize after.ledger = ledger at change effect foundNew framed ⊢
  generalize after.minted = minted at effect
  cases change with
  | counted counts => exact absurd (counts.currentStep_eq.symm.trans done) wasDone
  | marked stale marks => exact absurd (marks.currentStep_eq.symm.trans done) (by decide)
  | submitted submits changes =>
      cases effect with
      | idle =>
          rw [there, Option.some.injEq] at foundNew
          exact absurd (foundNew ▸ done) wasDone
      | @marked _ staleId session written stale marks =>
          rw [Ledger.setRow_row] at foundNew
          split at foundNew
          · rw [Option.some.injEq] at foundNew
            exact absurd (marks.currentStep_eq.symm.trans (foundNew ▸ done)) (by decide)
          · rw [there, Option.some.injEq] at foundNew
            exact absurd (foundNew ▸ done) wasDone
      | submitted again submitted =>
          obtain ⟨rfl, rfl⟩ := submits.resolves.unique again.resolves
          exact submitted.excused sound again calm framedBefore called foundNew done
  | revised revises moved dropped => simp [revises.root] at framedBefore
  | escalated submits childFramed owner cause escalates =>
      exact absurd (escalates.currentStep_eq.symm.trans done) wasDone
  | delivered submits reached atEnd childFramed childCalled owner resolves at_ isCall valid applies gone =>
      refine absurd (.propagated submits reached childFramed childCalled owner resolves at_ isCall ?_ framedBefore called)
        calm
      unfold Applies at applies
      split at applies
      · rename_i step stored computed
        rw [computed, Option.map_some, ← applies.currentStep_eq, done]
      · exact absurd (applies.currentStep_eq.symm.trans done) wasDone

/-- Complete called children wait only for a parent that is escalated or not served. -/
def World.Unstranded (deployment : Deployment) (world : World) : Prop :=
  ∀ sid row frame, world.sessions.lookup sid = some row → world.ownFrame sid = some frame →
    frame.frameType = .call → row.currentStep = complete →
    ∃ parent parentRow, world.parentOf sid = some parent ∧
      world.sessions.lookup parent = some parentRow ∧
      (parentRow.escalation.isSome ∨
        ∀ session wf, ¬Resolves deployment world.ledger parent session wf)

/-- No run whose calls strand nobody strands a session. -/
theorem Reachable.neverStranded
    (reachable : Reachable env (fun state request => request.deployment = deployment ∧
      ¬Strands env request.deployment state request.call) world) : world.Unstranded deployment := by
  have unstranded : world.ledger.Unstranded deployment := by
    refine reachable.invariant (fun state => state.ledger.Unstranded deployment) ?_ ?_
    · intro sid row frame found
      exact nomatch found
    · rintro before request after sound unstranded ⟨rfl, calm⟩ serves
      exact serves.unstranded sound calm unstranded
  intro sid row frame found framed called done
  obtain ⟨parent, parentRow, covers, there, reason⟩ :=
    unstranded sid row frame found framed called done
  exact ⟨parent, parentRow, World.parentOf_of_covers reachable.sound.forest covers, there, reason⟩

def rejectingDocs : List Val := [
  workflowDoc "parent" [stepDoc "c" [("call", .str "child"),
    ("output_schema", .obj [("type", .str "object")])]],
  workflowDoc "child" [stepDoc "x" []]]

theorem not_strands_of_submit {sessionId stepId content branch artifactId : String}
    {parent : SessionId} {row : Session} (sound : world.Sound env) (room : world.evicted env = [])
    (owner : world.parentOf (env.normalizeSessionId sessionId) = some parent)
    (found : world.ledger.row parent = some row) (root : world.ledger.frame parent = none)
    (checks : ∀ artifact step raised, validateOutput env artifact step ≠ .error raised) :
    ¬Strands env deployment world (.submitStep sessionId stepId content branch artifactId) := by
  intro strands
  have isParent : ∀ {other child : SessionId}, child = env.normalizeSessionId sessionId →
      world.ledger.Parent child other → other = parent := by
    intro other child same again
    have looked := World.parentOf_of_covers sound.forest ((Ledger.parent_iff_covers sound.forest).mp again)
    rw [same, owner, Option.some.injEq] at looked
    exact looked.symm
  cases strands with
  | propagated submits reached framed called again resolves at_ call ends parentFramed parentCalled =>
      rw [isParent submits.resolves.sessionId_eq again, root] at parentFramed
      simp at parentFramed
  | unchecked submits reached framed called again resolves at_ call broken =>
    exact checks _ _ _ broken
  | unparented submits completes framed called missing =>
      have none := missing parent (submits.resolves.sessionId_eq ▸ World.parentOf_some owner)
      simp [found] at none
  | orphaned orphans => exact Orphans.not_of_room room Removes.of_submit orphans

theorem not_strands_of_enter {parentSessionId callStepId : String} (room : world.evicted env = [])
    (first : ∀ entry ∈ deployment.workflows.rows, entry.2.first.id ≠ complete) :
    ¬Strands env deployment world (.enterSubWorkflow parentSessionId callStepId) := by
  intro strands
  cases strands with
  | orphaned orphans => exact Orphans.not_of_room room Removes.of_enter orphans
  | entered spawns calls done =>
      obtain ⟨entry, looked, same⟩ := Option.map_eq_some_iff.mp spawns.loaded
      exact first entry (Table.lookup_mem looked) (same ▸ done)

theorem unstranded_rejected :
    (serveAll sampleEnv (appOf sampleEnv rejectingDocs) World.empty
      [.startWorkflow "parent" "", .enterSubWorkflow "s" "c",
        .submitStep "ss" "x" "done" "" ""]).Unstranded
        (appOf sampleEnv rejectingDocs) := by
  have entered : Reachable sampleEnv (fun _ request =>
    request.deployment = appOf sampleEnv rejectingDocs)
      (serveAll sampleEnv (appOf sampleEnv rejectingDocs) World.empty
        [.startWorkflow "parent" "", .enterSubWorkflow "s" "c"]) := serveAll_served (by rfl)
  refine Reachable.neverStranded (serveAll_run (by rfl) ⟨⟨rfl, ?_⟩, ⟨rfl, ?_⟩, ⟨rfl, ?_⟩, trivial⟩)
  · intro strands
    cases strands with
    | orphaned orphans => exact Orphans.not_of_room (by rfl) Removes.of_start orphans
  · exact not_strands_of_enter (by rfl) (by decide)
  · refine not_strands_of_submit entered.sound (by rfl) (by rfl) (by rfl) (by rfl) ?_
    intro artifact step raised
    unfold validateOutput
    split <;> simp [sampleEnv, Env.tryLoads]

/-- The innermost child of two nested calls completes, and so does the middle one. -/
def completedBelow : World :=
  serveAll sampleEnv (appOf sampleEnv nestedDocs) World.empty
    [.startWorkflow "outer" "", .enterSubWorkflow "s" "a", .enterSubWorkflow "ss" "m",
      .submitStep "sss" "x" "done" "" ""]

theorem not_always_unstranded :
    ¬∀ env deployment world, deployment.Accepted env → ServedBy env deployment world →
      world.Unstranded deployment := by
  intro always
  have unstranded : completedBelow.Unstranded (appOf sampleEnv nestedDocs) :=
    always _ _ _ (appOf_accepted (by decide)) (serveAll_served (by rfl))
  have middleRow : (completedBelow.sessions.lookup (sampleToken 1)).isSome = true := by rfl
  have outerRow : (completedBelow.sessions.lookup (sampleToken 0)).isSome = true := by rfl
  obtain ⟨middle, foundMiddle⟩ := Option.isSome_iff_exists.mp middleRow
  obtain ⟨outer, foundOuter⟩ := Option.isSome_iff_exists.mp outerRow
  have middleStep : (completedBelow.sessions.lookup (sampleToken 1)).map Session.currentStep =
    some complete := by rfl
  have outerFields : (completedBelow.sessions.lookup (sampleToken 0)).map (fun row =>
      (row.escalation.isSome, row.currentStep, row.workflowType, row.workflowFingerprint)) =
        some (false, "a", "outer", "") := by rfl
  rw [foundMiddle, Option.map_some, Option.some.injEq] at middleStep
  simp only [foundOuter, Option.map_some, Option.some.injEq, Prod.mk.injEq] at outerFields
  obtain ⟨calm, pointer, type, fingerprint⟩ := outerFields
  obtain ⟨parent, parentRow, owner, there, reason⟩ :=
    unstranded (sampleToken 1) middle ⟨sampleToken 1, sampleToken 0, 1, .call, some "a",
      2⟩ foundMiddle (by rfl) rfl
      middleStep
  have isOuter : completedBelow.parentOf (sampleToken 1) = some (sampleToken 0) := by rfl
  rw [isOuter, Option.some.injEq] at owner
  subst owner
  rw [foundOuter, Option.some.injEq] at there
  subst there
  rcases reason with escalated | unserved
  · simp [calm] at escalated
  · have loaded : ((appOf sampleEnv nestedDocs).workflows.get? "outer").isSome = true := by rfl
    obtain ⟨wf, isWf⟩ := Option.isSome_iff_exists.mp loaded
    refine unserved outer wf ⟨foundOuter, rfl, ?_, ?_, ?_⟩
    · simp [pointer, workflowChanged]
    · rw [type]
      exact isWf
    · intro fp current
      have known : (appOf sampleEnv nestedDocs).workflowFingerprints.get? "outer" = some "" :=
        by rfl
      rw [type, known, Option.some.injEq] at current
      rw [fingerprint, current]

end Megalos
