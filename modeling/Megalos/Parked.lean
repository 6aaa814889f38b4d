import Megalos.Advancing
import Megalos.RowChange
import Megalos.Sample

/-!
A session under a frame stays where it was when the frame was put above it, or is
known to have left: marked as changed, or revised off its call-step.
-/

namespace Megalos

open ChainForest GuardedRuns KeyedTable StatefulProgram StatefulProgram.Program

variable {env : Env} {deployment : Deployment} {world : World} {served : Deployment → Prop}

def Session.Drifted (served : Deployment → Prop) (row : Session) : Prop :=
  ∃ deployment wf idx step, served deployment ∧
    deployment.workflows.get? row.workflowType = some wf ∧
    deployment.workflowFingerprints.get? row.workflowType = some row.workflowFingerprint ∧
    findStep wf (.str row.currentStep) = some (idx, step) ∧ step.isCall = false

/-- The pointer of a session against the step stored on the frame above it. -/
def Session.Fits (served : Deployment → Prop) (row : Session) (frame : Frame) : Prop :=
  frame.callStepId = some row.currentStep ∨ row.currentStep = workflowChanged ∨
    frame.frameType = .call ∧ row.Drifted served

def Ledger.Parked (served : Deployment → Prop) (ledger : Ledger) : Prop :=
  ∀ {sid row frame}, ledger.row sid = some row → ledger.Above sid frame → row.Fits served frame

/-- The call revises a session off the step at which a digression paused it. -/
def Unpauses (env : Env) (deployment : Deployment) (world : World) (call : Call) : Prop :=
  ∃ sessionId stepId session wf idx target frame, call = .reviseStep sessionId stepId ∧
    Revises env deployment world sessionId stepId session wf idx target ∧
    world.ledger.Above session.sessionId frame ∧ frame.frameType = .digression ∧
    target.isCall = false ∧ target.id ≠ session.currentStep

/-- The call puts a session where a removed one left a frame behind. -/
def Adopts (env : Env) (deployment : Deployment) (world : World) (call : Call) : Prop :=
  ∃ outer upper, SpawnsAbove env deployment world call outer ∧
    (world.ledger.without (world.evicted env)).frame upper.sessionId = some upper ∧
    upper.rootSessionId = ((world.ledger.without (world.evicted env)).standing outer).1 ∧
    upper.depth = ((world.ledger.without (world.evicted env)).standing outer).2 + 2

def Distinguished (served : Deployment → Prop) : Prop :=
  ∀ first second, served first → served second → ∀ name wf other fp,
    first.workflows.get? name = some wf → second.workflows.get? name = some other →
    first.workflowFingerprints.get? name = some fp →
      second.workflowFingerprints.get? name = some fp → wf = other

theorem Session.Fits.counted {row new : Session} {frame : Frame} (fits : row.Fits served frame)
    (same : row.Same new) (pointer : new.currentStep = row.currentStep) :
    new.Fits served frame := by
  rcases fits with stamped | marked | ⟨call, deployment, wf, idx, step, isServed, loaded, fp, at_,
    off⟩
  · exact .inl (stamped.trans (by rw [pointer]))
  · exact .inr (.inl (pointer.trans marked))
  · refine .inr (.inr ⟨call, deployment, wf, idx, step, isServed, ?_, ?_, ?_, off⟩)
    · rw [same.workflowType_eq]
      exact loaded
    · rw [same.workflowType_eq, same.workflowFingerprint_eq]
      exact fp
    · rw [pointer]
      exact at_

theorem Resolves.fingerprint {sid : SessionId} {row : Session} {wf : Workflow} {ledger : Ledger}
    (accepted : deployment.Accepted env) (resolves : Resolves deployment ledger sid row wf) :
    deployment.workflowFingerprints.get? row.workflowType = some row.workflowFingerprint := by
  obtain ⟨fp, found⟩ := Option.isSome_iff_exists.mp
    (accepted.fingerprinted (Option.isSome_of_eq_some resolves.loaded))
  rw [found, resolves.unchanged fp found]

/-- A row that changed keeps fitting the frame above it, unless that frame went with the change. -/
theorem RowChange.fits {after : Ledger} {call : Call} {row new : Session} {frame : Frame}
    (change : RowChange env deployment world after call row new)
    (accepted : deployment.Accepted env)
    (isServed : served deployment) (paused : ¬Unpauses env deployment world call)
    (forest : Forest world.ledger.places)
    (above : world.ledger.Above row.sessionId frame)
    (kept : after.frame frame.sessionId = some frame)
    (fits : row.Fits served frame) : new.Fits served frame := by
  have topFrame : ∀ {other}, world.topFrameFor row.sessionId = some other → other = frame := by
    intro other found
    have otherAbove := World.topFrameFor_some found
    have same := forest.covers_upper (Ledger.above_covers otherAbove) (Ledger.above_covers above)
    have there := otherAbove.1
    rw [same, above.1, Option.some.injEq] at there
    exact there.symm
  cases change with
  | counted counts => exact fits.counted counts.toSame counts.currentStep_eq
  | marked stale marks => exact .inr (.inl marks.currentStep_eq)
  | submitted submits changes =>
      exact absurd above (World.topFrameFor_none_iff.mp submits.accepts.bare frame)
  | @revised sessionId stepId _ _ wf idx target revises moved dropped =>
      have targetId : findStep wf (.str target.id) = some (idx, target) := by
        obtain ⟨-, same⟩ := findStep_spec revises.found
        rw [← same]
        exact revises.found
      cases call : target.isCall with
      | true =>
          cases top : world.topFrameFor row.sessionId with
          | none => exact absurd above (World.topFrameFor_none_iff.mp top frame)
          | some other =>
              have gone := dropped other (by rw [revisedChild, if_pos call, top])
              rw [topFrame top, kept] at gone
              simp at gone
      | false =>
          cases kind : frame.frameType with
          | digression =>
              have stays : target.id = row.currentStep := by
                by_contra differs
                exact paused ⟨sessionId, stepId, row, wf, idx, target, frame, rfl, revises, above,
                  kind, call, differs⟩
              exact fits.counted moved.toSame (moved.currentStep_eq.trans stays)
          | call =>
              refine .inr (.inr ⟨kind, deployment, wf, idx, target, isServed, ?_, ?_, ?_, call⟩)
              · rw [moved.workflowType_eq]
                exact revises.resolves.loaded
              · rw [moved.workflowType_eq, moved.workflowFingerprint_eq]
                exact revises.resolves.fingerprint accepted
              · rw [moved.currentStep_eq]
                exact targetId
  | escalated submits framed owner cause escalates =>
      exact fits.counted escalates.toSame escalates.currentStep_eq
  | delivered submits reached atEnd framed called owner resolves at_ isCall valid applies gone =>
      have covers := (Ledger.parent_iff_covers forest).mp owner
      rw [← forest.covers_upper (Ledger.above_covers above) covers, kept] at gone
      simp at gone

theorem Serves.parked {request : Request} {after : World} (sound : world.Sound env)
    (serves : Serves env world request after) (accepted : request.deployment.Accepted env)
    (isServed : served request.deployment)
    (paused : ¬Unpauses env request.deployment world request.call)
    (apart : ¬Adopts env request.deployment world request.call)
    (parked : world.ledger.Parked served) :
    after.ledger.Parked served := by
  intro sid new frame found above
  have shape := serves.shape sound
  have soundAfter := serves.sound sound
  by_cases isFresh : sid = env.token world.minted
  · subst isFresh
    have old : frame.sessionId ≠ env.token world.minted :=
      (ChainForest.Covers.ne (Ledger.above_covers above)).symm
    cases own : after.ledger.frame (env.token world.minted) with
    | none =>
        have rootEq := above.2.1
        rw [Ledger.standing_of_root own] at rootEq
        have issued := sound.rootIssued (shape.frame_kept old above.1)
        rw [rootEq] at issued
        exact absurd issued Issued.not_next
    | some birth =>
        cases serves.frameBirth sound own with
        | @spawned outer _ spawns row placed stamped others =>
            obtain ⟨there, rootEq, depthEq⟩ := above
            have outerOld : outer.sessionId ≠ env.token world.minted := by
              intro same
              rw [same] at row
              exact Issued.not_next (sound.rowIssued row)
            have standing : (world.ledger.without (world.evicted env)).standing outer.sessionId =
                after.ledger.standing outer.sessionId := by
              rw [Ledger.standing, Ledger.standing, others _ outerOld]
            rw [Ledger.standing_of_frame own] at rootEq depthEq
            refine absurd ⟨outer.sessionId, frame, spawns, ?_, ?_, ?_⟩ apart
            · rw [← others _ old]
              exact there
            · rw [standing, rootEq, placed.2.1]
            · rw [standing, depthEq, placed.2.2]
  · rcases serves.rowEffect sound found with ⟨row, there, change⟩ | ⟨fresh, -⟩
    case inr => exact absurd fresh isFresh
    have rowId : row.sessionId = sid := World.row_sessionId there
    by_cases newFrame : frame.sessionId = env.token world.minted
    · have own := above.1
      rw [newFrame] at own
      cases serves.frameBirth sound own with
      | @spawned outer _ spawns outerFound placed stamped others =>
          have sameSid : sid = outer.sessionId :=
            soundAfter.forest.covers_lower (Ledger.above_covers above) (Ledger.above_covers placed)
          subst sameSid
          rw [outerFound, Option.some.injEq] at there
          subst there
          have isStamped := stamped (by simp [found])
          have fits : outer.Fits served frame := .inl isStamped
          generalize request.call = call at change spawns
          cases change with
          | counted counts => exact fits.counted counts.toSame counts.currentStep_eq
          | marked stale marks => exact .inr (.inl marks.currentStep_eq)
          | submitted => cases spawns
          | revised => cases spawns
          | escalated => cases spawns
          | delivered => cases spawns
    · have aboveBefore := shape.above_before isFresh newFrame found above
      have fits := parked there aboveBefore
      rw [← rowId] at aboveBefore
      exact change.fits accepted isServed paused sound.forest aboveBefore above.1 fits

def RevisesSession (env : Env) (sid : SessionId) (call : Call) : Prop :=
  ∃ sessionId stepId, call = .reviseStep sessionId stepId ∧ env.normalizeSessionId sessionId = sid

def CompletesChild (env : Env) (deployment : Deployment) (world : World)
    (sessionId stepId content branch artifactId : String) (frame : Frame) : Prop :=
  frame.frameType = .call ∧ ∃ child wf idx step, child.sessionId = frame.sessionId ∧
    Submits env deployment world sessionId stepId content child wf idx step ∧
    (verdictOf env deployment.registry world.outbound.length child wf idx step content branch artifactId).completes = true

/-- What a frame promises of the session below it, in this state and in the next call. -/
structure World.Parked (env : Env) (served : Deployment → Prop) (world : World) : Prop where
  parked : ∀ sid row frame, world.sessions.lookup sid = some row →
    world.topFrameFor sid = some frame →
    row.Fits served frame
  written : ∀ deployment sessionId stepId content branch artifactId after sid row new frame key,
    served deployment → Serves env world ⟨deployment,
      .submitStep sessionId stepId content branch artifactId⟩ after →
    world.sessions.lookup sid = some row → after.sessions.lookup sid = some new →
    world.topFrameFor sid = some frame → new.stepData.get? key ≠ row.stepData.get? key →
    CompletesChild env deployment world sessionId stepId content branch artifactId frame ∧
      frame.callStepId = some row.currentStep ∧ after.ownFrame frame.sessionId = none ∧
      (key = row.currentStep ∨ ∃ wf, deployment.workflows.get? row.workflowType = some wf ∧
        wf.McpStep key)
  drifted : ∀ deployment sessionId stepId content branch artifactId after sid row wf frame,
    served deployment → Serves env world ⟨deployment,
      .submitStep sessionId stepId content branch artifactId⟩ after →
    Resolves deployment world.ledger sid row wf → world.topFrameFor sid = some frame →
    frame.callStepId ≠ some row.currentStep →
    CompletesChild env deployment world sessionId stepId content branch artifactId frame →
    ∃ new kept, after.sessions.lookup sid = some new ∧ new.currentStep = row.currentStep ∧
      new.stepData = row.stepData ∧
      new.escalation.map Escalation.guardrailId = some (.str "sub_workflow_state_drift") ∧
      after.sessions.lookup frame.sessionId = some kept ∧
        after.ownFrame frame.sessionId = some frame
  resumed : ∀ request after sid row new frame, Serves env world request after →
    world.sessions.lookup sid = some row → after.sessions.lookup sid = some new →
    world.topFrameFor sid = some frame → frame.frameType = .digression →
      ¬RevisesSession env sid request.call →
    frame.callStepId = some new.currentStep ∨ new.currentStep = workflowChanged

/-- A parent at a call-step stands where the frame above it says. -/
theorem Session.Fits.stamped {row : Session} {frame : Frame} {sid : SessionId} {wf : Workflow}
    {idx : Nat} {step : Step} (fits : row.Fits served frame)
    (accepted : ∀ deployment, served deployment → deployment.Accepted env)
    (distinguished : Distinguished served) (isServed : served deployment)
    (resolves : Resolves deployment world.ledger sid row wf)
    (at_ : findStep wf (.str row.currentStep) = some (idx, step))
    (isCall : step.isCall = true) : frame.callStepId = some row.currentStep := by
  rcases fits with stamped | marked | ⟨-, other, otherWf, otherIdx, otherStep, otherServed, loaded,
    fp, otherAt, off⟩
  · exact stamped
  · exact absurd marked resolves.unmarked
  · have sameWf := distinguished _ _ otherServed isServed _ _ _ _ loaded resolves.loaded fp
      (resolves.fingerprint (accepted _ isServed))
    rw [sameWf, at_] at otherAt
    simp only [Option.some.injEq, Prod.mk.injEq] at otherAt
    simp [otherAt.2, off] at isCall

/-- A child that completes above a parent off its call-step is kept, and the parent escalated where
it is. -/
theorem Submitted.drifts {child row : Session} {wf parentWf : Workflow} {idx : Nat} {step : Step}
    {frame : Frame} {content branch artifactId : String} {ledger : Ledger} {parent : SessionId}
    (submitted : Submitted env deployment world child wf idx step content branch artifactId ledger)
    (sound : world.Sound env)
    (ends : (verdictOf env deployment.registry world.outbound.length child wf idx step content branch
      artifactId).completes = true)
    (framed : world.ledger.frame child.sessionId = some frame) (called : frame.frameType = .call)
    (owner : world.ledger.Parent child.sessionId parent)
    (resolves : Resolves deployment world.ledger parent row parentWf)
    (off : ∀ {idx step}, findStep parentWf (.str row.currentStep) = some (idx, step) →
      step.isCall = false) :
    ∃ new last, ledger = (world.ledger.setRow child.sessionId last).setRow parent new ∧
      row.Escalated new row.stepData ∧
      new.escalation.map Escalation.guardrailId = some (.str "sub_workflow_state_drift") := by
  cases submitted with
  | answered answered =>
      cases answered with
      | settled calm changes unowned => exact absurd owner (unowned ends parent)
      | failed fails =>
          generalize verdictOf env deployment.registry world.outbound.length child wf idx step content branch artifactId =
            verdict at ends fails
          cases verdict with
          | advanced advance => cases advance <;> simp_all [Verdict.completes, Verdict.fails]
          | _ => simp [Verdict.completes] at ends
  | @finished pointer data calls last own _ reached atEnd moved ownFramed finished =>
      rw [framed, Option.some.injEq] at ownFramed
      subst ownFramed
      rw [called] at finished
      have apart : parent ≠ child.sessionId := sound.apart owner
      have after : Resolves deployment (world.ledger.setRow child.sessionId last) parent row parentWf :=
        resolves.setRow apart
      have only : ∀ {other},
        (world.ledger.setRow child.sessionId last).Parent child.sessionId other →
        other = parent := by
        intro other again
        have first := (Ledger.parent_iff_covers sound.forest).mp (Ledger.Parent.of_setRow.mp again)
        exact sound.forest.covers_lower first ((Ledger.parent_iff_covers sound.forest).mp owner)
      cases finished with
      | orphan unowned => exact absurd owner (unowned parent)
      | retained again unresolved fresh =>
          obtain rfl := only again
          exact absurd after (unresolved _ _)
      | marked again stale marks =>
          obtain rfl := only again
          exact absurd stale after.not_stale
      | drifted again resolved _ escalates drift =>
          obtain rfl := only again
          obtain ⟨rfl, rfl⟩ := after.unique resolved
          exact ⟨_, last, rfl, escalates, drift⟩
      | unchecked again resolved at_ isCall broken =>
          obtain rfl := only again
          obtain ⟨rfl, rfl⟩ := after.unique resolved
          simp [off at_] at isCall
      | rejected again resolved at_ isCall =>
          obtain rfl := only again
          obtain ⟨rfl, rfl⟩ := after.unique resolved
          simp [off at_] at isCall
      | delivered again resolved at_ isCall =>
          obtain rfl := only again
          obtain ⟨rfl, rfl⟩ := after.unique resolved
          simp [off at_] at isCall

theorem World.Parked.of_ledger (sound : world.Sound env)
    (accepted : ∀ deployment, served deployment → deployment.Accepted env)
    (distinguished : Distinguished served) (parked : world.ledger.Parked served) :
    world.Parked env served where
  parked _ _ _ found top := parked found (World.topFrameFor_some top)
  written deployment sessionId stepId content branch artifactId after sid row new frame key isServed serves found
      foundNew top differs := by
    have above := World.topFrameFor_some top
    have rowId : row.sessionId = sid := World.row_sessionId found
    subst rowId
    have change := serves.rowChange sound found foundNew
    cases change with
    | counted counts => exact absurd (by rw [counts.stepData_eq]) differs
    | marked stale marks => exact absurd (by rw [marks.stepData_eq]) differs
    | submitted submits =>
      exact absurd above (World.topFrameFor_none_iff.mp submits.accepts.bare frame)
    | escalated submits framed owner cause escalates =>
      exact absurd (by rw [escalates.stepData_eq]) differs
    | @delivered _ _ _ _ _ child _ _ childWf wf childIdx idx calls childStep step own _ _ submits reached atEnd framed
        called owner resolves at_ isCall valid applies gone =>
        have covers := (Ledger.parent_iff_covers sound.forest).mp owner
        have childAbove := sound.forest.covers_upper (Ledger.above_covers above) covers
        rw [← childAbove, above.1, Option.some.injEq] at framed
        subst framed
        have stamped := (parked found above).stamped accepted distinguished isServed resolves at_ isCall
        refine ⟨⟨called, child, childWf, childIdx, childStep, childAbove.symm, submits,
          by rw [reached]; exact atEnd⟩,
          stamped, childAbove ▸ gone, ?_⟩
        rcases applies.cases with ⟨-, counted⟩ | ⟨advance, last, text, stored, computed, resting, -,
          moved⟩
        · exact absurd (by rw [counted.stepData_eq]) differs
        rw [moved.stepData_eq] at differs
        simp only [parentAdvance] at computed
        split at computed
        · simp at computed
        rcases skipAndRun_entries computed last stored resting key with same | ⟨mcp, -⟩
        case inr => exact .inr ⟨_, resolves.loaded, mcp⟩
        rw [same, Dict.get?_set] at differs
        split at differs
        case isFalse => exact absurd rfl differs
        rename_i isPointer
        exact .inl isPointer
  drifted deployment sessionId stepId content branch artifactId after sid row wf frame isServed serves resolves top off
      completes := by
    obtain ⟨called, child, childWf, childIdx, childStep, isChild, submits, ends⟩ := completes
    have above := World.topFrameFor_some top
    have framed : world.ledger.frame child.sessionId = some frame := isChild ▸ above.1
    have owner : world.ledger.Parent child.sessionId sid :=
      (Ledger.parent_iff_covers sound.forest).mpr (isChild ▸ Ledger.above_covers above)
    have elsewhere : ∀ {idx step}, findStep wf (.str row.currentStep) = some (idx, step) →
      step.isCall = false := by
      intro idx step at_
      rw [Bool.eq_false_iff]
      intro isCall
      have fits : row.Fits served frame := parked resolves.row above
      exact off (fits.stamped accepted distinguished isServed resolves at_ isCall)
    obtain ⟨new, last, after_eq, escalates, drift⟩ :=
      (submits.carriedOut sound serves).drifts sound ends framed called
      owner resolves elsewhere
    have parentRow : after.ledger.row sid = some new :=
      by rw [after_eq, Ledger.setRow_row, if_pos rfl]
    have childRow : after.ledger.row frame.sessionId = some last := by
      rw [after_eq, ← isChild, Ledger.setRow_row, if_neg (sound.apart owner).symm,
        Ledger.setRow_row, if_pos rfl]
    have childFrame : after.ledger.frame frame.sessionId = some frame := by
      rw [after_eq]
      exact above.1
    exact ⟨new, last, parentRow, escalates.currentStep_eq, escalates.stepData_eq, drift, childRow,
      childFrame⟩
  resumed request after sid row new frame serves found foundNew top digression elsewhere := by
    have above := World.topFrameFor_some top
    have rowId : row.sessionId = sid := World.row_sessionId found
    subst rowId
    have stamped : frame.callStepId = some row.currentStep ∨ row.currentStep = workflowChanged := by
      rcases parked found above with stamped | marked | ⟨call, -⟩
      · exact .inl stamped
      · exact .inr marked
      · simp [digression] at call
    have change := serves.rowChange sound found foundNew
    generalize request.call = call at change elsewhere
    cases change with
    | counted counts =>
        rw [counts.currentStep_eq]
        exact stamped
    | marked stale marks => exact .inr marks.currentStep_eq
    | submitted submits =>
      exact absurd above (World.topFrameFor_none_iff.mp submits.accepts.bare frame)
    | revised revises => exact absurd ⟨_, _, rfl, revises.resolves.sessionId_eq.symm⟩ elsewhere
    | escalated submits framed owner cause escalates =>
        rw [escalates.currentStep_eq]
        exact stamped
    | delivered submits reached atEnd framed called owner =>
        have covers := (Ledger.parent_iff_covers sound.forest).mp owner
        rw [← sound.forest.covers_upper (Ledger.above_covers above) covers, above.1,
          Option.some.injEq] at framed
        rw [← framed, digression] at called
        simp at called

theorem Distinguished.single (deployment : Deployment) : Distinguished (· = deployment) := by
  rintro first second rfl rfl name wf other fp loaded again - -
  rw [loaded, Option.some.injEq] at again
  exact again

def digressionDocs : List Val := [
  workflowDoc "outer" [stepDoc "a" [], stepDoc "b" []],
  workflowDoc "side" [stepDoc "x" [], stepDoc "y" []]]

def calledDocs : List Val := [
  workflowDoc "parent" [stepDoc "p" [], stepDoc "c" [("call", .str "child")]],
  workflowDoc "child" [stepDoc "x" []]]

def unparked : World :=
  serveAll sampleEnv (appOf sampleEnv calledDocs) World.empty
    [.startWorkflow "parent" "", .submitStep "s" "p" "done" "" "", .enterSubWorkflow "s" "c",
      .reviseStep "s" "p"]

end Megalos
