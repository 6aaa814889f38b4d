import Megalos.RowChange
import Megalos.Sample

/-!
An escalated session.  Nothing clears the field; what a later call may still do to the
row, and to the child whose failure set it, depends on how the call reaches them.
-/

namespace Megalos

open ChainForest GuardedRuns KeyedTable StatefulProgram StatefulProgram.Program

variable {env : Env} {deployment : Deployment} {world : World}

/-- Where the pointer stands in the list; the end, when it names no step. -/
def Workflow.position (wf : Workflow) (pointer : String) : Nat :=
  match findStep wf (.str pointer) with
  | some (idx, _) => idx
  | none => wf.steps.length

def Session.Advanced (deployment : Deployment) (old new : Session) : Prop :=
  new.currentStep ≠ workflowChanged ∧ ∃ wf, deployment.workflows.get? old.workflowType = some wf ∧
    wf.position old.currentStep < wf.position new.currentStep

/-- Calls that get past an escalation: a submission under an escalated parent, a removal that leaves
the frame above an escalated session, a revision of an escalated session to a later step. -/
inductive Bypasses (env : Env) (deployment : Deployment) (world : World) : Call → Prop
  | submitted {sessionId stepId content branch artifactId : String} {session row : Session}
      {wf : Workflow}
      {idx : Nat} {step : Step} {parent : SessionId}
      (submits : Submits env deployment world sessionId stepId content session wf idx step)
      (owner : world.parentOf session.sessionId = some parent)
      (found : world.ledger.row parent = some row)
      (escalated : row.escalation.isSome) :
      Bypasses env deployment world (.submitStep sessionId stepId content branch artifactId)
  | orphaned {call : Call} {lower : SessionId} {row : Session} {upper : Frame}
      (orphans : Orphans env deployment world call lower upper)
      (found : world.ledger.row lower = some row)
      (escalated : row.escalation.isSome) : Bypasses env deployment world call
  | revised {sessionId stepId : String} {session : Session} {wf : Workflow} {idx : Nat}
      {target : Step}
      (revises : Revises env deployment world sessionId stepId session wf idx target)
      (escalated : session.escalation.isSome) (ahead : wf.position session.currentStep < idx) :
      Bypasses env deployment world (.reviseStep sessionId stepId)

/-- The row is escalated, no entry was added or changed, and the pointer did not advance. -/
structure Session.Held (deployment : Deployment) (old new : Session) : Prop where
  escalated : new.escalation.isSome
  entries : ∀ key text, new.stepData.get? key = some text → old.stepData.get? key = some text
  parked : ¬old.Advanced deployment new

theorem Session.Held.of_same {old new : Session} (escalated : new.escalation.isSome)
    (pointer : new.currentStep = old.currentStep) (entries : new.stepData = old.stepData) :
    old.Held deployment new where
  escalated := escalated
  entries key text found := entries ▸ found
  parked := by
    rintro ⟨-, wf, -, ahead⟩
    rw [pointer] at ahead
    exact Nat.lt_irrefl _ ahead

theorem RowChange.held {after : Ledger} {call : Call} {row new : Session}
    (forest : Forest world.ledger.places)
    (change : RowChange env deployment world after call row new)
    (calm : ¬Bypasses env deployment world call)
    (there : world.ledger.row row.sessionId = some row) (escalated : row.escalation.isSome) :
    row.Held deployment new := by
  cases change with
  | counted counts => exact .of_same (counts.escalation_eq ▸ escalated) counts.currentStep_eq counts.stepData_eq
  | marked stale marks =>
      refine ⟨marks.escalation_eq ▸ escalated, ?_, fun advanced => advanced.1 marks.currentStep_eq⟩
      intro key text found
      rwa [marks.stepData_eq] at found
  | submitted submits changes => simp [submits.accepts.unescalated] at escalated
  | @revised sessionId stepId _ _ wf idx target revises moved dropped =>
      refine ⟨moved.escalation_eq ▸ escalated, ?_, ?_⟩
      · intro key text found
        rw [moved.stepData_eq, get?_revisedData] at found
        split at found
        · simp at found
        · exact found
      · rintro ⟨-, other, loaded, ahead⟩
        rw [revises.resolves.loaded, Option.some.injEq] at loaded
        subst loaded
        have position : wf.position target.id = idx := by
          have found := revises.found
          rw [(findStep_spec found).2] at found
          rw [Workflow.position, found]
        rw [moved.currentStep_eq, position] at ahead
        exact calm (.revised revises escalated ahead)
  | escalated submits framed owner cause escalates =>
      exact .of_same escalates.escalation_isSome escalates.currentStep_eq escalates.stepData_eq
  | delivered submits reached atEnd framed called owner =>
      have covers := (Ledger.parent_iff_covers forest).mp owner
      exact absurd (.submitted submits (World.parentOf_of_covers forest covers) there escalated) calm

theorem Serves.refused {after : World} {sessionId stepId content branch artifactId : String}
    {child : Session} (sound : world.Sound env)
    (serves : Serves env world ⟨deployment,
      .submitStep sessionId stepId content branch artifactId⟩ after)
    (closed : ∀ session wf idx step,
      ¬Submits env deployment world sessionId stepId content session wf idx step)
    {sid : SessionId} (found : world.ledger.row sid = some child) :
    ∃ same, after.ledger.row sid = some same ∧ (same = child ∨ child.Marked same) := by
  have effect := serves.effect sound
  generalize after.ledger = ledger at effect
  generalize after.minted = minted at effect
  cases effect with
  | idle => exact ⟨child, found, .inl rfl⟩
  | @marked _ staleId session new stale marks =>
      rw [Ledger.setRow_row]
      split
      · rename_i isStale
        rw [isStale, stale.row, Option.some.injEq] at found
        exact ⟨new, rfl, .inr (found ▸ marks)⟩
      · exact ⟨child, found, .inl rfl⟩
  | submitted submits => exact absurd submits (closed _ _ _ _)

/-- A parent that a call escalates from below is escalated by the submission of its child. -/
theorem Serves.escalates {after : World} {sessionId stepId content branch artifactId : String}
    {parent : SessionId} {row new : Session} (sound : world.Sound env)
    (serves : Serves env world ⟨deployment,
      .submitStep sessionId stepId content branch artifactId⟩ after)
    (other : parent ≠ env.normalizeSessionId sessionId) (found : world.ledger.row parent = some row)
    (calm : row.escalation = none) (foundNew : after.ledger.row parent = some new)
    (escalated : new.escalation.isSome) :
    world.ledger.Covers parent (env.normalizeSessionId sessionId) := by
  have rowId : row.sessionId = parent := World.row_sessionId found
  have change := serves.rowChange sound found foundNew
  dsimp only at change
  cases change with
  | counted counts => simp [counts.escalation_eq, calm] at escalated
  | marked stale marks => simp [marks.escalation_eq, calm] at escalated
  | submitted submits changes => exact absurd (rowId.symm.trans submits.resolves.sessionId_eq) other
  | escalated submits framed owner cause escalates =>
      rw [← submits.resolves.sessionId_eq, ← rowId]
      exact (Ledger.parent_iff_covers sound.forest).mp owner
  | delivered submits reached atEnd framed called owner resolves at_ isCall valid applies gone =>
      simp [applies.escalation_eq, calm] at escalated

def World.Silences (env : Env) (world : World) (parent child : SessionId) : Prop :=
  Issued env world.minted child ∧ (world.ledger.row child = none ∨
    world.ledger.Covers parent child ∧ ∃ row, world.ledger.row parent = some row ∧
      row.escalation.isSome)

theorem Serves.silences {request : Request} {after : World} {parent child : SessionId}
    (sound : world.Sound env) (serves : Serves env world request after)
    (calm : ¬Bypasses env request.deployment world request.call)
    (silences : world.Silences env parent child) : after.Silences env parent child := by
  obtain ⟨issued, state⟩ := silences
  have shape := serves.shape sound
  refine ⟨issued.mono shape.minted_le, ?_⟩
  have childOld : child ≠ env.token world.minted := fun same => Issued.not_next (same ▸ issued)
  cases childRow : after.ledger.row child with
  | none => exact .inl rfl
  | some childNew =>
      rcases state with gone | ⟨covers, row, found, escalated⟩
      · rcases serves.rowEffect sound childRow with ⟨old, isOld, -⟩ | ⟨isFresh, -⟩
        · simp [gone] at isOld
        · exact absurd isFresh childOld
      have parentOld : parent ≠ env.token world.minted := fun same =>
        Issued.not_next (same ▸ sound.rowIssued found)
      cases parentRow : after.ledger.row parent with
      | none =>
          obtain ⟨frame, above, rfl⟩ := Ledger.covers_above covers fun _ => World.frame_sessionId
          rcases shape.gone_above sound found above parentRow with gone | orphans
          · simp [gone] at childRow
          · exact absurd (.orphaned orphans found escalated) calm
      | some parentNew =>
          refine .inr ⟨shape.covers_after covers parentOld childOld parentRow childRow, parentNew,
            rfl, ?_⟩
          have rowId : row.sessionId = parent := World.row_sessionId found
          exact ((serves.rowChange sound found parentRow).held sound.forest calm (rowId.symm ▸ found) escalated).escalated

/-- What an escalation holds from this state on. -/
structure World.Absorbing (env : Env) (allowed : World → Request → Prop) (world : World) :
    Prop where
  held : ∀ sid row, world.sessions.lookup sid = some row → row.escalation.isSome →
    ∀ mid request after middle new, Run (Serves env) allowed world mid → allowed mid request →
      Serves env mid request after → mid.sessions.lookup sid = some middle →
      after.sessions.lookup sid = some new → middle.Held request.deployment new
  silenced : ∀ deployment sessionId stepId content branch artifactId failed parent row new,
    allowed world ⟨deployment, .submitStep sessionId stepId content branch artifactId⟩ →
    Serves env world ⟨deployment, .submitStep sessionId stepId content branch artifactId⟩ failed →
    parent ≠ env.normalizeSessionId sessionId → world.sessions.lookup parent = some row →
    row.escalation = none → failed.sessions.lookup parent = some new → new.escalation.isSome →
    ∀ mid other againId again text choice artifact after child,
      Run (Serves env) allowed failed mid →
      env.normalizeSessionId againId = env.normalizeSessionId sessionId →
      allowed mid ⟨other, .submitStep againId again text choice artifact⟩ →
      Serves env mid ⟨other, .submitStep againId again text choice artifact⟩ after →
      mid.sessions.lookup (env.normalizeSessionId sessionId) = some child →
      ∃ same, after.sessions.lookup (env.normalizeSessionId sessionId) = some same ∧
        (same = child ∨ child.Marked same) ∧
        after.ownFrame (env.normalizeSessionId sessionId) =
          mid.ownFrame (env.normalizeSessionId sessionId)

/-- Escalation is absorbing in every run that does not bypass it. -/
theorem Reachable.absorbs
    (reachable : Reachable env (fun state request =>
      ¬Bypasses env request.deployment state request.call) world) :
    world.Absorbing env fun state request =>
      ¬Bypasses env request.deployment state request.call := by
  have sound := reachable.sound
  refine ⟨?_, ?_⟩
  · intro sid row found escalated mid request after middle new run calm serves foundMid foundNew
    have midSound := Run.sound run sound
    have rowId : middle.sessionId = sid := World.row_sessionId foundMid
    have stays : mid.Sound env ∧ Issued env mid.minted sid ∧
      ∀ middle, mid.ledger.row sid = some middle →
        middle.escalation.isSome := by
      refine run.invariant (fun state => state.Sound env ∧ Issued env state.minted sid ∧
        ∀ middle, state.ledger.row sid = some middle →
          middle.escalation.isSome) ⟨sound, sound.rowIssued found, ?_⟩ ?_
      · intro again isAgain
        have looked : world.ledger.row sid = some row := found
        rw [looked, Option.some.injEq] at isAgain
        exact isAgain ▸ escalated
      · rintro state action next ⟨soundState, issued, held⟩ calm serves
        refine ⟨serves.sound soundState, issued.mono (serves.shape soundState).minted_le, ?_⟩
        intro later foundLater
        rcases serves.rowEffect soundState foundLater with ⟨earlier, there, change⟩ | ⟨isFresh, -⟩
        · have earlierId : earlier.sessionId = sid := World.row_sessionId there
          exact (change.held soundState.forest calm (earlierId.symm ▸ there) (held earlier there)).escalated
        · exact absurd (isFresh ▸ issued) Issued.not_next
    exact (serves.rowChange midSound foundMid foundNew).held midSound.forest calm (rowId.symm ▸ foundMid)
      (stays.2.2 middle foundMid)
  · intro deployment sessionId stepId content branch artifactId failed parent row new calm serves other found
      unescalated foundNew escalated mid again againId stepAgain text choice artifact after child run sameId
      calmAgain servesAgain foundChild
    have failedSound := serves.sound sound
    have covers := serves.escalates sound other found unescalated foundNew escalated
    have start : failed.Silences env parent (env.normalizeSessionId sessionId) := by
      obtain ⟨frame, above, same⟩ := Ledger.covers_above covers fun _ => World.frame_sessionId
      obtain ⟨childRow, childThere⟩ := Option.isSome_iff_exists.mp (sound.housed above.1)
      rw [same] at childThere
      have issued := sound.rowIssued childThere
      have shape := serves.shape sound
      refine ⟨issued.mono shape.minted_le, ?_⟩
      cases failedChild : failed.ledger.row (env.normalizeSessionId sessionId) with
      | none => exact .inl rfl
      | some failedRow =>
          refine .inr ⟨shape.covers_after covers ?_ ?_ foundNew failedChild, new, foundNew,
            escalated⟩
          · exact fun fresh => Issued.not_next (fresh ▸ sound.rowIssued found)
          · exact fun fresh => Issued.not_next (fresh ▸ issued)
    have atMid : mid.Sound env ∧ mid.Silences env parent (env.normalizeSessionId sessionId) := by
      refine run.invariant (fun state => state.Sound env ∧
        state.Silences env parent (env.normalizeSessionId sessionId)) ⟨failedSound, start⟩ ?_
      rintro state action next ⟨soundState, silences⟩ calm serves
      exact ⟨serves.sound soundState, serves.silences soundState calm silences⟩
    obtain ⟨midSound, issued, gone | ⟨coversMid, parentRow, parentThere, parentEscalated⟩⟩ := atMid
    · have looked : mid.ledger.row (env.normalizeSessionId sessionId) = some child := foundChild
      simp [looked] at gone
    have closed : ∀ session wf idx step,
      ¬Submits env again mid againId stepAgain text session wf idx step := by
      intro session wf idx step submits
      refine calmAgain (.submitted submits ?_ parentThere parentEscalated)
      rw [submits.resolves.sessionId_eq, sameId]
      exact World.parentOf_of_covers midSound.forest coversMid
    obtain ⟨same, foundSame, kept⟩ := servesAgain.refused midSound closed foundChild
    refine ⟨same, foundSame, kept, (servesAgain.shape midSound).frame_eq ?_ foundSame⟩
    exact fun fresh => Issued.not_next (fresh ▸ issued)

def failingDocs : List Val := [
  workflowDoc "parent" [stepDoc "c" [("call", .str "child")], stepDoc "d" []],
  workflowDoc "child" [stepDoc "x" [("output_schema", .obj [("type", .str "object")]),
    ("max_retries", .int 1)]]]

/-- An environment in which one text is JSON. -/
def readingEnv : Env := sampleReading [("\x7b\x7d", .obj [])]

def failingCalls : List Call :=
  [.startWorkflow "parent" "", .enterSubWorkflow "s" "c", .submitStep "ss" "x" "no" "" ""]

theorem not_bypasses_of_submit {sessionId stepId content branch artifactId : String}
    {parent : SessionId} {row : Session} (room : world.evicted env = [])
    (owner : world.parentOf (env.normalizeSessionId sessionId) = some parent)
    (found : world.ledger.row parent = some row) (unescalated : row.escalation = none) :
    ¬Bypasses env deployment world (.submitStep sessionId stepId content branch artifactId) := by
  intro bypasses
  cases bypasses with
  | submitted submits ownerAgain foundAgain escalated =>
      rw [submits.resolves.sessionId_eq, owner, Option.some.injEq] at ownerAgain
      rw [← ownerAgain, found, Option.some.injEq] at foundAgain
      simp [← foundAgain, unescalated] at escalated
  | orphaned orphans => exact Orphans.not_of_room room Removes.of_submit orphans

theorem not_bypasses_of_room {call : Call} (room : world.evicted env = [])
    (creates : ∀ {sid}, Removes env deployment world call sid → sid ∈ world.evicted env)
    (submits : ∀ sessionId stepId content branch artifactId,
      call ≠ .submitStep sessionId stepId content branch artifactId)
    (revises : ∀ sessionId stepId, call ≠ .reviseStep sessionId stepId) :
    ¬Bypasses env deployment world call := by
  intro bypasses
  cases bypasses with
  | submitted => exact absurd rfl (submits _ _ _ _ _)
  | orphaned orphans => exact Orphans.not_of_room room creates orphans
  | revised => exact absurd rfl (revises _ _)

theorem absorbing_after_failure :
    (serveAll readingEnv (appOf readingEnv failingDocs) World.empty failingCalls).Absorbing readingEnv
      fun state request => ¬Bypasses readingEnv request.deployment state request.call := by
  refine Reachable.absorbs (serveAll_run (by rfl) ⟨?_, ?_, ?_, trivial⟩)
  · exact not_bypasses_of_room (by rfl) Removes.of_start (by simp) (by simp)
  · exact not_bypasses_of_room (by rfl) Removes.of_enter (by simp) (by simp)
  · exact not_bypasses_of_submit (by rfl) (by rfl) (by rfl) (by rfl)

def escalatedParent : World :=
    serveAll readingEnv (appOf readingEnv failingDocs) World.empty failingCalls

def retriedChild : World :=
  serveAll readingEnv (appOf readingEnv failingDocs) escalatedParent [.submitStep "ss" "x" "\x7b\x7d" "" ""]

theorem not_always_absorbing :
    ¬∀ env deployment world, deployment.Accepted env → ServedBy env deployment world →
      world.Absorbing env fun _ request => request.deployment = deployment := by
  intro always
  have absorbing : escalatedParent.Absorbing readingEnv fun _ request =>
      request.deployment = appOf readingEnv failingDocs :=
    always readingEnv (appOf readingEnv failingDocs) escalatedParent (appOf_accepted (by decide))
      (serveAll_served (by rfl))
  have serves : Serves readingEnv escalatedParent ⟨appOf readingEnv failingDocs, _⟩ retriedChild :=
    serves_of_ends (by rfl)
  have failedRow : (escalatedParent.sessions.lookup (sampleToken 0)).isSome = true := by rfl
  have retriedRow : (retriedChild.sessions.lookup (sampleToken 0)).isSome = true := by rfl
  obtain ⟨row, found⟩ := Option.isSome_iff_exists.mp failedRow
  obtain ⟨new, foundNew⟩ := Option.isSome_iff_exists.mp retriedRow
  have escalated : ((escalatedParent.sessions.lookup (sampleToken 0)).bind Session.escalation).isSome = true := by rfl
  have unwritten : ((escalatedParent.sessions.lookup (sampleToken 0)).bind fun row =>
    row.stepData.get? "c") = none := by
    rfl
  have written : ((retriedChild.sessions.lookup (sampleToken 0)).bind fun row =>
    row.stepData.get? "c") =
      some "\x7b\x7d" := by rfl
  rw [found, Option.bind_some] at escalated unwritten
  rw [foundNew, Option.bind_some] at written
  have held := absorbing.held _ row found escalated escalatedParent _ _ row new (Run.refl _) rfl serves found foundNew
  simp [held.entries _ _ written] at unwritten

end Megalos
