import Megalos.Run
import Megalos.Sample

/-!
A digression and the session it was pushed above.  Calls that name the digression, or a
session above it, leave the outer row alone.
-/

namespace Megalos

open ChainForest GuardedRuns KeyedTable StatefulProgram StatefulProgram.Program

variable {env : Env} {deployment : Deployment} {world : World}

def Call.names (env : Env) : Call → Option SessionId
  | .listWorkflows _ | .startWorkflow _ _ | .listSessions => none
  | .getState sessionId | .getGuidelines sessionId | .submitStep sessionId _ _ _ _ | .reviseStep sessionId _
  | .enterSubWorkflow sessionId _ | .pushFlow sessionId _ _ _ | .popFlow sessionId | .deleteSession sessionId
  | .generateArtifact sessionId _ => some (env.normalizeSessionId sessionId)

/-- The session has the given frame, or stands above it in the same chain. -/
def World.AtOrAbove (world : World) (frame : Frame) (sid : SessionId) : Prop :=
  ∃ own, world.ownFrame sid = some own ∧ own.rootSessionId = frame.rootSessionId ∧
    frame.depth ≤ own.depth

inductive Disturbs (env : Env) (deployment : Deployment) (world : World)
    (digression outer : SessionId) : Call → Prop
  | failed {sessionId stepId content branch artifactId : String} {session : Session} {wf : Workflow}
      {idx : Nat}
      {step : Step} (submits : Submits env deployment world sessionId stepId content session wf idx step)
      (named : session.sessionId = digression)
      (fails : (verdictOf env deployment.registry world.outbound.length session wf idx step content branch
        artifactId).fails env = true) :
      Disturbs env deployment world digression outer (.submitStep sessionId stepId content branch artifactId)
  | evicted {call : Call} {spawner : SessionId}
      (above : SpawnsAbove env deployment world call spawner)
      (chosen : outer ∈ world.evicted env) : Disturbs env deployment world digression outer call

def Session.Kept (old new : Session) : Prop := new = old ∨ old.Marked new

def Ledger.Keeps (ledger : Ledger) (sid : SessionId) (row : Session) : Prop :=
  ∃ new, ledger.row sid = some new ∧ row.Kept new

theorem Ledger.Keeps.of_eq {ledger : Ledger} {sid : SessionId} {row : Session}
    (found : ledger.row sid = some row) :
    ledger.Keeps sid row := ⟨row, found, .inl rfl⟩

theorem Session.Kept.trans {first second third : Session} (start : first.Kept second)
    (rest : second.Kept third) :
    first.Kept third := by
  rcases start with rfl | marked
  · exact rest
  · rcases rest with rfl | again
    · exact .inr marked
    · refine .inr ⟨⟨marked.toSame.trans again.toSame, again.currentStep_eq, ?_, ?_⟩, ?_, ?_, ?_⟩
      · exact again.stepData_eq.trans marked.stepData_eq
      · exact again.escalation_eq.trans marked.escalation_eq
      · exact again.retryCounts_eq.trans marked.retryCounts_eq
      · exact again.stepVisitCounts_eq.trans marked.stepVisitCounts_eq
      · exact again.artifactCheckpoints_eq.trans marked.artifactCheckpoints_eq

theorem Submitted.keepsOuter {sessionId stepId content branch artifactId : String}
    {session row : Session} {wf : Workflow} {idx : Nat} {step : Step} {frame : Frame}
    {outer : SessionId} {ledger : Ledger}
    (sound : world.Sound env)
    (submits : Submits env deployment world sessionId stepId content session wf idx step)
    (submitted : Submitted env deployment world session wf idx step content branch artifactId ledger)
    (found : world.ledger.row outer = some row) (above : world.ledger.Above outer frame)
    (digression : frame.frameType = .digression) (apart : outer ≠ session.sessionId)
    (calm : ¬Disturbs env deployment world frame.sessionId outer
      (.submitStep sessionId stepId content branch artifactId)) : ledger.Keeps outer row := by
  have own : ∀ {written : Session},
    (world.ledger.setRow session.sessionId written).row outer = some row := by
    intro written
    rw [Ledger.setRow_row, if_neg apart]
    exact found
  -- the parent of the session is the outer session only if the session is the digression
  have isDigression : world.ledger.Parent session.sessionId outer →
    session.sessionId = frame.sessionId := by
    intro owner
    exact sound.forest.covers_upper ((Ledger.parent_iff_covers sound.forest).mp owner)
      (Ledger.above_covers above)
  cases submitted with
  | answered ends =>
      cases ends with
      | settled => exact .of_eq own
      | failed fails changes wrapped =>
          cases wrapped with
          | root => exact .of_eq own
          | missing => exact .of_eq own
          | @escalated parent _ _ owner =>
              refine .of_eq ?_
              rw [Ledger.setRow_row, if_neg, own]
              rintro rfl
              exact calm (.failed submits (isDigression (Ledger.Parent.of_setRow.mp owner)) fails)
  | finished reached atEnd moved framed finished =>
      generalize kind : Frame.frameType _ = frameType at finished
      have notCalled : world.ledger.Parent session.sessionId outer → frameType ≠ .call := by
        intro owner isCall
        rw [isDigression owner, above.1, Option.some.injEq] at framed
        rw [← kind, ← framed, digression] at isCall
        simp at isCall
      cases finished with
      | orphan => exact .of_eq own
      | retained => exact .of_eq own
      | unchecked => exact .of_eq own
      | @marked _ parent staleRow written owner stale marks =>
          by_cases isOuter : outer = parent
          · subst isOuter
            have there := stale.row
            rw [own, Option.some.injEq] at there
            exact ⟨written, by simp, .inr (there ▸ marks)⟩
          · refine .of_eq ?_
            rw [Ledger.setRow_row, if_neg isOuter, own]
      | popped =>
          refine .of_eq ?_
          rw [Ledger.drop_row, if_neg apart, own]
      | drifted owner =>
          refine .of_eq ?_
          rw [Ledger.setRow_row, if_neg, own]
          rintro rfl
          exact notCalled (Ledger.Parent.of_setRow.mp owner) rfl
      | rejected owner =>
          refine .of_eq ?_
          rw [Ledger.setRow_row, if_neg, own]
          rintro rfl
          exact notCalled (Ledger.Parent.of_setRow.mp owner) rfl
      | delivered owner =>
          refine .of_eq ?_
          rw [Ledger.setRow_row, if_neg, Ledger.dropAbove, Ledger.dropAt_row, Ledger.drop_row,
            if_neg apart, own]
          rintro rfl
          exact notCalled (Ledger.Parent.of_setRow.mp owner) rfl

theorem Grown.keepsOuter {spawner row : Session} {workflowType fingerprint : String}
    {childWf : Workflow} {frameType : FrameType} {ledger : Ledger} {outer : SessionId}
    (sound : world.Sound env)
    (grown : Grown env world spawner workflowType childWf fingerprint frameType ledger)
    (found : world.ledger.row outer = some row) (apart : outer ≠ spawner.sessionId)
    (stays : outer ∉ world.evicted env) : ledger.Keeps outer row := by
  refine .of_eq ?_
  rw [grown.otherRows outer (fun fresh =>
    Issued.not_next (fresh ▸ sound.rowIssued found)) (.inl apart),
    Ledger.without_row, if_neg stays]
  exact found

theorem Serves.keepsOuter {request : Request} {after : World} {frame : Frame}
    {outer named : SessionId} {row : Session} (sound : world.Sound env)
    (serves : Serves env world request after)
    (found : world.ledger.row outer = some row) (above : world.ledger.Above outer frame)
    (digression : frame.frameType = .digression) (names : request.call.names env = some named)
    (within : world.AtOrAbove frame named)
    (calm : ¬Disturbs env request.deployment world frame.sessionId outer request.call) :
    after.ledger.Keeps outer row := by
  obtain ⟨own, framed, sameRoot, deep⟩ := within
  have isFramed : world.ledger.frame named = some own := framed
  have apart : outer ≠ named := by
    rintro rfl
    have depthEq := above.2.2
    rw [Ledger.standing_of_frame isFramed] at depthEq
    dsimp only at depthEq
    omega
  have effect := serves.effect sound
  generalize after.ledger = ledger at effect
  generalize after.minted = minted at effect
  generalize request.call = call at effect names calm
  have isNamed : ∀ {session wf sessionId}, env.normalizeSessionId sessionId = named →
      Resolves request.deployment world.ledger (env.normalizeSessionId sessionId) session wf →
      session.sessionId = named := fun same resolves => resolves.sessionId_eq.trans same
  cases effect with
  | idle => exact .of_eq found
  | @marked _ staleId staleRow new stale marks =>
      by_cases isOuter : outer = staleId
      · subst isOuter
        have there := stale.row
        rw [found, Option.some.injEq] at there
        exact ⟨new, by simp, .inr (there ▸ marks)⟩
      · refine .of_eq ?_
        rw [Ledger.setRow_row, if_neg isOuter]
        exact found
  | started => simp [Call.names] at names
  | submitted submits submitted =>
      simp only [Call.names, Option.some.injEq] at names
      rw [← isNamed names submits.resolves] at apart
      exact submitted.keepsOuter sound submits found above digression apart calm
  | revised revises =>
      simp only [Call.names, Option.some.injEq] at names
      have root := revises.root
      rw [isNamed names revises.resolves, isFramed] at root
      simp at root
  | entered spawns calls spawned =>
      simp only [Call.names, Option.some.injEq] at names
      rw [← isNamed names spawns.resolves] at apart
      exact spawned.toGrown.keepsOuter sound found apart fun chosen =>
        calm (.evicted (.entered spawns calls) chosen)
  | pushed spawns isType shallow room spawned =>
      simp only [Call.names, Option.some.injEq] at names
      rw [← isNamed names spawns.resolves] at apart
      exact spawned.toGrown.keepsOuter sound found apart fun chosen =>
        calm (.evicted (.pushed spawns isType shallow room) chosen)
  | popped pops =>
      simp only [Call.names, Option.some.injEq] at names
      obtain ⟨wf, resolves⟩ := pops.resolves
      rw [← isNamed names resolves] at apart
      refine .of_eq ?_
      rw [Ledger.drop_row, if_neg apart]
      exact found
  | deleted deletes =>
      simp only [Call.names, Option.some.injEq] at names
      have root := deletes.root
      rw [World.row_sessionId deletes.row, names, isFramed] at root
      simp at root

/-- The call is part of the digression: its frame is still there, and the call names it or a session
above it and does not disturb the outer session. -/
def Detours (env : Env) (frame : Frame) (outer : SessionId) (world : World) (request : Request) :
    Prop :=
  (world.ownFrame frame.sessionId).isSome ∧
    (∃ named, request.call.names env = some named ∧ world.AtOrAbove frame named) ∧
    ¬Disturbs env request.deployment world frame.sessionId outer request.call

/-- A digression that is not disturbed is transparent to its outer session, to its end. -/
theorem Reachable.transparent {final : World} {outer : SessionId} {row : Session} {frame : Frame}
    (reachable : Reachable env (fun _ _ => True) world)
    (found : world.sessions.lookup outer = some row)
    (above : world.topFrameFor outer = some frame) (digression : frame.frameType = .digression)
    (run : Run (Serves env) (Detours env frame outer) world final) :
    ∃ new, final.sessions.lookup outer = some new ∧ row.Kept new := by
  have sound := reachable.sound
  have standsAbove := World.topFrameFor_some above
  have kept : final.Sound env ∧ final.ledger.Keeps outer row ∧
      (final.ledger.frame frame.sessionId = none ∨ final.ledger.Above outer frame) := by
    refine run.invariant (fun state => state.Sound env ∧ state.ledger.Keeps outer row ∧
      (state.ledger.frame frame.sessionId = none ∨ state.ledger.Above outer frame))
      ⟨sound, .of_eq found, .inr standsAbove⟩ ?_
    rintro state request after ⟨soundState, ⟨middle, foundMiddle, keptMiddle⟩, stands⟩
      ⟨framed, ⟨named, names, within⟩, calm⟩ serves
    have aboveState : state.ledger.Above outer frame := by
      refine stands.resolve_left fun gone => ?_
      have isGone : state.ownFrame frame.sessionId = none := gone
      simp [isGone] at framed
    obtain ⟨new, foundNew, keptNew⟩ :=
      serves.keepsOuter soundState foundMiddle aboveState digression names within calm
    have shape := serves.shape soundState
    refine ⟨serves.sound soundState, ⟨new, foundNew, keptMiddle.trans keptNew⟩, ?_⟩
    cases there : after.ledger.frame frame.sessionId with
    | none => exact .inl rfl
    | some later =>
        obtain ⟨frameRow, housed⟩ := Option.isSome_iff_exists.mp (soundState.housed aboveState.1)
        have frameOld : frame.sessionId ≠ env.token state.minted := fun fresh =>
          Issued.not_next (fresh ▸ soundState.rowIssued housed)
        have outerOld : outer ≠ env.token state.minted := fun fresh =>
          Issued.not_next (fresh ▸ soundState.rowIssued foundMiddle)
        have same := shape.frame_kept frameOld there
        rw [aboveState.1, Option.some.injEq] at same
        subst same
        refine .inr ⟨there, ?_, ?_⟩
        · rw [Ledger.standing, shape.frame_eq outerOld foundNew]
          exact aboveState.2.1
        · rw [Ledger.standing, shape.frame_eq outerOld foundNew]
          exact aboveState.2.2
  exact kept.2.1

def detourDocs : List Val := [
  workflowDoc "outer" [stepDoc "a" [], stepDoc "b" []],
  workflowDoc "side" [stepDoc "x" [("output_schema", .obj [("type", .str "object")]),
    ("max_retries", .int 1)]],
  workflowDoc "aside" [stepDoc "y" [], stepDoc "z" []]]

def detoured (side : String) : World :=
  serveAll sampleEnv (appOf sampleEnv detourDocs) World.empty [.startWorkflow "outer" "",
    .pushFlow "s" side "a" ""]

def sideFrame : Frame := ⟨sampleToken 1, sampleToken 0, 1, .digression, some "a", 2⟩

def endedAside : World :=
  serveAll sampleEnv (appOf sampleEnv detourDocs) (detoured "aside")
    [.submitStep "ss" "y" "done" "" "", .popFlow "ss"]

theorem transparent_to_end :
    ∃ row new, (detoured "aside").sessions.lookup (sampleToken 0) = some row ∧
      endedAside.sessions.lookup (sampleToken 0) = some new ∧ row.Kept new := by
  have outerRow : ((detoured "aside").sessions.lookup (sampleToken 0)).isSome = true := by rfl
  obtain ⟨row, found⟩ := Option.isSome_iff_exists.mp outerRow
  have reachable : Reachable sampleEnv (fun _ _ => True) (detoured "aside") := by
    exact serveAll_run (by rfl) (by exact ⟨trivial, trivial, trivial⟩)
  have submitted : ¬Disturbs sampleEnv (appOf sampleEnv detourDocs)
    (detoured "aside") sideFrame.sessionId
      (sampleToken 0) (.submitStep "ss" "y" "done" "" "") := by
    intro disturbs
    cases disturbs with
    | failed submits named fails =>
        have verdict : (submissionVerdict sampleEnv (appOf sampleEnv detourDocs) (detoured "aside") "ss" "y" "done" ""
            "").map (·.fails sampleEnv) = some false := by rfl
        rw [submits.verdict_eq, Option.map_some, fails] at verdict
        simp at verdict
    | evicted above => cases above
  have popped : ∀ {world : World},
    ¬Disturbs sampleEnv (appOf sampleEnv detourDocs) world sideFrame.sessionId
      (sampleToken 0) (.popFlow "ss") := by
    intro world disturbs
    cases disturbs with
    | evicted above => cases above
  have run : Run (Serves sampleEnv) (Detours sampleEnv sideFrame (sampleToken 0))
    (detoured "aside") endedAside :=
    serveAll_run (by rfl)
      (by exact ⟨⟨by rfl, ⟨sampleToken 1, by rfl, sideFrame, by rfl, rfl, by decide⟩, submitted⟩,
      ⟨by rfl, ⟨sampleToken 1, by rfl, sideFrame, by rfl, rfl, by decide⟩, popped⟩, trivial⟩)
  obtain ⟨new, foundNew, kept⟩ := Reachable.transparent reachable found (by rfl) (by rfl) run
  exact ⟨row, new, found, foundNew, kept⟩

def failedSide : World :=
  serveAll sampleEnv (appOf sampleEnv detourDocs) (detoured "side")
    [.submitStep "ss" "x" "no" "" ""]

/-- A digression that fails escalates its outer session. -/
theorem not_always_transparent :
    ¬∀ env deployment world, deployment.Accepted env → ServedBy env deployment world →
      ∀ outer row frame final, world.sessions.lookup outer = some row →
        world.topFrameFor outer = some frame →
        frame.frameType = .digression →
        Run (Serves env) (fun state request => request.deployment = deployment ∧
          (state.ownFrame frame.sessionId).isSome ∧
          ∃ named, request.call.names env = some named ∧ state.AtOrAbove frame named) world final →
        ∃ new, final.sessions.lookup outer = some new ∧ row.Kept new := by
  intro always
  have outerRow : ((detoured "side").sessions.lookup (sampleToken 0)).isSome = true := by rfl
  obtain ⟨row, found⟩ := Option.isSome_iff_exists.mp outerRow
  have calm : ((detoured "side").sessions.lookup (sampleToken 0)).map (fun row =>
    row.escalation.isSome) =
      some false := by rfl
  rw [found, Option.map_some, Option.some.injEq] at calm
  have run : Run (Serves sampleEnv)
    (fun state request => request.deployment = appOf sampleEnv detourDocs ∧
      (state.ownFrame sideFrame.sessionId).isSome ∧
      ∃ named, request.call.names sampleEnv = some named ∧
        state.AtOrAbove sideFrame named) (detoured "side")
      failedSide :=
    serveAll_run (by rfl)
      (by exact ⟨⟨rfl, by rfl, ⟨sampleToken 1, by rfl, sideFrame, by rfl, rfl, by decide⟩⟩,
        trivial⟩)
  obtain ⟨new, foundNew, kept⟩ := always sampleEnv (appOf sampleEnv detourDocs) (detoured "side")
    (appOf_accepted (by decide)) (serveAll_served (by rfl))
      (sampleToken 0) row sideFrame failedSide found (by rfl)
    (by rfl) run
  have escalated : (failedSide.sessions.lookup (sampleToken 0)).map (fun row =>
    row.escalation.isSome) = some true := by
    rfl
  rw [foundNew, Option.map_some, Option.some.injEq] at escalated
  rcases kept with rfl | marked
  · simp [escalated] at calm
  · rw [marked.escalation_eq] at escalated
    simp [escalated] at calm

end Megalos
