import Megalos.RowChange
import Megalos.Sample

/-!
Whose artifact a parent receives.  The parent that the stack finds for a session is
the one recorded when the session was created, so a delivery reaches that session,
and a child abandoned by a revision of its call-step delivers nothing.
-/

namespace Megalos

open ChainForest GuardedRuns KeyedTable StatefulProgram StatefulProgram.Program

variable {env : Env} {deployment : Deployment} {world : World}

/-- The call removes a session that stands under another and leaves the frame above it. -/
def Uncouples (env : Env) (deployment : Deployment) (world : World) (call : Call) : Prop :=
  ∃ lower upper, Orphans env deployment world call lower upper ∧ (world.ownFrame lower).isSome

structure Ledger.Coupled (ledger : Ledger) : Prop where
  covered : ∀ {sid row parent}, ledger.row sid = some row → row.parentSessionId = some parent →
    ledger.Covers parent sid
  owned : ∀ {sid row frame}, ledger.row sid = some row → ledger.frame sid = some frame →
    row.parentSessionId.isSome

theorem Ledger.Shrinks.coupled {before after : Ledger} {gone : SessionId → Prop}
    (shrinks : before.Shrinks after gone) (coupled : before.Coupled)
    (rooted : ∀ {lower upper}, gone lower → before.Covers lower upper → ¬gone upper →
      before.frame lower = none) : after.Coupled where
  covered {sid new parent} found owner := by
    classical
    obtain ⟨stays, row, there, same⟩ := shrinks.row_of_after found
    have covers := coupled.covered there (same.parentSessionId_eq ▸ owner)
    rw [Covers, shrinks.places_eq, remove_covers]
    · exact ⟨stays, covers⟩
    · exact fun isGone => places_none.mpr (rooted isGone covers stays)
  owned {sid new frame} found framed := by
    obtain ⟨-, row, there, same⟩ := shrinks.row_of_after found
    rw [same.parentSessionId_eq]
    exact coupled.owned there (shrinks.frame_of_after framed).2

theorem World.rooted_of_cause {gone : SessionId → Prop} {call : Call}
    (whole : ¬Uncouples env deployment world call)
    (cause : ∀ {lower upper}, gone lower → world.ledger.Above lower upper →
      gone upper.sessionId ∨
        Orphans env deployment world call lower upper) {lower upper : SessionId}
    (isGone : gone lower) (covers : world.ledger.Covers lower upper) (stays : ¬gone upper) :
    world.ledger.frame lower = none := by
  obtain ⟨frame, above, rfl⟩ := Ledger.covers_above covers fun _ => World.frame_sessionId
  have orphans := (cause isGone above).resolve_left stays
  cases framed : world.ledger.frame lower with
  | none => rfl
  | some own =>
      have isFramed : (world.ownFrame lower).isSome := by
        rw [show world.ownFrame lower = some own from framed]
        rfl
      exact absurd ⟨lower, frame, orphans, isFramed⟩ whole

theorem Shape.coupled {call : Call} {ledger : Ledger} {minted : Nat} (sound : world.Sound env)
    (shape : Shape env deployment world call ledger minted)
    (whole : ¬Uncouples env deployment world call)
    (coupled : world.ledger.Coupled) : ledger.Coupled := by
  cases shape with
  | shrunk shrinks cause grown => exact shrinks.coupled coupled (World.rooted_of_cause whole cause)
  | @rooted row makesRoom unowned =>
      have shrinks := Ledger.Shrinks.without world.ledger (world.evicted env)
      have rest := shrinks.coupled coupled (World.rooted_of_cause whole makesRoom.cause)
      have soundRest := shrinks.sound sound (le_refl _)
      refine ⟨?_, ?_⟩
      · intro sid new parent found owner
        rw [Ledger.setRow_row] at found
        split at found
        · rw [Option.some.injEq] at found
          rw [← found, unowned] at owner
          simp at owner
        · exact rest.covered found owner
      · intro sid new frame found framed
        rw [Ledger.setRow_row] at found
        split at found
        · rename_i isFresh
          obtain ⟨house, there⟩ := Option.isSome_iff_exists.mp (soundRest.housed framed)
          rw [isFresh] at there
          exact absurd (soundRest.rowIssued there) Issued.not_next
        · exact rest.owned found framed
  | @spawned base outer row frame above found bare shrinks owned placed =>
      have rest := shrinks.coupled coupled (World.rooted_of_cause whole (MakesRoom.spawned above).cause)
      have soundRest := shrinks.sound sound (le_refl _)
      have notFresh : ∀ {sid}, Issued env world.minted sid → sid ≠ env.token world.minted := by
        rintro sid issued rfl
        exact Issued.not_next issued
      refine ⟨?_, ?_⟩
      · intro sid new parent there owner
        rw [Ledger.Covers, Shape.spawned_places placed, ChainForest.Covers]
        simp only [Ledger.setFrame_row, Ledger.setRow_row] at there
        split at there
        · rename_i isFresh
          rw [Option.some.injEq] at there
          rw [← there, owned, Option.some.injEq] at owner
          rw [isFresh, push_self, ← owner, standing_push (notFresh (sound.rowIssued found))]
        · rename_i differs
          have issued := soundRest.ownerIssued there owner
          rw [push_other differs, standing_push (notFresh issued)]
          exact rest.covered there owner
      · intro sid new other there framed
        simp only [Ledger.setFrame_row, Ledger.setRow_row] at there
        split at there
        · rw [Option.some.injEq] at there
          rw [← there, owned]
          rfl
        · rename_i differs
          rw [Ledger.setFrame_frame, if_neg differs] at framed
          exact rest.owned there framed

/-- The call writes the step data of a session: it names the session, or a child called from it. -/
inductive WritesData (env : Env) (world : World) (sid : SessionId) : Call → Prop
  | submitted {sessionId stepId content branch artifactId : String}
      (named : env.normalizeSessionId sessionId = sid) :
      WritesData env world sid (.submitStep sessionId stepId content branch artifactId)
  | revised {sessionId stepId : String} (named : env.normalizeSessionId sessionId = sid) :
      WritesData env world sid (.reviseStep sessionId stepId)
  | delivered {sessionId stepId content branch artifactId : String} {child : Session}
      {frame : Frame}
      (found : world.sessions.lookup (env.normalizeSessionId sessionId) = some child)
      (framed : world.ownFrame (env.normalizeSessionId sessionId) = some frame)
      (called : frame.frameType = .call) (recorded : child.parentSessionId = some sid) :
      WritesData env world sid (.submitStep sessionId stepId content branch artifactId)

/-- Where a parent's entries come from, now and in every run that goes on from here. -/
structure World.Provenance (env : Env) (world : World) : Prop where
  recorded : ∀ sid row, world.sessions.lookup sid = some row → (world.ownFrame sid).isSome →
    world.parentOf sid = row.parentSessionId
  written : ∀ request after sid row new, Serves env world request after →
    world.sessions.lookup sid = some row → after.sessions.lookup sid = some new →
    new.stepData ≠ row.stepData → WritesData env world sid request.call
  abandoned : ∀ deployment sessionId stepId parent wf idx target after final,
    Revises env deployment world sessionId stepId parent wf idx target → target.isCall = true →
    Serves env world ⟨deployment, .reviseStep sessionId stepId⟩ after →
    Run (Serves env) (fun _ _ => True) after final →
    ∀ child row, world.sessions.lookup child = some row →
      row.parentSessionId = some parent.sessionId →
      final.sessions.lookup child = none

theorem Ledger.Coupled.parent_eq (coupled : world.ledger.Coupled) (sound : world.Sound env)
    {child : Session} {parent : SessionId} {frame : Frame}
    (found : world.ledger.row child.sessionId = some child)
    (framed : world.ledger.frame child.sessionId = some frame)
    (owner : world.ledger.Parent child.sessionId parent) : child.parentSessionId = some parent := by
  obtain ⟨recorded, isRecorded⟩ := Option.isSome_iff_exists.mp (coupled.owned found framed)
  have covers := (Ledger.parent_iff_covers sound.forest).mp owner
  rw [isRecorded, sound.forest.covers_lower (coupled.covered found isRecorded) covers]

theorem RowChange.writes {after : Ledger} {call : Call} {row new : Session}
    (sound : world.Sound env) (coupled : world.ledger.Coupled)
    (change : RowChange env deployment world after call row new)
    (differs : new.stepData ≠ row.stepData) : WritesData env world row.sessionId call := by
  cases change with
  | counted counts => exact absurd counts.stepData_eq differs
  | marked stale marks => exact absurd marks.stepData_eq differs
  | submitted submits changes => exact .submitted submits.resolves.sessionId_eq.symm
  | revised revises moved dropped => exact .revised revises.resolves.sessionId_eq.symm
  | escalated submits framed owner cause escalates => exact absurd escalates.stepData_eq differs
  | delivered submits reached atEnd framed called owner =>
      have sameId := submits.resolves.sessionId_eq
      have found := submits.resolves.row
      rw [← sameId] at found
      have recorded := coupled.parent_eq sound found framed owner
      rw [sameId] at found framed
      exact .delivered found framed called recorded

theorem Revises.abandons {sessionId stepId : String} {parent row : Session} {wf : Workflow}
    {idx : Nat} {target : Step} {after : World} {child : SessionId} (sound : world.Sound env)
    (coupled : world.ledger.Coupled)
    (revises : Revises env deployment world sessionId stepId parent wf idx target)
    (call : target.isCall = true)
    (serves : Serves env world ⟨deployment, .reviseStep sessionId stepId⟩ after)
    (found : world.ledger.row child = some row)
    (recorded : row.parentSessionId = some parent.sessionId) :
    after.ledger.row child = none := by
  obtain ⟨outcome, ran, finite⟩ := serves
  obtain ⟨ledger, effect, reaches⟩ := (settles_reviseStep sound sessionId stepId).elim ran finite
  have covers := coupled.covered found recorded
  obtain ⟨frame, above, sameId⟩ := Ledger.covers_above covers fun _ => World.frame_sessionId
  rw [reaches.ledger_eq]
  cases effect with
  | refused closed => exact absurd revises (closed _ _ _ _)
  | marked stale => exact absurd stale revises.resolves.not_stale
  | revised again moved =>
      obtain ⟨rfl, rfl, rfl, rfl⟩ := revises.unique again
      have top : world.topFrameFor parent.sessionId = some frame := by
        cases held : world.topFrameFor parent.sessionId with
        | none => exact absurd above (World.topFrameFor_none_iff.mp held frame)
        | some other =>
            have otherAbove := World.topFrameFor_some held
            have same := sound.forest.covers_upper (Ledger.above_covers otherAbove)
              (Ledger.above_covers above)
            have foundOther := otherAbove.1
            rw [same, above.1] at foundOther
            rw [foundOther]
      rw [revisedChild, if_pos call, top, Ledger.afterRevision, Ledger.setRow_row,
        if_neg (ChainForest.Covers.ne covers).symm, Ledger.dropAbove, Ledger.dropAt_row, Ledger.drop_row,
        if_pos sameId.symm]

theorem Reachable.coupled
    (reachable : Reachable env (fun world request =>
      ¬Uncouples env request.deployment world request.call) world) :
    world.ledger.Coupled := by
  refine reachable.invariant (fun state => state.ledger.Coupled) ⟨?_, ?_⟩ ?_
  · intro sid row parent found
    exact nomatch found
  · intro sid row frame found
    exact nomatch found
  · intro before request after sound coupled whole serves
    exact (serves.shape sound).coupled sound whole coupled

/-- In a run that uncouples nothing, deliveries go to the recorded parent, and an abandoned child
delivers nothing. -/
theorem Reachable.provenance
    (reachable : Reachable env (fun world request =>
      ¬Uncouples env request.deployment world request.call) world) :
    world.Provenance env := by
  have sound := reachable.sound
  have coupled := reachable.coupled
  refine ⟨?_, ?_, ?_⟩
  · intro sid row found framed
    obtain ⟨frame, isFrame⟩ := Option.isSome_iff_exists.mp framed
    obtain ⟨parent, recorded⟩ := Option.isSome_iff_exists.mp (coupled.owned found isFrame)
    rw [recorded]
    exact World.parentOf_of_covers sound.forest (coupled.covered found recorded)
  · intro request after sid row new serves found foundNew differs
    have change := serves.rowChange sound found foundNew
    have sameId : row.sessionId = sid := World.row_sessionId found
    rw [← sameId]
    exact change.writes sound coupled differs
  · intro deployment sessionId stepId parent wf idx target after final revises call serves run child row found
      recorded
    refine Run.gone_forever run (serves.sound sound) ((sound.rowIssued found).mono ?_) ?_
    · exact (serves.shape sound).minted_le
    · exact revises.abandons sound coupled call serves found recorded

theorem not_uncouples_of_room {call : Call} (room : world.evicted env = [])
    (creates : ∀ {sid}, Removes env deployment world call sid → sid ∈ world.evicted env) :
    ¬Uncouples env deployment world call := by
  rintro ⟨lower, upper, orphans, -⟩
  exact Orphans.not_of_room room creates orphans

theorem provenance_nested :
    (serveAll sampleEnv (appOf sampleEnv nestedDocs) World.empty
      [.startWorkflow "outer" "", .enterSubWorkflow "s" "a", .enterSubWorkflow "ss" "m"]).Provenance
        sampleEnv := by
  refine Reachable.provenance (serveAll_run (by rfl) ⟨?_, ?_, ?_, trivial⟩)
  · exact not_uncouples_of_room (by rfl) Removes.of_start
  · exact not_uncouples_of_room (by rfl) Removes.of_enter
  · exact not_uncouples_of_room (by rfl) Removes.of_enter

/-- A revision below two nested calls removes the middle session and keeps the innermost one. -/
def decoupled : World :=
  serveAll sampleEnv (appOf sampleEnv nestedDocs) World.empty
    [.startWorkflow "outer" "", .enterSubWorkflow "s" "a", .enterSubWorkflow "ss" "m",
      .reviseStep "s" "a"]

theorem not_always_provenance :
    ¬∀ env deployment world, deployment.Accepted env → ServedBy env deployment world →
      world.Provenance env := by
  intro always
  have provenance : decoupled.Provenance sampleEnv :=
    always _ _ _ (appOf_accepted (by decide)) (serveAll_served (by rfl))
  have looked := provenance.recorded (sampleToken 2) _ rfl rfl
  exact nomatch looked

end Megalos
