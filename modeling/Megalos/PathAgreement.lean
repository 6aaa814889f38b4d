import Megalos.ArtifactKeys
import Megalos.Mirror

/-!
The two paths of `submit_step` agree: what the artifact path stores beside the step data is
seen by nothing that comes after it.
-/

namespace Megalos

open KeyedTable StatefulProgram StatefulProgram.Program

/-- What can be told of a row's times and checkpoints: when it was made, and whether it is complete.
-/
def seeEnds (created : Timestamp) (completed : Option Timestamp) (_ : Dict (Dict String)) :
    Timestamp × Bool :=
  (created, completed.isSome)

/-- The stores differ in checkpoints and in what the clock read. -/
structure Shadow (left right : World) : Prop where
  row : ∀ sid, (left.sessions.lookup sid).map (Session.seen seeEnds) =
    (right.sessions.lookup sid).map (Session.seen seeEnds)
  stack : left.sessionStack = right.sessionStack
  minted : left.minted = right.minted
  outbound : left.outbound = right.outbound

variable {env : Env} {sid : SessionId} {left right : World}

namespace Shadow

theorem refl (world : World) : Shadow world world := ⟨fun _ => rfl, rfl, rfl, rfl⟩

theorem contains (shadow : Shadow left right) (sid : SessionId) :
    left.sessions.contains sid = right.sessions.contains sid := by
  have same := congrArg Option.isSome (shadow.row sid)
  rwa [Option.isSome_map, Option.isSome_map] at same

theorem ownFrame (shadow : Shadow left right) : left.ownFrame sid = right.ownFrame sid := by
  rw [World.ownFrame, World.ownFrame, shadow.stack]

theorem standing (shadow : Shadow left right) : left.standing sid = right.standing sid := by
  rw [World.standing, World.standing, shadow.ownFrame]

theorem parentOf (shadow : Shadow left right) : left.parentOf sid = right.parentOf sid := by
  simp only [World.parentOf, World.frameAt, shadow.ownFrame, shadow.stack]

theorem update (shadow : Shadow left right) {change other : Session → Session}
    {keeps : ∀ session, (change session).sessionId = session.sessionId}
    {otherKeeps : ∀ session, (other session).sessionId = session.sessionId}
    (alike : ∀ first second, first.seen seeEnds = second.seen seeEnds →
      (change first).seen seeEnds = (other second).seen seeEnds) :
    Shadow { left with sessions := left.sessions.update sid change keeps }
      { right with sessions := right.sessions.update sid other otherKeeps } := by
  refine ⟨fun wanted => ?_, shadow.stack, shadow.minted, shadow.outbound⟩
  have rows := shadow.row wanted
  dsimp only
  rw [Table.lookup_update, Table.lookup_update]
  split
  · revert rows
    rcases left.sessions.lookup wanted with _ | first <;> rcases right.sessions.lookup wanted with _ | second <;> intro rows
    · rfl
    · cases rows
    · cases rows
    · exact congrArg some (alike _ _ (Option.some.inj rows))
  · exact rows

theorem erase (shadow : Shadow left right) :
    Shadow { left with sessions := left.sessions.erase sid, sessionStack :=
      left.sessionStack.erase sid }
      { right with sessions := right.sessions.erase sid, sessionStack :=
        right.sessionStack.erase sid } := by
  refine ⟨fun wanted => ?_, by simp only [shadow.stack], shadow.minted, shadow.outbound⟩
  dsimp only
  rw [Table.lookup_erase, Table.lookup_erase]
  split
  · rfl
  · exact shadow.row wanted

end Shadow

theorem shadow_nowIso : Lockstep Shadow Shadow (fun _ _ => True) (nowIso env) (nowIso env) := by
  have reads : Lockstep Shadow Shadow (fun _ _ => True)
    (read fun world => env.clock world.ticks : Server Timestamp)
      (read fun world => env.clock world.ticks) := lockstep_read fun _ _ _ => trivial
  refine lockstep_bind reads fun _ _ _ => ?_
  refine lockstep_bind_eq (lockstep_write fun _ _ shadow => ?_) fun _ => lockstep_pure trivial
  exact ⟨shadow.row, shadow.stack, shadow.minted, shadow.outbound⟩

theorem shadow_changeRow {change other : Session → Session}
    {keeps : ∀ session, (change session).sessionId = session.sessionId}
    {otherKeeps : ∀ session, (other session).sessionId = session.sessionId}
    (alike : ∀ first second, first.seen seeEnds = second.seen seeEnds →
      (change first).seen seeEnds = (other second).seen seeEnds) :
    Lockstep Shadow Shadow Eq (changeRow env sid change keeps)
    (changeRow env sid other otherKeeps) := by
  refine lockstep_bind shadow_nowIso fun now later _ => ?_
  refine lockstep_bind_eq (lockstep_read fun _ _ shadow => shadow.contains sid) fun found => ?_
  refine lockstep_ite (fun _ => ?_) fun _ => lockstep_raise _
  exact lockstep_write fun _ _ shadow => shadow.update alike

theorem shadow_getSession :
    Lockstep Shadow Shadow (fun first second => first.seen seeEnds = second.seen seeEnds)
    (getSession sid) (getSession sid) := by
  have reads : Lockstep Shadow Shadow (fun first second =>
    first.map (Session.seen seeEnds) = second.map (Session.seen seeEnds))
      (read fun world => world.sessions.lookup sid : Server (Option Session))
        (read fun world => world.sessions.lookup sid) :=
    lockstep_read fun _ _ shadow => shadow.row sid
  refine lockstep_bind reads ?_
  rintro (_ | first) (_ | second) same
  · exact lockstep_raise _
  · exact nomatch same
  · exact nomatch same
  · exact lockstep_pure (Option.some.inj same)

theorem shadow_mirror : Mirror env seeEnds (fun _ => True) Shadow where
  stamps same both := by
    simp only [seeEnds, Prod.mk.injEq, Option.isSome_or] at same ⊢
    simp [same, both]
  lookup shadow _ := shadow.row _
  ownFrame shadow _ := shadow.ownFrame
  parentOf shadow _ := shadow.parentOf
  parentInside _ _ _ := trivial
  nowIso := shadow_nowIso
  changeRow _ alike := shadow_changeRow alike
  unlink _ := by
    refine lockstep_atomically (lockstep_bind_eq (shadow_changeRow ?_) fun _ => ?_) ?_
    · intro first second same
      obtain ⟨created, updated, completed, checkpoints, kept, rfl⟩ := Session.seen_eq same
      exact Prod.ext rfl kept
    · refine lockstep_bind_eq (lockstep_read fun _ _ shadow => shadow.standing) fun place => ?_
      refine lockstep_write fun left right shadow => ?_
      exact ⟨shadow.row, by simp only [shadow.stack], shadow.minted, shadow.outbound⟩
    · intro first second reached arrived before after
      exact ⟨before.row, before.stack, after.minted, after.outbound⟩
  deleteSessionRow _ := by
    refine lockstep_bind shadow_getSession fun _ _ _ => ?_
    refine lockstep_bind_eq (lockstep_write fun _ _ shadow => shadow.erase) fun _ =>
      lockstep_pure trivial
  mcpCall registry request := by
    refine lockstep_bind_eq (lockstep_ofExcept _) fun _ => ?_
    refine lockstep_bind_eq (lockstep_read fun left right shadow =>
      by rw [shadow.outbound]) fun outcome => ?_
    refine lockstep_bind_eq (lockstep_write fun left right shadow => ?_) fun _ =>
      lockstep_return outcome
    exact ⟨shadow.row, shadow.stack, shadow.minted, by simp only [shadow.outbound]⟩

theorem shadow_storeArtifact {stepId artifactId content : String} (world : World) :
    Shadow ((storeArtifact env sid stepId artifactId content).run world).2 world := by
  have holds : Wp (storeArtifact env sid stepId artifactId content)
    (fun _ after => Shadow after world) world := by
    unfold storeArtifact changeRow nowIso
    simp only [wp_bind, wp_read, wp_write, wp_pure]
    split
    · rw [wp_write]
      refine ⟨fun wanted => ?_, rfl, rfl, rfl⟩
      rw [Table.lookup_update]
      split
      · rw [Option.map_map]
        rfl
      · rfl
    · exact ⟨fun _ => rfl, rfl, rfl, rfl⟩
  exact holds

/-- The responses are the same, but that the first may name the artifact. -/
def SameBut (artifactId : String) (first second : Val) : Prop :=
  first = second ∨ ∃ before after,
    first = .obj (before ++ ("artifact_id", .str artifactId) :: after) ∧
    second = .obj (before ++ after)

variable {deployment : Deployment} {world : World} {session : Session} {wf : Workflow} {idx : Nat}
  {step : Step} {sessionId stepId content branch artifactId : String}

theorem SameBut.inserted (before progress warned tail : List (String × Val)) :
    SameBut artifactId (.obj (before ++ [("artifact_id", .str artifactId)] ++ progress ++ warned ++
      tail))
    (.obj (before ++ [] ++ progress ++ warned ++ tail)) :=
  .inr ⟨before, progress ++ warned ++ tail, by simp, by simp⟩

theorem submittedResponse_artifact (warning : Option Val) (pointer : Val) (stepData : StepData) :
    Alike (SameBut artifactId)
    (submittedResponse env wf idx step sessionId (some artifactId) warning pointer stepData)
    (submittedResponse env wf idx step sessionId none warning pointer stepData) := by
  unfold submittedResponse
  cases stepRef step false with
  | error raised => exact .error raised
  | ok submitted =>
      cases advanceFields env wf pointer stepData with
      | error raised => exact .error raised
      | ok tail =>
          exact .ok (.inserted _ _ _ _)

def concluded (env : Env) (deployment : Deployment) (wf : Workflow) : Submission → Server Val
  | .answered response => pure response
  | .completed child => autoResumeOnTopFrameComplete env deployment child wf

theorem resolveSession_ok {presented : String}
    (resolves : Resolves deployment world.ledger sid session wf) :
    (resolveSession env deployment presented sid).run world = (.ok (.ok (session, wf)), world) := by
  have holds : Wp (resolveSession env deployment presented sid)
      (fun outcome after => outcome = .ok (.ok (session, wf)) ∧ after = world) world := by
    refine wp_resolveSession ?_ ?_ ?_
    · intro other otherWf again
      obtain ⟨rfl, rfl⟩ := resolves.unique again
      exact ⟨rfl, rfl⟩
    · intro err _ refused _
      exact absurd resolves (refused session wf)
    · intro err other new after _ stale _ _
      exact absurd stale resolves.not_stale
  exact Prod.ext holds.1 holds.2

/-- A submission whose content passes its check, from the place where the paths meet. -/
theorem submitStep_commits (submits : Submits env deployment world sessionId stepId content session wf idx step)
    (passes : ContentPasses env step content artifactId) :
    (submitStep env deployment sessionId stepId content branch artifactId).run world =
      (trapErrors env "content" (some sessionId)
        (commitSubmission env deployment sessionId session wf idx step content branch (shownArtifact step artifactId) >>=
          concluded env deployment wf)).run (checkpointed env world session step content artifactId) := by
  have row : world.ledger.row session.sessionId = some session := by
    rw [submits.resolves.sessionId_eq]
    exact submits.resolves.row
  have checks : checkStrs [(sessionId, "session_id", true), (stepId, "step_id", true),
      (content, "content", false), (branch, "branch", false), (artifactId, "artifact_id", false)] =
        none := by
    simp [checkStrs, checkStr, submits.named, submits.stepNamed]
  have resolved : (withSession env deployment sessionId [(sessionId, "session_id", true),
        (stepId, "step_id", true), (content, "content", false), (branch, "branch",
          false), (artifactId, "artifact_id", false)]
        fun session wf => submitResolved env deployment sessionId stepId content branch artifactId session wf >>=
          concluded env deployment wf).run world =
      (submitResolved env deployment sessionId stepId content branch artifactId session wf >>=
        concluded env deployment wf).run world := by
    unfold withSession
    rw [checks]
    exact run_bind_ok (resolveSession_ok submits.resolves)
  have commits : (submitResolved env deployment sessionId stepId content branch artifactId session wf).run world = _ :=
    submitResolved_commits submits.accepts row passes
  exact run_rescue_congr (resolved.trans (run_bind_congr commits))

/-- The submission is accepted alike when the step has lost the keys of its artifacts. -/
theorem Submits.strippedAt (submits : Submits env deployment world sessionId stepId content session wf idx step) :
    Submits env (deployment.strippedAt session.workflowType wf idx) world sessionId stepId content session
      (wf.strippedAt idx) idx step.stripped where
  named := submits.named
  stepNamed := submits.stepNamed
  resolves :=
    { row := submits.resolves.row
      caller := submits.resolves.caller
      unmarked := submits.resolves.unmarked
      loaded := by rw [Deployment.strippedAt, Dict.get?_set, if_pos rfl]
      unchanged := submits.resolves.unchanged }
  accepts :=
    { unescalated := submits.accepts.unescalated
      unfinished := submits.accepts.unfinished
      inOrder := submits.accepts.inOrder
      fits := submits.accepts.fits
      bare := submits.accepts.bare
      found := findStep_strippedAt submits.accepts.found submits.accepts.uncalled
      uncalled := by
        rw [← (Step.like_stripped submits.accepts.uncalled).isCall]
        exact submits.accepts.uncalled }

theorem flag_stripped {key : String} (isKey : key ∈ artifactKeys) :
    step.stripped.flag key = false := by
  rw [Step.flag, step.stripped_none isKey]
  rfl

/-- Submitting the output artifact and submitting its content to the step without artifacts come to
the same: the answers agree but for the artifact id, and the stores but for the checkpoints. -/
theorem submit_paths_agree (submits : Submits env deployment world sessionId stepId content session wf idx step)
    (declares : step.flag "intermediate_artifacts" = true)
    (passes : artifactPasses env step content artifactId = true)
    (branch other : String) :
    Alike (SameBut artifactId)
        ((submitStep env deployment sessionId stepId content branch artifactId).run world).1
        ((submitStep env (deployment.strippedAt session.workflowType wf idx) sessionId stepId content branch other).run
          world).1 ∧
      Shadow ((submitStep env deployment sessionId stepId content branch artifactId).run world).2
        ((submitStep env (deployment.strippedAt session.workflowType wf idx) sessionId stepId content branch other).run
          world).2 := by
  have there := (findStep_spec submits.accepts.found).1
  have like := Deployment.like_strippedAt submits.resolves.loaded there submits.accepts.uncalled
  have likeWf := Workflow.like_strippedAt there submits.accepts.uncalled
  have likeStep := Step.like_stripped submits.accepts.uncalled
  have plain : ContentPasses env step.stripped content other := by
    simp [ContentPasses, flag_stripped (show "intermediate_artifacts" ∈ artifactKeys by decide),
      validateOutput, flag_stripped (show "output_schema" ∈ artifactKeys by decide)]
  rw [submitStep_commits submits (show ContentPasses env step content artifactId by rw [ContentPasses, if_pos declares]; exact passes),
    submitStep_commits submits.strippedAt plain]
  have unkept : checkpointed env world session step.stripped content other = world := by
    simp [checkpointed, keepsCheckpoint,
      flag_stripped (show "intermediate_artifacts" ∈ artifactKeys by decide)]
  have unshown : shownArtifact step.stripped other = none := by
    simp [shownArtifact, flag_stripped (show "intermediate_artifacts" ∈ artifactKeys by decide)]
  have shown : shownArtifact step artifactId = some artifactId := if_pos declares
  rw [unkept, unshown, shown, ← like.commitSubmission likeWf likeStep]
  have sameEnd : concluded env (deployment.strippedAt session.workflowType wf idx)
    (wf.strippedAt idx) =
      concluded env deployment wf := by
    funext submission
    cases submission with
    | answered response => rfl
    | completed child => exact (like.autoResumeOnTopFrameComplete likeWf child).symm
  rw [sameEnd]
  have start : Shadow (checkpointed env world session step content artifactId) world := by
    unfold checkpointed
    split
    · exact shadow_storeArtifact world
    · exact .refl world
  have reflexive : ∀ response, SameBut artifactId response response := fun _ => .inl rfl
  refine (lockstep_rescue (lockstep_bind (shadow_mirror.commitSubmission trivial reflexive submittedResponse_artifact _ _) ?_)
    ?_ : Lockstep Shadow Shadow (SameBut artifactId) _ _) _ _ start
  · rintro (first | first) (second | second) same
    · exact lockstep_pure same
    · exact same.elim
    · exact same.elim
    · obtain ⟨rfl, -⟩ := same
      exact (shadow_mirror.autoResumeOnTopFrameComplete trivial wf).mono fun _ _ same => .inl same
  · intro raised
    cases raised with
    | sessionNotFound => exact lockstep_pure (reflexive _)
    | typeError message => exact lockstep_pure (reflexive _)
    | valueError message => exact lockstep_pure (reflexive _)
    | _ => exact lockstep_raise _

theorem draft_paths_agree : ∃ (session : Session) (wf : Workflow) (idx : Nat) (step : Step),
    Alike (SameBut "final")
        ((submitStep lenientEnv (appOf lenientEnv draftDocs) "s" "write" "\"one\"" "" "final").run planned).1
        ((submitStep lenientEnv ((appOf lenientEnv draftDocs).strippedAt session.workflowType wf idx) "s" "write" "\"one\"" "" "").run
          planned).1 ∧
      Shadow ((submitStep lenientEnv (appOf lenientEnv draftDocs) "s" "write" "\"one\"" "" "final").run planned).2
        ((submitStep lenientEnv ((appOf lenientEnv draftDocs).strippedAt session.workflowType wf idx) "s" "write" "\"one\"" "" "").run
          planned).2 ∧ step.id = "write" := by
  obtain ⟨⟨session, wf, idx, step⟩, found⟩ := Option.isSome_iff_exists.mp
    (show (submission? lenientEnv (appOf lenientEnv draftDocs) planned "s" "write" "\"one\"").isSome = true by rfl)
  have facts : (submission? lenientEnv (appOf lenientEnv draftDocs) planned "s" "write" "\"one\"").map (fun found =>
      (found.2.2.2.id, found.2.2.2.flag "intermediate_artifacts",
        artifactPasses lenientEnv found.2.2.2 "\"one\"" "final")) =
      some ("write", true, true) := by rfl
  rw [found, Option.map_some, Option.some.injEq] at facts
  simp only [Prod.mk.injEq] at facts
  obtain ⟨named, declares, passes⟩ := facts
  obtain ⟨alike, shadow⟩ := submit_paths_agree (Submits.of_submission found) declares passes "" ""
  exact ⟨session, wf, idx, step, alike, shadow, named⟩

end Megalos
