import Megalos.Checkpoints
import Megalos.Presented
import Megalos.Storing
import Megalos.Versioning

/-!
What a revision leaves to be read.  The entries of the steps after the target go; the
artifact checkpoints of these steps stay in the row and come back with the pointer.
-/

namespace Megalos

open GuardedRuns KeyedTable StatefulProgram StatefulProgram.Program

variable {env : Env} {deployment : Deployment} {world after : World} {request : Request}
  {call : Call} {sid : SessionId} {row new : Session} {stepId artifactId content : String}

/-- What a session holds no entry for it holds none for until a call stores content for it. -/
theorem Run.entryless {final : World} {last : Session}
    (run : GuardedRuns.Run (Serves env)
      (fun world request =>
        ¬Stores env request.deployment world sid stepId request.call) world final)
    (sound : world.Sound env) (issued : Issued env world.minted sid)
    (absent : ∀ row, world.sessions.lookup sid = some row → row.stepData.get? stepId = none)
    (found : final.sessions.lookup sid = some last) : last.stepData.get? stepId = none := by
  refine (run.invariant (fun state => state.Sound env ∧ Issued env state.minted sid ∧
    ∀ row, state.ledger.row sid = some row →
      row.stepData.get? stepId = none) ⟨sound, issued, absent⟩ ?_).2.2 last found
  rintro before request after ⟨sound, issued, absent⟩ quiet serves
  refine ⟨serves.sound sound, issued.mono (serves.shape sound).minted_le, ?_⟩
  intro new isRow
  rcases serves.rowEffect sound isRow with ⟨old, isOld, change⟩ | ⟨fresh, -⟩
  · have oldId : old.sessionId = sid := World.row_sessionId isOld
    rcases (change.rewrites sound).entry stepId with kept | gone | stores
    · rw [kept, absent old isOld]
    · exact gone
    · exact absurd (oldId ▸ stores) quiet
  · exact absurd (fresh ▸ issued) Issued.not_next

theorem Serves.checkpoints {before : World} (serves : Serves env before request after) :
    CheckpointsFrom (request.call.WritesCheckpoint env) before after := by
  obtain ⟨outcome, ran, -⟩ := serves
  have kept : Checkpoints (request.call.WritesCheckpoint env)
    (callTool env request.deployment request.call) :=
    checkpoints_callTool request.call
  have wrote := kept before
  rw [ran] at wrote
  exact wrote

/-- A checkpoint that no session holds stays away until its artifact is submitted. -/
theorem Run.checkpointless {final : World} {last : Session}
    (run : GuardedRuns.Run (Serves env) (fun _ request =>
      ¬request.call.WritesCheckpoint env sid stepId artifactId)
      world final)
    (absent : ∀ row, world.sessions.lookup sid = some row →
      row.checkpoint? stepId artifactId = none)
    (found : final.sessions.lookup sid = some last) :
    last.checkpoint? stepId artifactId = none := by
  refine run.invariant (fun state => ∀ row, state.sessions.lookup sid = some row →
    row.checkpoint? stepId artifactId = none) absent ?_ last found
  intro before request after absent quiet serves new isNew
  cases kept : new.checkpoint? stepId artifactId with
  | none => rfl
  | some content =>
      rcases serves.checkpoints sid new stepId artifactId content isNew kept with wrote | ⟨row,
        there, was⟩
      · exact absurd wrote quiet
      · rw [absent row there] at was
        exact nomatch was

/-- A response of `get_state` that stands at the step and hands out the content of an artifact of
it. -/
def ShowsCheckpoint (response : Val) (stepId artifactId content : String) : Prop :=
  (response.get? "current_step").bind (·.get? "id") = some (.str stepId) ∧
    (response.get? "artifact_checkpoints").bind (·.get? artifactId) = some (.str content)

def Val.ofTexts (texts : Dict String) : Val :=
    .obj (texts.rows.map fun entry => (entry.1, .str entry.2))

theorem Val.get?_ofTexts (texts : Dict String) (key : String) :
    (Val.ofTexts texts).get? key = (texts.get? key).map .str := by
  rw [Val.ofTexts, Val.get?_obj]
  unfold field?
  rw [List.find?_map, Option.map_map, Dict.get?, Option.map_map]
  rfl

def Returns (holds : Val → Prop) (body : Server Val) (world : World) : Prop :=
  Wp body (fun outcome _ => ∀ response, outcome = .ok response → holds response) world

section Returns

variable {holds : Val → Prop}

theorem returns_pure {response : Val} (meets : holds response) :
    Returns holds (pure response) world := by
  intro other same
  cases same
  exact meets

theorem returns_raise (raised : Exn) : Returns holds (raise raised) world := by
  intro response same
  exact nomatch same

theorem returns_ofExcept_bind {α : Type} {result : Except Exn α} {next : α → Server Val}
    (meets : ∀ value, result = .ok value → Returns holds (next value) world) :
    Returns holds (ofExcept result >>= next) world := by
  rw [Returns, wp_bind, wp_ofExcept]
  cases result with
  | error raised => exact fun response same => nomatch same
  | ok value => exact meets value rfl

theorem returns_read_bind {α : Type} {view : World → α} {next : α → Server Val}
    (meets : Returns holds (next (view world)) world) :
    Returns holds (read view >>= next) world := by
  rw [Returns, wp_bind, wp_read]
  exact meets

theorem returns_trapErrors {field : String} {sessionId : Option String} {body : Server Val}
    (refusals : ∀ code message fields,
      (∀ entry ∈ fields, entry.1 ∈ ["session_fingerprint", "field"]) →
      holds (errorResponse code message fields))
    (meets : Returns holds body world) :
    Returns holds (trapErrors env field sessionId body) world := by
  unfold trapErrors
  rw [Returns, wp_rescue]
  refine Wp.mono meets ?_
  rintro (raised | response) reached answer
  · cases raised with
    | sessionNotFound => exact returns_pure (refusals _ _ _ (by simp))
    | typeError message => exact returns_pure (refusals _ _ _ (by simp))
    | valueError message => exact returns_pure (refusals _ _ _ (by simp))
    | stackFull rootSessionId currentDepth maxDepth => exact returns_raise _
    | skippedPredecessor sid referencing => exact returns_raise _
    | uncaught kind message => exact returns_raise _
    | diverges => exact returns_raise _
  · exact answer

theorem returns_withSession {sessionId : String} {checks : List (String × String × Bool)}
    {body : Session → Workflow → Server Val}
    (unchecked : ∀ err, checkStrs checks = some err → holds err)
    (refusals : ∀ err, FunnelRefusal err → holds err)
    (meets : ∀ session wf,
      Resolves deployment world.ledger (env.normalizeSessionId sessionId) session wf →
      Returns holds (body session wf) world) :
    Returns holds (withSession env deployment sessionId checks body) world := by
  unfold withSession
  cases passed : checkStrs checks with
  | some err => exact returns_pure (unchecked err passed)
  | none =>
      rw [Returns, wp_bind]
      refine wp_resolveSession ?_ ?_ ?_
      · intro session wf resolves
        exact meets session wf resolves
      · intro err refusal _ _
        exact returns_pure (refusals err refusal)
      · intro err session new after refusal _ _ _
        exact returns_pure (refusals err refusal)

end Returns

/-- The artifacts that an answer of `get_state` hands out, if any, are those of the step it stands
at. -/
def ListsArtifacts (found : Option Session) (response : Val) : Prop :=
  response.get? "artifact_checkpoints" = none ∨ ∃ session stepId, found = some session ∧
    (response.get? "current_step").bind (·.get? "id") = some (.str stepId) ∧
    response.get? "artifact_checkpoints" =
      some (Val.ofTexts (session.artifactCheckpoints.getD stepId Table.empty))

theorem errorResponse_unlisted {found : Option Session} {code message : String}
    {fields : List (String × Val)} (unlisted : field? fields "artifact_checkpoints" = none) :
    ListsArtifacts found (errorResponse code message fields) := by
  left
  simp [errorResponse, Val.get?_obj, field?_cons, unlisted]

theorem checkStrs_unlisted {found : Option Session} {checks : List (String × String × Bool)}
    {err : Val} (refused : checkStrs checks = some err) : ListsArtifacts found err := by
  obtain ⟨check, -, failed⟩ := List.exists_of_findSome?_eq_some refused
  unfold checkStr at failed
  dsimp only at failed
  split at failed
  · rw [Option.some.injEq] at failed
    rw [← failed]
    exact errorResponse_unlisted (by simp [field?])
  · simp at failed

theorem stepRef_id {step : Step} {withTarget : Bool} {shown : Val}
    (refers : stepRef step withTarget = .ok shown) :
    shown.get? "id" = some (.str step.id) := by
  obtain ⟨title, -, refers⟩ := except_bind_ok.mp refers
  obtain rfl := Except.ok.inj refers
  simp [Val.get?_obj, field?_cons]

theorem returns_getState (sessionId : String) :
    Returns (ListsArtifacts (world.sessions.lookup (env.normalizeSessionId sessionId)))
    (getState env deployment sessionId) world := by
  refine returns_trapErrors ?_ (returns_withSession ?_ ?_ ?_)
  · intro code message fields keyed
    exact errorResponse_unlisted (KeyedBy.field?_none keyed (by simp))
  · exact fun err refused => checkStrs_unlisted refused
  · rintro err ⟨code, message, fields, rfl, -, keyed⟩
    exact errorResponse_unlisted (KeyedBy.field?_none keyed (by simp))
  intro session wf resolves
  have found : world.sessions.lookup (env.normalizeSessionId sessionId) = some session :=
    resolves.row
  refine returns_ofExcept_bind fun titles _ => ?_
  refine returns_ofExcept_bind fun current refers => ?_
  refine returns_ofExcept_bind fun injected injects => ?_
  have tail : ∀ {response : List String → World → Val},
      (∀ skipped reached, ListsArtifacts (world.sessions.lookup (env.normalizeSessionId sessionId))
        (response skipped reached)) →
      Returns (ListsArtifacts (world.sessions.lookup (env.normalizeSessionId sessionId))) (do
        let skipped ← ofExcept (computeSkippedSteps env wf session.stepData)
        let reached ← read id
        return response skipped reached) world :=
    fun lists => returns_ofExcept_bind fun skipped _ =>
      returns_read_bind (returns_pure (lists skipped world))
  have behind : ∀ (skipped : List String) (reached : World),
      field? (if skipped.isEmpty then [] else [("skipped_steps",
        Val.strs skipped)]) "artifact_checkpoints" = none ∧
      field? ((reached.topFrameFor session.sessionId).map fun frame =>
        ("called_session", Val.str frame.sessionId.text)).toList "artifact_checkpoints" = none := by
    intro skipped reached
    constructor
    · by_cases none : skipped.isEmpty <;> simp [field?, none]
    · cases reached.topFrameFor session.sessionId <;> simp [field?]
  cases at_ : findStep wf (.str session.currentStep) with
  | none =>
      rw [at_] at injects
      obtain rfl := Except.ok.inj injects
      refine tail fun skipped reached => .inl ?_
      obtain ⟨plain, calm⟩ := behind skipped reached
      rw [Val.get?_obj, field?_append, field?_append, field?_append, plain, calm]
      simp [field?, show (Table.empty : Dict String).size = 0 from rfl]
  | some entry =>
      obtain ⟨idx, step⟩ := entry
      rw [at_] at injects refers
      have fresh : field? injected "artifact_checkpoints" = none :=
        (injectedFields_keyed injects).field?_none (by simp)
      have shown : (optionVal current).get? "id" = some (.str step.id) := by
        obtain ⟨shown, made, isShown⟩ := except_bind_ok.mp refers
        obtain rfl := Except.ok.inj isShown
        exact stepRef_id made
      have lists : ∀ {checkpoints : Dict String},
        checkpoints = session.artifactCheckpoints.getD step.id Table.empty ∨
          checkpoints = Table.empty →
            Returns (ListsArtifacts (world.sessions.lookup (env.normalizeSessionId sessionId)))
            (do
              let skipped ← ofExcept (computeSkippedSteps env wf session.stepData)
              let reached ← read id
              return .obj ([("session_id", .str sessionId),
                ("workflow_type", .str session.workflowType), ("current_step",
                  optionVal current), ("progress", .str ("step " ++ toString (idx + 1) ++ " of " ++
                  toString wf.steps.length)), ("pending_steps", .list titles),
                ("step_data", .obj (session.stepData.rows.map fun entry =>
                  (entry.1, .str entry.2)))] ++
                injected ++ flaggedFields step ["directives"] ++
                (if checkpoints.size = 0 then [] else
                  [("artifact_checkpoints",
                    Val.obj (checkpoints.rows.map fun entry => (entry.1, .str entry.2)))]) ++
                (if skipped.isEmpty then [] else [("skipped_steps", Val.strs skipped)]) ++
                ((reached.topFrameFor session.sessionId).map fun frame =>
                  ("called_session", Val.str frame.sessionId.text)).toList ++
                [("stack", stackView reached session.sessionId)])) world := by
        intro checkpoints isTable
        refine tail fun skipped reached => ?_
        obtain ⟨plain, calm⟩ := behind skipped reached
        have direct : field? (flaggedFields step ["directives"]) "artifact_checkpoints" = none :=
          (flaggedFields_keyed step _).field?_none (by simp)
        rw [ListsArtifacts, Val.get?_obj, Val.get?_obj, field?_append, field?_append, field?_append,
          field?_append, field?_append, field?_append, field?_append, plain, calm, fresh, direct]
        by_cases empty : checkpoints.size = 0
        · left
          simp [field?, empty]
        · refine .inr ⟨session, step.id, found, ?_, ?_⟩
          · simp [field?, shown]
          · rcases isTable with rfl | rfl
            · simp [field?, empty, Val.ofTexts]
            · exact absurd rfl empty
      dsimp only
      split
      · rw [Returns, wp_bind]
        unfold getArtifacts
        rw [wp_bind]
        have sameId := resolves.sessionId_eq
        refine wp_getSession ?_ ?_
        · intro row isRow
          rw [sameId, resolves.row, Option.some.injEq] at isRow
          subst isRow
          exact lists (.inl rfl)
        · intro missing
          rw [sameId, resolves.row] at missing
          cases missing
      · exact lists (.inr rfl)

theorem ShowsCheckpoint.found {response : Val} {found : Option Session}
    (lists : ListsArtifacts found response)
    (shows_ : ShowsCheckpoint response stepId artifactId content) :
    ∃ session, found = some session ∧ session.checkpoint? stepId artifactId = some content := by
  obtain ⟨atStep, handed⟩ := shows_
  rcases lists with unlisted | ⟨session, step, isFound, current, listed⟩
  · rw [unlisted] at handed
    exact nomatch handed
  · rw [current, Option.some.injEq, Val.str.injEq] at atStep
    subst atStep
    rw [listed, Option.bind_some, Val.get?_ofTexts] at handed
    obtain ⟨text, kept, same⟩ := Option.map_eq_some_iff.mp handed
    refine ⟨session, isFound, ?_⟩
    rw [Session.checkpoint?, kept, Val.str.inj same]

/-- Nothing that was submitted before is read of the step: no entry stands in its session until
content is stored for it, and `get_state` hands out no artifact of it until the artifact is
submitted. -/
structure NoStaleReads (env : Env) (after : World) (sid : SessionId) (stepId : String) : Prop where
  entries : ∀ final row, Run (Serves env)
    (fun world request =>
      ¬Stores env request.deployment world sid stepId request.call) after final →
    final.sessions.lookup sid = some row → row.stepData.get? stepId = none
  checkpoints : ∀ artifactId content final deployment sessionId response last, Run (Serves env)
    (fun _ request => ¬request.call.WritesCheckpoint env sid stepId artifactId) after final →
    env.normalizeSessionId sessionId = sid →
    (callTool env deployment (.getState sessionId)).run final = (.ok response, last) →
    ¬ShowsCheckpoint response stepId artifactId content

/-- What a revision that succeeded found, and the row that it left. -/
theorem revised_of_success {sessionId target : String} {response : Val} (sound : world.Sound env)
    (ran : (callTool env deployment (.reviseStep sessionId target)).run world = (.ok response,
      after))
    (success : response.isError = false) :
    ∃ session wf idx step new, Revises env deployment world sessionId target session wf idx step ∧
      session.Moved new step.id (revisedData wf idx step session.stepData) ∧
      after.sessions.lookup (env.normalizeSessionId sessionId) = some new := by
  obtain ⟨ledger, revision, reaches⟩ := Wp.elim (ends_reviseStep sound sessionId target) ran
  have succeeded : succeeds (.ok response) = true := by simp [succeeds, success]
  rw [succeeded] at revision
  generalize isTrue : true = told at revision
  cases revision with
  | refused closed => cases isTrue
  | marked stale marks => cases isTrue
  | @revised session new wf idx step revises moved =>
      refine ⟨session, wf, idx, step, new, revises, moved, ?_⟩
      have row : after.ledger.row session.sessionId = some new := by
        rw [reaches.ledger_eq, Ledger.setRow_row, if_pos rfl]
      rw [revises.resolves.sessionId_eq] at row
      exact row

/-- A revision with no checkpoint of the later step in the row leaves no stale reads of the step. -/
theorem Reachable.noStaleReads {allowed : World → Request → Prop} {sessionId target : String}
    {response : Val} {session : Session} {wf : Workflow} {idx : Nat} {revised later : Step}
    (reachable : Reachable env allowed world)
    (found : world.sessions.lookup (env.normalizeSessionId sessionId) = some session)
    (loaded : deployment.workflows.get? session.workflowType = some wf)
    (at_ : findStep wf (.str target) = some (idx, revised))
    (ran : (callTool env deployment (.reviseStep sessionId target)).run world = (.ok response,
      after))
    (success : response.isError = false) (listed : later ∈ wf.steps.drop (idx + 1))
    (clean : ∀ artifactId, session.checkpoint? later.id artifactId = none) :
    NoStaleReads env after (env.normalizeSessionId sessionId) later.id := by
  have sound := reachable.sound
  have serves : Serves env world ⟨deployment, .reviseStep sessionId target⟩ after :=
    ⟨_, ran, fun endless => nomatch endless⟩
  obtain ⟨row, loadedWf, place, step, new, revises, moved, isNew⟩ :=
    revised_of_success sound ran success
  obtain rfl : session = row := Option.some.inj (found.symm.trans revises.resolves.row)
  obtain rfl : loadedWf = wf := Option.some.inj (revises.resolves.loaded.symm.trans loaded)
  obtain ⟨rfl, rfl⟩ : place = idx ∧ step = revised := by
    simpa using revises.found.symm.trans at_
  have soundAfter := serves.sound sound
  constructor
  · intro final last run there
    refine Run.entryless run soundAfter (soundAfter.rowIssued isNew) ?_ there
    intro row isRow
    obtain rfl : row = new := Option.some.inj (isRow.symm.trans isNew)
    rw [moved.stepData_eq, get?_revisedData, if_pos (.inl (List.mem_map_of_mem listed))]
  · intro artifactId content final other otherId answer last run named answered shows_
    have tells : Returns (ListsArtifacts (final.sessions.lookup (env.normalizeSessionId otherId)))
      (getState env other otherId) final := returns_getState otherId
    have lists := Wp.elim tells answered answer rfl
    obtain ⟨kept, there, holds⟩ := shows_.found lists
    rw [named] at there
    have absent : kept.checkpoint? later.id artifactId = none := by
      refine Run.checkpointless run ?_ there
      intro row isRow
      cases still : row.checkpoint? later.id artifactId with
      | none => rfl
      | some text =>
          rcases serves.checkpoints _ row later.id artifactId text isRow still with wrote | ⟨old,
            isOld, was⟩
          · exact wrote.elim
          · obtain rfl : old = session := Option.some.inj (isOld.symm.trans found)
            rw [clean artifactId] at was
            exact nomatch was
    rw [absent] at holds
    exact nomatch holds

def drafted : World :=
  serveAll lenientEnv (appOf lenientEnv draftDocs) World.empty [.startWorkflow "paper" "",
    .submitStep "s" "plan" "one" "" "", .submitStep "s" "write" "\"old\"" "" "draft"]

/-- The session, the workflow and the two steps of a revision and a step that is listed after its
target. -/
def revision? (env : Env) (deployment : Deployment) (world : World) (sessionId target : String) :
    Option (Session × Workflow × Nat × Step × Step) := do
  let session ← world.sessions.lookup (env.normalizeSessionId sessionId)
  let wf ← deployment.workflows.get? session.workflowType
  let (idx, revised) ← findStep wf (.str target)
  let later ← (wf.steps.drop (idx + 1)).head?
  return (session, wf, idx, revised, later)

theorem revision?_spec {sessionId target : String} {session : Session} {wf : Workflow} {idx : Nat}
    {revised later : Step}
    (found : revision? env deployment world sessionId target = some (session, wf, idx, revised,
      later)) :
    world.sessions.lookup (env.normalizeSessionId sessionId) = some session ∧
      deployment.workflows.get? session.workflowType = some wf ∧
        findStep wf (.str target) = some (idx, revised) ∧
      later ∈ wf.steps.drop (idx + 1) := by
  obtain ⟨row, isRow, found⟩ := Option.bind_eq_some_iff.mp found
  obtain ⟨loaded, isLoaded, found⟩ := Option.bind_eq_some_iff.mp found
  obtain ⟨⟨place, step⟩, isStep, found⟩ := Option.bind_eq_some_iff.mp found
  obtain ⟨next, isNext, found⟩ := Option.bind_eq_some_iff.mp found
  simp only [pure, Option.some.injEq, Prod.mk.injEq] at found
  obtain ⟨rfl, rfl, rfl, rfl, rfl⟩ := found
  exact ⟨isRow, isLoaded, isStep, List.mem_of_mem_head? isNext⟩

/-- A revision before the first draft. -/
theorem planned_noStaleReads :
    NoStaleReads lenientEnv (serveAll lenientEnv (appOf lenientEnv draftDocs) planned [.reviseStep "s" "plan"])
    (sampleToken 0) "write" := by
  have accepted : (appOf lenientEnv draftDocs).Accepted lenientEnv := appOf_accepted (by decide)
  have reachable : Reachable lenientEnv (ServedVersion lenientEnv) planned :=
    serveAll_run (by rfl) ⟨accepted, accepted, trivial⟩
  obtain ⟨⟨session, wf, idx, revised, later⟩, placed⟩ := Option.isSome_iff_exists.mp
    (show (revision? lenientEnv (appOf lenientEnv draftDocs) planned "s" "plan").isSome =
      true by rfl)
  have seen : (revision? lenientEnv (appOf lenientEnv draftDocs) planned "s" "plan").map
      (fun found => (found.2.2.2.2.id, found.1.artifactCheckpoints)) = some ("write",
        Table.empty) := by rfl
  rw [placed, Option.map_some, Option.some.injEq, Prod.mk.injEq] at seen
  obtain ⟨named, bare⟩ := seen
  obtain ⟨found, loaded, at_, listed⟩ := revision?_spec placed
  rw [← show later.id = "write" from named]
  refine Reachable.noStaleReads reachable found loaded at_ rfl (by rfl) listed fun artifactId => ?_
  rw [Session.checkpoint?, show session.artifactCheckpoints = Table.empty from bare]
  rfl

theorem not_always_noStaleReads :
    ¬∀ (env : Env) (deployment : Deployment) (world after : World) (sessionId target : String)
    (response : Val)
    (session : Session) (wf : Workflow) (idx : Nat) (revised later : Step),
      Reachable env (ServedVersion env) world → deployment.Accepted env →
      world.sessions.lookup (env.normalizeSessionId sessionId) = some session →
      deployment.workflows.get? session.workflowType = some wf →
      findStep wf (.str target) = some (idx, revised) →
      (callTool env deployment (.reviseStep sessionId target)).run world = (.ok response, after) →
      response.isError = false → later ∈ wf.steps.drop (idx + 1) →
      NoStaleReads env after (env.normalizeSessionId sessionId) later.id := by
  intro always
  have accepted : (appOf lenientEnv draftDocs).Accepted lenientEnv := appOf_accepted (by decide)
  obtain ⟨⟨session, wf, idx, revised, later⟩, placed⟩ := Option.isSome_iff_exists.mp
    (show (revision? lenientEnv (appOf lenientEnv draftDocs) drafted "s" "plan").isSome =
      true by rfl)
  have named : (revision? lenientEnv (appOf lenientEnv draftDocs) drafted "s" "plan").map (·.2.2.2.2.id) =
    some "write" := by rfl
  rw [placed, Option.map_some, Option.some.injEq] at named
  obtain ⟨found, loaded, at_, listed⟩ := revision?_spec placed
  have none := always lenientEnv _ drafted
    (serveAll lenientEnv (appOf lenientEnv draftDocs) drafted [.reviseStep "s" "plan"]) "s" "plan" _ session wf idx
    revised later (serveAll_run (by rfl) ⟨accepted, accepted, accepted,
      trivial⟩) accepted found loaded at_ rfl (by rfl)
    listed
  rw [show later.id = "write" from named] at none
  -- the pointer goes back to the step by another plan, not by another draft
  refine none.checkpoints "draft" "\"old\"" (serveAll lenientEnv (appOf lenientEnv draftDocs) (serveAll lenientEnv
    (appOf lenientEnv draftDocs) drafted [.reviseStep "s" "plan"]) [.submitStep "s" "plan" "two" "" ""])
    (appOf lenientEnv draftDocs) "s" _ _ (serveAll_run (by rfl) ⟨?_, trivial⟩) rfl rfl ⟨by rfl,
      by rfl⟩
  rintro ⟨-, otherStep, -⟩
  exact absurd otherStep (by decide)

end Megalos
