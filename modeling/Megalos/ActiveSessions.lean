import Megalos.Bounded
import Megalos.Locality
import Megalos.RowChange
import Megalos.Versioning
import Megalos.Waiting

/-!
The session cap against the listing.  `count_active` counts the sessions that are not
complete, the listing has a third status for a session whose workflow changed, and the
error of the cap lists the active ones.
-/

namespace Megalos

open ChainForest KeyedTable StatefulProgram StatefulProgram.Program

variable {env : Env} {deployment : Deployment} {world : World}

def World.listedActive (env : Env) (world : World) : List Val :=
  (world.listSessions env).filter fun entry =>
    ((entry.get? "status").map (·.isStr "active")).getD false

/-- The cap and the listing agree, and an error of the cap lists the sessions that fill it. -/
structure World.CapListed (env : Env) (world : World) : Prop where
  counted : world.countActive = (world.listedActive env).length
  refused : ∀ (deployment : Deployment) (workflowType context : String) (wf : Workflow),
    workflowType ≠ "" →
    deployment.workflows.get? workflowType = some wf → activeCap ≤ world.countActive →
    ∃ response, (callTool env deployment (.startWorkflow workflowType context)).run world =
      (.ok response, world) ∧
      response.get? "code" = some (.str "session_cap_exceeded") ∧ response.get? "active_sessions" =
        some (.list ((world.sessions.select fun session => session.currentStep != complete).map
          (listedSession env world)))

def World.Unmarked (world : World) : Prop :=
  ∀ sid row, world.ledger.row sid = some row → row.currentStep ≠ workflowChanged

/-! In one state. -/

theorem listedSession_status (env : Env) (world : World) (session : Session) :
    (((listedSession env world session).get? "status").map (·.isStr "active")).getD false =
      decide (sessionStatus session = "active") := by
  simp [listedSession, Val.get?_obj, field?_cons, Val.isStr]
  rfl

theorem sessionStatus_active (session : Session) : sessionStatus session = "active" ↔
    session.currentStep ≠ complete ∧ session.currentStep ≠ workflowChanged := by
  unfold sessionStatus
  split
  · simp_all
  · split <;> simp_all

theorem World.listedActive_eq (env : Env) (world : World) :
    world.listedActive env = world.activeSessions env := by
  rw [listedActive, listSessions, activeSessions, Table.select, List.filter_map]
  refine congrArg (List.map (listedSession env world)) (List.filter_congr ?_)
  intro session _
  exact listedSession_status env world session

theorem World.active_sublist (world : World) :
    (world.sessions.select fun session => sessionStatus session = "active").Sublist
      (world.sessions.select fun session => session.currentStep != complete) := by
  apply List.monotone_filter_right
  intro session active
  rw [decide_eq_true_eq, sessionStatus_active] at active
  simpa using active.1

theorem World.active_eq_iff (world : World) :
    (world.sessions.select fun session => sessionStatus session = "active") =
      (world.sessions.select fun session => session.currentStep != complete) ↔ world.Unmarked := by
  constructor
  · intro same sid row found marked
    have counted : row ∈ world.sessions.select fun session => session.currentStep != complete := by
      apply List.mem_filter.mpr
      exact ⟨Table.lookup_mem found, by rw [marked]; decide⟩
    rw [← same] at counted
    have active := (List.mem_filter.mp counted).2
    rw [decide_eq_true_eq, sessionStatus_active] at active
    exact active.2 marked
  · intro unmarked
    apply List.filter_congr
    intro row member
    have found : world.ledger.row row.sessionId = some row := Table.lookup_of_mem member
    rw [Bool.eq_iff_iff, decide_eq_true_eq, sessionStatus_active]
    simpa using fun _ => unmarked _ row found

theorem World.countActive_listed_iff (env : Env) (world : World) :
    world.countActive = (world.listedActive env).length ↔ world.Unmarked := by
  rw [listedActive_eq, activeSessions, List.length_map, countActive, ← world.active_eq_iff, eq_comm]
  exact world.active_sublist.length_eq

theorem startWorkflow_refused {workflowType context : String} {wf : Workflow}
    (named : workflowType ≠ "") (loaded : deployment.workflows.get? workflowType = some wf)
    (full : activeCap ≤ world.countActive) :
    (callTool env deployment (.startWorkflow workflowType context)).run world =
      (.ok (sessionCapError env world), world) := by
  have passed : checkStrs [(workflowType, "workflow_type", true), (context, "context", false)] =
    none := by
    simp [checkStrs, checkStr, named]
  unfold callTool startWorkflow trapErrors
  have looks : (read id : Server World).run world = (.ok world, world) := rfl
  simp only [passed, loaded, rescue, bind, Program.bind, looks, if_pos full]
  rfl

theorem World.capListed_iff (env : Env) (world : World) : world.CapListed env ↔ world.Unmarked := by
  constructor
  · intro holds
    exact (world.countActive_listed_iff env).mp holds.counted
  · intro unmarked
    refine ⟨(world.countActive_listed_iff env).mpr unmarked, ?_⟩
    intro deployment workflowType context wf named loaded full
    refine ⟨sessionCapError env world, startWorkflow_refused named loaded full, ?_, ?_⟩
    · simp [sessionCapError, errorResponse, Val.get?_obj, field?_cons]
    · simp [sessionCapError, errorResponse, Val.get?_obj, field?_cons, World.activeSessions,
        world.active_eq_iff.mpr unmarked]

/-! Over a run. -/

structure Workflow.Unreserved (wf : Workflow) : Prop where
  ids : ∀ step ∈ wf.steps, step.id ≠ workflowChanged
  defaults : ∀ step ∈ wf.steps, step.get? "default_branch" ≠ some (.str workflowChanged)
  options : ∀ step ∈ wf.steps, ∀ branches items option, step.get? "branches" = some branches →
    branches.iter = .ok items → option ∈ items → option.item "next" ≠ .ok (.str workflowChanged)
  targets : ∀ guardrails items guardrail, wf.get? "guardrails" = some guardrails →
    guardrails.iter = .ok items →
    guardrail ∈ items → guardrail.item "target_step" ≠ .ok (.str workflowChanged)

/-- The workflows of the request are unreserved, and no session it resolves was stored under another
version. -/
structure Request.Steady (env : Env) (before : World) (request : Request) : Prop where
  unreserved : ∀ name wf, request.deployment.workflows.get? name = some wf → wf.Unreserved
  current : ∀ sid session, request.call.Resolving env before.ledger sid →
    ¬GoesStale request.deployment before.ledger sid session

section Pointers

variable {wf : Workflow} {registry : Option Registry} {pointer next : Val} {data : StepData}
  {advance : Advance} {fuel calls idx : Nat} {step : Step}

theorem Workflow.Unreserved.following (unreserved : wf.Unreserved) (idx : Nat) :
    Val.str (wf.following idx) ≠ .str workflowChanged := by
  unfold Workflow.following
  split
  · rename_i step there
    simpa using unreserved.ids step (List.mem_of_getElem? there)
  · simp [complete, workflowChanged]

theorem Workflow.Unreserved.afterMcpStep (unreserved : wf.Unreserved) (member : step ∈ wf.steps) :
    afterMcpStep wf idx step ≠ .str workflowChanged := by
  unfold Megalos.afterMcpStep
  split
  · cases declared : step.get? "default_branch" with
    | none => simp [complete, workflowChanged]
    | some target =>
        rintro rfl
        exact unreserved.defaults step member declared
  · exact unreserved.following idx

theorem Workflow.Unreserved.afterCallStep (unreserved : wf.Unreserved) (member : step ∈ wf.steps)
    (goes : afterCallStep wf idx step = .ok next) : next ≠ .str workflowChanged := by
  unfold Megalos.afterCallStep at goes
  split at goes
  · unfold Step.item fieldItem at goes
    split at goes
    · rename_i value declared
      rw [Except.ok.injEq] at goes
      rintro rfl
      exact unreserved.defaults step member (goes ▸ declared)
    · simp at goes
  · rw [Except.ok.injEq] at goes
    exact goes ▸ unreserved.following idx

theorem Workflow.Unreserved.nextStep {content stepId branch : String} {session : Session}
    {fired : Option Val} {forced : Bool} (unreserved : wf.Unreserved) (member : step ∈ wf.steps)
    (fires : firedGuardrail env wf content session stepId = .ok fired)
    (goes : nextStepOf wf idx step fired branch = .ok (.goTo next forced)) :
    next ≠ .str workflowChanged := by
  rcases nextStepOf_goTo goes with rfl | ⟨guardrail, rfl, -, aimed⟩ | ⟨branches, items, declared,
    iterates, along⟩
  · exact unreserved.following idx
  · obtain ⟨guardrails, items, declared, iterates, isOne⟩ := firedGuardrail_mem fires
    rintro rfl
    exact unreserved.targets guardrails items guardrail declared iterates isOne aimed
  · intro marked
    obtain ⟨option, isOne, named⟩ := along _ marked
    exact unreserved.options step member branches items option declared iterates isOne named

theorem Workflow.Unreserved.autoRun (unreserved : wf.Unreserved)
    (unmarked : pointer ≠ .str workflowChanged)
    (ran : autoRun env registry wf fuel calls pointer data = .ok advance) :
    advance.Rests fun next _ => next ≠ .str workflowChanged :=
  autoRun_rule (fun next _ => next ≠ .str workflowChanged)
    (fun _ _ at_ _ _ => unreserved.afterMcpStep (findStep_mem at_))
    (fun unmarked skip => applySkipLoop_rule (· ≠ .str workflowChanged)
      (fun _ _ _ _ => unreserved.following _) skip unmarked) ran unmarked

theorem Workflow.Unreserved.skipAndRun {forced : Bool} (unreserved : wf.Unreserved)
    (unmarked : pointer ≠ .str workflowChanged)
    (ran : skipAndRun env registry wf calls pointer data forced = .ok advance) :
    advance.Rests fun next _ => next ≠ .str workflowChanged :=
  skipAndRun_rule (fun next _ => next ≠ .str workflowChanged)
    (fun _ _ at_ _ _ => unreserved.afterMcpStep (findStep_mem at_))
    (fun unmarked skip => applySkipLoop_rule (· ≠ .str workflowChanged)
      (fun _ _ _ _ => unreserved.following _) skip unmarked) ran unmarked

end Pointers

section Rows

variable {wf : Workflow} {row new : Session} {call : Call} {ledger : Ledger} {minted : Nat}

/-- Storing the end of an advance writes no mark that the advance does not end at. -/
theorem Applies.unmarked {result : Except Exn Advance} (applies : Applies env result row new)
    (unmarked : row.currentStep ≠ workflowChanged)
    (rests : ∀ advance, result = .ok advance → advance.Rests fun next _ =>
      next ≠ .str workflowChanged) :
    new.currentStep ≠ workflowChanged := by
  rcases applies.cases with ⟨-, counts⟩ | ⟨advance, next, text, data, computed, resting, column,
    moved⟩
  · rwa [counts.currentStep_eq]
  · rw [moved.currentStep_eq]
    rintro rfl
    exact rests advance computed next data resting (columnText_underscore column (by decide))

theorem RowChange.unmarked (unreserved : ∀ name wf, deployment.workflows.get? name = some wf →
    wf.Unreserved)
    (unmarked : row.currentStep ≠ workflowChanged)
    (fresh : ¬GoesStale deployment world.ledger row.sessionId row)
    (change : RowChange env deployment world ledger call row new) :
    new.currentStep ≠ workflowChanged := by
  cases change with
  | counted counts => rwa [counts.currentStep_eq]
  | marked stale marks => exact absurd stale fresh
  | @submitted sessionId stepId content branch artifactId _ _ wf idx step submits changes =>
      have free := unreserved _ _ submits.resolves.loaded
      generalize reached : verdictOf env deployment.registry world.outbound.length row wf idx step content branch
        artifactId = verdict at changes
      cases verdict with
      | kept => rwa [changes.currentStep_eq]
      | retriesExhausted => rwa [changes.currentStep_eq]
      | escalated => rwa [changes.currentStep_eq]
      | advanced advance =>
          obtain ⟨fired, next, forced, fires, goes, ran⟩ := verdictOf_advanced reached
          refine Applies.unmarked changes unmarked ?_
          rintro other same
          rw [Except.ok.injEq] at same
          subst same
          exact free.skipAndRun (free.nextStep (findStep_mem submits.accepts.found) fires goes) ran
  | @revised sessionId stepId _ _ wf idx target revises moved dropped =>
      rw [moved.currentStep_eq]
      exact (unreserved _ _ revises.resolves.loaded).ids target (findStep_mem revises.found)
  | escalated submits framed owner cause escalates => rwa [escalates.currentStep_eq]
  | @delivered sessionId stepId content branch artifactId child _ _ childWf wf childIdx idx calls childStep step frame
      pointer data submits reached atEnd framed called owner resolves at_ isCall valid applies gone =>
      have free := unreserved _ _ resolves.loaded
      refine applies.unmarked unmarked ?_
      intro advance computed
      unfold parentAdvance at computed
      split at computed
      · simp at computed
      · rename_i next goes
        exact free.skipAndRun (free.afterCallStep (findStep_mem at_) goes) computed

theorem Opened.unmarked {registry : Option Registry} {calls : Nat} (unreserved : wf.Unreserved)
    (first : row.currentStep = wf.first.id) (opened : Opened env registry wf calls row new) :
    new.currentStep ≠ workflowChanged := by
  have start : wf.first.id ≠ workflowChanged := unreserved.ids _ (findStep_mem (findStep_first wf))
  rcases opened with applies | ⟨-, counts⟩
  · refine applies.unmarked (first ▸ start) ?_
    intro advance computed
    exact unreserved.autoRun (by simpa using start) computed
  · rw [counts.currentStep_eq, first]
    exact start

theorem RowBirth.unmarked (unreserved : ∀ name wf, deployment.workflows.get? name = some wf →
    wf.Unreserved)
    (birth : RowBirth env deployment world call new) : new.currentStep ≠ workflowChanged := by
  cases birth with
  | started loaded opened => exact opened.unmarked (unreserved _ _ loaded) rfl
  | @spawned _ outer workflowType wf now _ above loaded counts =>
      rw [counts.currentStep_eq]
      exact (unreserved _ _ loaded).ids _ (findStep_mem (findStep_first wf))

/-- A session that a call does not resolve keeps its row, up to a count of visits, or loses it. -/
theorem Effect.unresolved {sid : SessionId} (sound : world.Sound env)
    (effect : Effect env deployment world call ledger minted)
    (aside : ¬call.Resolving env world.ledger sid)
    (there : world.ledger.row sid = some row) (found : ledger.row sid = some new) :
    row.Counted new := by
  have kept : world.ledger.row sid = some new → row.Counted new := by
    intro same
    rw [there, Option.some.injEq] at same
    exact same ▸ Session.Counted.refl row
  have apart : sid ≠ env.token world.minted := by
    rintro rfl
    exact Issued.not_next (sound.rowIssued there)
  have cleared : (world.ledger.without (world.evicted env)).row sid = some new →
    row.Counted new := by
    intro stays
    rw [Ledger.without_row] at stays
    split at stays
    · simp at stays
    · exact kept stays
  have dropped : ∀ {gone}, (world.ledger.drop gone).row sid = some new → row.Counted new := by
    intro gone stays
    rw [Ledger.drop_row] at stays
    split at stays
    · simp at stays
    · exact kept stays
  have other : ∀ {passed : String} {session : Session}, call.passed = some passed →
      session.sessionId = env.normalizeSessionId passed → sid ≠ session.sessionId := by
    rintro passed session passes isPassed rfl
    exact aside (isPassed ▸ Call.Resolving.own passes)
  cases effect with
  | idle => exact kept found
  | @marked _ target session written stale marks resolving =>
      have elsewhere : sid ≠ target := by
        rintro rfl
        exact aside resolving
      rw [Ledger.setRow_row, if_neg elsewhere] at found
      exact kept found
  | started named loaded room unused opened =>
      rw [Ledger.setRow_row, if_neg apart] at found
      exact cleared found
  | @submitted sessionId stepId content branch artifactId session wf idx step _ submits submitted =>
      have isPassed := submits.resolves.sessionId_eq
      have spares : world.ledger.Spares ledger fun other =>
          other ≠ session.sessionId ∧ ¬world.ledger.Parent session.sessionId other :=
        submitted.spares sound (fun safe => safe.1 rfl) fun owner safe => safe.2 owner
      have stranger : ¬world.ledger.Parent session.sessionId sid := by
        intro owner
        rw [isPassed] at owner
        exact aside ⟨sessionId, rfl, .inr owner⟩
      rw [spares.row ⟨other rfl isPassed, stranger⟩] at found
      exact kept found
  | revised revises moved =>
      rw [Ledger.setRow_row, if_neg (other rfl revises.resolves.sessionId_eq)] at found
      exact kept (Ledger.afterRevision_row found)
  | entered spawns calls spawned =>
      rw [spawned.otherRows sid apart (.inl (other rfl spawns.resolves.sessionId_eq))] at found
      exact cleared found
  | pushed spawns named shallow room spawned =>
      rw [spawned.otherRows sid apart (.inl (other rfl spawns.resolves.sessionId_eq))] at found
      exact cleared found
  | popped pops => exact dropped found
  | deleted deletes => exact dropped found

end Rows

theorem Serves.keepsUnmarked {request : Request} {before after : World} (sound : before.Sound env)
    (steady : request.Steady env before) (unmarked : before.Unmarked)
    (serves : Serves env before request after) :
    after.Unmarked := by
  have effect := serves.effect sound
  intro sid new found
  rcases effect.rowEffect sound found with ⟨row, there, change⟩ | ⟨-, birth⟩
  · have sameId : row.sessionId = sid := World.row_sessionId there
    by_cases resolving : request.call.Resolving env before.ledger sid
    · exact change.unmarked steady.unreserved (unmarked sid row there)
        (sameId ▸ steady.current sid row resolving)
    · rw [(effect.unresolved sound resolving there found).currentStep_eq]
      exact unmarked sid row there
  · exact birth.unmarked steady.unreserved

/-- In a run of steady requests the cap and the listing agree. -/
theorem Reachable.capListed (reachable : Reachable env (fun before request =>
    request.Steady env before) world) :
    world.CapListed env := by
  rw [World.capListed_iff]
  refine reachable.invariant World.Unmarked ?_ ?_
  · intro sid row found
    exact nomatch found
  · intro before request after sound unmarked steady serves
    exact serves.keepsUnmarked sound steady unmarked

theorem Workflow.unreserved_of_linear {wf : Workflow}
    (linear : wf.steps.all fun step =>
      step.id != workflowChanged && (step.get? "default_branch").isNone &&
      (step.get? "branches").isNone) (unguarded : wf.get? "guardrails" = none) : wf.Unreserved := by
  simp only [List.all_eq_true, Bool.and_eq_true, bne_iff_ne, Option.isNone_iff_eq_none] at linear
  constructor
  · intro step member
    exact (linear step member).1.1
  · intro step member
    simp [(linear step member).1.2]
  · intro step member branches items option declared
    simp [(linear step member).2] at declared
  · intro guardrails items guardrail declared
    simp [unguarded] at declared

theorem started_capListed : startedUnder.CapListed versionedEnv := by
  refine Reachable.capListed (serveAll_run (by rfl) ⟨?_, trivial⟩)
  constructor
  · intro name wf loaded
    have served : ((appOf versionedEnv (versionDocs "one")).workflows.rows.all fun entry =>
        (entry.2.steps.all fun step =>
          step.id != workflowChanged && (step.get? "default_branch").isNone &&
          (step.get? "branches").isNone) && (entry.2.get? "guardrails").isNone) = true := by rfl
    have each := List.all_eq_true.mp served _ (Dict.mem_of_get? loaded)
    rw [Bool.and_eq_true, Option.isNone_iff_eq_none] at each
    exact Workflow.unreserved_of_linear each.1 each.2
  · rintro sid session ⟨passed, passes, -⟩
    exact nomatch passes

/-- The workflow changes, `get_state` marks the session, and the cap counts one that no listing
shows as active. -/
theorem marked_counts_unlisted :
    ¬∀ env world, Reachable env (ServedVersion env) world → world.CapListed env := by
  intro always
  have first : Reachable versionedEnv (ServedVersion versionedEnv) startedUnder :=
    serveAll_run (by rfl) ⟨appOf_accepted (by decide), trivial⟩
  have second : Reachable versionedEnv (ServedVersion versionedEnv) markedUnder :=
    first.trans (serveAll_run (by rfl) ⟨appOf_accepted (by decide), trivial⟩)
  have agrees := (always _ _ second).counted
  rw [show markedUnder.countActive = 1 by rfl,
    show (markedUnder.listedActive versionedEnv).length = 0 by rfl] at agrees
  exact absurd agrees (by decide)

end Megalos
