import Megalos.ExecutionOrder
import Megalos.SubmitPaths

/-!
A workflow of client steps, walked through from a step to the end: one submission for
each step, and every content kept.
-/

namespace Megalos

open KeyedTable StatefulProgram StatefulProgram.Program

structure Step.Ordinary (step : Step) : Prop where
  uncalled : step.isCall = false
  client : step.isMcpToolCall = false
  unbranched : step.flag "branches" = false
  unconditional : step.precondition = none
  plain : step.flag "intermediate_artifacts" = false
  named : step.id ≠ ""
  unreserved : step.id ≠ workflowChanged

structure Workflow.Straight (wf : Workflow) : Prop where
  ordinary : ∀ step ∈ wf.steps, step.Ordinary
  unguarded : ((wf.get? "guardrails").getD (.list [])).truthy = false
  distinct : wf.Distinct

/-- The pointer of a session that has `idx` steps behind it. -/
def Workflow.pointerAt (wf : Workflow) (idx : Nat) : String :=
    (wf.steps[idx]?.map Step.id).getD complete

/-- A root session that has `idx` steps behind it, with nothing above it. -/
structure Underway (deployment : Deployment) (world : World) (sid : SessionId) (wf : Workflow)
    (idx : Nat) (session : Session) : Prop where
  resolves : Resolves deployment world.ledger sid session wf
  unescalated : session.escalation = none
  pointer : session.currentStep = wf.pointerAt idx
  root : world.ledger.frame sid = none
  bare : world.topFrameFor sid = none

def submitEach (env : Env) (deployment : Deployment) (sessionId : String) : List (Step × String) →
    World → World
  | [], world => world
  | (step, content) :: rest, world =>
      submitEach env deployment sessionId rest
        ((submitStep env deployment sessionId step.id content "" "").run world).2

def walkthrough (env : Env) (deployment : Deployment) (workflowType context sessionId : String)
    (pairs : List (Step × String)) (world : World) : World :=
  submitEach env deployment sessionId pairs ((startWorkflow env deployment workflowType context).run world).2

def storedEach (data : StepData) : List (Step × String) → StepData
  | [] => data
  | (step, content) :: rest => storedEach (data.set step.id content) rest

variable {env : Env} {deployment : Deployment} {world after : World} {sid : SessionId}
  {session : Session} {wf : Workflow} {idx : Nat} {step : Step} {sessionId content : String}
  {data : StepData}

namespace Workflow.Straight

theorem following_eq (wf : Workflow) (idx : Nat) : wf.following idx = wf.pointerAt (idx + 1) := by
  unfold Workflow.following Workflow.pointerAt
  cases wf.steps[idx + 1]? <;> rfl

theorem ordinaryAt (straight : wf.Straight) {pointer : Val}
    (found : findStep wf pointer = some (idx, step)) :
    step.Ordinary := straight.ordinary step (findStep_mem found)

theorem skipped (straight : wf.Straight) (data : StepData) :
    ∀ {steps : List Step}, (∀ step ∈ steps, step ∈ wf.steps) →
    skippedFrom env data steps [] = .ok [] := by
  intro steps known
  induction steps with
  | nil => rfl
  | cons step rest ih =>
      have unconditional := (straight.ordinary step (known step List.mem_cons_self)).unconditional
      have later := ih fun other member => known other (List.mem_cons_of_mem _ member)
      simp only [skippedFrom, unconditional, later, ite_self]

theorem applySkipLoop (straight : wf.Straight) (fueled : 0 < env.fuel) (pointer : String) :
    Megalos.applySkipLoop env (.str pointer) wf data false = .ok (.str pointer, []) := by
  obtain ⟨fuel, same⟩ := Nat.exists_eq_succ_of_ne_zero fueled.ne'
  simp only [Megalos.applySkipLoop, Bool.false_eq_true, if_false, computeSkippedSteps,
    straight.skipped data fun _ member => member, same, skipLoop]
  split
  · rfl
  · split
    · rfl
    · rename_i found
      simp only [(straight.ordinaryAt found).unconditional]

theorem autoExecuteMcpSteps (straight : wf.Straight) (fueled : 0 < env.fuel)
    (registry : Option Registry) (pointer : String) :
    Megalos.autoExecuteMcpSteps env registry wf sid env.fuel (.str pointer) data =
      pure (.str pointer, data, none) := by
  obtain ⟨fuel, same⟩ := Nat.exists_eq_succ_of_ne_zero fueled.ne'
  simp only [same, Megalos.autoExecuteMcpSteps]
  split
  · rfl
  · split
    · rfl
    · rename_i found
      simp only [(straight.ordinaryAt found).client, Bool.not_false, if_true]

end Workflow.Straight

theorem pointerAt_some (there : wf.steps[idx]? = some step) : wf.pointerAt idx = step.id := by
  rw [Workflow.pointerAt, there]
  rfl

def Stepped (world : World) (session : Session) (wf : Workflow) (idx : Nat) (step : Step)
    (content : String) (after : World) : Prop :=
  ∃ new, session.Moved new (wf.pointerAt (idx + 1)) (session.stepData.set step.id content) ∧
    Becomes world (world.ledger.setRow session.sessionId new) after

theorem wp_advanceSession_straight (straight : wf.Straight) (fueled : 0 < env.fuel)
    (found : world.ledger.row session.sessionId = some session)
    (root : world.ledger.frame session.sessionId = none)
    {artifactId : Option String} {warning : Option Val} :
    Wp (advanceSession env deployment sessionId { session with stepData := session.stepData.set step.id content } wf idx
        step artifactId warning (session.stepData.set step.id content)
          (.str (wf.following idx)) false)
    (fun outcome after => (∀ child, outcome ≠ .ok (.completed child)) ∧
        Stepped world session wf idx step content after)
      world := by
  have stepped : ∀ {text : String} {new : Session} {after : World},
    columnText env (.str (wf.following idx)) = .ok text →
      Applies env (.ok (.arrived (.str (wf.following idx)) (session.stepData.set step.id content) 0)) session new →
      Becomes world (world.ledger.setRow session.sessionId new) after →
      Stepped world session wf idx step content after := by
    intro text new after _ applies becomes
    refine ⟨new, ?_, becomes⟩
    rw [← Workflow.Straight.following_eq]
    exact applies
  unfold advanceSession
  dsimp only
  rw [wp_bind, wp_attemptCascade, wp_ofExcept, straight.applySkipLoop fueled]
  dsimp only
  rw [wp_bind, straight.autoExecuteMcpSteps fueled, wp_pure]
  dsimp only
  refine wp_enterPointer 0 found ?_ ?_
  · intro text new after stored applies becomes
    have unowned : after.parentOf session.sessionId = none := by
      have bare : after.sessionStack.lookup session.sessionId = none := by
        change after.ledger.frame session.sessionId = none
        rw [becomes.ledger_eq]
        exact root
      simp only [World.parentOf, World.ownFrame, bare]
    rw [wp_bind, wp_read]
    dsimp only
    rw [unowned, Option.isSome_none, Bool.and_false, if_neg Bool.false_ne_true, wp_bind,
      wp_ofExcept]
    split
    · exact ⟨by simp [pure, Program.pure], stepped stored applies becomes⟩
    · exact ⟨by simp, stepped stored applies becomes⟩
  · intro raised new after _ _ applies becomes
    exact ⟨by simp, stepped rfl applies becomes⟩

theorem wp_commitSubmission_straight (straight : wf.Straight) (fueled : 0 < env.fuel)
    (there : wf.steps[idx]? = some step) (found : world.ledger.row session.sessionId = some session)
    (root : world.ledger.frame session.sessionId = none) {artifactId : Option String} :
    Wp (commitSubmission env deployment sessionId session wf idx step content "" artifactId)
    (fun outcome after => (∀ child, outcome ≠ .ok (.completed child)) ∧
        Stepped world session wf idx step content after)
      world := by
  have calm : firedGuardrail env wf content { session with stepData := session.stepData.set step.id content } step.id =
      .ok none := by
    simp only [firedGuardrail, straight.unguarded, Bool.false_eq_true, if_false]
    rfl
  have onward : nextStepOf wf idx step none "" = .ok (.goTo (.str (wf.following idx)) false) := by
    simp only [nextStepOf, (straight.ordinary step (List.mem_of_getElem? there)).unbranched,
      Bool.false_eq_true, if_false]
    rfl
  unfold commitSubmission
  dsimp only
  rw [wp_bind, wp_ofExcept, calm]
  dsimp only
  rw [wp_bind, wp_ofExcept]
  have acts : (none : Option Val).mapM (fun guardrail => guardrail.item "action") =
      (.ok none : Except Exn (Option Val)) := rfl
  have warns : guardrailWarning none none = .ok none := rfl
  rw [acts]
  dsimp only
  rw [if_neg (by simp), wp_bind, wp_ofExcept, warns]
  dsimp only
  rw [wp_bind, wp_ofExcept, onward]
  exact wp_advanceSession_straight straight fueled found root

theorem wp_submitResolved_straight (straight : wf.Straight) (fueled : 0 < env.fuel)
    (there : wf.steps[idx]? = some step) (underway : Underway deployment world sid wf idx session)
    (fits : content.utf8ByteSize ≤ contentMax)
    (passes : validateOutput env content step = .ok none) :
    Wp (submitResolved env deployment sessionId step.id content "" "" session wf)
    (fun outcome after => (∀ child, outcome ≠ .ok (.completed child)) ∧ Stepped world session wf idx step content after)
      world := by
  have sameId := underway.resolves.sessionId_eq
  have ordinary := straight.ordinary step (List.mem_of_getElem? there)
  have pointer : session.currentStep = step.id := underway.pointer.trans (pointerAt_some there)
  have found : world.ledger.row session.sessionId = some session := sameId ▸ underway.resolves.row
  have root : world.ledger.frame session.sessionId = none := sameId ▸ underway.root
  have accepts : Accepts world session wf step.id content idx step :=
    ⟨underway.unescalated, fun atEnd =>
      straight.distinct.2 (atEnd ▸ pointer ▸ List.mem_map_of_mem (List.mem_of_getElem? there)),
      pointer.symm, fits, sameId ▸ underway.bare, straight.distinct.found there, ordinary.uncalled⟩
  have commits : (submitResolved env deployment sessionId step.id content "" "" session wf).run world =
      (commitSubmission env deployment sessionId session wf idx step content "" (shownArtifact step "")).run
        (checkpointed env world session step content "") :=
    submitResolved_commits accepts found (by rw [ContentPasses, if_neg (by simp [ordinary.plain])]; exact passes)
  have unkept : checkpointed env world session step content "" = world := by
    simp [checkpointed, keepsCheckpoint, ordinary.plain]
  rw [unkept] at commits
  rw [Wp, commits]
  exact wp_commitSubmission_straight straight fueled there found root

theorem wp_trapErrors_state {field : String} {presented : Option String} {body : Server Val}
    {post : World → Prop} (holds : Wp body (fun _ after => post after) world) :
    Wp (trapErrors env field presented body) (fun _ after => post after) world := by
  unfold trapErrors
  rw [wp_rescue]
  refine holds.mono ?_
  rintro (raised | value) after reached
  · cases raised <;> exact reached
  · exact reached

theorem wp_submitStep_straight (straight : wf.Straight) (fueled : 0 < env.fuel)
    (named : sessionId ≠ "") (presents : env.normalizeSessionId sessionId = sid)
    (there : wf.steps[idx]? = some step)
    (underway : Underway deployment world sid wf idx session)
    (fits : content.utf8ByteSize ≤ contentMax)
    (passes : validateOutput env content step = .ok none) :
    Wp (submitStep env deployment sessionId step.id content "" "") (fun _ after =>
      Stepped world session wf idx step content after) world := by
  have ordinary := straight.ordinary step (List.mem_of_getElem? there)
  have checked : checkStrs [(sessionId, "session_id", true), (step.id, "step_id", true),
      (content, "content", false), ("", "branch", false), ("", "artifact_id", false)] = none := by
    simp [checkStrs, checkStr, named, ordinary.named]
  unfold submitStep
  refine wp_trapErrors_state ?_
  unfold withSession
  rw [checked]
  dsimp only
  rw [presents, wp_bind]
  refine wp_resolveSession ?_ (fun err _ unresolved _ =>
    absurd underway.resolves (unresolved session wf)) ?_
  · intro other otherWf resolves
    obtain ⟨rfl, rfl⟩ := underway.resolves.unique resolves
    dsimp only
    rw [wp_bind]
    refine (wp_submitResolved_straight straight fueled there underway fits passes).mono ?_
    rintro outcome after ⟨open_, stepped⟩
    rcases outcome with raised | (response | child)
    · exact stepped
    · exact stepped
    · exact absurd rfl (open_ child)
  · intro err other new after _ stale
    exact absurd stale underway.resolves.not_stale

theorem Workflow.Straight.pointerAt_unreserved (straight : wf.Straight) (idx : Nat) :
    wf.pointerAt idx ≠ workflowChanged := by
  unfold Workflow.pointerAt
  cases there : wf.steps[idx]? with
  | none => decide
  | some step => exact (straight.ordinary step (List.mem_of_getElem? there)).unreserved

theorem Underway.next (straight : wf.Straight)
    (underway : Underway deployment world sid wf idx session)
    (stepped : Stepped world session wf idx step content after) : ∃ new,
      Underway deployment after sid wf (idx + 1) new ∧
        new.stepData = session.stepData.set step.id content ∧
        Becomes world (world.ledger.setRow sid new) after := by
  obtain ⟨new, moved, becomes⟩ := stepped
  have resolves := underway.resolves
  rw [resolves.sessionId_eq] at becomes
  have here : after.ledger.row sid = some new :=
    by rw [becomes.ledger_eq, Ledger.setRow_row, if_pos rfl]
  have frames : after.ledger.frame = world.ledger.frame := by
    rw [becomes.ledger_eq]
    rfl
  refine ⟨new, ⟨⟨here, resolves.caller, ?_, ?_, ?_⟩, ?_, moved.currentStep_eq, ?_, ?_⟩,
    moved.stepData_eq, becomes⟩
  · rw [moved.currentStep_eq]
    exact straight.pointerAt_unreserved (idx + 1)
  · rw [moved.workflowType_eq]
    exact resolves.loaded
  · rw [moved.workflowType_eq, moved.workflowFingerprint_eq]
    exact resolves.unchanged
  · exact moved.escalation_eq.trans underway.unescalated
  · rw [frames]
    exact underway.root
  · rw [World.topFrameFor_none_iff]
    intro frame above
    rw [becomes.ledger_eq, Ledger.setRow_above] at above
    exact World.topFrameFor_none_iff.mp underway.bare frame above

/-- A content for each step, each within the limit and valid for its step. -/
def Submittable (env : Env) (pairs : List (Step × String)) : Prop :=
  ∀ pair ∈ pairs, pair.2.utf8ByteSize ≤ contentMax ∧ validateOutput env pair.2 pair.1 = .ok none

/-- Submissions for the next steps, in the order of the list, bring the session that many steps
further. -/
theorem submitEach_underway (straight : wf.Straight) (fueled : 0 < env.fuel)
    (named : sessionId ≠ "") (presents : env.normalizeSessionId sessionId = sid)
    {pairs : List (Step × String)} :
    ∀ {idx : Nat} {world : World} {session : Session},
      Underway deployment world sid wf idx session →
      pairs.map Prod.fst <+: wf.steps.drop idx → Submittable env pairs →
      ∃ new, Underway deployment (submitEach env deployment sessionId pairs world) sid wf (idx + pairs.length) new ∧
        new.stepData = storedEach session.stepData pairs ∧
        Becomes world (world.ledger.setRow sid new)
          (submitEach env deployment sessionId pairs world) := by
  induction pairs with
  | nil =>
      intro idx world session underway _ _
      refine ⟨session, underway, rfl, ?_⟩
      rw [Ledger.setRow_self underway.resolves.row]
      exact Becomes.refl world
  | cons pair rest ih =>
      intro idx world session underway ahead submittable
      obtain ⟨step, content⟩ := pair
      obtain ⟨others, together⟩ := ahead
      rw [List.map_cons, List.cons_append] at together
      have there : wf.steps[idx]? = some step := by
        rw [← List.head?_drop, ← together]
        rfl
      have onward : rest.map Prod.fst <+: wf.steps.drop (idx + 1) := by
        refine ⟨others, ?_⟩
        rw [← List.tail_drop, ← together]
        rfl
      obtain ⟨fits, passes⟩ := submittable (step, content) List.mem_cons_self
      have stepped := wp_submitStep_straight straight fueled named presents there underway fits passes
      obtain ⟨middle, further, stored, reached⟩ := underway.next straight stepped
      obtain ⟨new, arrived, kept, through⟩ := ih further onward fun other member =>
        submittable other (List.mem_cons_of_mem _ member)
      rw [reached.ledger_eq, Ledger.setRow_setRow] at through
      rw [Nat.add_assoc, Nat.add_comm 1] at arrived
      refine ⟨new, arrived, ?_, reached.trans through⟩
      rw [kept, stored]
      rfl

/-! The start of the session. -/

/-- A root session is created wherever the token that is drawn names no row. -/
theorem wp_createSession_root {workflowType currentStep fingerprint : String} {limit : Option Nat}
    (unused : world.ledger.row (env.token world.minted) = none) :
    Wp (createSession env workflowType currentStep none .call none limit fingerprint)
    (fun outcome _ => ∃ root, outcome = .ok root) world := by
  unfold createSession drawToken nowIso insertSession
  simp only [wp_bind, wp_read, wp_write, wp_pure]
  refine wp_transaction ?_
  simp only [wp_bind, wp_read, wp_write]
  have absent : ∀ ids,
    (({ world with minted := world.minted + 1, ticks := world.ticks + 1 } : World).withoutSessions
      ids).sessions.lookup (env.token world.minted) = none := by
    intro ids
    change (World.ledger _).row _ = none
    rw [World.ledger_withoutSessions, Ledger.without_row]
    split
    · rfl
    · exact unused
  split
  · exact ⟨_, rfl⟩
  · rename_i refused
    exact absurd refused (Option.isSome_iff_ne_none.mp (Table.insert_isSome_iff.mpr (absent _)))

theorem wp_runFront_straight (straight : wf.Straight) (fueled : 0 < env.fuel)
    (found : world.ledger.row sid = some session) {workflowType context : String} :
    Wp (runFront env deployment workflowType context wf sid)
    (fun _ after => ∃ new, session.Counted new ∧
      Becomes world (world.ledger.setRow sid new) after) world := by
  unfold runFront
  rw [wp_bind]
  refine wp_incrementVisit found ?_ fun raised broken => by simp [jsonKey] at broken
  intro new after _ counted becomes
  dsimp only
  rw [wp_bind, straight.autoExecuteMcpSteps fueled, wp_pure]
  dsimp only
  have stays : (!(Val.str wf.first.id).isStr wf.first.id) = false := by simp [Val.isStr]
  rw [stays, if_neg Bool.false_ne_true, wp_ofExcept]
  exact ⟨new, counted, becomes⟩

/-- `start_workflow` opens a session that has all steps before it. -/
theorem wp_startWorkflow_straight (straight : wf.Straight) (fueled : 0 < env.fuel)
    (sound : world.Sound env) (caller : deployment.caller = .anonymous) {workflowType : String}
    (context : String) (named : workflowType ≠ "")
    (loaded : deployment.workflows.get? workflowType = some wf)
    (room : world.countActive < activeCap) :
    Wp (startWorkflow env deployment workflowType context) (fun _ after => ∃ session,
      Underway deployment after (env.token world.minted) wf 0 session ∧
        session.stepData = Table.empty ∧
        after.ledger = (world.ledger.without (world.evicted env)).setRow (env.token world.minted) session ∧
        after.minted = world.minted + 1 ∧ after.outbound = world.outbound) world := by
  have checked : checkStrs [(workflowType, "workflow_type", true), (context, "context", false)] =
    none := by
    simp [checkStrs, checkStr, named]
  have unused : world.ledger.row (env.token world.minted) = none := by
    cases there : world.ledger.row (env.token world.minted) with
    | none => rfl
    | some row => exact absurd (sound.rowIssued there) Issued.not_next
  unfold startWorkflow
  refine wp_trapErrors_state ?_
  rw [checked]
  dsimp only
  rw [loaded]
  dsimp only
  rw [wp_bind, wp_read]
  dsimp only [id]
  rw [if_neg (Nat.not_le_of_gt room), wp_bind]
  refine (wp_createSession_root unused).using (wp_createSession ?_ ?_)
  · intro now created row rowEq creates _
    have rowId : row.sessionId = env.token world.minted := creates.sessionId_eq
    have ledgerCreated : created.ledger =
      (world.ledger.without (world.evicted env)).setRow row.sessionId row :=
      creates.ledger_eq
    have foundRow : created.ledger.row row.sessionId = some row := by
      rw [ledgerCreated, Ledger.setRow_row, if_pos rfl]
    dsimp only
    refine (wp_runFront_straight straight fueled foundRow).mono ?_
    rintro _ after ⟨new, counted, becomes⟩
    have ledgerAfter : after.ledger =
      (world.ledger.without (world.evicted env)).setRow (env.token world.minted) new := by
      rw [becomes.ledger_eq, ledgerCreated, Ledger.setRow_setRow, rowId]
    have here : after.ledger.row (env.token world.minted) = some new := by
      rw [ledgerAfter, Ledger.setRow_row, if_pos rfl]
    have frames : ∀ other frame, after.ledger.frame other = some frame →
      world.ledger.frame other = some frame := by
      intro other frame framed
      rw [ledgerAfter, Ledger.setRow_frame, Ledger.without_frame] at framed
      split at framed
      · cases framed
      · exact framed
    have bare : after.ledger.frame (env.token world.minted) = none := by
      cases framed : after.ledger.frame (env.token world.minted) with
      | none => rfl
      | some frame => exact absurd (frames _ _ framed) (by simp [sound.unframed])
    have atFirst : new.currentStep = wf.pointerAt 0 := by
      rw [counted.currentStep_eq, rowEq]
      rfl
    refine ⟨new, ⟨⟨here, caller, ?_, ?_, ?_⟩, ?_, atFirst, ?_, ?_⟩, ?_, ledgerAfter, ?_, ?_⟩
    · rw [atFirst]
      exact straight.pointerAt_unreserved 0
    · rw [counted.workflowType_eq, rowEq]
      exact loaded
    · intro fp current
      rw [counted.workflowType_eq, rowEq] at current
      rw [counted.workflowFingerprint_eq, rowEq]
      simp only [newSession, fingerprintFor] at current ⊢
      rw [current]
    · rw [counted.escalation_eq, rowEq]
      rfl
    · exact bare
    · rw [World.topFrameFor_none_iff]
      intro frame above
      have onRoot := above.2.1
      rw [Ledger.standing_of_root bare] at onRoot
      exact Issued.not_next (onRoot ▸ sound.rootIssued (frames _ _ above.1))
    · rw [counted.stepData_eq, rowEq]
      rfl
    · rw [becomes.minted_eq, creates.minted_eq]
    · rw [becomes.outbound_eq, creates.outbound_eq]
  · rintro raised after _ _ _ ⟨root, same⟩
    cases same

theorem get?_storedEach {pairs : List (Step × String)}
    (distinct : (pairs.map fun pair => pair.1.id).Nodup) (stepId : String) :
    (storedEach data pairs).get? stepId =
      ((pairs.find? fun pair => pair.1.id == stepId).map Prod.snd).or (data.get? stepId) := by
  induction pairs generalizing data with
  | nil => rfl
  | cons pair rest ih =>
      rw [List.map_cons, List.nodup_cons] at distinct
      obtain ⟨fresh, distinct⟩ := distinct
      rw [storedEach, ih distinct, List.find?_cons]
      by_cases same : pair.1.id = stepId
      · have absent : rest.find? (fun other => other.1.id == stepId) = none := by
          rw [List.find?_eq_none]
          intro other member again
          exact fresh (List.mem_map.mpr ⟨other, member, (beq_iff_eq.mp again).trans same.symm⟩)
        simp only [absent, same, beq_self_eq_true, Dict.get?_set, if_true, Option.map_none,
          Option.none_or, Option.map_some, Option.some_or]
      · simp only [beq_eq_false_iff_ne.mpr same, Dict.get?_set, if_neg (Ne.symm same)]

theorem pointerAt_eq_complete_iff (straight : wf.Straight) (before : idx ≤ wf.steps.length) :
    wf.pointerAt idx = complete ↔ idx = wf.steps.length := by
  constructor
  · intro atEnd
    by_contra inside
    have there := List.getElem?_eq_getElem (show idx < wf.steps.length by omega)
    rw [pointerAt_some there] at atEnd
    exact straight.distinct.2 (List.mem_map.mpr ⟨_, List.getElem_mem _, atEnd⟩)
  · rintro rfl
    rw [Workflow.pointerAt, List.getElem?_eq_none (le_refl _)]
    rfl

/-- After the start and any number of submissions the session is that many steps along, with every
content under its step and the rest of the store untouched; it is complete exactly when each step
had its submission. -/
theorem walkthrough_underway (straight : wf.Straight) (fueled : 0 < env.fuel)
    (sound : world.Sound env) (caller : deployment.caller = .anonymous) {workflowType : String}
    (typed : workflowType ≠ "")
    (loaded : deployment.workflows.get? workflowType = some wf)
    (room : world.countActive < activeCap)
    (context : String) (named : sessionId ≠ "")
    (presents : env.normalizeSessionId sessionId = env.token world.minted)
    {pairs : List (Step × String)} (ahead : pairs.map Prod.fst <+: wf.steps)
    (submittable : Submittable env pairs) :
    ∃ session, session.currentStep = wf.pointerAt pairs.length ∧
      (session.currentStep = complete ↔ pairs.length = wf.steps.length) ∧
      (∀ stepId, session.stepData.get? stepId = (pairs.find? fun pair =>
        pair.1.id == stepId).map Prod.snd) ∧
      (walkthrough env deployment workflowType context sessionId pairs world).ledger =
        (world.ledger.without (world.evicted env)).setRow (env.token world.minted) session ∧
      (walkthrough env deployment workflowType context sessionId pairs world).outbound =
        world.outbound := by
  obtain ⟨opened, underway, fresh, ledgerOpened, -, calls⟩ :=
    wp_startWorkflow_straight straight fueled sound caller context typed loaded room
  obtain ⟨session, arrived, kept, becomes⟩ :=
    submitEach_underway straight fueled named presents underway ahead submittable
  have within : pairs.length ≤ wf.steps.length := by
    have shorter := ahead.length_le
    rwa [List.length_map] at shorter
  have distinct : (pairs.map fun pair => pair.1.id).Nodup := by
    have initial := ahead.map Step.id
    rw [List.map_map] at initial
    exact initial.sublist.nodup straight.distinct.1
  have pointer := arrived.pointer
  rw [Nat.zero_add] at pointer
  refine ⟨session, pointer, ?_, ?_, ?_, ?_⟩
  · rw [pointer]
    exact pointerAt_eq_complete_iff straight within
  · intro stepId
    rw [kept, fresh, get?_storedEach distinct]
    exact Option.or_none
  · rw [walkthrough, becomes.ledger_eq, ledgerOpened, Ledger.setRow_setRow]
  · exact becomes.outbound_eq.trans calls

theorem Workflow.Straight.of_rows (deployment : Deployment)
    (each : ∀ entry ∈ deployment.workflows.rows,
    entry.2.steps.all (fun step => !step.isCall && !step.isMcpToolCall && !step.flag "branches" &&
      step.precondition.isNone && !step.flag "intermediate_artifacts") = true ∧
    entry.2.steps.all (fun step => step.id != "" && step.id != workflowChanged) = true ∧
    (entry.2.get? "guardrails").isNone = true ∧ (entry.2.steps.map Step.id).Nodup ∧
    complete ∉ entry.2.steps.map Step.id) :
    ∀ name wf, deployment.workflows.get? name = some wf → wf.Straight := by
  intro name wf loaded
  obtain ⟨bare, proper, unguarded, distinct⟩ := each _ (Dict.mem_of_get? loaded)
  refine ⟨fun step member => ?_, ?_, distinct⟩
  · have plain := List.all_eq_true.mp bare step member
    have labelled := List.all_eq_true.mp proper step member
    simp only [Bool.and_eq_true, Bool.not_eq_true', Option.isNone_iff_eq_none] at plain
    simp only [Bool.and_eq_true, bne_iff_ne] at labelled
    obtain ⟨⟨⟨⟨uncalled, client⟩, unbranched⟩, unconditional⟩, whole⟩ := plain
    exact ⟨uncalled, client, unbranched, unconditional, whole, labelled.1, labelled.2⟩
  · rw [Option.isNone_iff_eq_none.mp unguarded]
    rfl

theorem walkthrough_letter :
    ∃ wf session, (appOf sampleEnv letterDocs).workflows.get? "letter" = some wf ∧
    wf.steps.length = 2 ∧ session.currentStep = complete ∧
    (walkthrough sampleEnv (appOf sampleEnv letterDocs) "letter" "" "s" (wf.steps.map fun step =>
      (step, "done"))
      World.empty).ledger.row (sampleToken 0) = some session := by
  obtain ⟨wf, loaded⟩ := Option.isSome_iff_exists.mp
    (show ((appOf sampleEnv letterDocs).workflows.get? "letter").isSome = true by rfl)
  have straight := Workflow.Straight.of_rows (appOf sampleEnv letterDocs) (by decide) _ _ loaded
  have each : ∀ entry ∈ (appOf sampleEnv letterDocs).workflows.rows, entry.2.steps.length = 2 ∧
      entry.2.steps.all (fun step => !step.flag "output_schema") = true := by decide
  obtain ⟨two, free⟩ := each _ (Dict.mem_of_get? loaded)
  have submittable : Submittable sampleEnv (wf.steps.map fun step => (step, "done")) := by
    intro pair member
    obtain ⟨step, known, rfl⟩ := List.mem_map.mp member
    have unchecked := List.all_eq_true.mp free step known
    rw [Bool.not_eq_true'] at unchecked
    exact ⟨show "done".utf8ByteSize ≤ contentMax by decide,
      by rw [validateOutput, unchecked, if_neg Bool.false_ne_true]⟩
  have all : (wf.steps.map fun step => (step, "done")).map Prod.fst <+: wf.steps := by
    rw [List.map_map]
    exact (List.map_id wf.steps).symm ▸ List.prefix_refl _
  have sound : World.empty.Sound sampleEnv := World.empty_sound
  have presents : sampleEnv.normalizeSessionId "s" = sampleEnv.token World.empty.minted := rfl
  obtain ⟨session, -, ended, -, stands, -⟩ :=
    walkthrough_underway straight (by decide) sound (by rfl) (by decide)
    loaded (by decide) "" (by decide) presents all submittable
  refine ⟨wf, session, loaded, two, ended.mpr (List.length_map _), ?_⟩
  rw [stands, Ledger.setRow_row]
  rfl

end Megalos
