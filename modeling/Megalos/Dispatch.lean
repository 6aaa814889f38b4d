import Megalos.Reshaping

/-!
Every tool call has one of the effects.
-/

namespace Megalos

open KeyedTable StatefulProgram StatefulProgram.Program

variable {env : Env} {deployment : Deployment} {world : World} {sid : SessionId}

theorem settles_startWorkflow (workflowType context : String) :
    Settles .diverges (Affects env deployment world (.startWorkflow workflowType context))
    (startWorkflow env deployment workflowType context) world := by
  unfold startWorkflow
  refine settles_trapErrors ?_
  split
  · exact settles_pure .unchanged
  rename_i passed
  have named : workflowType ≠ "" := checkStrs_none passed "workflow_type" (by simp)
  cases loaded : deployment.workflows.get? workflowType with
  | none => exact settles_pure .unchanged
  | some wf =>
  dsimp only
  refine settles_read_bind ?_
  dsimp only [id]
  by_cases full : activeCap ≤ world.countActive
  · rw [if_pos full]
    exact settles_pure .unchanged
  rw [if_neg full]
  refine settles_bind ?_
  refine wp_createSession ?_ ?_
  case refine_2 =>
    intro raised after _ ledgerEq mintedEq _
    rw [Affects, ledgerEq]
    exact .idle (by omega)
  intro now created row rowEq creates
  have rowId : row.sessionId = env.token world.minted := creates.sessionId_eq
  have ledgerCreated : created.ledger =
      (world.ledger.without (world.evicted env)).setRow row.sessionId row := creates.ledger_eq
  have foundRow : created.ledger.row row.sessionId = some row := by rw [ledgerCreated]; simp
  have opens : ∀ {new : Session} {after : World},
      Opened env deployment.registry wf world.outbound.length row new →
      Reaches created (created.ledger.setRow row.sessionId new) after →
      Affects env deployment world (.startWorkflow workflowType context) after := by
    intro new after opened reaches
    rw [Affects, reaches.ledger_eq, reaches.minted_eq, creates.minted_eq, ledgerCreated,
      Ledger.setRow_setRow, rowId]
    rw [rowEq] at opened
    refine .started named loaded (by omega) ?_ opened
    rw [← rowId]
    exact creates.unused
  have calls : created.outbound = world.outbound := creates.outbound_eq
  dsimp only
  unfold runFront
  refine settles_bind ?_
  refine wp_incrementVisit foundRow ?_ fun raised broken => by simp [jsonKey] at broken
  intro visited counted _ visits becomes
  have foundVisited : counted.ledger.row row.sessionId = some visited :=
    by rw [becomes.ledger_eq]; simp
  dsimp only
  refine settles_bind ?_
  refine (wp_autoExecuteMcpSteps env.fuel (.str wf.first.id) Table.empty foundVisited).mono ?_
  rw [becomes.outbound_eq, calls]
  intro outcome ranTo ran
  cases ran with
  | raised computed more reaches =>
      rename_i raised new
      refine fun _ => opens (.inl ?_) (becomes.toReaches.then_setRow reaches)
      rw [computed]
      exact visits.trans more
  | stopped computed more reaches =>
      rename_i stoppedAt stoppedData err new
      have foundNew : ranTo.ledger.row row.sessionId = some new := by rw [reaches.ledger_eq]; simp
      have reached := becomes.toReaches.then_setRow reaches
      refine settles_bind ?_
      refine wp_storePointer (.stopped stoppedAt stoppedData ranTo.outbound.length) rfl foundNew ?_ ?_
      · intro text last after _ applies stores
        refine settles_pure (opens (.inl ?_) (reached.then_setRow stores.toReaches))
        rw [computed]
        exact applies.after_counting (visits.trans more)
      · intro raised _ applies _
        refine opens (.inl ?_) reached
        rw [computed]
        exact applies.after_counting (visits.trans more)
  | arrived computed more reaches =>
      rename_i arrivedAt arrivedData new
      have foundNew : ranTo.ledger.row row.sessionId = some new := by rw [reaches.ledger_eq]; simp
      have reached := becomes.toReaches.then_setRow reaches
      dsimp only
      split
      · refine settles_bind ?_
        refine wp_storePointer (.arrived arrivedAt arrivedData ranTo.outbound.length) rfl foundNew ?_ ?_
        · intro text stored after bound applies stores
          have foundStored : after.ledger.row row.sessionId = some stored :=
            by rw [stores.ledger_eq]; simp
          have reachedStored := reached.then_setRow stores.toReaches
          have applied := applies.after_counting (visits.trans more)
          have ends : Affects env deployment world (.startWorkflow workflowType context) after :=
            opens (.inl (by rw [computed]; exact applied)) reachedStored
          dsimp only
          split
          · refine settles_bind ?_
            refine wp_incrementVisit foundStored ?_ ?_
            · intro last final _ counts ticks
              refine settles_ofExcept fun _ => opens (.inl ?_)
                (reachedStored.then_setRow ticks.toReaches)
              rw [computed]
              exact applied.before_counting counts
            · exact fun _ _ _ => ends
          · exact settles_ofExcept fun _ => ends
        · intro raised _ applies _
          refine opens (.inl ?_) reached
          rw [computed]
          exact applies.after_counting (visits.trans more)
      · rename_i atFirst
        refine settles_ofExcept fun _ =>
          opens (.inr ⟨⟨arrivedData, ranTo.outbound.length, ?_⟩, visits.trans more⟩) reached
        have same := Val.isStr_iff.mp (show arrivedAt.isStr wf.first.id =
          true by simpa using atFirst)
        rw [computed, same]

/-- What `delete_session` answers, and the state it leaves. -/
inductive DeleteEffect (env : Env) (deployment : Deployment) (world : World) (sessionId : String) :
    Val → World → Prop
  | refused {response : Val} (closed : ∀ session, ¬Deletes env deployment world sessionId session)
      (failed : response.isError = true) :
        DeleteEffect env deployment world sessionId response world
  | deleted {session : Session} {response : Val} {after : World}
      (deletes : Deletes env deployment world sessionId session)
      (succeeded : response.isError = false)
      (reaches : Reaches world (world.ledger.drop session.sessionId) after) :
      DeleteEffect env deployment world sessionId response after

/-- `delete_session` always answers, and without an error exactly when it deletes. -/
theorem wp_deleteSession (sessionId : String) :
    Wp (deleteSession env deployment sessionId) (fun outcome after =>
      ∃ response, outcome = .ok response ∧
        DeleteEffect env deployment world sessionId response after)
      world := by
  unfold deleteSession trapErrors
  rw [wp_rescue]
  cases checked : checkStrs [(sessionId, "session_id", true)] with
  | some err =>
      have unnamed : sessionId = "" := by
        by_contra named
        simp [checkStrs, checkStr, named] at checked
      subst unnamed
      have errEq : errorResponse "invalid_argument" ("session_id" ++ " must not be empty")
          [("field", .str "session_id")] = err := by
        simpa [checkStrs, checkStr] using checked
      exact ⟨err, rfl, .refused (fun _ deletes => deletes.named rfl) (by rw [← errEq]; simp)⟩
  | none =>
  have named : sessionId ≠ "" := checkStrs_none checked "session_id" (by simp)
  simp only [wp_bind, wp_read, id]
  have rowOf : ∀ {session}, Deletes env deployment world sessionId session →
      world.sessions.lookup (env.normalizeSessionId sessionId) = some session :=
        fun deletes => deletes.row
  split
  · rename_i owner denied
    refine ⟨_, rfl, .refused ?_ (by simp)⟩
    intro session deletes
    have foreign := (Option.filter_eq_some_iff.mp denied).2
    simp [deletes.caller, Session.ownerIdentity] at foreign
  rename_i admitted
  split
  · rename_i own framed
    refine ⟨_, rfl, .refused ?_ (by simp [parentOwnedError])⟩
    intro session deletes
    have root : world.ownFrame session.sessionId = none := deletes.root
    rw [World.row_sessionId deletes.row, framed] at root
    simp at root
  rename_i unframed
  simp only [wp_bind, wp_rescue]
  refine wp_deleteSessionRow ?_ ?_
  · intro session after row becomes
    have sameId := World.row_sessionId row
    have caller : deployment.caller = .anonymous := by
      have looked : world.sessions.lookup (env.normalizeSessionId sessionId) = some session := row
      rw [looked] at admitted
      by_contra foreign
      simp [Option.filter, Session.ownerIdentity, foreign] at admitted
    simp only [wp_pure]
    refine ⟨_, rfl, .deleted ⟨named, caller, row, by rw [sameId]; exact unframed⟩ ?_ ?_⟩
    · simp [Val.isError, Val.get?, Val.obj, Val.valueAt?]
    · rw [sameId]
      exact becomes.toReaches
  · intro gone
    simp only [wp_pure]
    refine ⟨_, rfl, .refused ?_ (by simp [sessionNotFoundError])⟩
    intro session deletes
    rw [deletes.row] at gone
    simp at gone

theorem settles_deleteSession (sessionId : String) :
    Settles .diverges (Affects env deployment world (.deleteSession sessionId))
    (deleteSession env deployment sessionId) world := by
  refine (wp_deleteSession sessionId).mono ?_
  rintro outcome after ⟨response, -, effect⟩ -
  cases effect with
  | refused => exact .unchanged
  | deleted deletes succeeded reaches => exact .of_reaches (.deleted deletes) reaches

/-- A program that leaves the state alone. -/
abbrev Reads {α : Type} (body : Server α) : Prop := Keeps (fun before after => after = before) body

theorem reads_bind {α β : Type} {first : Server α} {next : α → Server β} (readsFirst : Reads first)
    (readsNext : ∀ value, Reads (next value)) : Reads (first >>= next) :=
  keeps_bind (fun _ _ _ start rest => rest.trans start) readsFirst readsNext

theorem reads_pure {α : Type} (value : α) : Reads (pure value : Server α) := fun _ => rfl

theorem reads_ofExcept {α : Type} (result : Except Exn α) : Reads (ofExcept result : Server α) :=
  keeps_ofExcept (fun _ => rfl) result

theorem reads_read {α : Type} (view : World → α) : Reads (read view : Server α) := fun _ => rfl

theorem reads_raise {α : Type} (raised : Exn) : Reads (raise raised : Server α) := fun _ => rfl

theorem reads_getSession (sid : SessionId) : Reads (getSession sid) := by
  unfold getSession
  refine reads_bind (reads_read _) fun found => ?_
  cases found with
  | none => exact reads_raise _
  | some session => exact reads_pure session

theorem reads_getArtifacts (sid : SessionId) (stepId : String) :
    Reads (getArtifacts sid stepId) := by
  unfold getArtifacts
  exact reads_bind (reads_getSession sid) fun _ => reads_pure _

theorem Reads.settles {α : Type} {call : Call} {body : Server α} (reads : Reads body) :
    Settles .diverges (Affects env deployment world call) body world := by
  refine (reads.wp world).mono ?_
  intro _ after same _
  rw [same]
  exact .unchanged

def ReadsSession (env : Env) (deployment : Deployment) (sessionId : String) (tool : Server Val) :
    Prop :=
  ∃ checks body, tool = trapErrors env "session_id" (some sessionId)
    (withSession env deployment sessionId checks body) ∧
    ∀ session wf, Reads (body session wf)

theorem ReadsSession.settles {call : Call} {sessionId : String} {tool : Server Val}
    (passes : call.passed = some sessionId) (reads : ReadsSession env deployment sessionId tool) :
    Settles .diverges (Affects env deployment world call) tool world := by
  obtain ⟨checks, body, rfl, reads⟩ := reads
  exact settles_trapErrors (settles_reading passes fun session wf => (reads session wf).settles)

theorem reads_getState (sessionId : String) :
    ReadsSession env deployment sessionId (getState env deployment sessionId) := by
  refine ⟨_, _, rfl, fun session wf => ?_⟩
  refine reads_bind (reads_ofExcept _) fun _ => ?_
  refine reads_bind (reads_ofExcept _) fun _ => ?_
  refine reads_bind (reads_ofExcept _) fun _ => ?_
  have tail : ∀ {checkpoints : Server (Dict String)}
    {response : Dict String → List String → World → Val},
      Reads checkpoints → Reads (do
        let checkpoints ← checkpoints
        let skipped ← ofExcept (computeSkippedSteps env wf session.stepData)
        let world ← read id
        return response checkpoints skipped world) := by
    intro checkpoints response reads
    refine reads_bind reads fun _ => ?_
    exact reads_bind (reads_ofExcept _) fun _ => reads_bind (reads_read _) fun _ => reads_pure _
  cases findStep wf (.str session.currentStep) with
  | none => exact tail (reads_pure Table.empty)
  | some entry =>
      dsimp only
      split
      · exact tail (reads_getArtifacts _ _)
      · exact tail (reads_pure Table.empty)

theorem reads_getGuidelines (sessionId : String) :
    ReadsSession env deployment sessionId (getGuidelines env deployment sessionId) := by
  refine ⟨_, _, rfl, fun session wf => ?_⟩
  cases findStep wf (.str session.currentStep) with
  | none => exact reads_raise _
  | some entry =>
      refine reads_bind (reads_ofExcept _) fun _ => ?_
      refine reads_bind (reads_ofExcept _) fun _ => ?_
      exact reads_bind (reads_ofExcept _) fun _ => reads_pure _

theorem reads_generateArtifact (sessionId outputFormat : String) :
    ReadsSession env deployment sessionId (generateArtifact env deployment sessionId outputFormat) := by
  refine ⟨_, _, rfl, fun session wf => ?_⟩
  dsimp only
  split
  · exact reads_bind (reads_ofExcept _) fun _ => reads_pure _
  · refine reads_bind (reads_ofExcept _) fun _ => ?_
    split
    · exact reads_pure _
    · exact reads_pure _

theorem reads_listWorkflows (category : String) : ∃ body, listWorkflows env deployment category =
    trapErrors env "category" none body ∧ Reads body := by
  refine ⟨_, rfl, ?_⟩
  split
  · exact reads_pure _
  · exact reads_pure _

theorem reads_listSessions :
    ∃ body, listSessions env = trapErrors env "unknown" none body ∧ Reads body :=
  ⟨_, rfl, reads_bind (reads_read _) fun _ => reads_pure _⟩

theorem settles_callTool (sound : world.Sound env) (call : Call) :
    Settles .diverges (Affects env deployment world call) (callTool env deployment call) world := by
  cases call with
  | listWorkflows category =>
      obtain ⟨body, same, reads⟩ : ∃ body, listWorkflows env deployment category = _ ∧ Reads body :=
        reads_listWorkflows category
      rw [callTool, same]
      exact settles_trapErrors reads.settles
  | startWorkflow workflowType context => exact settles_startWorkflow workflowType context
  | getState sessionId => exact (reads_getState sessionId).settles rfl
  | getGuidelines sessionId => exact (reads_getGuidelines sessionId).settles rfl
  | submitStep sessionId stepId content branch artifactId =>
      refine (settles_submitStep sound sessionId stepId content branch artifactId).mono ?_
      intro outcome after ends finite
      obtain ⟨ledger, effect, reaches⟩ := ends finite
      cases effect with
      | refused => exact .of_reaches .unchanged reaches
      | marked stale marks => exact .of_reaches (.marked stale marks (.own rfl)) reaches
      | submitted submits submitted => exact .of_reaches (.submitted submits submitted) reaches
  | reviseStep sessionId stepId =>
      refine (settles_reviseStep sound sessionId stepId).mono ?_
      intro outcome after ends finite
      obtain ⟨ledger, effect, reaches⟩ := ends finite
      cases effect with
      | refused => exact .of_reaches .unchanged reaches
      | marked stale marks => exact .of_reaches (.marked stale marks (.own rfl)) reaches
      | revised revises moved => exact .of_reaches (.revised revises moved) reaches
  | enterSubWorkflow parentSessionId callStepId =>
      exact settles_enterSubWorkflow sound parentSessionId callStepId
  | pushFlow sessionId workflowType pausedAtStep context =>
      exact settles_pushFlow sound sessionId workflowType pausedAtStep context
  | popFlow sessionId => exact settles_popFlow sessionId
  | listSessions =>
      obtain ⟨body, same, reads⟩ : ∃ body, listSessions env = _ ∧ Reads body := reads_listSessions
      rw [callTool, same]
      exact settles_trapErrors reads.settles
  | deleteSession sessionId => exact settles_deleteSession sessionId
  | generateArtifact sessionId outputFormat =>
    exact (reads_generateArtifact sessionId outputFormat).settles rfl

end Megalos