import Megalos.Dispatch
import Megalos.Library.GuardedRuns

/-!
What the tools do to the tables, as calls of `state.py`.  Every tool call is a run of them.
-/

namespace Megalos

open GuardedRuns KeyedTable StatefulProgram StatefulProgram.Program

/-- A function of `state.py` that writes, with its arguments. -/
inductive StoreCall where
  | createSession (workflowType currentStep : String) (parentSessionId : Option SessionId)
      (frameType : FrameType)
      (callStepId : Option String) (maxStackDepth : Option Nat) (workflowFingerprint : String)
  | updateCurrentStep (sessionId : SessionId) (currentStep : Val) (stepData : Option StepData)
  | updateStepData (sessionId : SessionId) (stepData : StepData)
  | invalidateStepsAfter (sessionId : SessionId) (stepIds : List String)
  | clearStepDataKey (sessionId : SessionId) (key : String)
  | incrementRetry (sessionId : SessionId) (stepId : String)
  | incrementVisit (sessionId : SessionId) (stepId : Val)
  | setEscalation (sessionId : SessionId) (guardrailId message : Val)
  | storeArtifact (sessionId : SessionId) (stepId artifactId content : String)
  | setCalledSession (parentSessionId : SessionId) (childSessionId : Option SessionId)
      (callStepId : Option String)
  | deleteSession (sessionId : SessionId)
  | expireSessions (cutoff : Timestamp)

/-- `expire_sessions`, with the time before which a session is past its lifetime. -/
def World.expireSessions (world : World) (cutoff : Timestamp) : World :=
  world.withoutSessions ((world.sessions.select fun session =>
    if session.currentStep = complete then session.completedAt.any (· < cutoff)
    else session.updatedAt < cutoff).map Session.sessionId)

/-- The store after the call, whether it returns or raises. -/
def StoreCall.after (env : Env) (before : World) : StoreCall → World
  | .createSession workflowType currentStep parentSessionId frameType callStepId maxStackDepth workflowFingerprint =>
      ((Megalos.createSession env workflowType currentStep parentSessionId frameType callStepId maxStackDepth
        workflowFingerprint).run before).2
  | .updateCurrentStep sessionId currentStep stepData =>
      ((Megalos.updateCurrentStep env sessionId currentStep stepData).run before).2
  | .updateStepData sessionId stepData =>
    ((Megalos.updateStepData env sessionId stepData).run before).2
  | .invalidateStepsAfter sessionId stepIds =>
    ((Megalos.invalidateStepsAfter env sessionId stepIds).run before).2
  | .clearStepDataKey sessionId key => ((Megalos.clearStepDataKey env sessionId key).run before).2
  | .incrementRetry sessionId stepId => ((Megalos.incrementRetry env sessionId stepId).run before).2
  | .incrementVisit sessionId stepId => ((Megalos.incrementVisit env sessionId stepId).run before).2
  | .setEscalation sessionId guardrailId message =>
      ((Megalos.setEscalation env sessionId guardrailId message).run before).2
  | .storeArtifact sessionId stepId artifactId content =>
      ((Megalos.storeArtifact env sessionId stepId artifactId content).run before).2
  | .setCalledSession parentSessionId childSessionId callStepId =>
      ((Megalos.setCalledSession env parentSessionId childSessionId callStepId).run before).2
  | .deleteSession sessionId => ((deleteSessionRow sessionId).run before).2
  | .expireSessions cutoff => before.expireSessions cutoff

def StoreCall.completes? (env : Env) : StoreCall → Option SessionId
  | .updateCurrentStep sessionId currentStep _ =>
      match columnText env currentStep with
      | .ok text => if text = complete then some sessionId else none
      | .error _ => none
  | _ => none

inductive StoreCall.Rewrites (env : Env) (before : World) : StoreCall → Session → Session → Prop
  | moved {currentStep : Val} {text : String} {stepData : Option StepData} {row new : Session}
      (column : columnText env currentStep = .ok text) (pointer : new.currentStep = text)
      (stamp : new.completedAt =
        (if text = complete then some (env.clock before.ticks) else none).or row.completedAt)
      (artifacts : new.artifactCheckpoints = row.artifactCheckpoints)
      (visits : new.stepVisitCounts = row.stepVisitCounts) :
      Rewrites env before (.updateCurrentStep row.sessionId currentStep stepData) row new
  | visited {stepId : Val} {row new : Session} (pointer : new.currentStep = row.currentStep)
      (stamp : new.completedAt = row.completedAt)
      (artifacts : new.artifactCheckpoints = row.artifactCheckpoints) :
      Rewrites env before (.incrementVisit row.sessionId stepId) row new
  | stored {stepId artifactId content : String} {row new : Session}
      (pointer : new.currentStep = row.currentStep) (stamp : new.completedAt = row.completedAt)
      (artifacts : new.artifactCheckpoints = row.artifactCheckpoints.set stepId
        ((row.artifactCheckpoints.getD stepId Table.empty).set artifactId content))
      (visits : new.stepVisitCounts = row.stepVisitCounts) :
      Rewrites env before (.storeArtifact row.sessionId stepId artifactId content) row new
  | kept {call : StoreCall} {row new : Session}
      (elsewhere : call.completes? env ≠ some row.sessionId)
      (pointer : new.currentStep = row.currentStep) (stamp : new.completedAt = row.completedAt)
      (artifacts : new.artifactCheckpoints = row.artifactCheckpoints)
      (visits : new.stepVisitCounts = row.stepVisitCounts) : Rewrites env before call row new

structure StoreRequest where
  cap : Nat
  call : StoreCall

inductive StoreStep (env : Env) (before : World) : Option StoreRequest → World → Prop
  | called (request : StoreRequest) : StoreStep env before (some request)
        (request.call.after { env with sessionCap := request.cap } before)
  | aside {after : World} (sessions : after.sessions = before.sessions)
      (sessionStack : after.sessionStack = before.sessionStack)
      (minted : after.minted = before.minted) : StoreStep env before none after

/-- The call creates no session, counts no visit and stores no artifact. -/
def StoreCall.plain : StoreCall → Bool
  | .createSession _ _ _ _ _ _ _ | .incrementVisit _ _ | .storeArtifact _ _ _ _ => false
  | _ => true

def StoreCall.Permitted (written : SessionId → String → String → Prop) : StoreCall → Prop
  | .storeArtifact sessionId stepId artifactId _ => written sessionId stepId artifactId
  | _ => True

class Lenient (permits : StoreCall → Prop) : Prop where
  plain : ∀ {call : StoreCall}, call.plain = true → permits call

class Liberal (permits : StoreCall → Prop) : Prop extends Lenient permits where
  creates : ∀ workflowType currentStep parent frameType callStepId limit fingerprint,
    permits (.createSession workflowType currentStep parent frameType callStepId limit fingerprint)
  visits : ∀ sid stepId, permits (.incrementVisit sid stepId)

instance : Lenient fun call => call.plain = true where
  plain := id

instance (written : SessionId → String → String → Prop) :
    Liberal (StoreCall.Permitted written) where
  plain := by
    intro call plain
    cases call with
    | storeArtifact => exact nomatch plain
    | _ => trivial
  creates _ _ _ _ _ _ _ := trivial
  visits _ _ := trivial

def StoreRun (env : Env) (permits : StoreCall → Prop) : World → World → Prop :=
  Run (StoreStep env) fun _ request => ∀ made, request = some made → permits made.call

/-- A program that works on the tables through calls of the store. -/
abbrev Issues {α : Type} (env : Env) (permits : StoreCall → Prop) (body : Server α) : Prop :=
  Keeps (StoreRun env permits) body

variable {env : Env} {deployment : Deployment} {permits : StoreCall → Prop}

namespace StoreRun

variable {before after : World}

theorem refl (world : World) : StoreRun env permits world world := Run.refl world

theorem trans (first second third : World) (start : StoreRun env permits first second)
    (rest : StoreRun env permits second third) : StoreRun env permits first third :=
      Run.trans start rest

theorem aside (sessions : after.sessions = before.sessions)
    (sessionStack : after.sessionStack = before.sessionStack)
    (minted : after.minted = before.minted) : StoreRun env permits before after := by
  refine (Run.refl before).snoc ?_ (.aside sessions sessionStack minted)
  rintro made ⟨⟩

theorem called (before : World) (call : StoreCall) (permitted : permits call) :
    StoreRun env permits before (call.after env before) := by
  refine (Run.refl before).snoc ?_ (.called ⟨env.sessionCap, call⟩)
  intro made same
  rw [← Option.some.inj same]
  exact permitted

end StoreRun

section Rows

variable {before : World} {sid : SessionId} {new : Session}

theorem changeRow_run (target : SessionId) (change : Session → Session)
    (keeps : ∀ session, (change session).sessionId = session.sessionId) :
    (changeRow env target change keeps).run before =
      if before.sessions.contains target then (.ok (), { before with
        sessions := before.sessions.update target
          (fun session => { change session with updatedAt := env.clock before.ticks }) keeps
        ticks := before.ticks + 1 })
      else (.error .sessionNotFound, { before with ticks := before.ticks + 1 }) := by
  change (if before.sessions.contains target then write fun world : World => { world with
      sessions := world.sessions.update target
        (fun session => { change session with updatedAt := env.clock before.ticks }) keeps }
    else raise .sessionNotFound : Server Unit).run { before with ticks := before.ticks + 1 } = _
  split <;> rfl

theorem changeRow_lookup {target : SessionId} {change : Session → Session}
    {keeps : ∀ session, (change session).sessionId = session.sessionId}
    (found : ((changeRow env target change keeps).run before).2.sessions.lookup sid = some new) :
    sid ≠ target ∧ before.sessions.lookup sid = some new ∨ sid = target ∧ ∃ old,
      before.sessions.lookup sid = some old ∧
        new = { change old with updatedAt := env.clock before.ticks } := by
  rw [changeRow_run] at found
  split at found
  · rw [Table.lookup_update] at found
    split at found
    · rename_i isTarget
      obtain ⟨old, there, rfl⟩ := Option.map_eq_some_iff.mp found
      exact .inr ⟨isTarget, old, isTarget ▸ there, rfl⟩
    · exact .inl ⟨‹_›, found⟩
  · rename_i missing
    refine .inl ⟨?_, found⟩
    rintro rfl
    exact missing (by rw [Table.contains, found]; rfl)

theorem setCalledSession_run (target : SessionId) (child : Option SessionId)
    (callStepId : Option String) :
    ((setCalledSession env target child callStepId).run before).2.sessions =
        ((changeRow env target fun session =>
          { session with calledSession := child }).run before).2.sessions ∧
      ((setCalledSession env target child callStepId).run before).2.minted = before.minted := by
  unfold setCalledSession transaction atomically
  by_cases found : before.sessions.contains target
  · simp only [bind, Program.bind, changeRow_run, if_pos found]
    cases child with
    | none => exact ⟨rfl, rfl⟩
    | some child => cases callStepId <;> exact ⟨rfl, rfl⟩
  · simp only [bind, Program.bind, changeRow_run, if_neg found, and_self]

theorem bind_reads_state {α β : Type} {first : Server α} {next : α → Server β}
    (reads : ∀ value, Reads (next value)) :
    ((first >>= next).run before).2 = (first.run before).2 := by
  change ((Program.bind first next).run before).2 = _
  simp only [Program.bind]
  rcases first.run before with ⟨raised | value, reached⟩
  · rfl
  · exact reads value reached

theorem incrementRetry_state (target : SessionId) (stepId : String) :
    ((incrementRetry env target stepId).run before).2 =
      ((changeRow env target fun session => { session with
        retryCounts := session.retryCounts.set stepId (session.retryCounts.getD stepId 0 + 1) }).run before).2 :=
  bind_reads_state fun _ => reads_bind (reads_getSession target) fun _ => reads_pure _

theorem updateCurrentStep_run (target : SessionId) (currentStep : Val)
    (stepData : Option StepData) :
    (updateCurrentStep env target currentStep stepData).run before =
      match columnText env currentStep with
      | .error raised => (.error raised, before)
      | .ok text => (changeRow env target fun session =>
          { session with
            currentStep := text
            completedAt := (if text =
              complete then some (env.clock before.ticks) else none).or session.completedAt
            stepData := stepData.getD session.stepData }).run { before with ticks :=
              before.ticks + 1 } := by
  unfold updateCurrentStep
  cases columnText env currentStep <;> rfl

/-- No id is given out but by `create_session`, and there it is the next one. -/
theorem StoreCall.minted_after (call : StoreCall) : (call.after env before).minted =
    before.minted + match call with
      | .createSession .. => 1
      | _ => 0 := by
  have changed : ∀ {world : World} {target change keeps},
      ((changeRow env target change keeps).run world).2.minted = world.minted := by
    intro world target change keeps
    rw [changeRow_run]
    split <;> rfl
  cases call with
  | createSession workflowType currentStep parent frameType callStepId limit fingerprint =>
      have minted : Wp (Megalos.createSession env workflowType currentStep parent frameType callStepId limit fingerprint)
          (fun _ after => after.minted = before.minted + 1) before :=
        wp_createSession (fun _ _ _ _ creates => creates.minted_eq) fun _ _ _ _ mintedEq => mintedEq
      exact minted
  | updateCurrentStep target currentStep stepData =>
      simp only [StoreCall.after, updateCurrentStep_run]
      cases columnText env currentStep with
      | error raised => rfl
      | ok text => exact changed
  | updateStepData target stepData => exact changed
  | invalidateStepsAfter target stepIds => exact changed
  | clearStepDataKey target key => exact changed
  | incrementRetry target stepId =>
      rw [StoreCall.after, incrementRetry_state]
      exact changed
  | incrementVisit target stepId =>
      simp only [StoreCall.after, Megalos.incrementVisit]
      cases jsonKey env stepId with
      | error raised => rfl
      | ok key => exact changed
  | setEscalation target guardrailId message => exact changed
  | storeArtifact target stepId artifactId content => exact changed
  | setCalledSession target child callStepId =>
    exact (setCalledSession_run target child callStepId).2
  | deleteSession target =>
      have minted : Wp (deleteSessionRow target)
        (fun _ after => after.minted = before.minted) before :=
        wp_deleteSessionRow (fun _ _ _ becomes => becomes.minted_eq) fun _ => rfl
      exact minted
  | expireSessions cutoff => rfl

/-- What a call of the store does to the rows: each was there, or it was rewritten, or it is new. -/
theorem StoreCall.row_after {call : StoreCall}
    (found : (call.after env before).sessions.lookup sid = some new) :
    (∃ old, before.sessions.lookup sid = some old ∧ call.Rewrites env before old new) ∨
      ∃ workflowType currentStep parent frameType callStepId limit fingerprint now,
        call = .createSession workflowType currentStep parent frameType callStepId limit fingerprint ∧
          sid = env.token before.minted ∧
          new = newSession (env.token before.minted) workflowType currentStep parent fingerprint now := by
  have same : call.completes? env = none → before.sessions.lookup sid = some new →
      ∃ old, before.sessions.lookup sid = some old ∧ call.Rewrites env before old new :=
    fun none there => ⟨new, there, .kept (by simp [none]) rfl rfl rfl rfl⟩
  have rewritten : ∀ {target change keeps},
      ((changeRow env target change keeps).run before).2.sessions.lookup sid = some new →
        call.completes? env = none →
      (∀ session, (change session).currentStep = session.currentStep ∧
        (change session).completedAt = session.completedAt ∧
        (change session).artifactCheckpoints = session.artifactCheckpoints ∧
        (change session).stepVisitCounts = session.stepVisitCounts) →
      ∃ old, before.sessions.lookup sid = some old ∧ call.Rewrites env before old new := by
    intro target change keeps there none leaves
    rcases changeRow_lookup there with ⟨-, untouched⟩ | ⟨-, old, was, rfl⟩
    · exact same none untouched
    · obtain ⟨pointer, stamp, artifacts, visits⟩ := leaves old
      exact ⟨old, was, .kept (by simp [none]) pointer stamp artifacts visits⟩
  cases call with
  | createSession workflowType currentStep parent frameType callStepId limit fingerprint =>
      have created : Wp (Megalos.createSession env workflowType currentStep parent frameType callStepId limit fingerprint)
          (fun _ after => after.ledger.row sid = some new → before.sessions.lookup sid = some new ∨
            ∃ now, sid = env.token before.minted ∧
              new = newSession (env.token before.minted) workflowType currentStep parent fingerprint now) before := by
        refine wp_createSession ?_ ?_
        · intro now after row rowEq creates there
          have rows : after.ledger.row sid = if sid = env.token before.minted then some row
              else (before.ledger.without (evictedIds env.sessionCap before.sessions)).row sid := by
            rw [creates.ledger_eq, ← creates.sessionId_eq]
            cases parent <;> simp [Ledger.insert, Ledger.setRow_row]
          rw [rows] at there
          split at there
          · rename_i isNew
            rw [Option.some.injEq] at there
            exact .inr ⟨now, isNew, there ▸ rowEq⟩
          · rw [Ledger.without_row] at there
            split at there
            · cases there
            · exact .inl there
        · intro raised after _ ledgerEq _ there
          rw [ledgerEq] at there
          exact .inl there
      rcases created found with there | ⟨now, isNew, isRow⟩
      · exact .inl (same rfl there)
      · exact .inr ⟨_, _, _, _, _, _, _, now, rfl, isNew, isRow⟩
  | updateCurrentStep target currentStep stepData =>
      left
      simp only [StoreCall.after, updateCurrentStep_run] at found
      cases column : columnText env currentStep with
      | error raised =>
          rw [column] at found
          exact same (by simp [completes?, column]) found
      | ok text =>
          rw [column] at found
          rcases changeRow_lookup found with ⟨apart, untouched⟩ | ⟨rfl, old, was, rfl⟩
          · refine ⟨new, untouched, .kept ?_ rfl rfl rfl rfl⟩
            rw [Table.lookup_key untouched]
            simp only [completes?, column]
            split <;> simp [Ne.symm apart]
          · have isRow : old.sessionId = sid := Table.lookup_key was
            subst isRow
            exact ⟨old, was, .moved column rfl rfl rfl rfl⟩
  | updateStepData target stepData =>
      simp only [StoreCall.after, Megalos.updateStepData] at found
      exact .inl (rewritten found rfl fun _ => ⟨rfl, rfl, rfl, rfl⟩)
  | invalidateStepsAfter target stepIds =>
      simp only [StoreCall.after, Megalos.invalidateStepsAfter] at found
      exact .inl (rewritten found rfl fun _ => ⟨rfl, rfl, rfl, rfl⟩)
  | clearStepDataKey target key =>
      simp only [StoreCall.after, Megalos.clearStepDataKey] at found
      exact .inl (rewritten found rfl fun _ => ⟨rfl, rfl, rfl, rfl⟩)
  | incrementRetry target stepId =>
      rw [StoreCall.after, incrementRetry_state] at found
      exact .inl (rewritten found rfl fun _ => ⟨rfl, rfl, rfl, rfl⟩)
  | incrementVisit target stepId =>
      left
      simp only [StoreCall.after, Megalos.incrementVisit] at found
      cases keyed : jsonKey env stepId with
      | error raised =>
          rw [keyed] at found
          exact same rfl found
      | ok key =>
          rw [keyed] at found
          rcases changeRow_lookup found with ⟨-, untouched⟩ | ⟨rfl, old, was, rfl⟩
          · exact same rfl untouched
          · have isRow : old.sessionId = sid := Table.lookup_key was
            subst isRow
            exact ⟨old, was, .visited rfl rfl rfl⟩
  | setEscalation target guardrailId message =>
      simp only [StoreCall.after, Megalos.setEscalation] at found
      exact .inl (rewritten found rfl fun _ => ⟨rfl, rfl, rfl, rfl⟩)
  | storeArtifact target stepId artifactId content =>
      left
      rcases changeRow_lookup found with ⟨apart, untouched⟩ | ⟨rfl, old, was, rfl⟩
      · exact same rfl untouched
      · have isRow : old.sessionId = sid := Table.lookup_key was
        subst isRow
        exact ⟨old, was, .stored rfl rfl rfl rfl⟩
  | setCalledSession target child callStepId =>
      rw [StoreCall.after, (setCalledSession_run target child callStepId).1] at found
      exact .inl (rewritten found rfl fun _ => ⟨rfl, rfl, rfl, rfl⟩)
  | deleteSession target =>
      have dropped : Wp (deleteSessionRow target) (fun _ after => after.ledger.row sid = some new →
          before.sessions.lookup sid = some new) before := by
        refine wp_deleteSessionRow ?_ fun _ there => there
        intro row after _ becomes there
        rw [becomes.ledger_eq, Ledger.drop_row] at there
        split at there
        · cases there
        · exact there
      exact .inl (same rfl (dropped found))
  | expireSessions cutoff =>
      change (before.sessions.deleteWhere _).lookup sid = some new at found
      rw [Table.lookup_deleteWhere] at found
      exact .inl (same rfl (Option.filter_eq_some_iff.mp found).1)

end Rows

section Rules

variable {α β : Type}

theorem issues_pure (value : α) :
    Issues env permits (pure value : Server α) := keeps_pure StoreRun.refl value

theorem issues_raise (raised : Exn) :
    Issues env permits (raise raised : Server α) := keeps_raise StoreRun.refl raised

theorem issues_ofExcept (result : Except Exn α) : Issues env permits (ofExcept result : Server α) :=
  keeps_ofExcept StoreRun.refl result

theorem issues_ofExcept_bind {result : Except Exn α} {next : α → Server β}
    (issuesNext : ∀ value, result = .ok value → Issues env permits (next value)) :
    Issues env permits (ofExcept result >>= next) := by
  cases result with
  | error raised => exact issues_raise raised
  | ok value => exact issuesNext value rfl

theorem issues_read (view : World → α) :
    Issues env permits (read view) := keeps_read StoreRun.refl view

theorem issues_bind {first : Server α} {next : α → Server β}
    (issuesFirst : Issues env permits first)
    (issuesNext : ∀ value, Issues env permits (next value)) :
    Issues env permits (first >>= next) :=
  keeps_bind StoreRun.trans issuesFirst issuesNext

theorem issues_rescue {body : Server α} {handler : Exn → Server α}
    (issuesBody : Issues env permits body)
    (issuesHandler : ∀ raised, Issues env permits (handler raised)) :
    Issues env permits (rescue body handler) :=
  keeps_rescue StoreRun.trans issuesBody issuesHandler

theorem issues_write {change : World → World}
    (sessions : ∀ world, (change world).sessions = world.sessions)
    (sessionStack : ∀ world, (change world).sessionStack = world.sessionStack)
    (minted : ∀ world, (change world).minted = world.minted) : Issues env permits (write change) :=
  fun world => .aside (sessions world) (sessionStack world) (minted world)

theorem Reads.issues {body : Server α} (reads : Reads body) : Issues env permits body := by
  intro world
  rw [reads world]
  exact .refl world

end Rules

/-! Plain calls. -/

theorem issues_storeArtifact {sid : SessionId} {stepId artifactId content : String}
    (allowed : permits (.storeArtifact sid stepId artifactId content)) :
    Issues env permits (storeArtifact env sid stepId artifactId content) :=
  fun world => .called world (.storeArtifact sid stepId artifactId content) allowed

section Plain

variable [Lenient permits]

theorem issues_updateCurrentStep (sid : SessionId) (pointer : Val) (stepData : Option StepData) :
    Issues env permits (updateCurrentStep env sid pointer stepData) :=
  fun world => .called world (.updateCurrentStep sid pointer stepData) (Lenient.plain rfl)

theorem issues_updateStepData (sid : SessionId) (stepData : StepData) :
    Issues env permits (updateStepData env sid stepData) :=
  fun world => .called world (.updateStepData sid stepData) (Lenient.plain rfl)

theorem issues_invalidateStepsAfter (sid : SessionId) (stepIds : List String) :
    Issues env permits (invalidateStepsAfter env sid stepIds) :=
  fun world => .called world (.invalidateStepsAfter sid stepIds) (Lenient.plain rfl)

theorem issues_clearStepDataKey (sid : SessionId) (key : String) :
    Issues env permits (clearStepDataKey env sid key) :=
  fun world => .called world (.clearStepDataKey sid key) (Lenient.plain rfl)

theorem issues_incrementRetry (sid : SessionId) (stepId : String) :
    Issues env permits (incrementRetry env sid stepId) :=
  fun world => .called world (.incrementRetry sid stepId) (Lenient.plain rfl)

theorem issues_setEscalation (sid : SessionId) (guardrailId message : Val) :
    Issues env permits (setEscalation env sid guardrailId message) :=
  fun world => .called world (.setEscalation sid guardrailId message) (Lenient.plain rfl)

theorem issues_setCalledSession (sid : SessionId) (child : Option SessionId)
    (callStepId : Option String) :
    Issues env permits (setCalledSession env sid child callStepId) :=
  fun world => .called world (.setCalledSession sid child callStepId) (Lenient.plain rfl)

theorem issues_deleteSessionRow (sid : SessionId) : Issues env permits (deleteSessionRow sid) :=
  fun world => .called world (.deleteSession sid) (Lenient.plain rfl)

theorem issues_resolveSession (presented : String) (sid : SessionId) :
    Issues env permits (resolveSession env deployment presented sid) := by
  refine issues_bind (issues_read _) fun found => ?_
  cases found with
  | none => exact issues_pure _
  | some session =>
      refine keeps_ite (fun _ => issues_pure _) fun _ => ?_
      refine keeps_ite (fun _ => issues_pure _) fun _ => ?_
      cases deployment.workflows.get? session.workflowType with
      | none => exact issues_pure _
      | some wf =>
          cases deployment.workflowFingerprints.get? session.workflowType with
          | none => exact issues_pure _
          | some currentFp =>
              refine keeps_ite (fun _ => ?_) fun _ => issues_pure _
              exact issues_bind (issues_updateCurrentStep _ _ _) fun _ => issues_pure _

theorem issues_wrapChildFailure (sid : SessionId) (childWf : Workflow) (reason : String)
    (childError : Val) :
    Issues env permits (wrapChildFailureIntoParentEscalation env sid childWf reason childError) := by
  refine issues_bind (issues_read _) fun parent => ?_
  cases parent with
  | none => exact issues_pure _
  | some parent =>
      refine issues_bind (issues_setEscalation _ _ _) fun _ => ?_
      exact issues_bind (issues_ofExcept _) fun _ => issues_pure _

theorem issues_resumeParentAfterDigression (sid : SessionId) :
    Issues env permits (resumeParentAfterDigression env deployment sid) := by
  refine issues_bind (issues_read _) fun parent => ?_
  cases parent with
  | none => exact issues_raise _
  | some outer =>
      refine issues_bind (issues_resolveSession _ _) fun resolved => ?_
      cases resolved with
      | error err => exact issues_pure _
      | ok found =>
          refine issues_bind (issues_deleteSessionRow _) fun _ => ?_
          refine keeps_ite (fun _ => issues_pure _) fun _ => ?_
          cases findStep found.2 (.str found.1.currentStep) with
          | none => exact issues_pure _
          | some entry =>
              refine issues_bind (issues_ofExcept _) fun _ => ?_
              exact issues_bind (issues_ofExcept _) fun _ => issues_pure _

omit [Lenient permits] in
theorem issues_trapErrors {body : Server Val} (field : String) (sessionId : Option String)
    (keepsBody : Issues env permits body) :
    Issues env permits (trapErrors env field sessionId body) := by
  refine issues_rescue keepsBody fun raised => ?_
  cases raised with
  | sessionNotFound => exact issues_pure _
  | typeError message => exact issues_pure _
  | valueError message => exact issues_pure _
  | _ => exact issues_raise _

/-- The body of a tool works on the session that the call names. -/
theorem issues_withSession {sessionId : String} {checks : List (String × String × Bool)}
    {body : Session → Workflow → Server Val}
    (keepsBody : ∀ session wf, session.sessionId = env.normalizeSessionId sessionId →
      Issues env permits (body session wf)) :
    Issues env permits (withSession env deployment sessionId checks body) := by
  unfold withSession
  cases checkStrs checks with
  | some err => exact issues_pure _
  | none =>
      have known : ∀ world : World,
          Wp (resolveSession env deployment sessionId (env.normalizeSessionId sessionId))
            (fun outcome _ =>
            ∀ resolved, outcome = .ok resolved → ∀ session wf, resolved = .ok (session, wf) →
              session.sessionId = env.normalizeSessionId sessionId) world := by
        intro world
        refine wp_resolveSession ?_ ?_ ?_
        · rintro session wf resolves _ ⟨⟩ _ _ ⟨⟩
          exact resolves.sessionId_eq
        · rintro err _ _ _ _ ⟨⟩ session wf ⟨⟩
        · rintro err session new after _ _ _ _ _ ⟨⟩ _ _ ⟨⟩
      refine keeps_bind_of StoreRun.trans (issues_resolveSession _ _) known ?_
      intro resolved named
      cases resolved with
      | error err => exact issues_pure _
      | ok found => exact keepsBody found.1 found.2 (named _ _ rfl)

theorem issues_applyRevision (session : Session) (wf : Workflow) (idx : Nat) (target : Step)
    (childFrame : Option Frame) :
    Issues env permits (applyRevision env session wf idx target childFrame) := by
  have pointed : ∀ retained : Option SessionId, Issues env permits (do
      updateCurrentStep env session.sessionId (.str target.id) none
      return retained) := fun retained =>
    issues_bind (issues_updateCurrentStep _ _ _) fun _ => issues_pure _
  have cleared : ∀ retained : Option SessionId, Issues env permits (do
      clearStepDataKey env session.sessionId target.id
      let retained ← pure retained
      updateCurrentStep env session.sessionId (.str target.id) none
      return retained) := fun retained =>
    issues_bind (issues_clearStepDataKey _ _) fun _ =>
      issues_bind (issues_pure _) fun retained => pointed retained
  refine issues_bind (issues_invalidateStepsAfter _ _) fun _ => ?_
  refine keeps_ite (fun _ => ?_) fun _ => issues_bind (issues_pure _) fun retained =>
    pointed retained
  cases childFrame with
  | none => exact cleared _
  | some child =>
      refine issues_bind (issues_rescue ?_ fun raised => ?_) fun _ => ?_
      · exact issues_bind (issues_deleteSessionRow _) fun _ => issues_pure _
      · cases raised with
        | sessionNotFound => exact issues_pure _
        | _ => exact issues_raise _
      · exact issues_bind (issues_setCalledSession _ _ _) fun _ => cleared _

theorem issues_reviseStep (sessionId stepId : String) :
    Issues env permits (reviseStep env deployment sessionId stepId) := by
  refine issues_trapErrors _ _ (issues_withSession fun session wf _ => ?_)
  refine issues_bind (issues_read _) fun world => ?_
  dsimp only [id]
  cases world.ownFrame session.sessionId with
  | some own => exact issues_pure _
  | none =>
  dsimp only
  cases findStep wf (.str stepId) with
  | none => exact issues_pure _
  | some entry =>
      refine keeps_ite (fun _ => issues_pure _) fun _ => ?_
      refine issues_bind (issues_applyRevision _ _ _ _ _) fun retained => ?_
      refine issues_bind (issues_ofExcept _) fun _ => ?_
      exact issues_bind (issues_ofExcept _) fun _ => issues_pure _

theorem issues_popFlow (sessionId : String) :
    Issues env permits (popFlow env deployment sessionId) := by
  refine issues_trapErrors _ _ (issues_withSession fun session wf _ => ?_)
  dsimp only
  split
  · exact issues_pure _
  refine issues_bind (issues_read _) fun own => ?_
  cases own with
  | none => exact issues_pure _
  | some frame =>
      dsimp only
      split
      · exact issues_pure _
      · exact issues_resumeParentAfterDigression _

theorem issues_deleteSession (sessionId : String) :
    Issues env permits (deleteSession env deployment sessionId) := by
  refine issues_trapErrors _ _ ?_
  split
  · exact issues_pure _
  refine issues_bind (issues_read _) fun world => ?_
  dsimp only [id]
  split
  · exact issues_pure _
  split
  · exact issues_pure _
  refine issues_bind (issues_rescue ?_ fun raised => ?_) fun deleted => ?_
  · exact issues_bind (issues_deleteSessionRow _) fun _ => issues_pure _
  · cases raised with
    | sessionNotFound => exact issues_pure _
    | _ => exact issues_raise _
  · cases deleted with
    | none => exact issues_pure _
    | some session => exact issues_pure _

theorem ReadsSession.issues {sessionId : String} {tool : Server Val}
    (reads : ReadsSession env deployment sessionId tool) : Issues env permits tool := by
  obtain ⟨checks, body, rfl, reads⟩ := reads
  exact issues_trapErrors _ _ (issues_withSession fun session wf _ => (reads session wf).issues)

omit [Lenient permits] in
/-- A submission at a step with artifacts, as far as it commits nothing but content that passes. -/
theorem issues_submitArtifact {sessionId : String} {session : Session} {wf : Workflow} {idx : Nat}
    {step : Step} {content branch artifactId : String}
    (allowed : permits (.storeArtifact session.sessionId step.id artifactId content))
    (commits : artifactPasses env step content artifactId = true →
      Issues env permits (commitSubmission env deployment sessionId session wf idx step content branch (some artifactId))) :
    Issues env permits (submitArtifact env deployment sessionId session wf idx step content branch artifactId) := by
  unfold artifactPasses at commits
  refine issues_ofExcept_bind fun artifacts listed => ?_
  rw [listed] at commits
  by_cases unnamed : artifactId = ""
  · rw [if_pos unnamed]
    exact issues_bind (issues_ofExcept _) fun _ => issues_pure _
  dsimp only at commits ⊢
  rw [if_neg unnamed] at commits ⊢
  refine issues_ofExcept_bind fun found chosen => ?_
  rw [chosen] at commits
  cases found with
  | none => exact issues_bind (issues_ofExcept _) fun _ => issues_pure _
  | some artifact =>
  dsimp only at commits ⊢
  refine issues_ofExcept_bind fun read tried => ?_
  cases read with
  | error message => exact issues_pure _
  | ok parsed =>
  rw [tryLoads_parsed.mp tried] at commits
  dsimp only at commits ⊢
  refine issues_ofExcept_bind fun schema declared => ?_
  rw [declared] at commits
  dsimp only at commits
  refine issues_ofExcept_bind fun errors checked => ?_
  rw [checked] at commits
  cases errors with
  | cons first rest => exact issues_pure _
  | nil =>
      dsimp only at commits
      rw [if_neg (by simp)]
      have finishes : Issues env permits (do
          if !((step.get? "output_from").getD (.str "")).isStr artifactId then
            return Submission.answered (.obj [("status", .str "artifact_accepted"),
              ("session_id", .str sessionId), ("step_id", .str step.id), ("artifact_id",
                .str artifactId), ("current_step", .str step.id)])
          commitSubmission env deployment sessionId session wf idx step content branch (some artifactId)) := by
        refine keeps_ite (fun _ => issues_pure _) fun moves => commits ?_
        simpa using moves
      refine keeps_ite (fun _ => ?_) fun _ => finishes
      exact issues_bind (issues_storeArtifact allowed) fun _ => finishes

theorem issues_submitPlain {sessionId : String} {session : Session} {wf : Workflow} {idx : Nat}
    {step : Step} {content branch : String} (commits : validateOutput env content step = .ok none →
      Issues env permits (commitSubmission env deployment sessionId session wf idx step content branch none)) :
    Issues env permits (submitPlain env deployment sessionId session wf idx step content branch) := by
  refine issues_ofExcept_bind fun outcome checked => ?_
  cases outcome with
  | none => exact commits checked
  | some errors =>
      refine issues_bind (issues_incrementRetry _ _) fun retryCount => ?_
      refine issues_bind (issues_ofExcept _) fun exhausted => ?_
      refine keeps_ite (fun _ => ?_) fun _ => issues_pure _
      exact issues_bind (issues_wrapChildFailure _ _ _ _) fun _ => issues_pure _

theorem issues_submitResolved {session : Session}
    {stepId artifactId content sessionId branch : String} {wf : Workflow}
    (allowed : permits (.storeArtifact session.sessionId stepId artifactId content))
    (commits : ∀ idx step shown, findStep wf (.str stepId) = some (idx, step) →
      (if step.flag "intermediate_artifacts" then artifactPasses env step content artifactId = true
        else validateOutput env content step = .ok none) →
      Issues env permits (commitSubmission env deployment sessionId session wf idx step content branch shown)) :
    Issues env permits (submitResolved env deployment sessionId stepId content branch artifactId session wf) := by
  unfold submitResolved
  dsimp only
  split
  · exact issues_pure _
  refine keeps_ite (fun _ => issues_pure _) fun _ => ?_
  refine keeps_ite (fun _ => issues_pure _) fun _ => ?_
  refine keeps_ite (fun _ => issues_pure _) fun _ => ?_
  refine issues_bind (issues_read _) fun top => ?_
  cases top with
  | some frame => exact issues_pure _
  | none =>
  dsimp only
  cases found : findStep wf (.str stepId) with
  | none => exact issues_raise _
  | some entry =>
      obtain ⟨idx, step⟩ := entry
      have named : stepId = step.id := Val.str.inj (findStep_spec found).2
      dsimp only
      split
      · exact issues_pure _
      · refine keeps_ite (fun lists => ?_) fun plain => ?_
        · refine issues_submitArtifact (named ▸ allowed) fun passes => commits idx step _ found ?_
          rw [if_pos lists]
          exact passes
        · refine issues_submitPlain fun passes => commits idx step _ found ?_
          rw [if_neg plain]
          exact passes

end Plain

/-! Calls that create sessions or count visits. -/

theorem issues_attemptCascade {α : Type} {body : Server α} (keepsBody : Issues env permits body) :
    Issues env permits (attemptCascade body) := by
  refine issues_rescue (issues_bind keepsBody fun _ => issues_pure _) fun raised => ?_
  cases raised with
  | skippedPredecessor sid referencing => exact issues_pure _
  | _ => exact issues_raise _

theorem issues_executeMcpToolCallStep (registry : Option Registry) (step : Step)
    (stepData : StepData) (skippedSet : List String) :
    Issues env permits (executeMcpToolCallStep env registry step stepData skippedSet) := by
  cases registry with
  | none => exact issues_raise _
  | some registry =>
      refine issues_bind (issues_ofExcept _) fun args => ?_
      refine issues_bind (issues_ofExcept _) fun resolved => ?_
      cases findAbsentRefPath resolved "" with
      | some path => exact issues_pure _
      | none =>
          refine issues_bind (issues_ofExcept _) fun timeout => ?_
          refine issues_bind (issues_ofExcept _) fun serverName => ?_
          refine issues_bind (issues_ofExcept _) fun tool => ?_
          refine issues_bind ?_ fun _ => issues_pure _
          refine issues_bind (issues_ofExcept _) fun _ => ?_
          refine issues_bind (issues_read _) fun outcome => ?_
          exact issues_bind (issues_write (fun _ => rfl) (fun _ => rfl) fun _ => rfl) fun _ =>
            issues_pure _

section Liberal

variable [Liberal permits]

theorem issues_createSession (workflowType currentStep : String) (parent : Option SessionId)
    (frameType : FrameType) (callStepId : Option String) (limit : Option Nat)
    (fingerprint : String) :
    Issues env permits (createSession env workflowType currentStep parent frameType callStepId limit fingerprint) :=
  fun world => .called world (.createSession workflowType currentStep parent frameType callStepId limit fingerprint)
    (Liberal.creates _ _ _ _ _ _ _)

theorem issues_incrementVisit (sid : SessionId) (stepId : Val) :
    Issues env permits (incrementVisit env sid stepId) :=
  fun world => .called world (.incrementVisit sid stepId) (Liberal.visits sid stepId)

theorem issues_autoExecuteMcpSteps (registry : Option Registry) (wf : Workflow) (sid : SessionId)
    (fuel : Nat) (pointer : Val) (stepData : StepData) :
    Issues env permits (autoExecuteMcpSteps env registry wf sid fuel pointer stepData) := by
  induction fuel generalizing pointer stepData with
  | zero => exact issues_raise _
  | succ fuel ih =>
      refine keeps_ite (fun _ => issues_pure _) fun _ => ?_
      cases findStep wf pointer with
      | none => exact issues_pure _
      | some entry =>
          refine keeps_ite (fun _ => issues_pure _) fun _ => ?_
          refine issues_bind (issues_ofExcept _) fun skipped => ?_
          refine issues_bind (issues_attemptCascade (issues_executeMcpToolCallStep _ _ _ _)) fun ran => ?_
          cases ran with
          | error cascade => exact issues_pure _
          | ok envelope =>
              refine issues_bind (issues_incrementVisit _ _) fun _ => ?_
              refine issues_bind (issues_attemptCascade (issues_ofExcept _)) fun skips => ?_
              cases skips with
              | error cascade => exact issues_pure _
              | ok next => exact ih _ _

/-- Storing a new pointer, and counting the visit unless it is the end. -/
theorem issues_arrive {α : Type} {sid : SessionId} {pointer : Val} {stepData : StepData}
    {rest : Server α} (keepsRest : Issues env permits rest) :
    Issues env permits (do
      if !pointer.isStr complete then incrementVisit env sid pointer
      updateCurrentStep env sid pointer (some stepData)
      rest) := by
  have stored : Issues env permits (do updateCurrentStep env sid pointer (some stepData); rest) :=
    issues_bind (issues_updateCurrentStep _ _ _) fun _ => keepsRest
  exact keeps_ite (fun _ => issues_bind (issues_incrementVisit _ _) fun _ => stored) fun _ => stored

theorem issues_advanceParent (registry : Option Registry) (parent : SessionId) (wf : Workflow)
    (callStep : Step) (idx : Nat) (stepData : StepData) :
    Issues env permits (advanceParent env registry parent wf callStep idx stepData) := by
  refine issues_bind (issues_ofExcept _) fun pointer => ?_
  refine issues_bind (issues_attemptCascade (issues_ofExcept _)) fun skips => ?_
  cases skips with
  | error cascade => exact issues_pure _
  | ok next =>
      refine issues_bind (issues_autoExecuteMcpSteps _ _ _ _ _ _) fun ran => ?_
      obtain ⟨arrived, data, cascade⟩ := ran
      cases cascade with
      | some err => exact issues_bind (issues_updateCurrentStep _ _ _) fun _ => issues_pure _
      | none =>
          refine issues_arrive (issues_bind (issues_ofExcept _) fun _ => ?_)
          exact issues_bind (issues_ofExcept _) fun _ => issues_pure _

theorem issues_propagateToParent (child : Session) (childWf : Workflow) :
    Issues env permits (propagateToParent env deployment child childWf) := by
  refine issues_bind (issues_read _) fun parent => ?_
  cases parent with
  | none => exact issues_raise _
  | some parent =>
      refine issues_bind (issues_resolveSession _ _) fun resolved => ?_
      cases resolved with
      | error err => exact issues_pure _
      | ok found =>
          obtain ⟨session, wf⟩ := found
          have drift : ∀ response : Val, Issues env permits (do
              setEscalation env parent (.str "sub_workflow_state_drift")
                (.str ("parent at '" ++ session.currentStep ++ "' is not a call-step"))
              return response) := fun response =>
            issues_bind (issues_setEscalation _ _ _) fun _ => issues_pure _
          dsimp only
          cases findStep wf (.str session.currentStep) with
          | none => exact drift _
          | some entry =>
              refine keeps_ite (fun _ => drift _) fun _ => ?_
              refine issues_bind (issues_ofExcept _) fun verdict => ?_
              cases verdict with
              | some errors => exact issues_wrapChildFailure _ _ _ _
              | none =>
                  refine issues_bind (issues_deleteSessionRow _) fun _ => ?_
                  refine issues_bind (issues_setCalledSession _ _ _) fun _ => ?_
                  exact issues_advanceParent _ _ _ _ _ _

theorem issues_autoResume (child : Session) (childWf : Workflow) :
    Issues env permits (autoResumeOnTopFrameComplete env deployment child childWf) := by
  refine issues_bind (issues_read _) fun own => ?_
  split
  · exact issues_resumeParentAfterDigression _
  · exact issues_propagateToParent _ _

theorem issues_advanceSession (sessionId : String) (session : Session) (wf : Workflow) (idx : Nat)
    (step : Step) (artifactId : Option String) (warning : Option Val) (stepData : StepData)
    (pointer : Val) (forceBranched : Bool) :
    Issues env permits (advanceSession env deployment sessionId session wf idx step artifactId warning stepData pointer
      forceBranched) := by
  have wrapped : ∀ err : Val, Issues env permits (do
      return Submission.answered (← wrapChildFailureIntoParentEscalation env session.sessionId wf "cascade_error" err)) :=
    fun err => issues_bind (issues_wrapChildFailure _ _ _ _) fun _ => issues_pure _
  refine issues_bind (issues_attemptCascade (issues_ofExcept _)) fun skips => ?_
  cases skips with
  | error cascade => exact wrapped _
  | ok next =>
      refine issues_bind (issues_autoExecuteMcpSteps _ _ _ _ _ _) fun ran => ?_
      obtain ⟨arrived, data, cascade⟩ := ran
      cases cascade with
      | some err => exact issues_bind (issues_updateCurrentStep _ _ _) fun _ => wrapped _
      | none =>
          refine issues_arrive (issues_bind (issues_read _) fun parent => ?_)
          refine keeps_ite (fun _ => issues_pure _) fun _ => ?_
          exact issues_bind (issues_ofExcept _) fun _ => issues_pure _

theorem issues_commitSubmission (sessionId : String) (snapshot : Session) (wf : Workflow)
    (idx : Nat) (step : Step) (content branch : String) (artifactId : Option String) :
    Issues env permits (commitSubmission env deployment sessionId snapshot wf idx step content branch artifactId) := by
  refine issues_bind (issues_ofExcept _) fun fired => ?_
  refine issues_bind (issues_ofExcept _) fun action => ?_
  refine keeps_ite (fun _ => ?_) fun _ => ?_
  · refine issues_bind (issues_ofExcept _) fun guardrailId => ?_
    refine issues_bind (issues_ofExcept _) fun message => ?_
    refine issues_bind (issues_setEscalation _ _ _) fun _ => ?_
    refine issues_bind (issues_updateStepData _ _) fun _ => ?_
    exact issues_bind (issues_wrapChildFailure _ _ _ _) fun _ => issues_pure _
  · refine issues_bind (issues_ofExcept _) fun warning => ?_
    refine issues_bind (issues_ofExcept _) fun next => ?_
    cases next with
    | invalidBranch target validTargets => exact issues_pure _
    | goTo pointer forceBranched => exact issues_advanceSession _ _ _ _ _ _ _ _ _ _

theorem issues_runFront (workflowType context : String) (wf : Workflow) (sid : SessionId) :
    Issues env permits (runFront env deployment workflowType context wf sid) := by
  refine issues_bind (issues_incrementVisit _ _) fun _ => ?_
  refine issues_bind (issues_autoExecuteMcpSteps _ _ _ _ _ _) fun ran => ?_
  obtain ⟨arrived, data, cascade⟩ := ran
  cases cascade with
  | some err => exact issues_bind (issues_updateCurrentStep _ _ _) fun _ => issues_pure _
  | none =>
      refine keeps_ite (fun _ => ?_) fun _ => issues_ofExcept _
      refine issues_bind (issues_updateCurrentStep _ _ _) fun _ => ?_
      refine keeps_ite (fun _ => ?_) fun _ => issues_ofExcept _
      exact issues_bind (issues_incrementVisit _ _) fun _ => issues_ofExcept _

theorem issues_startWorkflow (workflowType context : String) :
    Issues env permits (startWorkflow env deployment workflowType context) := by
  refine issues_trapErrors _ _ ?_
  split
  · exact issues_pure _
  cases deployment.workflows.get? workflowType with
  | none => exact issues_pure _
  | some wf =>
      refine issues_bind (issues_read _) fun world => ?_
      refine keeps_ite (fun _ => issues_pure _) fun _ => ?_
      refine issues_bind (issues_createSession _ _ _ _ _ _ _) fun sid => ?_
      exact issues_runFront _ _ _ _

theorem issues_enterSubWorkflow (parentSessionId callStepId : String) :
    Issues env permits (enterSubWorkflow env deployment parentSessionId callStepId) := by
  refine issues_trapErrors _ _ (issues_withSession fun parent parentWf _ => ?_)
  split
  · exact issues_pure _
  split
  · exact issues_pure _
  refine issues_bind (issues_read _) fun world => ?_
  dsimp only [id]
  cases world.topFrameFor parent.sessionId with
  | some pending => exact issues_pure _
  | none =>
  dsimp only
  split
  · exact issues_pure _
  refine issues_bind (issues_ofExcept _) fun context => ?_
  cases context with
  | error err => exact issues_pure _
  | ok context =>
      refine issues_bind (issues_createSession _ _ _ _ _ _ _) fun child => ?_
      refine issues_bind (issues_incrementVisit _ _) fun _ => ?_
      exact issues_bind (issues_setCalledSession _ _ _) fun _ => issues_ofExcept _

theorem issues_pushFlow (sessionId workflowType pausedAtStep context : String) :
    Issues env permits (pushFlow env deployment sessionId workflowType pausedAtStep context) := by
  refine issues_trapErrors _ _ (issues_withSession fun outer _ _ => ?_)
  split
  · exact issues_pure _
  refine issues_bind (issues_read _) fun world => ?_
  dsimp only [id]
  cases world.topFrameFor outer.sessionId with
  | some top => exact issues_pure _
  | none =>
  dsimp only
  cases deployment.workflows.get? workflowType with
  | none => exact issues_pure _
  | some childWf =>
  refine keeps_ite (fun _ => issues_pure _) fun _ => ?_
  refine keeps_ite (fun _ => issues_pure _) fun _ => ?_
  refine issues_bind (issues_rescue ?_ fun raised => ?_) fun created => ?_
  · exact issues_bind (issues_createSession _ _ _ _ _ _ _) fun _ => issues_pure _
  · cases raised with
    | stackFull root depth limit => exact issues_bind (issues_read _) fun _ => issues_pure _
    | _ => exact issues_raise _
  · cases created with
    | error err => exact issues_pure _
    | ok child =>
        refine issues_bind (issues_incrementVisit _ _) fun _ => ?_
        exact issues_bind (issues_read _) fun _ => issues_ofExcept _

end Liberal

def Call.WritesCheckpoint (env : Env) : Call → SessionId → String → String → Prop
  | .submitStep sessionId stepId _ _ artifactId => fun sid step artifact =>
      sid = env.normalizeSessionId sessionId ∧ step = stepId ∧ artifact = artifactId
  | _ => fun _ _ _ => False

theorem issues_submitStep (sessionId stepId content branch artifactId : String) :
    Issues env (StoreCall.Permitted ((Call.submitStep sessionId stepId content branch artifactId).WritesCheckpoint env))
    (submitStep env deployment sessionId stepId content branch artifactId) := by
  refine issues_trapErrors _ _ (issues_withSession fun session wf named => ?_)
  refine issues_bind (issues_submitResolved ⟨named, rfl, rfl⟩ fun _ _ _ _ _ =>
    issues_commitSubmission _ _ _ _ _ _ _ _) fun submission => ?_
  cases submission with
  | answered response => exact issues_pure _
  | completed child => exact issues_autoResume _ _

/-- A tool call is a run of calls of the store, and stores no artifact but the one that it submits.
-/
theorem issues_callTool (call : Call) :
    Issues env (StoreCall.Permitted (call.WritesCheckpoint env))
    (callTool env deployment call) := by
  cases call with
  | listWorkflows category =>
      obtain ⟨body, same, reads⟩ : ∃ body, listWorkflows env deployment category = _ ∧ Reads body :=
        reads_listWorkflows category
      rw [callTool, same]
      exact issues_trapErrors _ _ reads.issues
  | startWorkflow workflowType context => exact issues_startWorkflow _ _
  | getState sessionId => exact (reads_getState sessionId).issues
  | getGuidelines sessionId => exact (reads_getGuidelines sessionId).issues
  | submitStep sessionId stepId content branch artifactId => exact issues_submitStep _ _ _ _ _
  | reviseStep sessionId stepId => exact issues_reviseStep _ _
  | enterSubWorkflow parentSessionId callStepId => exact issues_enterSubWorkflow _ _
  | pushFlow sessionId workflowType pausedAtStep context => exact issues_pushFlow _ _ _ _
  | popFlow sessionId => exact issues_popFlow _
  | listSessions =>
      obtain ⟨body, same, reads⟩ : ∃ body, listSessions env = _ ∧ Reads body := reads_listSessions
      rw [callTool, same]
      exact issues_trapErrors _ _ reads.issues
  | deleteSession sessionId => exact issues_deleteSession _
  | generateArtifact sessionId outputFormat =>
    exact (reads_generateArtifact sessionId outputFormat).issues

end Megalos
