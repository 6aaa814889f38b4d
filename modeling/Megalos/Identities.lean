import Megalos.Sample
import Megalos.StoreCalls

/-!
What stays of a session however the calls of the store are interleaved: the columns that
are written once, the marks that are never taken back, and its id.
-/

namespace Megalos

open GuardedRuns KeyedTable StatefulProgram StatefulProgram.Program

/-- The same session later: nothing that identifies it has changed, and no mark is taken back. -/
structure Session.Endures (old new : Session) : Prop where
  sessionId : new.sessionId = old.sessionId
  workflowType : new.workflowType = old.workflowType
  createdAt : new.createdAt = old.createdAt
  parentSessionId : new.parentSessionId = old.parentSessionId
  workflowFingerprint : new.workflowFingerprint = old.workflowFingerprint
  completed : old.completedAt.isSome = true → new.completedAt.isSome = true
  escalated : old.escalation.isSome = true → new.escalation.isSome = true
  retries : ∀ stepId, old.retryCounts.getD stepId 0 ≤ new.retryCounts.getD stepId 0

theorem Session.Endures.refl (row : Session) : row.Endures row :=
  ⟨rfl, rfl, rfl, rfl, rfl, id, id, fun _ => le_rfl⟩

theorem Session.Endures.trans {first second third : Session} (start : first.Endures second)
    (rest : second.Endures third) : first.Endures third where
  sessionId := rest.sessionId.trans start.sessionId
  workflowType := rest.workflowType.trans start.workflowType
  createdAt := rest.createdAt.trans start.createdAt
  parentSessionId := rest.parentSessionId.trans start.parentSessionId
  workflowFingerprint := rest.workflowFingerprint.trans start.workflowFingerprint
  completed := fun was => rest.completed (start.completed was)
  escalated := fun was => rest.escalated (start.escalated was)
  retries := fun stepId => (start.retries stepId).trans (rest.retries stepId)

def World.Stray (world : World) (sid : SessionId) : Prop :=
  (world.ledger.frame sid).isSome = true ∧ world.ledger.row sid = none

/-- Every row after is a row before that endured, or has an id that was given out in between. -/
structure Lives (env : Env) (before after : World) : Prop where
  minted : before.minted ≤ after.minted
  rows : ∀ sid new, after.ledger.row sid = some new →
    (∃ old, before.ledger.row sid = some old ∧ old.Endures new) ∨
    ∃ draw, before.minted ≤ draw ∧ draw < after.minted ∧ sid = env.token draw
  strays : ∀ sid, after.Stray sid → before.Stray sid

structure World.Registered (env : Env) (world : World) : Prop where
  minted : ∀ sid row, world.ledger.row sid = some row → ∃ draw, draw < world.minted ∧
    sid = env.token draw
  framed : ∀ sid, ¬world.Stray sid

variable {env : Env} {permits : StoreCall → Prop} {start before middle after : World}
  {sid : SessionId} {old new : Session}

theorem World.Stray.of_ledger (same : after.ledger.row sid = before.ledger.row sid)
    (sameFrame : after.ledger.frame sid = before.ledger.frame sid) (stray : after.Stray sid) :
    before.Stray sid := by
  rw [World.Stray, same, sameFrame] at stray
  exact stray

namespace Lives

theorem trans (first : Lives env before middle) (rest : Lives env middle after) :
    Lives env before after where
  minted := first.minted.trans rest.minted
  rows := by
    intro sid new found
    rcases rest.rows sid new found with ⟨row, there, endures⟩ | ⟨draw, later, drawn, isToken⟩
    · rcases first.rows sid row there with ⟨old, was, endured⟩ | ⟨draw, later, drawn, isToken⟩
      · exact .inl ⟨old, was, endured.trans endures⟩
      · exact .inr ⟨draw, later, drawn.trans_le rest.minted, isToken⟩
    · exact .inr ⟨draw, first.minted.trans later, drawn, isToken⟩
  strays := fun sid stray => first.strays sid (rest.strays sid stray)

theorem of_removed (minted : before.minted ≤ after.minted) (ledgerEq : ∀ sid,
    after.ledger.row sid = before.ledger.row sid ∧
      after.ledger.frame sid = before.ledger.frame sid ∨
      after.ledger.row sid = none ∧ after.ledger.frame sid = none) : Lives env before after where
  minted := minted
  rows := by
    intro sid new found
    rcases ledgerEq sid with ⟨row, -⟩ | ⟨row, -⟩
    · exact .inl ⟨new, row.symm.trans found, .refl new⟩
    · cases row.symm.trans found
  strays := by
    intro sid stray
    rcases ledgerEq sid with ⟨row, frame⟩ | ⟨-, frame⟩
    · exact stray.of_ledger row frame
    · have framed := stray.1
      rw [frame] at framed
      cases framed

theorem of_ledger (minted : before.minted ≤ after.minted) (same : after.ledger = before.ledger) :
    Lives env before after := of_removed minted fun sid => .inl (by rw [same]; exact ⟨rfl, rfl⟩)

theorem refl (world : World) : Lives env world world := of_ledger le_rfl rfl

theorem of_frames (minted : after.minted = before.minted)
    (rows : after.ledger.row = before.ledger.row)
    (frames : ∀ sid, (after.ledger.frame sid).isSome = true →
      (before.ledger.frame sid).isSome = true) :
    Lives env before after where
  minted := minted.ge
  rows := fun sid new found => .inl ⟨new, congrFun rows sid ▸ found, .refl new⟩
  strays := fun sid stray => ⟨frames sid stray.1, congrFun rows sid ▸ stray.2⟩

/-- A row that is rewritten in place endures when the rewriting keeps its marks; frames may go. -/
theorem of_changed {target : SessionId} (minted : after.minted = before.minted)
    (others : ∀ sid, sid ≠ target → after.ledger.row sid = before.ledger.row sid)
    (changed : ∀ old, before.ledger.row target = some old →
      ∃ new, after.ledger.row target = some new ∧ old.Endures new)
    (missing : before.ledger.row target = none → after.ledger.row target = none)
    (frames : ∀ sid, (after.ledger.frame sid).isSome = true →
      (before.ledger.frame sid).isSome = true) :
    Lives env before after where
  minted := minted.ge
  rows := by
    intro sid new found
    left
    by_cases isTarget : sid = target
    · subst isTarget
      cases was : before.ledger.row sid with
      | none => cases (missing was).symm.trans found
      | some old =>
          obtain ⟨row, there, endures⟩ := changed old was
          cases there.symm.trans found
          exact ⟨old, rfl, endures⟩
    · exact ⟨new, (others sid isTarget).symm.trans found, .refl new⟩
  strays := by
    rintro sid ⟨framed, bare⟩
    refine ⟨frames sid framed, ?_⟩
    by_cases isTarget : sid = target
    · subst isTarget
      cases was : before.ledger.row sid with
      | none => rfl
      | some old =>
          obtain ⟨row, there, -⟩ := changed old was
          cases there.symm.trans bare
    · rw [← others sid isTarget]
      exact bare

end Lives

/-- The columns that no rewriting of a row touches. -/
def Session.identity (row : Session) : SessionId × String × Timestamp × Option SessionId × String :=
  (row.sessionId, row.workflowType, row.createdAt, row.parentSessionId, row.workflowFingerprint)

theorem Session.Endures.of_identity (columns : new.identity = old.identity)
    (completed : old.completedAt.isSome = true → new.completedAt.isSome = true)
    (escalated : old.escalation.isSome = true → new.escalation.isSome = true)
    (retries : ∀ stepId, old.retryCounts.getD stepId 0 ≤ new.retryCounts.getD stepId 0) :
    old.Endures new := by
  simp only [Session.identity, Prod.mk.injEq] at columns
  obtain ⟨isId, isType, isCreated, isParent, isFingerprint⟩ := columns
  exact ⟨isId, isType, isCreated, isParent, isFingerprint, completed, escalated, retries⟩

theorem changeRow_ledger {target : SessionId} {change : Session → Session}
    {keeps : ∀ session, (change session).sessionId = session.sessionId} :
    ((changeRow env target change keeps).run before).2.ledger.frame = before.ledger.frame ∧
      ∀ sid, ((changeRow env target change keeps).run before).2.ledger.row sid = if sid =
        target then
        (before.ledger.row sid).map fun old =>
          { change old with updatedAt := env.clock before.ticks }
        else before.ledger.row sid := by
  rw [changeRow_run]
  split
  · refine ⟨rfl, fun sid => ?_⟩
    simp only [World.ledger, Table.lookup_update]
  · rename_i missing
    refine ⟨rfl, fun sid => ?_⟩
    split
    · rename_i isTarget
      have bare : before.ledger.row sid = none := by
        subst isTarget
        exact Option.not_isSome_iff_eq_none.mp missing
      rw [bare]
      exact bare
    · rfl

theorem changeRow_lives {target : SessionId} {change : Session → Session}
    {keeps : ∀ session, (change session).sessionId = session.sessionId} {ticked : World}
    (ledgerEq : ticked.ledger = before.ledger) (minted : ticked.minted = before.minted)
    (endures : ∀ (session : Session) now,
      session.Endures { change session with updatedAt := now }) :
    Lives env before ((changeRow env target change keeps).run ticked).2 := by
  obtain ⟨frames, rows⟩ := @changeRow_ledger env ticked target change keeps
  rw [ledgerEq] at frames rows
  refine @Lives.of_changed env before _ target ?_ (fun sid apart => ?_) (fun old was => ?_)
    (fun bare => ?_) fun sid framed => ?_
  · rw [changeRow_run]
    split <;> exact minted
  · rw [rows, if_neg apart]
  · rw [rows, if_pos rfl, was]
    exact ⟨_, rfl, endures old _⟩
  · rw [rows, if_pos rfl, bare]
    rfl
  · rw [frames] at framed
    exact framed

theorem createSession_lives {workflowType currentStep fingerprint : String}
    {parent : Option SessionId} {frameType : FrameType} {callStepId : Option String}
    {limit : Option Nat} :
    Wp (createSession env workflowType currentStep parent frameType callStepId limit fingerprint)
    (fun _ after => Lives env before after) before := by
  refine wp_createSession ?_ ?_
  · intro now after row rowEq creates
    have rows : ∀ sid, after.ledger.row sid = if sid = env.token before.minted then some row
        else (before.ledger.without (evictedIds env.sessionCap before.sessions)).row sid := by
      intro sid
      rw [creates.ledger_eq, ← creates.sessionId_eq]
      cases parent <;> simp [Ledger.insert, Ledger.setRow_row]
    have frames : ∀ sid, sid ≠ env.token before.minted → after.ledger.frame sid =
        (before.ledger.without (evictedIds env.sessionCap before.sessions)).frame sid := by
      intro sid apart
      rw [creates.ledger_eq]
      rw [← creates.sessionId_eq] at apart
      cases parent <;> simp [Ledger.insert, apart]
    refine ⟨by rw [creates.minted_eq]; exact Nat.le_succ _, fun sid new found => ?_, ?_⟩
    · rw [rows] at found
      split at found
      · exact .inr ⟨before.minted, le_rfl, by rw [creates.minted_eq]; exact Nat.lt_succ_self _, ‹_›⟩
      · rw [Ledger.without_row] at found
        split at found
        · cases found
        · exact .inl ⟨new, found, .refl new⟩
    · rintro sid ⟨framed, bare⟩
      rw [rows] at bare
      split at bare
      · cases bare
      · rename_i apart
        rw [frames sid apart, Ledger.without_frame] at framed
        rw [Ledger.without_row] at bare
        split at framed
        · cases framed
        · rename_i remains
          rw [if_neg remains] at bare
          exact ⟨framed, bare⟩
  · intro raised after _ ledgerEq mintedEq
    exact .of_ledger (by rw [mintedEq]; exact Nat.le_succ _) ledgerEq

/-- Linking or unlinking a child rewrites a row and, at most, takes frames away. -/
theorem setCalledSession_lives {target : SessionId} {child : Option SessionId}
    {callStepId : Option String} :
    Wp (setCalledSession env target child callStepId)
    (fun _ after => Lives env before after) before := by
  have linked : Wp (changeRow env target fun session => { session with calledSession := child })
      (fun _ reached => Lives env before reached) before := by
    refine changeRow_lives rfl rfl fun session now => ?_
    exact .of_identity rfl id id fun _ => le_rfl
  refine wp_transaction (wp_bind_of linked ?_ ?_)
  · intro done reached lives
    cases child with
    | none =>
        refine lives.trans (.of_frames rfl rfl fun sid framed => ?_)
        have kept : ((Table.deleteWhere _ _).lookup sid).isSome = true := framed
        rw [Table.lookup_deleteWhere] at kept
        obtain ⟨frame, there⟩ := Option.isSome_iff_exists.mp kept
        exact Option.isSome_iff_exists.mpr ⟨frame, (Option.filter_eq_some_iff.mp there).1⟩
    | some child =>
        cases callStepId with
        | none => exact lives
        | some step =>
            refine lives.trans (.of_frames rfl rfl fun sid framed => ?_)
            have kept : ((reached.sessionStack.update child fun frame =>
              { frame with callStepId := some step }).lookup
              sid).isSome = true := framed
            rw [Table.lookup_update] at kept
            split at kept
            · rename_i isChild
              rw [Option.isSome_map] at kept
              exact isChild ▸ kept
            · exact kept
  · intro raised reached lives restored same minted _
    exact .of_ledger (minted ▸ lives.minted) same

theorem StoreCall.lives (call : StoreCall) : Lives env before (call.after env before) := by
  cases call with
  | createSession workflowType currentStep parent frameType callStepId limit fingerprint =>
    exact createSession_lives
  | updateCurrentStep target currentStep stepData =>
      simp only [StoreCall.after, updateCurrentStep_run]
      cases columnText env currentStep with
      | error raised => exact .refl before
      | ok text =>
          refine changeRow_lives rfl rfl fun session now => ?_
          refine .of_identity rfl (fun was => ?_) id fun _ => le_rfl
          rw [Option.isSome_or, was, Bool.or_true]
  | updateStepData target stepData =>
      refine changeRow_lives rfl rfl fun session now => ?_
      exact .of_identity rfl id id fun _ => le_rfl
  | invalidateStepsAfter target stepIds =>
      refine changeRow_lives rfl rfl fun session now => ?_
      exact .of_identity rfl id id fun _ => le_rfl
  | clearStepDataKey target key =>
      refine changeRow_lives rfl rfl fun session now => ?_
      exact .of_identity rfl id id fun _ => le_rfl
  | incrementRetry target stepId =>
      rw [StoreCall.after, incrementRetry_state]
      refine changeRow_lives rfl rfl fun session now => ?_
      refine .of_identity rfl id id fun other => ?_
      simp only [Dict.getD, Dict.get?_set]
      split
      · rename_i same
        rw [same]
        exact Nat.le_succ _
      · exact le_rfl
  | incrementVisit target stepId =>
      simp only [StoreCall.after, Megalos.incrementVisit]
      cases jsonKey env stepId with
      | error raised => exact .refl before
      | ok key =>
          refine changeRow_lives rfl rfl fun session now => ?_
          exact .of_identity rfl id id fun _ => le_rfl
  | setEscalation target guardrailId message =>
      refine changeRow_lives rfl rfl fun session now => ?_
      exact .of_identity rfl id (fun _ => rfl) fun _ => le_rfl
  | storeArtifact target stepId artifactId content =>
      refine changeRow_lives rfl rfl fun session now => ?_
      exact .of_identity rfl id id fun _ => le_rfl
  | setCalledSession target child callStepId => exact setCalledSession_lives
  | deleteSession target =>
      have dropped : Wp (deleteSessionRow target)
        (fun _ after => Lives env before after) before := by
        refine wp_deleteSessionRow ?_ fun _ => .refl before
        intro row after _ becomes
        refine .of_removed becomes.minted_eq.ge fun sid => ?_
        rw [becomes.ledger_eq, Ledger.drop_row, Ledger.drop_frame]
        split
        · exact .inr ⟨rfl, rfl⟩
        · exact .inl ⟨rfl, rfl⟩
      exact dropped
  | expireSessions cutoff =>
      refine .of_removed le_rfl fun sid => ?_
      rw [StoreCall.after, World.expireSessions, World.ledger_withoutSessions, Ledger.without_row,
        Ledger.without_frame]
      split
      · exact .inr ⟨rfl, rfl⟩
      · exact .inl ⟨rfl, rfl⟩

theorem StoreRun.lives (run : StoreRun env permits before after) : Lives env before after := by
  refine Run.invariant (Lives env before) run (.refl before) ?_
  intro first request last lives _ steps
  cases steps with
  | called request =>
      have step := @StoreCall.lives { env with sessionCap := request.cap } first request.call
      exact lives.trans ⟨step.minted, step.rows, step.strays⟩
  | aside sessions sessionStack minted =>
      refine lives.trans (.of_ledger minted.ge ?_)
      simp only [World.ledger, sessions, sessionStack]

theorem World.Registered.empty : World.empty.Registered env where
  minted := fun sid row found => by cases found
  framed := fun sid stray => by cases stray.1

theorem World.Registered.lives (registered : before.Registered env)
    (lives : Lives env before after) :
    after.Registered env where
  minted := by
    intro sid row found
    rcases lives.rows sid row found with ⟨old, was, -⟩ | ⟨draw, -, drawn, isToken⟩
    · obtain ⟨draw, drawn, isToken⟩ := registered.minted sid old was
      exact ⟨draw, drawn.trans_le lives.minted, isToken⟩
    · exact ⟨draw, drawn, isToken⟩
  framed := fun sid stray => registered.framed sid (lives.strays sid stray)

/-- An id that was given out is not among those given out later. -/
theorem World.Registered.older (registered : before.Registered env) {row : Session} {draw : Nat}
    (held : before.ledger.row sid = some row) (later : before.minted ≤ draw) :
    sid ≠ env.token draw := by
  intro isToken
  obtain ⟨own, drawn, same⟩ := registered.minted sid row held
  have := env.tokenInjective (same.symm.trans isToken)
  omega

/-- However the calls of the store are interleaved, a session stays the one that it was, every frame
keeps its row, and an id whose row is gone never comes back. -/
theorem storeRuns_keepIdentity (opened : StoreRun env permits .empty start)
    (first : StoreRun env permits start middle) (second : StoreRun env permits middle after) :
    (∀ sid, ¬after.Stray sid) ∧
      (∀ sid old new, middle.ledger.row sid = some old → after.ledger.row sid = some new →
        old.Endures new) ∧
      ∀ sid old, start.ledger.row sid = some old → middle.ledger.row sid = none →
        after.ledger.row sid = none := by
  have registered : start.Registered env := World.Registered.empty.lives opened.lives
  have between : middle.Registered env := registered.lives first.lives
  refine ⟨(between.lives second.lives).framed, fun sid old new was found => ?_,
    fun sid old was gone => ?_⟩
  · rcases second.lives.rows sid new found with ⟨row, there, endures⟩ | ⟨draw, later, -, isToken⟩
    · cases was.symm.trans there
      exact endures
    · exact absurd isToken (between.older was later)
  · cases found : after.ledger.row sid with
    | none => rfl
    | some new =>
        rcases second.lives.rows sid new found with ⟨row, there, -⟩ | ⟨draw, later, -, isToken⟩
        · cases gone.symm.trans there
        · exact absurd isToken (registered.older was (first.lives.minted.trans later))

def sampleOpening : StoreCall := .createSession "essay" "draft" none .digression none none "fp"

def sampleOpened : World := sampleOpening.after sampleEnv .empty

def sampleEmptied : World := (StoreCall.deleteSession (sampleToken 0)).after sampleEnv sampleOpened

theorem storeRuns_keepIdentity_deleted :
    (∃ old, sampleOpened.ledger.row (sampleToken 0) = some old) ∧
      (sampleOpening.after sampleEnv sampleEmptied).ledger.row (sampleToken 0) = none := by
  have opened : StoreRun sampleEnv (fun _ => True) .empty sampleOpened :=
    .called _ sampleOpening trivial
  have emptied : StoreRun sampleEnv (fun _ => True) sampleOpened sampleEmptied :=
    .called _ (.deleteSession (sampleToken 0)) trivial
  have reopened : StoreRun sampleEnv (fun _ =>
    True) sampleEmptied (sampleOpening.after sampleEnv sampleEmptied) :=
    .called _ sampleOpening trivial
  exact ⟨⟨_, rfl⟩, (storeRuns_keepIdentity opened emptied reopened).2.2 (sampleToken 0) _ rfl rfl⟩

end Megalos
