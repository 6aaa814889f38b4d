import Megalos.AutoRun

/-!
What each helper of `state.py` and the shared helpers of `tools.py` do to the
ledger, one lemma for each.
-/

namespace Megalos

open KeyedTable StatefulProgram StatefulProgram.Program

variable {env : Env} {deployment : Deployment} {world : World} {sid : SessionId} {old : Session}

theorem jsonKey_of_columnText {pointer : Val} {text : String}
    (stored : columnText env pointer = .ok text) : ∃ key, jsonKey env pointer = .ok key := by
  cases pointer with
  | list items => simp [columnText] at stored
  | dict entries => simp [columnText] at stored
  | absent => simp [columnText] at stored
  | native scalar => simp [columnText] at stored
  | _ => exact ⟨_, rfl⟩

theorem columnText_isStr {pointer : Val} {text : String} (same : pointer.isStr text = true) :
    columnText env pointer = .ok text := by
  rw [Val.isStr_iff.mp same]
  rfl

theorem int_text_plain (value : Int) : '_' ∉ (toString value).toList := by
  have digits : ∀ number : Nat, '_' ∉ number.repr.toList := by
    intro number member
    rw [Nat.toList_repr] at member
    exact absurd (Nat.isDigit_of_mem_toDigits (by decide) (by decide) member) (by decide)
  rw [Int.toString_eq_repr, Int.repr_eq_if]
  split
  · exact digits _
  · simp

theorem columnText_underscore {pointer : Val} {text : String}
    (stored : columnText env pointer = .ok text) (underscore : '_' ∈ text.toList) :
    pointer = .str text := by
  cases pointer with
  | str other =>
      rw [columnText, Except.ok.injEq] at stored
      rw [stored]
  | int value =>
      rw [columnText] at stored
      split at stored
      · rw [Except.ok.injEq] at stored
        exact absurd (stored ▸ underscore) (int_text_plain value)
      · cases stored
  | bool value =>
      rw [columnText, Except.ok.injEq] at stored
      subst stored
      cases value <;> exact absurd underscore (by decide)
  | float value =>
      have isText : env.floatText value = text := by
        cases value with
        | nan => cases stored
        | _ => exact Except.ok.inj stored
      exact absurd (isText ▸ underscore) (env.floatTextPlain value)
  | _ => simp [columnText] at stored

theorem wp_updateCurrentStep {pointer : Val} {stepData : Option StepData}
    {post : Except Exn Unit → World → Prop} (found : world.ledger.row sid = some old)
    (onOk : ∀ text new after, columnText env pointer = .ok text →
      old.Stored new text (stepData.getD old.stepData) →
      Becomes world (world.ledger.setRow sid new) after → post (.ok ()) after)
    (onRaise : ∀ raised, columnText env pointer = .error raised → post (.error raised) world) :
    Wp (updateCurrentStep env sid pointer stepData) post world := by
  unfold updateCurrentStep
  rw [wp_bind, wp_ofExcept]
  cases bound : columnText env pointer with
  | error raised => exact onRaise raised bound
  | ok text =>
      dsimp only
      rw [wp_bind]
      refine wp_nowIso ?_
      intro stamp between ticked
      have foundBetween : between.ledger.row sid = some old := by rw [ticked.ledger_eq]; exact found
      refine wp_changeRow_of foundBetween ?_
      intro now after becomes
      rw [ticked.ledger_eq] at becomes
      refine onOk text _ after bound ?_
        ⟨⟨becomes.ledger_eq, becomes.minted_eq.trans ticked.minted_eq⟩,
          becomes.outbound_eq.trans ticked.outbound_eq⟩
      exact ⟨⟨⟨rfl, rfl, rfl, rfl⟩, rfl, rfl, rfl⟩, rfl, rfl, rfl⟩

theorem wp_setEscalation {guardrailId message : Val} {post : Except Exn Unit → World → Prop}
    (onRow : ∀ row new after, world.ledger.row sid = some row → row.Escalated new row.stepData →
      new.escalation = some ⟨guardrailId, message⟩ →
        Becomes world (world.ledger.setRow sid new) after →
      post (.ok ()) after)
    (onMissing : ∀ after, world.ledger.row sid = none → Becomes world world.ledger after →
      post (.error .sessionNotFound) after) :
    Wp (setEscalation env sid guardrailId message) post world := by
  refine wp_changeRow ?_ onMissing
  intro row now after found becomes
  refine onRow row _ after found ?_ rfl becomes
  exact ⟨⟨rfl, rfl, rfl, rfl⟩, rfl, rfl, rfl⟩

theorem wp_getSession {post : Except Exn Session → World → Prop}
    (onRow : ∀ row, world.ledger.row sid = some row → post (.ok row) world)
    (onMissing : world.ledger.row sid = none → post (.error .sessionNotFound) world) :
    Wp (getSession sid) post world := by
  unfold getSession
  rw [wp_bind, wp_read]
  dsimp only
  cases found : world.sessions.lookup sid with
  | none => exact onMissing found
  | some row => exact onRow row found

theorem wp_incrementRetry {stepId : String} {post : Except Exn Nat → World → Prop}
    (found : world.ledger.row sid = some old)
    (next : ∀ new after, old.Counted new → Becomes world (world.ledger.setRow sid new) after →
      post (.ok (old.retryCounts.getD stepId 0 + 1)) after) :
    Wp (incrementRetry env sid stepId) post world := by
  unfold incrementRetry
  rw [wp_bind]
  refine wp_changeRow_of found ?_
  intro now after becomes
  have foundAfter := congrArg (fun ledger => ledger.row sid) becomes.ledger_eq
  simp only [Ledger.setRow_row, if_true] at foundAfter
  dsimp only
  rw [wp_bind]
  refine wp_getSession ?_ ?_
  · intro row looked
    rw [foundAfter, Option.some.injEq] at looked
    subst looked
    simp only [wp_pure, Dict.getD, Dict.get?_set, if_true, Option.getD_some]
    refine next _ after ?_ becomes
    exact ⟨⟨rfl, rfl, rfl, rfl⟩, rfl, rfl, rfl⟩
  · intro gone
    simp [foundAfter] at gone

theorem World.ledger_erase (world : World) (sid : SessionId) :
    ({ world with sessions := world.sessions.erase sid, sessionStack :=
      world.sessionStack.erase sid } :
      World).ledger = world.ledger.drop sid := by
  simp only [World.ledger, Ledger.drop, Ledger.mk.injEq]
  constructor <;> funext other <;> rw [Table.lookup_erase, Function.update_apply]

theorem wp_deleteSessionRow {post : Except Exn Session → World → Prop}
    (onRow : ∀ row after, world.ledger.row sid = some row →
      Becomes world (world.ledger.drop sid) after → post (.ok row) after)
    (onMissing : world.ledger.row sid = none → post (.error .sessionNotFound) world) :
    Wp (deleteSessionRow sid) post world := by
  unfold deleteSessionRow
  rw [wp_bind]
  refine wp_getSession ?_ onMissing
  intro row found
  simp only [wp_bind, wp_write, wp_pure]
  exact onRow row _ found ⟨⟨World.ledger_erase world sid, rfl⟩, rfl⟩

theorem wp_transaction {α : Type} {body : Server α} {post : Except Exn α → World → Prop}
    (holds : Wp body (fun outcome after =>
      match outcome with
      | .ok value => post (.ok value) after
      | .error raised => ∀ restored, restored.ledger = world.ledger →
        restored.minted = after.minted →
          restored.outbound = after.outbound → post (.error raised) restored) world) :
    Wp (transaction body) post world := by
  unfold transaction
  rw [wp_atomically]
  refine holds.mono ?_
  rintro (raised | value) after holds
  · exact holds _ rfl rfl rfl
  · exact holds

theorem World.ledger_deleteAt (world : World) (root : SessionId) (depth : Nat) :
    ({ world with
      sessionStack := world.sessionStack.deleteWhere fun frame =>
        frame.rootSessionId = root ∧ frame.depth = depth } : World).ledger =
      world.ledger.dropAt root depth := by
  simp only [World.ledger, Ledger.dropAt, Ledger.mk.injEq, true_and]
  funext other
  rw [Table.lookup_deleteWhere]

theorem wp_setCalledSession_unlink {post : Except Exn Unit → World → Prop}
    (found : world.ledger.row sid = some old)
    (next : ∀ new after, old.Counted new →
      Becomes world ((world.ledger.setRow sid new).dropAbove sid) after → post (.ok ()) after) :
    Wp (setCalledSession env sid none none) post world := by
  unfold setCalledSession
  refine wp_transaction ?_
  rw [wp_bind]
  refine wp_changeRow_of found ?_
  intro now after becomes
  simp only [wp_bind, wp_read, wp_write]
  refine next { old with calledSession := none, updatedAt := now } _ ?_
    ⟨⟨?_, becomes.minted_eq⟩, becomes.outbound_eq⟩
  · exact ⟨⟨rfl, rfl, rfl, rfl⟩, rfl, rfl, rfl⟩
  · rw [World.ledger_deleteAt, ← World.ledger_standing, becomes.ledger_eq]
    rfl

theorem World.ledger_updateFrame (world : World) (sid : SessionId) (change : Frame → Frame)
    (keeps : ∀ frame, (change frame).sessionId = frame.sessionId) {frame : Frame}
    (found : world.ledger.frame sid = some frame) :
    ({ world with sessionStack := world.sessionStack.update sid change keeps } : World).ledger =
      world.ledger.setFrame sid (change frame) := by
  have looked : world.sessionStack.lookup sid = some frame := found
  simp only [World.ledger, Ledger.setFrame, Ledger.mk.injEq, true_and]
  funext other
  rw [Table.lookup_update, Function.update_apply]
  split
  · rename_i same; rw [same, looked]; rfl
  · rfl

theorem wp_setCalledSession_link {child : SessionId} {frame : Frame} {step : String}
    {post : Except Exn Unit → World → Prop} (framed : world.ledger.frame child = some frame)
    (onRow : ∀ row new after, world.ledger.row sid = some row → row.Counted new →
      Becomes world ((world.ledger.setRow sid new).setFrame child { frame with callStepId := some step })
        after → post (.ok ()) after)
    (onMissing : ∀ after, world.ledger.row sid = none → Becomes world world.ledger after →
      post (.error .sessionNotFound) after) :
    Wp (setCalledSession env sid (some child) (some step)) post world := by
  unfold setCalledSession
  refine wp_transaction ?_
  rw [wp_bind]
  refine wp_changeRow ?_ ?_
  · intro row now after found becomes
    have framedAfter : after.ledger.frame child = some frame :=
      by rw [becomes.ledger_eq]; exact framed
    simp only [wp_write]
    refine onRow row { row with calledSession := some child, updatedAt := now } _ found ?_
      ⟨⟨?_, becomes.minted_eq⟩, becomes.outbound_eq⟩
    · exact ⟨⟨rfl, rfl, rfl, rfl⟩, rfl, rfl, rfl⟩
    · rw [World.ledger_updateFrame after child _ _ framedAfter, becomes.ledger_eq]
  · intro after missing becomes restored ledgerEq mintedEq outboundEq
    exact onMissing restored missing ⟨⟨ledgerEq, mintedEq.trans becomes.minted_eq⟩,
      outboundEq.trans becomes.outbound_eq⟩

theorem World.ledger_withoutSessions (world : World) (ids : List SessionId) :
    (world.withoutSessions ids).ledger = world.ledger.without ids := by
  simp only [World.ledger, World.withoutSessions, Ledger.without, Ledger.mk.injEq]
  constructor <;> funext other
  · rw [Table.lookup_deleteWhere_key world.sessions fun sid => sid ∈ ids]
    simp
  · rw [Table.lookup_deleteWhere_key world.sessionStack fun sid => sid ∈ ids]
    simp

theorem wp_insertSession {row : Session} {post : Except Exn Unit → World → Prop}
    (onOk : ∀ after, world.ledger.row row.sessionId = none →
      Becomes world (world.ledger.setRow row.sessionId row) after → post (.ok ()) after)
    (onRaise : ∀ message, post (.error (.uncaught "IntegrityError" message)) world) :
    Wp (insertSession row) post world := by
  unfold insertSession
  rw [wp_bind, wp_read]
  dsimp only
  cases inserted : world.sessions.insert row with
  | none => exact onRaise _
  | some grown =>
      simp only [wp_write]
      refine onOk _ ?_ ⟨⟨?_, rfl⟩, rfl⟩
      · exact Table.insert_isSome_iff.mp (by rw [inserted]; rfl)
      · simp only [World.ledger, Ledger.setRow, Ledger.mk.injEq, and_true]
        funext other
        rw [Table.lookup_insert inserted, Function.update_apply]

theorem wp_insertFrame {frame : Frame} {post : Except Exn Unit → World → Prop}
    (onOk : ∀ after, world.ledger.frame frame.sessionId = none →
      Becomes world (world.ledger.setFrame frame.sessionId frame) after → post (.ok ()) after)
    (onRaise : ∀ message, post (.error (.uncaught "IntegrityError" message)) world) :
    Wp (insertFrame frame) post world := by
  unfold insertFrame
  rw [wp_bind, wp_read]
  dsimp only
  cases inserted : world.sessionStack.insert frame with
  | none => exact onRaise _
  | some grown =>
      simp only [wp_write]
      refine onOk _ ?_ ⟨⟨?_, rfl⟩, rfl⟩
      · exact Table.insert_isSome_iff.mp (by rw [inserted]; rfl)
      · simp only [World.ledger, Ledger.setFrame, Ledger.mk.injEq, true_and]
        funext other
        rw [Table.lookup_insert inserted, Function.update_apply]

def Ledger.childFrame (ledger : Ledger) (sid parent : SessionId) (frameType : FrameType)
    (callStepId : Option String) (now : Timestamp) : Frame where
  sessionId := sid
  rootSessionId := (ledger.standing parent).1
  depth := (ledger.standing parent).2 + 1
  frameType := frameType
  callStepId := callStepId
  createdAt := now

structure Creates (env : Env) (world : World) (row : Session) (frame : Option Frame)
    (after : World) : Prop where
  sessionId_eq : row.sessionId = env.token world.minted
  unused : (world.ledger.without (evictedIds env.sessionCap world.sessions)).row row.sessionId =
    none
  ledger_eq : after.ledger =
    (world.ledger.without (evictedIds env.sessionCap world.sessions)).insert row frame
  minted_eq : after.minted = world.minted + 1
  outbound_eq : after.outbound = world.outbound

theorem wp_createSession {workflowType currentStep fingerprint : String} {frameType : FrameType}
    {callStepId : Option String} {maxStackDepth : Option Nat} {parent : Option SessionId}
    {post : Except Exn SessionId → World → Prop}
    (onOk : ∀ now after row,
      row = newSession (env.token world.minted) workflowType currentStep parent fingerprint now →
      Creates env world row (parent.map fun parent =>
        (world.ledger.without (evictedIds env.sessionCap world.sessions)).childFrame row.sessionId parent
          frameType callStepId now) after → post (.ok row.sessionId) after)
    (onRaise : ∀ raised after, raised ≠ .diverges → after.ledger = world.ledger →
      after.minted = world.minted + 1 → post (.error raised) after) :
    Wp (createSession env workflowType currentStep parent frameType callStepId maxStackDepth fingerprint)
      post world := by
  unfold createSession drawToken nowIso
  simp only [wp_bind, wp_read, wp_write, wp_pure]
  refine wp_transaction ?_
  have refused : ∀ (raised : Exn) (after : World), raised ≠ .diverges →
    after.minted = world.minted + 1 →
      ∀ restored : World, restored.ledger = world.ledger → restored.minted = after.minted →
        restored.outbound = after.outbound → post (.error raised) restored := by
    intro raised after finite mintedAfter restored ledgerEq mintedEq _
    exact onRaise raised restored finite ledgerEq (mintedEq.trans mintedAfter)
  simp only [wp_bind, wp_read, wp_write]
  refine wp_insertSession ?_ fun message => refused _ _ (by simp) rfl
  intro stored unused becomes
  rw [World.ledger_withoutSessions] at unused becomes
  have ledgerStored := becomes.ledger_eq
  cases parent with
  | none =>
      simp only [wp_pure]
      exact onOk _ stored _ rfl ⟨rfl, unused, ledgerStored, becomes.minted_eq, becomes.outbound_eq⟩
  | some parent =>
      have placed : stored.standing parent =
          (world.ledger.without (evictedIds env.sessionCap world.sessions)).standing parent := by
        rw [← World.ledger_standing, ledgerStored, Ledger.setRow_standing]
        rfl
      have insertion : Wp (do
          insertFrame
            { sessionId := env.token world.minted, rootSessionId := (stored.standing parent).1
              depth := (stored.standing parent).2 + 1, frameType, callStepId
              createdAt := env.clock world.ticks }
          pure (env.token world.minted) : Server SessionId)
          (fun outcome after =>
            (∀ value, outcome = .ok value → post (.ok value) after) ∧
              ∀ raised, outcome = .error raised → ∀ restored : World,
                restored.ledger = world.ledger →
                restored.minted = after.minted → restored.outbound = after.outbound →
                post (.error raised) restored) stored := by
        rw [wp_bind]
        refine wp_insertFrame ?_ fun message =>
          ⟨fun value same => (by cases same), fun raised same => ?_⟩
        case refine_2 =>
          cases same
          exact refused _ _ (by simp) becomes.minted_eq
        intro framed _ inserted
        simp only [wp_pure]
        refine ⟨fun value same => ?_, fun raised same => by cases same⟩
        cases same
        refine onOk (env.clock world.ticks) framed _ rfl ⟨rfl, unused, ?_,
          inserted.minted_eq.trans becomes.minted_eq, inserted.outbound_eq.trans becomes.outbound_eq⟩
        rw [inserted.ledger_eq, ledgerStored, placed]
        rfl
      simp only [wp_bind, wp_read]
      cases maxStackDepth with
      | none =>
          refine insertion.mono fun outcome _ holds => ?_
          cases outcome with
          | error raised => exact holds.2 raised rfl
          | ok value => exact holds.1 value rfl
      | some limit =>
          dsimp only
          split
          · exact refused _ _ (by simp) becomes.minted_eq
          · refine insertion.mono fun outcome _ holds => ?_
            cases outcome with
            | error raised => exact holds.2 raised rfl
            | ok value => exact holds.1 value rfl

end Megalos
