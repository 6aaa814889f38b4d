import Megalos.Dispatch

/-!
What a call does to the stack, whatever it does to the rows: sessions go, and at most
one new session appears, as a root or directly above another.
-/

namespace Megalos

open ChainForest

/-- Sessions go; the rows that stay belong to the same sessions, and no other row appears. -/
structure Ledger.Shrinks (before after : Ledger) (gone : SessionId → Prop) : Prop where
  frameGone : ∀ {sid}, gone sid → after.frame sid = none
  rowGone : ∀ {sid}, gone sid → after.row sid = none
  frameKept : ∀ {sid}, ¬gone sid → after.frame sid = before.frame sid
  rowKept : ∀ {sid row}, ¬gone sid → before.row sid = some row → ∃ new, after.row sid = some new ∧
    row.Same new
  rowAbsent : ∀ {sid}, before.row sid = none → after.row sid = none

namespace Ledger.Shrinks

variable {before after : Ledger} {gone : SessionId → Prop} {sid : SessionId} {env : Env}
    {minted later : Nat}

theorem refl (ledger : Ledger) : Shrinks ledger ledger fun _ => False where
  frameGone := False.elim
  rowGone := False.elim
  frameKept _ := rfl
  rowKept _ found := ⟨_, found, Session.Same.refl _⟩
  rowAbsent := id

theorem setRow (shrinks : Shrinks before after gone) {old new : Session}
    (found : after.row sid = some old) (same : old.Same new) :
    Shrinks before (after.setRow sid new) gone where
  frameGone := shrinks.frameGone
  rowGone {other} isGone := by
    have missing := shrinks.rowGone isGone
    rw [setRow_row, if_neg, missing]
    rintro rfl
    simp [found] at missing
  frameKept := shrinks.frameKept
  rowKept {other row} stays there := by
    obtain ⟨kept, foundKept, sameKept⟩ := shrinks.rowKept stays there
    rw [setRow_row]
    split
    · rename_i isSid
      rw [isSid, found, Option.some.injEq] at foundKept
      exact ⟨new, rfl, sameKept.trans (foundKept ▸ same)⟩
    · exact ⟨kept, foundKept, sameKept⟩
  rowAbsent {other} absent := by
    have missing := shrinks.rowAbsent absent
    rw [setRow_row, if_neg, missing]
    rintro rfl
    simp [found] at missing

theorem drop (shrinks : Shrinks before after gone) (sid : SessionId) :
    Shrinks before (after.drop sid) fun other => gone other ∨ other = sid where
  frameGone {other} isGone := by
    rw [drop_frame]
    split
    · rfl
    · exact shrinks.frameGone (isGone.resolve_right ‹_›)
  rowGone {other} isGone := by
    rw [drop_row]
    split
    · rfl
    · exact shrinks.rowGone (isGone.resolve_right ‹_›)
  frameKept stays := by
    rw [drop_frame, if_neg fun same => stays (.inr same)]
    exact shrinks.frameKept fun isGone => stays (.inl isGone)
  rowKept stays there := by
    rw [drop_row, if_neg fun same => stays (.inr same)]
    exact shrinks.rowKept (fun isGone => stays (.inl isGone)) there
  rowAbsent absent := by
    rw [drop_row]
    split
    · rfl
    · exact shrinks.rowAbsent absent

theorem without (ledger : Ledger) (ids : List SessionId) :
    Shrinks ledger (ledger.without ids) (· ∈ ids) where
  frameGone isGone := if_pos isGone
  rowGone isGone := if_pos isGone
  frameKept stays := if_neg stays
  rowKept stays found := ⟨_, (if_neg stays).trans found, Session.Same.refl _⟩
  rowAbsent {other} absent := by
    rw [without_row]
    split
    · rfl
    · exact absent

theorem frame_of_after (shrinks : Shrinks before after gone) {frame : Frame}
    (found : after.frame sid = some frame) :
    ¬gone sid ∧ before.frame sid = some frame := by
  have stays : ¬gone sid := by
    intro isGone
    simp [shrinks.frameGone isGone] at found
  exact ⟨stays, (shrinks.frameKept stays).symm.trans found⟩

theorem row_of_after (shrinks : Shrinks before after gone) {new : Session}
    (found : after.row sid = some new) :
    ¬gone sid ∧ ∃ row, before.row sid = some row ∧ row.Same new := by
  have stays : ¬gone sid := by
    intro isGone
    simp [shrinks.rowGone isGone] at found
  refine ⟨stays, ?_⟩
  cases there : before.row sid with
  | none => simp [shrinks.rowAbsent there] at found
  | some row =>
      obtain ⟨kept, foundKept, same⟩ := shrinks.rowKept stays there
      rw [found, Option.some.injEq] at foundKept
      exact ⟨row, rfl, foundKept ▸ same⟩

open Classical in
theorem places_eq (shrinks : Shrinks before after gone) :
    after.places = remove before.places gone := by
  funext other
  simp only [places, remove]
  split
  · rename_i isGone
    rw [shrinks.frameGone isGone]
    rfl
  · rename_i stays
    rw [shrinks.frameKept stays]

theorem sound (shrinks : Shrinks before after gone) (sound : before.Sound env minted)
    (grown : minted ≤ later) :
    after.Sound env later where
  forest := by
    classical
    rw [shrinks.places_eq]
    exact sound.forest.remove
  housed found := by
    obtain ⟨stays, there⟩ := shrinks.frame_of_after found
    obtain ⟨row, house⟩ := Option.isSome_iff_exists.mp (sound.housed there)
    obtain ⟨new, foundNew, -⟩ := shrinks.rowKept stays house
    simp [foundNew]
  rowIssued found := by
    obtain ⟨-, row, there, -⟩ := shrinks.row_of_after found
    exact (sound.rowIssued there).mono grown
  rootIssued found := (sound.rootIssued (shrinks.frame_of_after found).2).mono grown
  ownerIssued found owner := by
    obtain ⟨-, row, there, same⟩ := shrinks.row_of_after found
    exact (sound.ownerIssued there (same.parentSessionId_eq ▸ owner)).mono grown

end Ledger.Shrinks

variable {env : Env} {deployment : Deployment} {world : World}

inductive SpawnsAbove (env : Env) (deployment : Deployment) (world : World) : Call → SessionId →
    Prop
  | entered {parentSessionId callStepId workflowType : String} {parent : Session}
      {parentWf childWf : Workflow}
      (spawns : Spawns env deployment world parentSessionId callStepId parent parentWf workflowType childWf)
      (calls : CallsInto env parent parentWf callStepId workflowType) :
      SpawnsAbove env deployment world (.enterSubWorkflow parentSessionId callStepId) parent.sessionId
  | pushed {sessionId workflowType pausedAtStep context : String} {outer : Session}
      {outerWf childWf : Workflow}
      (spawns : Spawns env deployment world sessionId pausedAtStep outer outerWf workflowType childWf)
      (named : workflowType ≠ "")
      (shallow : world.stackDepth (world.standing outer.sessionId).1 < maxStackDepth)
      (room : world.countActive < activeCap) :
      SpawnsAbove env deployment world (.pushFlow sessionId workflowType pausedAtStep context) outer.sessionId

/-- The call goes on to create a session, so `create_session` makes room for it. -/
inductive MakesRoom (env : Env) (deployment : Deployment) (world : World) : Call → Prop
  | started {workflowType context : String} {wf : Workflow} (named : workflowType ≠ "")
      (loaded : deployment.workflows.get? workflowType = some wf)
      (room : world.countActive < activeCap) :
      MakesRoom env deployment world (.startWorkflow workflowType context)
  | spawned {call : Call} {outer : SessionId}
      (above : SpawnsAbove env deployment world call outer) : MakesRoom env deployment world call

inductive Removes (env : Env) (deployment : Deployment) (world : World) : Call → SessionId → Prop
  | revised {sessionId stepId : String} {session : Session} {wf : Workflow} {idx : Nat}
      {target : Step}
      {child : Frame} (revises : Revises env deployment world sessionId stepId session wf idx target)
      (retained : revisedChild world session.sessionId target = some child) :
      Removes env deployment world (.reviseStep sessionId stepId) child.sessionId
  | popped {sessionId : String} {session : Session} {frame : Frame} {outer : SessionId}
      (pops : Pops env deployment world sessionId session frame outer) :
      Removes env deployment world (.popFlow sessionId) session.sessionId
  | deleted {sessionId : String} {session : Session}
      (deletes : Deletes env deployment world sessionId session) :
      Removes env deployment world (.deleteSession sessionId) session.sessionId
  | evicted {call : Call} {sid : SessionId} (makesRoom : MakesRoom env deployment world call)
      (chosen : sid ∈ world.evicted env) : Removes env deployment world call sid

structure Orphans (env : Env) (deployment : Deployment) (world : World) (call : Call)
    (lower : SessionId) (upper : Frame) : Prop where
  removes : Removes env deployment world call lower
  above : world.ledger.Above lower upper
  left : ¬Removes env deployment world call upper.sessionId

inductive Shape (env : Env) (deployment : Deployment) (world : World) (call : Call) : Ledger → Nat →
    Prop
  | shrunk {ledger : Ledger} {minted : Nat} {gone : SessionId → Prop}
      (shrinks : world.ledger.Shrinks ledger gone)
      (cause : ∀ {lower upper}, gone lower → world.ledger.Above lower upper →
        gone upper.sessionId ∨ Orphans env deployment world call lower upper)
      (grown : world.minted ≤ minted) : Shape env deployment world call ledger minted
  | rooted {row : Session} (makesRoom : MakesRoom env deployment world call)
      (unowned : row.parentSessionId = none) : Shape env deployment world call
        ((world.ledger.without (world.evicted env)).setRow (env.token world.minted) row)
          (world.minted + 1)
  | spawned {base : Ledger} {outer row : Session} {frame : Frame}
      (above : SpawnsAbove env deployment world call outer.sessionId)
      (found : world.ledger.row outer.sessionId = some outer)
      (bare : ∀ frame, ¬world.ledger.Above outer.sessionId frame)
      (shrinks : world.ledger.Shrinks base (· ∈ world.evicted env))
      (owned : row.parentSessionId = some outer.sessionId)
      (placed : (frame.rootSessionId, frame.depth) =
        ((base.standing outer.sessionId).1, (base.standing outer.sessionId).2 + 1)) :
      Shape env deployment world call
        ((base.setRow (env.token world.minted) row).setFrame (env.token world.minted) frame)
        (world.minted + 1)

theorem Verdict.Changes.same {verdict : Verdict} {stepData : StepData} {old new : Session}
    (changes : verdict.Changes env stepData old new) : old.Same new := by
  cases verdict with
  | kept => exact changes.toSame
  | retriesExhausted => exact changes.toSame
  | escalated => exact changes.toSame
  | advanced advance => exact Applies.same changes

section Submission

variable {call : Call} {session : Session} {sid : SessionId}

theorem Wrapped.shrinks {before wrappedLedger start : Ledger} {gone : SessionId → Prop}
    (wrapped : Wrapped before sid wrappedLedger) (shrinks : start.Shrinks before gone) :
    start.Shrinks wrappedLedger gone := by
  cases wrapped with
  | root => exact shrinks
  | missing => exact shrinks
  | escalated owner found escalates => exact shrinks.setRow found escalates.toSame

theorem Answered.shrinks {before ledger : Ledger} {stepData : StepData} {verdict : Verdict}
    (answered : Answered env before sid session stepData verdict ledger)
    (found : before.row sid = some session) :
    before.Shrinks ledger fun _ => False := by
  cases answered with
  | settled calm changes unowned => exact (Ledger.Shrinks.refl before).setRow found changes.same
  | failed fails changes wrapped =>
      exact wrapped.shrinks ((Ledger.Shrinks.refl before).setRow found changes.same)

theorem Finished.shrinks {start before ledger : Ledger} {calls : Nat} {artifact : String}
    {frameType : FrameType}
    (finished : Finished env deployment before calls sid artifact frameType ledger)
    (forest : Forest before.places) (shrinks : start.Shrinks before fun _ => False) :
    start.Shrinks ledger (fun _ => False) ∨ start.Shrinks ledger (False ∨ · = sid) := by
  cases finished with
  | orphan => exact .inl shrinks
  | retained => exact .inl shrinks
  | marked owner stale marks => exact .inl (shrinks.setRow stale.row marks.toSame)
  | popped => exact .inr (shrinks.drop sid)
  | drifted owner resolves off escalates =>
    exact .inl (shrinks.setRow resolves.row escalates.toSame)
  | unchecked => exact .inl shrinks
  | rejected owner resolves at_ call invalid escalates =>
      exact .inl (shrinks.setRow resolves.row escalates.toSame)
  | delivered owner resolves at_ call valid applies =>
      have covers := (Ledger.parent_iff_covers forest).mp owner
      rw [Ledger.dropAbove_drop forest covers]
      refine .inr ((shrinks.drop sid).setRow ?_ applies.same)
      rw [Ledger.drop_row, if_neg (ChainForest.Covers.ne covers)]
      exact resolves.row

/-- A submission removes at most the session it completes, and nobody stands above that one. -/
theorem Submitted.shape {minted : Nat} {sessionId stepId content branch artifactId : String}
    {wf : Workflow} {idx : Nat} {step : Step} {ledger : Ledger} (sound : world.Sound env)
    (submits : Submits env deployment world sessionId stepId content session wf idx step)
    (submitted : Submitted env deployment world session wf idx step content branch artifactId ledger)
    (grown : world.minted ≤ minted) : Shape env deployment world call ledger minted := by
  have found : world.ledger.row session.sessionId = some session := by
    rw [submits.resolves.sessionId_eq]
    exact submits.resolves.row
  have still : ∀ {final : Ledger}, world.ledger.Shrinks final (fun _ => False) →
      Shape env deployment world call final minted :=
    fun shrinks => .shrunk shrinks (fun gone _ => gone.elim) grown
  cases submitted with
  | answered ends => exact still (ends.shrinks found)
  | finished reached atEnd moved framed finished =>
      rcases finished.shrinks sound.forest ((Ledger.Shrinks.refl _).setRow found moved.toSame) with
        shrinks | shrinks
      · exact still shrinks
      · refine .shrunk shrinks ?_ grown
        rintro lower upper (never | rfl) above
        · exact never.elim
        · exact absurd above (World.topFrameFor_none_iff.mp submits.accepts.bare upper)

end Submission

theorem Removes.child {sessionId stepId : String} {sid : SessionId}
    (removes : Removes env deployment world (.reviseStep sessionId stepId) sid) :
    ∃ session wf idx target child,
      Revises env deployment world sessionId stepId session wf idx target ∧
      revisedChild world session.sessionId target = some child ∧ child.sessionId = sid := by
  cases removes with
  | revised revises retained => exact ⟨_, _, _, _, _, revises, retained, rfl⟩
  | evicted makesRoom chosen => cases makesRoom with | spawned above => cases above

theorem Revises.unique {sessionId stepId : String} {session other : Session} {wf otherWf : Workflow}
    {idx otherIdx : Nat} {target otherTarget : Step}
    (revises : Revises env deployment world sessionId stepId session wf idx target)
    (again : Revises env deployment world sessionId stepId other otherWf otherIdx otherTarget) :
    session = other ∧ wf = otherWf ∧ idx = otherIdx ∧ target = otherTarget := by
  obtain ⟨rfl, rfl⟩ := revises.resolves.unique again.resolves
  have sameTarget := revises.found.symm.trans again.found
  simp only [Option.some.injEq, Prod.mk.injEq] at sameTarget
  exact ⟨rfl, rfl, sameTarget⟩

theorem Revises.shape {call : Call} {sessionId stepId : String} {session new : Session} {wf : Workflow}
    {idx minted : Nat} {target : Step} {stepData : StepData} (sound : world.Sound env)
    (revises : Revises env deployment world sessionId stepId session wf idx target)
    (call_eq : call = .reviseStep sessionId stepId) (moved : session.Moved new target.id stepData)
    (grown : world.minted ≤ minted) :
    Shape env deployment world call
      ((world.ledger.afterRevision session.sessionId (revisedChild world session.sessionId target)).setRow
        session.sessionId new) minted := by
  subst call_eq
  have found : world.ledger.row session.sessionId = some session := by
    rw [revises.resolves.sessionId_eq]
    exact revises.resolves.row
  cases retained : revisedChild world session.sessionId target with
  | none => exact .shrunk ((Ledger.Shrinks.refl _).setRow found moved.toSame) (fun gone _ => gone.elim) grown
  | some child =>
      have above : world.ledger.Above session.sessionId child := by
        unfold revisedChild at retained
        split at retained
        · exact World.topFrameFor_some retained
        · simp at retained
      have covers := Ledger.above_covers above
      rw [Ledger.afterRevision, Ledger.dropAbove_drop sound.forest covers]
      refine .shrunk (((Ledger.Shrinks.refl _).drop child.sessionId).setRow ?_ moved.toSame) ?_ grown
      · rw [Ledger.drop_row, if_neg (ChainForest.Covers.ne covers)]
        exact found
      · rintro lower upper (never | rfl) aboveChild
        · exact never.elim
        · by_cases removed : Removes env deployment world (.reviseStep sessionId stepId) upper.sessionId
          · obtain ⟨_, _, _, _, other, again, retainedAgain, sameId⟩ := removed.child
            obtain ⟨rfl, rfl, rfl, rfl⟩ := revises.unique again
            rw [retained, Option.some.injEq] at retainedAgain
            exact .inl (.inr (by rw [← sameId, retainedAgain]))
          · exact .inr ⟨.revised revises retained, aboveChild, removed⟩

theorem Shape.dropped {call : Call} {sid : SessionId} {minted : Nat}
    (only : ∀ {other}, Removes env deployment world call other ↔ other = sid)
    (grown : world.minted ≤ minted) :
    Shape env deployment world call (world.ledger.drop sid) minted := by
  refine .shrunk ((Ledger.Shrinks.refl _).drop sid) ?_ grown
  rintro lower upper (never | rfl) above
  · exact never.elim
  · by_cases removed : upper.sessionId = lower
    · exact .inl (.inr removed)
    · exact .inr ⟨only.mpr rfl, above, fun removes => removed (only.mp removes)⟩

theorem Removes.popped_eq {sessionId : String} {sid : SessionId} {session : Session} {frame : Frame}
    {outer : SessionId} (pops : Pops env deployment world sessionId session frame outer)
    (removes : Removes env deployment world (.popFlow sessionId) sid) :
    sid = session.sessionId := by
  obtain ⟨wf, resolves⟩ := pops.resolves
  cases removes with
  | popped again =>
      obtain ⟨otherWf, resolvesAgain⟩ := again.resolves
      rw [(resolves.unique resolvesAgain).1]
  | evicted makesRoom chosen => cases makesRoom with | spawned above => cases above

theorem Removes.deleted_eq {sessionId : String} {sid : SessionId} {session : Session}
    (deletes : Deletes env deployment world sessionId session)
    (removes : Removes env deployment world (.deleteSession sessionId) sid) :
    sid = session.sessionId := by
  cases removes with
  | deleted again => rw [Option.some.inj (deletes.row.symm.trans again.row)]
  | evicted makesRoom chosen => cases makesRoom with | spawned above => cases above

theorem MakesRoom.evicted_of_removes {call : Call} {sid : SessionId}
    (makesRoom : MakesRoom env deployment world call)
    (removes : Removes env deployment world call sid) :
    sid ∈ world.evicted env := by
  cases removes with
  | evicted _ chosen => exact chosen
  | revised => cases makesRoom with | spawned above => cases above
  | popped => cases makesRoom with | spawned above => cases above
  | deleted => cases makesRoom with | spawned above => cases above

/-- The sessions that `create_session` removes are the ones the call evicts. -/
theorem MakesRoom.cause {call : Call} (makesRoom : MakesRoom env deployment world call)
    {lower : SessionId} {upper : Frame} (chosen : lower ∈ world.evicted env)
    (above : world.ledger.Above lower upper) :
    upper.sessionId ∈ world.evicted env ∨ Orphans env deployment world call lower upper := by
  by_cases removed : upper.sessionId ∈ world.evicted env
  · exact .inl removed
  · exact .inr ⟨.evicted makesRoom chosen, above, fun removes =>
      removed (makesRoom.evicted_of_removes removes)⟩

theorem Grown.shape {call : Call} {outer : Session} {workflowType fingerprint : String}
    {childWf : Workflow} {frameType : FrameType} {ledger : Ledger} (sound : world.Sound env)
    (above : SpawnsAbove env deployment world call outer.sessionId)
    (found : world.ledger.row outer.sessionId = some outer)
    (bare : world.topFrameFor outer.sessionId = none)
    (grown : Grown env world outer workflowType childWf fingerprint frameType ledger) :
    Shape env deployment world call ledger (world.minted + 1) := by
  let fresh := env.token world.minted
  let rest := world.ledger.without (world.evicted env)
  let base : Ledger := ⟨fun sid => if sid = fresh then none else ledger.row sid, rest.frame⟩
  obtain ⟨now, row, childRow, counted⟩ := grown.child
  obtain ⟨time, stamp, childFrame⟩ := grown.frame
  have unframed : rest.frame fresh = none := by
    cases framed : rest.frame fresh with
    | none => rfl
    | some frame =>
        obtain ⟨-, there⟩ := (Ledger.Shrinks.without world.ledger _).frame_of_after framed
        obtain ⟨old, house⟩ := Option.isSome_iff_exists.mp (sound.housed there)
        exact absurd (sound.rowIssued house) Issued.not_next
  have rowOf : ∀ {sid old}, rest.row sid = some old → ∃ new, base.row sid = some new ∧
    old.Same new := by
    intro sid old there
    have differs : sid ≠ fresh := by
      intro same
      rw [same, grown.unused] at there
      simp at there
    simp only [base, if_neg differs]
    by_cases isOuter : sid = outer.sessionId
    · subst isOuter
      obtain ⟨linked, foundLinked, counts⟩ := grown.outerRow old there
      exact ⟨linked, foundLinked, counts.toSame⟩
    · exact ⟨old, (grown.otherRows sid differs (.inl isOuter)).trans there, Session.Same.refl old⟩
  have absent : ∀ {sid}, rest.row sid = none → base.row sid = none := by
    intro sid missing
    by_cases isFresh : sid = fresh
    · exact if_pos isFresh
    · simp only [base, if_neg isFresh]
      rw [grown.otherRows sid isFresh (.inr missing)]
      exact missing
  have shrinks : world.ledger.Shrinks base (· ∈ world.evicted env) := by
    have gone := Ledger.Shrinks.without world.ledger (world.evicted env)
    refine ⟨gone.frameGone, fun isGone => absent (gone.rowGone isGone), gone.frameKept, ?_, ?_⟩
    · intro sid old stays there
      exact rowOf ((Ledger.without_row _ _ _).trans ((if_neg stays).trans there))
    · exact fun missing => absent (gone.rowAbsent missing)
  have ledgerEq : ledger = (base.setRow fresh row).setFrame fresh
      (rest.childFrame fresh outer.sessionId frameType stamp time) := by
    have rows : ledger.row = ((base.setRow fresh row).setFrame fresh
        (rest.childFrame fresh outer.sessionId frameType stamp time)).row := by
      funext sid
      simp only [Ledger.setFrame_row, Ledger.setRow_row]
      by_cases isFresh : sid = fresh
      · rw [if_pos isFresh, isFresh, childRow]
      · rw [if_neg isFresh, show base.row sid = ledger.row sid from if_neg isFresh]
    have frames : ledger.frame = ((base.setRow fresh row).setFrame fresh
        (rest.childFrame fresh outer.sessionId frameType stamp time)).frame := by
      funext sid
      simp only [Ledger.setFrame_frame, Ledger.setRow_frame]
      by_cases isFresh : sid = fresh
      · rw [if_pos isFresh, isFresh, childFrame]
      · rw [if_neg isFresh, grown.otherFrames sid isFresh]
    cases ledger
    exact congrArg₂ Ledger.mk rows frames
  rw [ledgerEq]
  exact .spawned above found (World.topFrameFor_none_iff.mp bare) shrinks counted.parentSessionId_eq rfl

theorem Effect.shape {call : Call} {ledger : Ledger} {minted : Nat} (sound : world.Sound env)
    (effect : Effect env deployment world call ledger minted) :
    Shape env deployment world call ledger minted := by
  cases effect with
  | idle grown => exact .shrunk (Ledger.Shrinks.refl _) (fun gone _ => gone.elim) grown
  | marked stale marks =>
      exact .shrunk ((Ledger.Shrinks.refl _).setRow stale.row marks.toSame)
        (fun gone _ => gone.elim) (le_refl _)
  | started named loaded room unused opened =>
      refine .rooted (.started named loaded room) ?_
      rcases opened with applies | ⟨-, counted⟩
      · exact applies.same.parentSessionId_eq
      · exact counted.parentSessionId_eq
  | submitted submits submitted => exact submitted.shape sound submits (le_refl _)
  | revised revises moved => exact revises.shape sound rfl moved (le_refl _)
  | entered spawns calls spawned =>
      refine spawned.toGrown.shape sound (.entered spawns calls) ?_ spawns.bare
      rw [spawns.resolves.sessionId_eq]
      exact spawns.resolves.row
  | pushed spawns named shallow room spawned =>
      refine spawned.toGrown.shape sound (.pushed spawns named shallow room) ?_ spawns.bare
      rw [spawns.resolves.sessionId_eq]
      exact spawns.resolves.row
  | popped pops =>
      refine .dropped ⟨fun removes => removes.popped_eq pops, ?_⟩ (le_refl _)
      rintro rfl
      exact .popped pops
  | deleted deletes =>
      refine .dropped ⟨fun removes => removes.deleted_eq deletes, ?_⟩ (le_refl _)
      rintro rfl
      exact .deleted deletes

/-- A spawned child stands where its frame was placed, above a session that nobody stood above. -/
theorem Shape.spawned_places {base : Ledger} {fresh outer : SessionId} {row : Session}
    {frame : Frame} (placed : (frame.rootSessionId, frame.depth) = ((base.standing outer).1,
      (base.standing outer).2 + 1)) :
    ((base.setRow fresh row).setFrame fresh frame).places = push base.places outer fresh := by
  funext other
  simp only [Ledger.places, Ledger.setFrame_frame, Ledger.setRow_frame]
  by_cases isFresh : other = fresh
  · subst isFresh
    rw [if_pos rfl, push_self, ← Ledger.standing_places, ← placed]
    rfl
  · rw [if_neg isFresh, push_other isFresh]
    rfl

/-- Where a session with a row stands is fixed until it goes, and nobody is put below its frame. -/
theorem Ledger.Shrinks.bare {before after : Ledger} {gone : SessionId → Prop} {sid : SessionId}
    (shrinks : before.Shrinks after gone) (forest : Forest before.places)
    (bare : ∀ upper, ¬before.Covers sid upper) (upper : SessionId) : ¬after.Covers sid upper := by
  classical
  intro covers
  rw [Covers, shrinks.places_eq] at covers
  by_cases isGone : gone sid
  · obtain ⟨-, above⟩ := remove_some.mp covers
    have bottom : ChainForest.standing (remove before.places gone) sid = (sid, 0) := by
      simp [ChainForest.standing, remove, isGone]
    rw [bottom] at above
    refine bare upper ?_
    rw [Covers, ChainForest.Covers, standing_root (forest.rootFree above)]
    exact above
  · exact bare upper ((remove_covers fun gone => absurd gone isGone).mp covers).2

theorem Shape.frame_kept {call : Call} {ledger : Ledger} {minted : Nat} {sid : SessionId}
    {frame : Frame} (shape : Shape env deployment world call ledger minted)
    (differs : sid ≠ env.token world.minted)
    (found : ledger.frame sid = some frame) : world.ledger.frame sid = some frame := by
  cases shape with
  | shrunk shrinks cause grown => exact (shrinks.frame_of_after found).2
  | rooted => exact ((Ledger.Shrinks.without world.ledger _).frame_of_after found).2
  | spawned above there bare shrinks owned placed =>
      rw [Ledger.setFrame_frame, if_neg differs] at found
      exact (shrinks.frame_of_after found).2

/-- A session that keeps its row keeps its frame, and gets none. -/
theorem Shape.frame_eq {call : Call} {ledger : Ledger} {minted : Nat} {sid : SessionId}
    {row : Session} (shape : Shape env deployment world call ledger minted)
    (differs : sid ≠ env.token world.minted)
    (found : ledger.row sid = some row) : ledger.frame sid = world.ledger.frame sid := by
  cases shape with
  | shrunk shrinks cause grown => exact shrinks.frameKept (shrinks.row_of_after found).1
  | rooted =>
      have gone := Ledger.Shrinks.without world.ledger (world.evicted env)
      rw [Ledger.setRow_row, if_neg differs] at found
      exact gone.frameKept (gone.row_of_after found).1
  | spawned above there bare shrinks owned placed =>
      rw [Ledger.setFrame_row, Ledger.setRow_row, if_neg differs] at found
      rw [Ledger.setFrame_frame, if_neg differs]
      exact shrinks.frameKept (shrinks.row_of_after found).1

/-- Who stands above a session that has a row after the call stood there before it. -/
theorem Shape.above_before {call : Call} {ledger : Ledger} {minted : Nat} {sid : SessionId}
    {row : Session} {frame : Frame} (shape : Shape env deployment world call ledger minted)
    (differs : sid ≠ env.token world.minted) (old : frame.sessionId ≠ env.token world.minted)
    (found : ledger.row sid = some row) (above : ledger.Above sid frame) :
    world.ledger.Above sid frame := by
  obtain ⟨there, rootEq, depthEq⟩ := above
  have standing : ledger.standing sid = world.ledger.standing sid := by
    rw [Ledger.standing, Ledger.standing, shape.frame_eq differs found]
  rw [standing] at rootEq depthEq
  exact ⟨shape.frame_kept old there, rootEq, depthEq⟩

/-- Who stood directly above another still does while both have a row. -/
theorem Shape.covers_after {call : Call} {ledger : Ledger} {minted : Nat} {lower upper : SessionId}
    {row other : Session} (shape : Shape env deployment world call ledger minted)
    (covers : world.ledger.Covers lower upper) (lowerOld : lower ≠ env.token world.minted)
    (upperOld : upper ≠ env.token world.minted) (lowerRow : ledger.row lower = some row)
    (upperRow : ledger.row upper = some other) : ledger.Covers lower upper := by
  rw [Ledger.Covers, ChainForest.Covers, ← Ledger.standing_places] at covers ⊢
  rw [Ledger.places, shape.frame_eq upperOld upperRow, Ledger.standing,
    shape.frame_eq lowerOld lowerRow]
  exact covers

theorem Shape.gone_above {call : Call} {ledger : Ledger} {minted : Nat} {lower : SessionId}
    {row : Session} {upper : Frame} (sound : world.Sound env)
    (shape : Shape env deployment world call ledger minted)
    (there : world.ledger.row lower = some row) (above : world.ledger.Above lower upper)
    (gone : ledger.row lower = none) :
    ledger.row upper.sessionId = none ∨ Orphans env deployment world call lower upper := by
  have old : ∀ {sid other}, world.ledger.row sid = some other → sid ≠ env.token world.minted := by
    rintro sid other found rfl
    exact Issued.not_next (sound.rowIssued found)
  have byCause : ∀ {after : Ledger} {removed : SessionId → Prop},
    world.ledger.Shrinks after removed →
      (removed lower → removed upper.sessionId ∨ Orphans env deployment world call lower upper) →
      after.row lower = none → after.row upper.sessionId = none ∨
        Orphans env deployment world call lower upper := by
    intro after removed shrinks cause missing
    have isRemoved : removed lower := by
      by_contra stays
      obtain ⟨new, found, -⟩ := shrinks.rowKept stays there
      simp [missing] at found
    exact (cause isRemoved).imp_left shrinks.rowGone
  obtain ⟨upperRow, upperFound⟩ := Option.isSome_iff_exists.mp (sound.housed above.1)
  cases shape with
  | shrunk shrinks cause grown => exact byCause shrinks (fun isGone => cause isGone above) gone
  | rooted makesRoom unowned =>
      rw [Ledger.setRow_row, if_neg (old there)] at gone
      rw [Ledger.setRow_row, if_neg (old upperFound)]
      exact byCause (Ledger.Shrinks.without _ _) (fun chosen => makesRoom.cause chosen above) gone
  | spawned spawns found bare shrinks owned placed =>
      rw [Ledger.setFrame_row, Ledger.setRow_row, if_neg (old there)] at gone
      rw [Ledger.setFrame_row, Ledger.setRow_row, if_neg (old upperFound)]
      exact byCause shrinks (fun chosen => (MakesRoom.spawned spawns).cause chosen above) gone

theorem Shape.minted_le {call : Call} {ledger : Ledger} {minted : Nat}
    (shape : Shape env deployment world call ledger minted) : world.minted ≤ minted := by
  cases shape with
  | shrunk shrinks cause grown => exact grown
  | rooted => exact Nat.le_succ _
  | spawned => exact Nat.le_succ _

theorem Shape.sound {call : Call} {ledger : Ledger} {minted : Nat} (sound : world.Sound env)
    (shape : Shape env deployment world call ledger minted) : ledger.Sound env minted := by
  have next : Issued env (world.minted + 1) (env.token world.minted) :=
    ⟨world.minted, by omega, rfl⟩
  cases shape with
  | shrunk shrinks cause grown => exact shrinks.sound sound grown
  | rooted makesRoom unowned =>
      have rest := (Ledger.Shrinks.without world.ledger (world.evicted env)).sound sound (Nat.le_succ _)
      refine ⟨rest.forest, ?_, ?_, rest.rootIssued, ?_⟩
      · intro sid frame found
        rw [Ledger.setRow_row]
        split
        · rfl
        · exact rest.housed found
      · intro sid row found
        rw [Ledger.setRow_row] at found
        split at found
        · rename_i same
          rw [same]
          exact next
        · exact rest.rowIssued found
      · intro sid row owner found owned
        rw [Ledger.setRow_row] at found
        split at found
        · rw [Option.some.injEq] at found
          rw [← found, unowned] at owned
          simp at owned
        · exact rest.ownerIssued found owned
  | @spawned base outer row frame above found bare shrinks owned placed =>
      have rest := shrinks.sound sound (le_refl world.minted)
      have outerIssued := sound.rowIssued found
      have apart : outer.sessionId ≠ env.token world.minted := by
        intro same
        rw [same] at outerIssued
        exact Issued.not_next outerIssued
      have uncovered : ∀ upper, ¬world.ledger.Covers outer.sessionId upper := by
        intro upper covers
        obtain ⟨frame, above, -⟩ := Ledger.covers_above covers fun _ => World.frame_sessionId
        exact bare frame above
      refine ⟨?_, ?_, ?_, ?_, ?_⟩
      · rw [Shape.spawned_places placed]
        refine rest.forest.push (shrinks.bare sound.forest uncovered) ?_ apart
        intro other root depth standsAt same
        obtain ⟨frame, there, rootEq, -⟩ := Ledger.places_some.mp standsAt
        have issued := rest.rootIssued there
        rw [rootEq, same] at issued
        exact Issued.not_next issued
      · intro sid other there
        simp only [Ledger.setFrame_row, Ledger.setRow_row]
        split
        · rfl
        · rename_i differs
          rw [Ledger.setFrame_frame, if_neg differs] at there
          exact rest.housed there
      · intro sid other there
        simp only [Ledger.setFrame_row, Ledger.setRow_row] at there
        split at there
        · rename_i same
          rw [same]
          exact next
        · exact (rest.rowIssued there).mono (Nat.le_succ _)
      · intro sid other there
        rw [Ledger.setFrame_frame] at there
        split at there
        · rw [Option.some.injEq] at there
          have rootEq : frame.rootSessionId = (base.standing outer.sessionId).1 :=
            congrArg Prod.fst placed
          rw [← there, rootEq]
          cases standsAt : base.frame outer.sessionId with
          | none =>
              rw [Ledger.standing_of_root standsAt]
              exact outerIssued.mono (Nat.le_succ _)
          | some below =>
              rw [Ledger.standing_of_frame standsAt]
              exact (rest.rootIssued standsAt).mono (Nat.le_succ _)
        · exact (rest.rootIssued there).mono (Nat.le_succ _)
      · intro sid other owner there ownedBy
        simp only [Ledger.setFrame_row, Ledger.setRow_row] at there
        split at there
        · rw [Option.some.injEq] at there
          rw [← there, owned, Option.some.injEq] at ownedBy
          rw [← ownedBy]
          exact outerIssued.mono (Nat.le_succ _)
        · exact (rest.ownerIssued there ownedBy).mono (Nat.le_succ _)

end Megalos
