import Megalos.RowChange

/-!
What a call leaves alone.  A submission touches the session it names and the one
below it; no other tool reaches further down.
-/

namespace Megalos

open ChainForest

structure Ledger.Spares (before after : Ledger) (spared : SessionId → Prop) : Prop where
  row : ∀ {sid}, spared sid → after.row sid = before.row sid
  frame : ∀ {sid}, spared sid → after.frame sid = before.frame sid

namespace Ledger.Spares

variable {before after : Ledger} {spared : SessionId → Prop} {target : SessionId}

theorem refl (ledger : Ledger) (spared : SessionId → Prop) :
    Spares ledger ledger spared := ⟨fun _ => rfl, fun _ => rfl⟩

theorem setRow (spares : Spares before after spared) (hit : ¬spared target) (row : Session) :
    Spares before (after.setRow target row) spared where
  row {sid} safe := by
    rw [setRow_row, if_neg]
    · exact spares.row safe
    · rintro rfl
      exact hit safe
  frame safe := spares.frame safe

theorem drop (spares : Spares before after spared) (hit : ¬spared target) :
    Spares before (after.drop target) spared where
  row {sid} safe := by
    rw [drop_row, if_neg]
    · exact spares.row safe
    · rintro rfl
      exact hit safe
  frame {sid} safe := by
    rw [drop_frame, if_neg]
    · exact spares.frame safe
    · rintro rfl
      exact hit safe

end Ledger.Spares

variable {env : Env} {deployment : Deployment} {world : World} {session : Session} {wf : Workflow}
  {idx : Nat} {step : Step} {content branch artifactId : String} {ledger : Ledger}

theorem Ledger.Parent.unique (forest : Forest ledger.places) {child parent other : SessionId}
    (owner : ledger.Parent child parent) (again : ledger.Parent child other) : parent = other :=
  forest.covers_lower ((parent_iff_covers forest).mp owner) ((parent_iff_covers forest).mp again)

section Submission

variable {start before : Ledger} {spared : SessionId → Prop} {sid : SessionId}

theorem Answered.spares {stepData : StepData} {verdict : Verdict}
    (answered : Answered env before sid session stepData verdict ledger) (own : ¬spared sid)
    (below : ∀ {parent}, before.Parent sid parent → ¬spared parent) :
    before.Spares ledger spared := by
  have moved : ∀ row, before.Spares (before.setRow sid row) spared :=
    (Ledger.Spares.refl before spared).setRow own
  cases answered with
  | settled calm changes unowned => exact moved _
  | failed fails changes wrapped =>
      cases wrapped with
      | root unowned => exact moved _
      | missing owner gone => exact moved _
      | escalated owner found escalates =>
        exact (moved _).setRow (below (Ledger.Parent.of_setRow.mp owner)) _

theorem Finished.spares {calls : Nat} {artifact : String} {frameType : FrameType}
    (finished : Finished env deployment before calls sid artifact frameType ledger)
    (forest : Forest before.places)
    (spares : start.Spares before spared) (own : ¬spared sid)
    (below : ∀ {parent}, before.Parent sid parent → ¬spared parent) :
    start.Spares ledger spared := by
  cases finished with
  | orphan unowned => exact spares
  | retained owner unresolved fresh => exact spares
  | unchecked owner resolves at_ call broken => exact spares
  | marked owner stale marks => exact spares.setRow (below owner) _
  | popped owner resolves => exact spares.drop own
  | drifted owner resolves off escalates => exact spares.setRow (below owner) _
  | rejected owner resolves at_ call invalid escalates => exact spares.setRow (below owner) _
  | delivered owner resolves at_ call valid applies =>
      rw [Ledger.dropAbove_drop forest ((Ledger.parent_iff_covers forest).mp owner)]
      exact (spares.drop own).setRow (below owner) _

theorem Submitted.spares (sound : world.Sound env)
    (submitted : Submitted env deployment world session wf idx step content branch artifactId ledger)
    (own : ¬spared session.sessionId)
    (below : ∀ {parent}, world.ledger.Parent session.sessionId parent → ¬spared parent) :
    world.ledger.Spares ledger spared := by
  cases submitted with
  | answered ends => exact ends.spares own below
  | finished reached atEnd moved framed finished =>
      refine finished.spares sound.forest ((Ledger.Spares.refl _ _).setRow own _) own ?_
      exact fun owner => below (Ledger.Parent.of_setRow.mp owner)

end Submission

/-! The chain of a session. -/

/-- The root of the session, or a session framed under that root. -/
def Ledger.InChain (ledger : Ledger) (sid other : SessionId) : Prop :=
  other = (ledger.standing sid).1 ∨
    ∃ frame, ledger.frame other = some frame ∧ frame.rootSessionId = (ledger.standing sid).1

namespace Ledger.InChain

variable {sid lower : SessionId}

theorem self (ledger : Ledger) (sid : SessionId) : ledger.InChain sid sid := by
  cases framed : ledger.frame sid with
  | none => exact .inl (by rw [standing_of_root framed])
  | some frame => exact .inr ⟨frame, framed, by rw [standing_of_frame framed]⟩

theorem of_parent (owner : ledger.Parent sid lower) : ledger.InChain sid lower := by
  obtain ⟨frame, framed, ⟨-, rfl⟩ | ⟨-, below, there, sameRoot, -⟩⟩ := owner
  · exact .inl (by rw [standing_of_frame framed])
  · exact .inr ⟨below, there, by rw [standing_of_frame framed]; exact sameRoot⟩

theorem of_above {frame : Frame} (above : ledger.Above sid frame) :
    ledger.InChain sid frame.sessionId :=
  .inr ⟨frame, above.1, above.2.1⟩

theorem of_resolving {call : Call} {passed : String} (passes : call.passed = some passed)
    (resolving : call.Resolving env ledger sid) :
    ledger.InChain (env.normalizeSessionId passed) sid := by
  obtain ⟨other, again, place⟩ := resolving
  rw [passes, Option.some.injEq] at again
  subst again
  rcases place with rfl | owner
  · exact self ledger _
  · exact of_parent owner

end Ledger.InChain

theorem Ledger.Spares.dropAbove {before after : Ledger} {spared : SessionId → Prop}
    {sid : SessionId} (spares : Spares before after spared)
    (hit : ∀ {other frame}, after.frame other = some frame →
      frame.rootSessionId = (after.standing sid).1 →
        ¬spared other) : Spares before (after.dropAbove sid) spared where
  row safe := spares.row safe
  frame {other} safe := by
    rw [← spares.frame safe]
    cases framed : after.frame other with
    | none => simp [Ledger.dropAbove, Ledger.dropAt, framed]
    | some frame =>
        refine (Ledger.dropAt_frame_some after).mpr ⟨framed, ?_⟩
        exact fun same => hit framed same.1 safe

theorem Grown.spares {outer : Session} {workflowType fingerprint : String} {childWf : Workflow}
    {frameType : FrameType}
    (grown : Grown env world outer workflowType childWf fingerprint frameType ledger)
    (room : world.evicted env = []) :
    world.ledger.Spares ledger fun sid => sid ≠ outer.sessionId ∧ sid ≠ env.token world.minted where
  row safe := by
    rw [grown.otherRows _ safe.2 (.inl safe.1), room]
    rfl
  frame safe := by
    rw [grown.otherFrames _ safe.2, room]
    rfl

theorem revisedChild_above {sid : SessionId} {target : Step} {frame : Frame}
    (child : revisedChild world sid target = some frame) : world.ledger.Above sid frame := by
  unfold revisedChild at child
  split at child
  · exact World.topFrameFor_some child
  · simp at child

/-- While there is room, a call spares every session outside the chain of the one it passes, but for
a new one. -/
theorem Effect.spares {call : Call} {passed : String} {minted : Nat} (sound : world.Sound env)
    (room : world.evicted env = []) (passes : call.passed = some passed)
    (effect : Effect env deployment world call ledger minted) :
    world.ledger.Spares ledger fun sid =>
      ¬world.ledger.InChain (env.normalizeSessionId passed) sid ∧ sid ≠ env.token world.minted := by
  have spawned : ∀ {outer : Session}, outer.sessionId = env.normalizeSessionId passed →
      world.ledger.Spares ledger (fun sid => sid ≠ outer.sessionId ∧ sid ≠ env.token world.minted) →
      world.ledger.Spares ledger fun sid =>
        ¬world.ledger.InChain (env.normalizeSessionId passed) sid ∧
          sid ≠ env.token world.minted := by
    intro outer isPassed spares
    have apart : ∀ {sid}, ¬world.ledger.InChain (env.normalizeSessionId passed) sid →
      sid ≠ outer.sessionId := by
      rintro sid outside rfl
      exact outside (isPassed ▸ Ledger.InChain.self _ _)
    exact ⟨fun safe => spares.row ⟨apart safe.1, safe.2⟩, fun safe =>
      spares.frame ⟨apart safe.1, safe.2⟩⟩
  cases effect with
  | idle grown => exact Ledger.Spares.refl _ _
  | marked stale marks resolving =>
      exact (Ledger.Spares.refl _ _).setRow (fun safe => safe.1 (.of_resolving passes resolving)) _
  | started => exact nomatch passes
  | submitted submits submitted =>
      obtain rfl := Option.some.inj passes
      have isPassed := submits.resolves.sessionId_eq
      refine submitted.spares sound (fun safe => safe.1 ?_) fun owner safe => safe.1 ?_
      · exact isPassed ▸ Ledger.InChain.self _ _
      · exact isPassed ▸ Ledger.InChain.of_parent owner
  | @revised sessionId stepId session new wf idx target revises moved =>
      obtain rfl := Option.some.inj passes
      have isPassed := revises.resolves.sessionId_eq
      have own : world.ledger.InChain (env.normalizeSessionId sessionId) session.sessionId :=
        isPassed ▸ Ledger.InChain.self _ _
      cases child : revisedChild world session.sessionId target with
      | none => exact (Ledger.Spares.refl _ _).setRow (fun safe => safe.1 own) _
      | some frame =>
          have above := revisedChild_above child
          refine Ledger.Spares.setRow ?_ (fun safe => safe.1 own) _
          refine ((Ledger.Spares.refl _ _).drop fun safe => safe.1 ?_).dropAbove ?_
          · intro other upper framed under safe
            rw [Ledger.drop_frame] at framed
            split at framed
            · simp at framed
            · refine safe.1 (.inr ⟨upper, framed, ?_⟩)
              have bottom : (world.ledger.drop frame.sessionId).frame session.sessionId = none := by
                simp [revises.root]
              rw [under, Ledger.standing_of_root bottom, ← isPassed,
                Ledger.standing_of_root revises.root]
          · exact isPassed ▸ Ledger.InChain.of_above above
  | entered spawns calls grown =>
      obtain rfl := Option.some.inj passes
      exact spawned spawns.resolves.sessionId_eq (grown.toGrown.spares room)
  | pushed spawns named shallow crowded grown =>
      obtain rfl := Option.some.inj passes
      exact spawned spawns.resolves.sessionId_eq (grown.toGrown.spares room)
  | popped pops =>
      obtain rfl := Option.some.inj passes
      obtain ⟨wf, resolves⟩ := pops.resolves
      refine (Ledger.Spares.refl _ _).drop fun safe => safe.1 ?_
      exact resolves.sessionId_eq ▸ Ledger.InChain.self _ _
  | deleted deletes =>
      obtain rfl := Option.some.inj passes
      refine (Ledger.Spares.refl _ _).drop fun safe => safe.1 ?_
      exact World.row_sessionId deletes.row ▸ Ledger.InChain.self _ _

end Megalos
