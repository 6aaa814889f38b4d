import Megalos.Locality
import Megalos.Sample

/-!
Bounded load: five active sessions, three frames above a root.  `start_workflow` and
`push_flow` look at the caps; `enter_sub_workflow` does not, and neither does a
call that takes a completed session back.
-/

namespace Megalos

open ChainForest KeyedTable

def World.Bounded (world : World) : Prop :=
  world.countActive ≤ activeCap ∧ ∀ root, world.stackDepth root ≤ maxStackDepth

/-- The store once `create_session` has made room for one more session. -/
def World.cleared (env : Env) (world : World) : World := world.withoutSessions (world.evicted env)

/-- The calls that no cap stops where one should: a child entered over a cap, or a completed session
that becomes active again while five are. -/
inductive Overloads (env : Env) (deployment : Deployment) (world : World) : Call → Prop
  | crowded {parentSessionId callStepId workflowType : String} {parent : Session}
      {parentWf childWf : Workflow}
      (spawns : Spawns env deployment world parentSessionId callStepId parent parentWf workflowType childWf)
      (calls : CallsInto env parent parentWf callStepId workflowType)
      (unfinished : childWf.first.id ≠ complete)
      (full : activeCap ≤ (world.cleared env).countActive) :
      Overloads env deployment world (.enterSubWorkflow parentSessionId callStepId)
  | deep {parentSessionId callStepId workflowType : String} {parent : Session}
      {parentWf childWf : Workflow}
      (spawns : Spawns env deployment world parentSessionId callStepId parent parentWf workflowType childWf)
      (calls : CallsInto env parent parentWf callStepId workflowType)
      (full : maxStackDepth ≤ (world.cleared env).stackDepth ((world.cleared env).standing parent.sessionId).1) :
      Overloads env deployment world (.enterSubWorkflow parentSessionId callStepId)
  | revised {sessionId stepId : String} {session : Session} {wf : Workflow} {idx : Nat}
      {target : Step}
      (revises : Revises env deployment world sessionId stepId session wf idx target)
      (done : session.currentStep = complete) (unfinished : target.id ≠ complete)
      (full : activeCap ≤ world.countActive) :
        Overloads env deployment world (.reviseStep sessionId stepId)
  | marked {call : Call} {sid : SessionId} {session : Session}
      (resolving : call.Resolving env world.ledger sid)
      (stale : GoesStale deployment world.ledger sid session)
      (done : session.currentStep = complete)
      (full : activeCap ≤ world.countActive) : Overloads env deployment world call
  | resumed {sessionId stepId content branch artifactId : String} {parentSid : SessionId}
      {parent : Session}
      (owner : world.ledger.Parent (env.normalizeSessionId sessionId) parentSid)
      (found : world.ledger.row parentSid = some parent) (done : parent.currentStep = complete)
      (full : activeCap ≤ world.countActive) :
      Overloads env deployment world (.submitStep sessionId stepId content branch artifactId)

theorem World.cleared_ledger (env : Env) (world : World) :
    (world.cleared env).ledger = world.ledger.without (world.evicted env) :=
  World.ledger_withoutSessions world _

/-! Counting sessions and frames by their ledger. -/

def Ledger.ActiveWithin (ledger : Ledger) (limit : Nat) : Prop :=
  ∀ world : World, world.ledger = ledger → world.countActive ≤ limit

theorem Ledger.activeWithin {ledger : Ledger} {base : World} {limit : Nat} (extra : List SessionId)
    (covered : ∀ sid row, ledger.row sid = some row → row.currentStep ≠ complete →
      sid ∈ extra ∨ ∃ old, base.ledger.row sid = some old ∧ old.currentStep ≠ complete)
    (room : base.countActive + extra.length ≤ limit) : ledger.ActiveWithin limit := by
  rintro world rfl
  refine le_trans (Table.select_length_le extra ?_) room
  intro sid row found active
  rcases covered sid row found (by simpa using active) with isExtra | ⟨old, there, wasActive⟩
  · exact .inl isExtra
  · exact .inr ⟨old, there, by simpa using wasActive⟩

def Ledger.DepthWithin (ledger : Ledger) (limit : Nat) : Prop :=
  ∀ world : World, world.ledger = ledger → ∀ root, world.stackDepth root ≤ limit

theorem Ledger.stackDepth_le {ledger : Ledger} {base world : World} {root : SessionId} {limit : Nat}
    (same : world.ledger = ledger) (extra : List SessionId)
    (covered : ∀ sid frame, ledger.frame sid = some frame → frame.rootSessionId = root →
      sid ∈ extra ∨ ∃ old, base.ledger.frame sid = some old ∧ old.rootSessionId = root)
    (room : base.stackDepth root + extra.length ≤ limit) : world.stackDepth root ≤ limit := by
  subst same
  refine le_trans (Table.select_length_le extra ?_) room
  intro sid frame found under
  rcases covered sid frame found (by simpa using under) with isExtra | ⟨old, there, wasUnder⟩
  · exact .inl isExtra
  · exact .inr ⟨old, there, by simpa using wasUnder⟩

variable {env : Env} {deployment : Deployment} {world : World} {call : Call}

theorem World.cleared_countActive_le (env : Env) (world : World) :
    (world.cleared env).countActive ≤ world.countActive := by
  have within : (world.ledger.without (world.evicted env)).ActiveWithin world.countActive := by
    refine Ledger.activeWithin [] ?_ (le_refl world.countActive)
    intro sid row found active
    rw [Ledger.without_row] at found
    split at found
    · simp at found
    · exact .inr ⟨row, found, active⟩
  exact within _ (World.cleared_ledger env world)

theorem World.cleared_stackDepth_le (env : Env) (world : World) (root : SessionId) :
    (world.cleared env).stackDepth root ≤ world.stackDepth root := by
  refine Ledger.stackDepth_le (World.cleared_ledger env world)
    [] ?_ (le_refl (world.stackDepth root))
  intro sid frame found under
  rw [Ledger.without_frame] at found
  split at found
  · simp at found
  · exact .inr ⟨frame, found, under⟩

/-! Active sessions, call by call. -/

variable {env : Env} {deployment : Deployment} {world : World} {call : Call} {sid : SessionId}
  {session new : Session} {ledger : Ledger}

theorem Ledger.activeWithin_setRow (new : Session) (found : world.ledger.row sid = some session)
    (within : world.countActive ≤ activeCap)
    (room : session.currentStep = complete → new.currentStep ≠ complete →
      world.countActive < activeCap)
    (kept : ∀ other row, other ≠ sid → ledger.row other = some row →
      world.ledger.row other = some row)
    (written : ledger.row sid = some new) : ledger.ActiveWithin activeCap := by
  by_cases returns : session.currentStep = complete ∧ new.currentStep ≠ complete
  · refine Ledger.activeWithin [sid] ?_ (room returns.1 returns.2)
    intro other row there active
    by_cases same : other = sid
    · exact .inl (by simp [same])
    · exact .inr ⟨row, kept other row same there, active⟩
  · refine Ledger.activeWithin [] ?_ within
    intro other row there active
    by_cases same : other = sid
    · subst same
      rw [written, Option.some.injEq] at there
      rw [← there] at active
      exact .inr ⟨session, found, fun done => returns ⟨done, active⟩⟩
    · exact .inr ⟨row, kept other row same there, active⟩

/-- A spawn adds one active session, or none when the child has nothing to do. -/
theorem Grown.activeWithin {outer : Session} {workflowType fingerprint : String}
    {childWf : Workflow} {frameType : FrameType}
    (grown : Grown env world outer workflowType childWf fingerprint frameType ledger)
    (within : world.countActive ≤ activeCap)
    (room : childWf.first.id ≠ complete → (world.cleared env).countActive < activeCap) :
    ledger.ActiveWithin activeCap := by
  obtain ⟨now, child, childRow, counts⟩ := grown.child
  have others : ∀ {other row}, other ≠ env.token world.minted → ledger.row other = some row →
      row.currentStep ≠ complete →
      ∃ old, (world.cleared env).ledger.row other = some old ∧ old.currentStep ≠ complete := by
    intro other row differs there active
    rw [World.cleared_ledger]
    by_cases isOuter : other = outer.sessionId
    · subst isOuter
      cases before : (world.ledger.without (world.evicted env)).row outer.sessionId with
      | none =>
          rw [grown.otherRows _ differs (.inr before), before] at there
          simp at there
      | some old =>
          obtain ⟨linked, foundLinked, same⟩ := grown.outerRow old before
          rw [there, Option.some.injEq] at foundLinked
          subst foundLinked
          exact ⟨old, rfl, same.currentStep_eq ▸ active⟩
    · exact ⟨row, grown.otherRows other differs (.inl isOuter) ▸ there, active⟩
  by_cases idle : childWf.first.id = complete
  · refine Ledger.activeWithin [] ?_ (le_trans (World.cleared_countActive_le env world) within)
    intro other row there active
    by_cases isChild : other = env.token world.minted
    · rw [isChild, childRow, Option.some.injEq] at there
      rw [← there, counts.currentStep_eq] at active
      exact absurd idle active
    · exact .inr (others isChild there active)
  · refine Ledger.activeWithin [env.token world.minted] ?_ (room idle)
    intro other row there active
    by_cases isChild : other = env.token world.minted
    · exact .inl (by simp [isChild])
    · exact .inr (others isChild there active)

theorem Submitted.activeWithin {sessionId stepId content branch artifactId : String} {wf : Workflow}
    {idx : Nat} {step : Step} (sound : world.Sound env)
    (submits : Submits env deployment world sessionId stepId content session wf idx step)
    (submitted : Submitted env deployment world session wf idx step content branch artifactId ledger)
    (light : ¬Overloads env deployment world (.submitStep sessionId stepId content branch artifactId))
    (within : world.countActive ≤ activeCap) : ledger.ActiveWithin activeCap := by
  have sameId := submits.resolves.sessionId_eq
  have old : ∀ {other row}, ledger.row other = some row →
    ∃ before, world.ledger.row other = some before := by
    intro other row there
    rcases submitted.rowEffect sound submits there with ⟨before, found, -⟩ | ⟨-, birth⟩
    · exact ⟨before, found⟩
    · cases birth with
      | spawned above => cases above
  have elsewhere : ∀ {other}, other ≠ session.sessionId →
    ¬world.ledger.Parent session.sessionId other →
      ledger.row other = world.ledger.row other := by
    intro other apart stranger
    have spares : world.ledger.Spares ledger fun sid =>
        sid ≠ session.sessionId ∧ ¬world.ledger.Parent session.sessionId sid :=
      submitted.spares sound (fun safe => safe.1 rfl) fun owner safe => safe.2 owner
    exact spares.row ⟨apart, stranger⟩
  have own : ∃ old, world.ledger.row session.sessionId = some old ∧ old.currentStep ≠ complete :=
    ⟨session, by rw [sameId]; exact submits.resolves.row, submits.accepts.unfinished⟩
  -- of the sessions that change, only the one below can be completed before
  by_cases below : ∃ parent row, world.ledger.Parent session.sessionId parent ∧
      world.ledger.row parent = some row ∧ row.currentStep = complete
  · obtain ⟨parent, row, owner, found, done⟩ := below
    have room : world.countActive < activeCap := by
      by_contra full
      exact light (.resumed (sameId ▸ owner) found done (Nat.le_of_not_lt full))
    refine Ledger.activeWithin [parent] ?_ room
    intro other otherRow there active
    by_cases isParent : other = parent
    · exact .inl (by simp [isParent])
    · by_cases isOwn : other = session.sessionId
      · exact .inr (isOwn ▸ own)
      · refine .inr ⟨otherRow, ?_, active⟩
        rw [← elsewhere isOwn fun again => isParent (again.unique sound.forest owner)]
        exact there
  · refine Ledger.activeWithin [] ?_ within
    intro other otherRow there active
    by_cases isOwn : other = session.sessionId
    · exact .inr (isOwn ▸ own)
    · by_cases isParent : world.ledger.Parent session.sessionId other
      · obtain ⟨before, found⟩ := old there
        exact .inr ⟨before, found, fun done => below ⟨other, before, isParent, found, done⟩⟩
      · exact .inr ⟨otherRow, elsewhere isOwn isParent ▸ there, active⟩

theorem Ledger.activeWithin_drop (within : world.countActive ≤ activeCap) :
    (world.ledger.drop sid).ActiveWithin activeCap := by
  refine Ledger.activeWithin [] ?_ within
  intro other row there active
  rw [Ledger.drop_row] at there
  split at there
  · simp at there
  · exact .inr ⟨row, there, active⟩

/-- The rows that a revision leaves, the revised one apart, were there before. -/
theorem Ledger.afterRevision_row {child : Option Frame} {other : SessionId} {row : Session}
    (found : (ledger.afterRevision sid child).row other = some row) :
    ledger.row other = some row := by
  cases child with
  | none => exact found
  | some frame =>
      rw [Ledger.afterRevision, Ledger.dropAbove, Ledger.dropAt_row, Ledger.drop_row] at found
      split at found
      · simp at found
      · exact found

theorem Effect.activeWithin {minted : Nat} (sound : world.Sound env)
    (effect : Effect env deployment world call ledger minted) (light : ¬Overloads env deployment world call)
    (within : world.countActive ≤ activeCap) : ledger.ActiveWithin activeCap := by
  cases effect with
  | idle grown => exact Ledger.activeWithin [] (fun _ row there active => .inr ⟨row, there, active⟩) within
  | @marked _ sid session new stale marks resolving =>
      refine Ledger.activeWithin_setRow new stale.row within ?_ ?_ (by simp)
      · intro done _
        by_contra full
        exact light (.marked resolving stale done (Nat.le_of_not_lt full))
      · intro other row differs there
        rwa [Ledger.setRow_row, if_neg differs] at there
  | @started workflowType context wf now new named loaded room unused opened =>
      refine Ledger.activeWithin [env.token world.minted] ?_
        (lt_of_le_of_lt (World.cleared_countActive_le env world) room)
      intro other row there active
      rw [Ledger.setRow_row] at there
      split at there
      · rename_i isFresh
        exact .inl (by simp [isFresh])
      · exact .inr ⟨row, World.cleared_ledger env world ▸ there, active⟩
  | submitted submits submitted => exact submitted.activeWithin sound submits light within
  | @revised sessionId stepId session new wf idx target revises moved =>
      have row : world.ledger.row session.sessionId = some session := by
        rw [revises.resolves.sessionId_eq]
        exact revises.resolves.row
      refine Ledger.activeWithin_setRow new row within ?_ ?_ (by simp)
      · intro done active
        by_contra full
        exact light (.revised revises done (moved.currentStep_eq ▸ active) (Nat.le_of_not_lt full))
      · intro other row differs there
        rw [Ledger.setRow_row, if_neg differs] at there
        exact Ledger.afterRevision_row there
  | entered spawns calls spawned =>
      refine spawned.toGrown.activeWithin within ?_
      intro unfinished
      by_contra full
      exact light (.crowded spawns calls unfinished (Nat.le_of_not_lt full))
  | pushed spawns named shallow room spawned =>
      exact spawned.toGrown.activeWithin within fun _ =>
        lt_of_le_of_lt (World.cleared_countActive_le env world) room
  | popped pops => exact Ledger.activeWithin_drop within
  | deleted deletes => exact Ledger.activeWithin_drop within

/-! Frames above a root, call by call. -/

theorem World.Sound.stackDepth_of_framed {frame : Frame} (sound : world.Sound env)
    (framed : world.ledger.frame sid = some frame) : world.stackDepth sid = 0 := by
  refine Nat.le_zero.mp (Ledger.stackDepth_le rfl [] ?_ (show World.empty.stackDepth sid + 0 ≤ 0 from le_refl 0))
  intro other above found under
  have free := sound.forest.rootFree (Ledger.places_of_frame found)
  rw [under, Ledger.places_none, framed] at free
  simp at free

/-- The depth that `push_flow` checks is the one above which it inserts, evictions or not. -/
theorem World.cleared_shallow (sound : world.Sound env)
    (shallow : world.stackDepth (world.standing sid).1 < maxStackDepth) :
    (world.cleared env).stackDepth ((world.cleared env).standing sid).1 < maxStackDepth := by
  refine lt_of_le_of_lt (World.cleared_stackDepth_le env world _) ?_
  rw [← World.ledger_standing] at shallow ⊢
  have cleared := World.cleared_ledger env world
  cases framed : world.ledger.frame sid with
  | none =>
      have still : (world.cleared env).ledger.frame sid = none := by simp [cleared, framed]
      rw [Ledger.standing_of_root framed] at shallow
      rw [Ledger.standing_of_root still]
      exact shallow
  | some frame =>
      by_cases chosen : sid ∈ world.evicted env
      · have gone : (world.cleared env).ledger.frame sid = none := by simp [cleared, chosen]
        rw [Ledger.standing_of_root gone, sound.stackDepth_of_framed framed]
        decide
      · have still : (world.cleared env).ledger.frame sid = some frame :=
          by simp [cleared, chosen, framed]
        rw [Ledger.standing_of_frame framed] at shallow
        rw [Ledger.standing_of_frame still]
        exact shallow

theorem Shape.depthWithin {minted : Nat} (sound : world.Sound env)
    (shape : Shape env deployment world call ledger minted)
    (light : ¬Overloads env deployment world call)
    (within : ∀ root, world.stackDepth root ≤ maxStackDepth) :
    ledger.DepthWithin maxStackDepth := by
  intro after same root
  cases shape with
  | shrunk shrinks cause grown =>
      refine Ledger.stackDepth_le same [] ?_ (within root)
      exact fun sid frame found under => .inr ⟨frame, (shrinks.frame_of_after found).2, under⟩
  | rooted makesRoom unowned =>
      refine Ledger.stackDepth_le same [] ?_ (le_trans (World.cleared_stackDepth_le env world root) (within root))
      exact fun sid frame found under => .inr ⟨frame, World.cleared_ledger env world ▸ found, under⟩
  | @spawned base outer row frame above found bare shrinks owned placed =>
      have baseFrame : base.frame = (world.cleared env).ledger.frame := by
        funext sid
        rw [World.cleared_ledger, Ledger.without_frame]
        split
        · exact shrinks.frameGone ‹_›
        · exact shrinks.frameKept ‹_›
      have standing : base.standing outer.sessionId =
        (world.cleared env).standing outer.sessionId := by
        rw [Ledger.standing, baseFrame]
        rfl
      have others : ∀ {sid other}, sid ≠ env.token world.minted →
          ((base.setRow (env.token world.minted) row).setFrame (env.token world.minted) frame).frame sid = some other →
          (world.cleared env).ledger.frame sid = some other := by
        intro sid other differs there
        rwa [Ledger.setFrame_frame, if_neg differs, Ledger.setRow_frame, baseFrame] at there
      by_cases own : root = ((world.cleared env).standing outer.sessionId).1
      · have room : (world.cleared env).stackDepth root < maxStackDepth := by
          rw [own]
          generalize outer.sessionId = below at above ⊢
          cases above with
          | entered spawns calls =>
              by_contra full
              exact light (.deep spawns calls (Nat.le_of_not_lt full))
          | pushed spawns named shallow crowded => exact World.cleared_shallow sound shallow
        refine Ledger.stackDepth_le same [env.token world.minted] ?_ room
        intro sid other there under
        by_cases isFresh : sid = env.token world.minted
        · exact .inl (by simp [isFresh])
        · exact .inr ⟨other, others isFresh there, under⟩
      · refine Ledger.stackDepth_le same [] ?_ (le_trans (World.cleared_stackDepth_le env world root) (within root))
        intro sid other there under
        by_cases isFresh : sid = env.token world.minted
        · rw [isFresh, Ledger.setFrame_frame, if_pos rfl, Option.some.injEq] at there
          refine absurd ?_ own
          rw [← under, ← there, ← standing]
          exact congrArg Prod.fst placed
        · exact .inr ⟨other, others isFresh there, under⟩

theorem Serves.keepsBounded {request : Request} {before after : World} (sound : before.Sound env)
    (serves : Serves env before request after)
    (light : ¬Overloads env request.deployment before request.call)
    (bounded : before.Bounded) : after.Bounded :=
  ⟨(serves.effect sound).activeWithin sound light bounded.1 after rfl,
    (serves.shape sound).depthWithin sound light bounded.2 after rfl⟩

/-- The load stays bounded in every run without a call that goes over a cap. -/
theorem Reachable.bounded
    (reachable : Reachable env (fun state request =>
      ¬Overloads env request.deployment state request.call) world) :
    world.Bounded :=
  reachable.invariant World.Bounded ⟨Nat.zero_le _, fun _ => Nat.zero_le _⟩
    fun _ _ _ sound bounded light serves => serves.keepsBounded sound light bounded

theorem not_overloads_of_room (room : world.countActive < activeCap)
    (shallow : world.sessionStack.size < maxStackDepth) : ¬Overloads env deployment world call := by
  have short : ∀ root, world.stackDepth root < maxStackDepth :=
    fun root => lt_of_le_of_lt (List.length_filter_le _ _) shallow
  intro overloads
  cases overloads with
  | crowded spawns calls unfinished full =>
      exact absurd (lt_of_le_of_lt (World.cleared_countActive_le env world) room)
        (Nat.not_lt_of_le full)
  | deep spawns calls full =>
      exact absurd (lt_of_le_of_lt (World.cleared_stackDepth_le env world _) (short _))
        (Nat.not_lt_of_le full)
  | revised revises done unfinished full => exact absurd room (Nat.not_lt_of_le full)
  | marked resolving stale done full => exact absurd room (Nat.not_lt_of_le full)
  | resumed owner found done full => exact absurd room (Nat.not_lt_of_le full)

theorem bounded_entered :
    (serveAll sampleEnv (appOf sampleEnv nestedDocs) World.empty
      [.startWorkflow "outer" "", .enterSubWorkflow "s" "a"]).Bounded := by
  refine Reachable.bounded (serveAll_run (by rfl) ⟨?_, ?_, trivial⟩)
  · exact not_overloads_of_room (by decide) (by decide)
  · exact not_overloads_of_room (by decide) (by decide)

/-- Three digressions above a root, a fifth session elsewhere, and then a call entered on top. -/
def enteredOver : World :=
  serveAll sampleEnv (appOf sampleEnv nestedDocs) World.empty
    [.startWorkflow "inner" "", .startWorkflow "outer" "", .pushFlow "ss" "outer" "a" "",
      .pushFlow "sss" "outer" "a" "", .pushFlow "ssss" "outer" "a" "", .enterSubWorkflow "sssss" "a"]

/-- Five sessions active beside a completed one, and then the completed one revised. -/
def revisedOver : World :=
  serveAll sampleEnv (appOf sampleEnv nestedDocs) World.empty
    [.startWorkflow "inner" "", .submitStep "s" "x" "done" "" "", .startWorkflow "inner" "",
      .startWorkflow "inner" "", .startWorkflow "inner" "", .startWorkflow "inner" "",
      .startWorkflow "inner" "", .reviseStep "s" "x"]

theorem not_always_bounded :
    (¬∀ env deployment world, deployment.Accepted env → ServedBy env deployment world →
      world.countActive ≤ activeCap) ∧
    ¬∀ env deployment world, deployment.Accepted env → ServedBy env deployment world →
      ∀ root, world.stackDepth root ≤ maxStackDepth := by
  refine ⟨?_, ?_⟩
  · intro always
    have within : revisedOver.countActive ≤ activeCap :=
      always _ _ _ (appOf_accepted (by decide)) (serveAll_served (by rfl))
    have six : revisedOver.countActive = 6 := by rfl
    exact absurd within (by rw [six]; decide)
  · intro always
    have within : enteredOver.stackDepth (sampleToken 1) ≤ maxStackDepth :=
      always _ _ _ (appOf_accepted (by decide)) (serveAll_served (by rfl)) _
    have four : enteredOver.stackDepth (sampleToken 1) = 4 := by rfl
    exact absurd within (by rw [four]; decide)

end Megalos
