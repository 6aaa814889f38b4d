import Megalos.Sample

/-!
The stack table over whole runs.  Frames and rows agree, every chain has a root and
no gap, as long as no call leaves a frame behind above a session it removes.
-/

namespace Megalos

open ChainForest GuardedRuns KeyedTable StatefulProgram StatefulProgram.Program

variable {env : Env} {deployment : Deployment} {world : World}

/-- The call leaves a frame, or puts one, above a session that it removes. -/
def Severs (env : Env) (deployment : Deployment) (world : World) (call : Call) : Prop :=
  (∃ lower upper, Orphans env deployment world call lower upper) ∨
    ∃ outer, SpawnsAbove env deployment world call outer ∧ outer ∈ world.evicted env

structure Ledger.Rooted (ledger : Ledger) : Prop where
  supported : Supported ledger.places
  rootHoused : ∀ {sid frame}, ledger.frame sid = some frame →
    (ledger.row frame.rootSessionId).isSome

theorem Ledger.Shrinks.rooted {before after : Ledger} {gone : SessionId → Prop}
    (shrinks : before.Shrinks after gone) (forest : Forest before.places) (rooted : before.Rooted)
    (closed : ∀ {lower upper}, gone lower → before.Covers lower upper → gone upper) :
    after.Rooted where
  supported := by
    classical
    rw [shrinks.places_eq]
    exact Supported.remove rooted.supported fun _ isGone covers => closed isGone covers
  rootHoused {sid frame} found := by
    obtain ⟨stays, there⟩ := shrinks.frame_of_after found
    obtain ⟨row, house⟩ := Option.isSome_iff_exists.mp (rooted.rootHoused there)
    have rootStays : ¬gone frame.rootSessionId := fun isGone =>
      stays (Supported.of_root rooted.supported forest closed isGone frame.depth (Ledger.places_of_frame there))
    obtain ⟨new, foundNew, -⟩ := shrinks.rowKept rootStays house
    simp [foundNew]

theorem World.closed_of_cause {gone : SessionId → Prop} {call : Call}
    (whole : ¬Severs env deployment world call)
    (cause : ∀ {lower upper}, gone lower → world.ledger.Above lower upper →
      gone upper.sessionId ∨
        Orphans env deployment world call lower upper) {lower upper : SessionId}
    (isGone : gone lower) (covers : world.ledger.Covers lower upper) : gone upper := by
  obtain ⟨frame, above, rfl⟩ := Ledger.covers_above covers fun _ => World.frame_sessionId
  rcases cause isGone above with upperGone | orphans
  · exact upperGone
  · exact absurd (.inl ⟨lower, frame, orphans⟩) whole

theorem Shape.keepsRooted {call : Call} {ledger : Ledger} {minted : Nat} (sound : world.Sound env)
    (shape : Shape env deployment world call ledger minted)
    (whole : ¬Severs env deployment world call)
    (rooted : world.ledger.Rooted) : ledger.Rooted := by
  cases shape with
  | shrunk shrinks cause grown =>
      exact shrinks.rooted sound.forest rooted (World.closed_of_cause whole cause)
  | rooted makesRoom unowned =>
      have rest := (Ledger.Shrinks.without world.ledger (world.evicted env)).rooted sound.forest rooted
        (World.closed_of_cause whole makesRoom.cause)
      refine ⟨rest.supported, ?_⟩
      intro sid frame found
      rw [Ledger.setRow_row]
      split
      · rfl
      · exact rest.rootHoused found
  | @spawned base outer row frame above found bare shrinks owned placed =>
      have rest := shrinks.rooted sound.forest rooted
        (World.closed_of_cause whole (MakesRoom.spawned above).cause)
      have kept : outer.sessionId ∉ world.evicted env :=
        fun chosen => whole (.inr ⟨_, above, chosen⟩)
      obtain ⟨outerRow, outerFound, -⟩ := shrinks.rowKept kept found
      have fresh : base.places (env.token world.minted) = none := by
        rw [Ledger.places_none]
        cases framed : base.frame (env.token world.minted) with
        | none => rfl
        | some other =>
            obtain ⟨house, there⟩ := Option.isSome_iff_exists.mp
              ((shrinks.sound sound (le_refl _)).housed framed)
            exact absurd ((shrinks.sound sound (le_refl _)).rowIssued there) Issued.not_next
      refine ⟨?_, ?_⟩
      · rw [Shape.spawned_places placed]
        exact Supported.push rest.supported fresh
      · intro sid other there
        have rowOf : ∀ {root}, (base.row root).isSome →
            (((base.setRow (env.token world.minted) row).setFrame (env.token world.minted) frame).row
              root).isSome := by
          intro root house
          simp only [Ledger.setFrame_row, Ledger.setRow_row]
          split
          · rfl
          · exact house
        refine rowOf ?_
        rw [Ledger.setFrame_frame] at there
        split at there
        · rw [Option.some.injEq] at there
          have rootEq : frame.rootSessionId = (base.standing outer.sessionId).1 :=
            congrArg Prod.fst placed
          rw [← there, rootEq]
          cases standsAt : base.frame outer.sessionId with
          | none =>
              rw [Ledger.standing_of_root standsAt, outerFound]
              rfl
          | some below =>
              rw [Ledger.standing_of_frame standsAt]
              exact rest.rootHoused standsAt
        · exact rest.rootHoused there

/-- The stack is well formed: what the tables promise to the tools that read them. -/
structure World.WellStacked (world : World) : Prop where
  housed : ∀ frame ∈ world.sessionStack.rows, (world.sessions.lookup frame.sessionId).isSome
  rooted : ∀ frame ∈ world.sessionStack.rows,
    (world.sessions.lookup frame.rootSessionId).isSome ∧ world.ownFrame frame.rootSessionId = none
  contiguous : ∀ root,
    ((world.sessionStack.select fun frame => frame.rootSessionId = root).map Frame.depth).Perm
    (List.range' 1 (world.stackDepth root))
  parented : ∀ sid, (world.ownFrame sid).isSome →
    ∃ parent, world.parentOf sid = some parent ∧ (world.sessions.lookup parent).isSome

theorem World.depths_nodup (sound : world.Sound env) (root : SessionId) :
    ((world.sessionStack.select fun frame =>
      frame.rootSessionId = root).map Frame.depth).Nodup := by
  refine List.Nodup.map_on ?_ ((List.Nodup.of_map _ world.sessionStack.keysNodup).filter _)
  intro first isFirst second isSecond sameDepth
  obtain ⟨memberFirst, rootFirst⟩ := List.mem_filter.mp isFirst
  obtain ⟨memberSecond, rootSecond⟩ := List.mem_filter.mp isSecond
  have foundFirst : world.ledger.frame first.sessionId = some first :=
    Table.lookup_of_mem memberFirst
  have foundSecond : world.ledger.frame second.sessionId = some second :=
    Table.lookup_of_mem memberSecond
  have sameRoot : first.rootSessionId = second.rootSessionId := by
    rw [decide_eq_true_eq] at rootFirst rootSecond
    rw [rootFirst, rootSecond]
  have sameId := sound.forest.single (Ledger.places_of_frame foundFirst)
    (by rw [Ledger.places_of_frame foundSecond, sameRoot, sameDepth])
  rw [sameId, foundSecond, Option.some.injEq] at foundFirst
  exact foundFirst.symm

theorem World.depth_mem {root : SessionId} {depth : Nat} :
    depth ∈ (world.sessionStack.select fun frame => frame.rootSessionId = root).map Frame.depth ↔
      ∃ sid, world.ledger.places sid = some (root, depth) := by
  constructor
  · intro member
    obtain ⟨frame, selected, rfl⟩ := List.mem_map.mp member
    obtain ⟨isRow, rootEq⟩ := List.mem_filter.mp selected
    rw [decide_eq_true_eq] at rootEq
    refine ⟨frame.sessionId, ?_⟩
    rw [Ledger.places_of_frame (Table.lookup_of_mem isRow), rootEq]
  · rintro ⟨sid, placed⟩
    obtain ⟨frame, found, rootEq, depthEq⟩ := Ledger.places_some.mp placed
    refine List.mem_map.mpr ⟨frame, List.mem_filter.mpr ⟨Table.lookup_mem found, ?_⟩, depthEq⟩
    simpa using rootEq

theorem World.wellStacked_of_rooted (sound : world.Sound env) (rooted : world.ledger.Rooted) :
    world.WellStacked where
  housed frame member := sound.housed (Table.lookup_of_mem member)
  rooted frame member := by
    have found : world.ledger.frame frame.sessionId = some frame := Table.lookup_of_mem member
    exact ⟨rooted.rootHoused found,
      Ledger.places_none.mp (sound.forest.rootFree (Ledger.places_of_frame found))⟩
  contiguous root := by
    have perm := perm_range' (world.depths_nodup sound root) ?_ ?_
    · rwa [List.length_map] at perm
    · intro depth member
      obtain ⟨sid, placed⟩ := World.depth_mem.mp member
      exact sound.forest.positive placed
    · intro depth member
      obtain ⟨sid, placed⟩ := World.depth_mem.mp member
      exact World.depth_mem.mpr (rooted.supported placed)
  parented sid framed := by
    obtain ⟨frame, found⟩ := Option.isSome_iff_exists.mp framed
    have placed : world.ledger.places sid = some (frame.rootSessionId, frame.depth) :=
      Ledger.places_of_frame found
    obtain ⟨parent, covers⟩ := Supported.covered rooted.supported sound.forest placed
    refine ⟨parent, World.parentOf_of_covers sound.forest covers, ?_⟩
    cases standsAt : world.ledger.frame parent with
    | some below => exact sound.housed standsAt
    | none =>
        rw [ChainForest.Covers, placed, standing_root (Ledger.places_none.mpr standsAt)] at covers
        have rootEq : frame.rootSessionId = parent := congrArg Prod.fst (Option.some.inj covers)
        rw [← rootEq]
        exact rooted.rootHoused found

/-- In a run that severs nothing, the stack is well formed throughout. -/
theorem Reachable.wellStacked
    (reachable : Reachable env (fun world request =>
      ¬Severs env request.deployment world request.call) world) :
    world.WellStacked := by
  have rooted : world.ledger.Rooted := by
    refine reachable.invariant (fun state => state.ledger.Rooted) ⟨?_, ?_⟩ ?_
    · intro node root depth placed
      exact nomatch placed
    · intro sid frame found
      exact nomatch found
    · intro before request after sound rooted whole serves
      exact (serves.shape sound).keepsRooted sound whole rooted
  exact World.wellStacked_of_rooted reachable.sound rooted

theorem not_severs_of_room {call : Call} (room : world.evicted env = [])
    (creates : ∀ {sid}, Removes env deployment world call sid → sid ∈ world.evicted env) :
    ¬Severs env deployment world call := by
  rintro (⟨lower, upper, orphans⟩ | ⟨outer, above, chosen⟩)
  · exact Orphans.not_of_room room creates orphans
  · simp [room] at chosen

def pushDocs : List Val := [
  workflowDoc "outer" [stepDoc "a" [], stepDoc "b" []],
  workflowDoc "side" [stepDoc "x" [], stepDoc "y" []]]

theorem wellStacked_pushed :
    (serveAll sampleEnv (appOf sampleEnv pushDocs) World.empty
      [.startWorkflow "outer" "", .pushFlow "s" "side" "a" ""]).WellStacked := by
  refine Reachable.wellStacked (serveAll_run (by rfl) ⟨?_, ?_, trivial⟩)
  · exact not_severs_of_room (by rfl) Removes.of_start
  · exact not_severs_of_room (by rfl) Removes.of_push

def abandoned : World :=
  serveAll sampleEnv (appOf sampleEnv pushDocs) World.empty
    [.startWorkflow "outer" "", .pushFlow "s" "side" "a" "", .deleteSession "s"]

/-- Deleting the outer session of a digression leaves a frame without a root. -/
theorem not_always_wellStacked :
    ¬∀ env deployment world, deployment.Accepted env → ServedBy env deployment world →
      world.WellStacked := by
  intro always
  have stacked : abandoned.WellStacked :=
    always _ _ _ (appOf_accepted (by decide)) (serveAll_served (by rfl))
  have rootless : (abandoned.sessionStack.rows.all fun frame =>
      (abandoned.sessions.lookup frame.rootSessionId).isSome) = false := by rfl
  have rooted : (abandoned.sessionStack.rows.all fun frame =>
      (abandoned.sessions.lookup frame.rootSessionId).isSome) = true :=
    List.all_eq_true.mpr fun frame member => (stacked.rooted frame member).1
  rw [rooted] at rootless
  exact Bool.noConfusion rootless

/-! Teardown by `delete_session`. -/

/-- The chain of a root: the root, and every session framed under it. -/
def World.InChain (world : World) (root sid : SessionId) : Prop :=
  sid = root ∨ ∃ frame, world.ownFrame sid = some frame ∧ frame.rootSessionId = root

/-- No row of the chain is left, and the rows of other chains are as they were. -/
structure World.TornDown (before after : World) (root : SessionId) : Prop where
  gone : ∀ sid, before.InChain root sid → after.sessions.lookup sid = none ∧
    after.ownFrame sid = none
  kept : ∀ sid, ¬before.InChain root sid →
    after.sessions.lookup sid = before.sessions.lookup sid ∧
      after.ownFrame sid = before.ownFrame sid

/-- A successful `delete_session` tears the chain down exactly when no frame stands on the root. -/
theorem deleteSession_tornDown_iff {after : World} {sessionId : String} {response : Val}
    (ran : (callTool env deployment (.deleteSession sessionId)).run world = (.ok response, after))
    (succeeded : response.isError = false) :
    world.TornDown after (env.normalizeSessionId sessionId) ↔
      ∀ sid frame, world.ownFrame sid = some frame →
        frame.rootSessionId ≠ env.normalizeSessionId sessionId := by
  obtain ⟨answer, same, effect⟩ := (wp_deleteSession sessionId).elim ran
  rw [Except.ok.injEq] at same
  subst same
  cases effect with
  | refused closed failed => simp [failed] at succeeded
  | @deleted session _ _ deletes _ reaches =>
      have sameId : session.sessionId = env.normalizeSessionId sessionId :=
        World.row_sessionId deletes.row
      have rows : ∀ sid, after.sessions.lookup sid =
          if sid = env.normalizeSessionId sessionId then none else world.sessions.lookup sid := by
        intro sid
        have dropped : after.ledger.row sid = (world.ledger.drop session.sessionId).row sid := by
          rw [reaches.ledger_eq]
        rw [Ledger.drop_row, sameId] at dropped
        exact dropped
      have frames : ∀ sid, after.ownFrame sid =
          if sid = env.normalizeSessionId sessionId then none else world.ownFrame sid := by
        intro sid
        have dropped : after.ledger.frame sid =
          (world.ledger.drop session.sessionId).frame sid := by
          rw [reaches.ledger_eq]
        rw [Ledger.drop_frame, sameId] at dropped
        exact dropped
      have root : world.ownFrame (env.normalizeSessionId sessionId) = none := by
        rw [← sameId]
        exact deletes.root
      constructor
      · intro torn sid frame found under
        have left := (torn.gone sid (.inr ⟨frame, found, under⟩)).2
        rw [frames, if_neg, found] at left
        · simp at left
        · rintro rfl
          simp [root] at found
      · intro alone
        refine ⟨?_, ?_⟩
        · rintro sid (rfl | ⟨frame, found, under⟩)
          · simp [rows, frames]
          · exact absurd under (alone sid frame found)
        · intro sid other
          have differs : sid ≠ env.normalizeSessionId sessionId := fun same => other (.inl same)
          simp [rows, frames, differs]

def loneRoot : World :=
    serveAll sampleEnv (appOf sampleEnv pushDocs) World.empty [.startWorkflow "outer" ""]

def deletedRoot : Except Exn Val × World :=
  (callTool sampleEnv (appOf sampleEnv pushDocs) (.deleteSession "s")).run loneRoot

theorem tornDown_alone : loneRoot.TornDown deletedRoot.2 (sampleEnv.normalizeSessionId "s") := by
  have ran : (callTool sampleEnv (appOf sampleEnv pushDocs) (.deleteSession "s")).run loneRoot =
      (.ok (returned deletedRoot), deletedRoot.2) := by rfl
  refine (deleteSession_tornDown_iff ran (by rfl)).mpr ?_
  intro sid frame found
  have none : loneRoot.sessionStack.rows = [] := by rfl
  simp [World.ownFrame, Table.lookup, none] at found

theorem delete_not_always_tornDown :
    ¬∀ env deployment world sessionId response after, deployment.Accepted env →
      ServedBy env deployment world →
      (callTool env deployment (.deleteSession sessionId)).run world = (.ok response, after) →
      response.isError = false → world.TornDown after (env.normalizeSessionId sessionId) := by
  intro always
  let digressed := serveAll sampleEnv (appOf sampleEnv pushDocs) World.empty
    [.startWorkflow "outer" "", .pushFlow "s" "side" "a" ""]
  let outcome := (callTool sampleEnv (appOf sampleEnv pushDocs) (.deleteSession "s")).run digressed
  have torn : digressed.TornDown outcome.2 (sampleEnv.normalizeSessionId "s") :=
    always sampleEnv (appOf sampleEnv pushDocs) digressed "s" (returned outcome) outcome.2
      (appOf_accepted (by decide)) (serveAll_served (by rfl)) (by rfl) (by rfl)
  have under : digressed.InChain (sampleEnv.normalizeSessionId "s") (sampleToken 1) :=
    .inr ⟨_, rfl, rfl⟩
  have left : (outcome.2.ownFrame (sampleToken 1)).isSome = true := by rfl
  rw [(torn.gone _ under).2] at left
  exact Bool.noConfusion left

end Megalos
