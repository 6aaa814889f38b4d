import Megalos.Interleaved
import Megalos.Reshaping
import Megalos.Sample

/-!
Calls of `push_flow` and `enter_sub_workflow` that race above one session.  The
transaction of `create_session` does not look again whether the session is still on top:
one frame stands above it as long as no call looks before another creates, and creates
after it.
-/

namespace Megalos

open ChainForest KeyedTable Interleaving Interleaving.Protocol StatefulProgram StatefulProgram.Program

inductive Spawn where
  | pushFlow (sessionId workflowType pausedAtStep context : String)
  | enterSubWorkflow (parentSessionId callStepId : String)

def Spawn.sessionId : Spawn → String
  | .pushFlow sessionId _ _ _ => sessionId
  | .enterSubWorkflow parentSessionId _ => parentSessionId

def Spawn.thread (env : Env) (deployment : Deployment) : Spawn → Tool Val
  | .pushFlow sessionId workflowType pausedAtStep context =>
      Interleaved.pushFlow env deployment sessionId workflowType pausedAtStep context
  | .enterSubWorkflow parentSessionId callStepId =>
      Interleaved.enterSubWorkflow env deployment parentSessionId callStepId

def Spawn.call : Spawn → Call
  | .pushFlow sessionId workflowType pausedAtStep context =>
    .pushFlow sessionId workflowType pausedAtStep context
  | .enterSubWorkflow parentSessionId callStepId => .enterSubWorkflow parentSessionId callStepId

def spawning {ι : Type} (env : Env) (deployment : Deployment) (world : World) (spawns : ι → Spawn) :
    Pool ι Access World Exn Val :=
  ⟨world, fun call => (spawns call).thread env deployment⟩

/-- No session was created since the call looked for a frame above its session. -/
def Unspoilt {ι : Type} [DecidableEq ι] (call : ι) : List (ι × Access) → Bool
  | [] => false
  | (_, .creates) :: _ => false
  | (other, .looks) :: earlier => decide (other = call) || Unspoilt call earlier
  | (_, .plain) :: earlier => Unspoilt call earlier

/-- Who creates a session has looked since the last creation. -/
def Unraced {ι : Type} [DecidableEq ι] : List (ι × Access) → Bool
  | [] => true
  | (call, .creates) :: earlier => Unspoilt call earlier && Unraced earlier
  | _ :: earlier => Unraced earlier

/-- At most one frame stands directly above the session. -/
def World.SingleAbove (world : World) (sid : SessionId) : Prop :=
  ∀ upper other, world.ledger.Above sid upper → world.ledger.Above sid other → upper = other

variable {env : Env} {deployment : Deployment} {world before after : World} {sid : SessionId}
    {α : Type}

theorem Spawn.whole_thread (spawn : Spawn) :
    (spawn.thread env deployment).whole = callTool env deployment spawn.call := by
  cases spawn with
  | pushFlow sessionId workflowType pausedAtStep context => exact Interleaved.whole_pushFlow _ _ _ _
  | enterSubWorkflow parentSessionId callStepId => exact Interleaved.whole_enterSubWorkflow _ _

/-! The protocol of a call. -/

inductive SpawnPhase where
  | begun
  | resolved
  | looking (place : SessionId × Nat)
  | clear
  | spent

/-- No frame comes, goes or moves, and no row comes. -/
structure Steady (before after : World) : Prop where
  places_eq : after.ledger.places = before.ledger.places
  minted_le : before.minted ≤ after.minted
  rows : ∀ other row, after.ledger.row other = some row → (before.ledger.row other).isSome

structure Pushed (env : Env) (sid : SessionId) (before after : World) : Prop where
  places_eq : ∃ ids, after.ledger.places =
    push (before.ledger.without ids).places sid (env.token before.minted)
  minted_eq : after.minted = before.minted + 1
  rows : ∀ other row, after.ledger.row other = some row →
    other = env.token before.minted ∨ (before.ledger.row other).isSome

inductive SpawnMoves (env : Env) (sid : SessionId) : Protocol Access World SpawnPhase
  | plain {phase : SpawnPhase} {before after : World} (steady : Steady before after) :
      SpawnMoves env sid phase .plain before after phase
  | resolves {world : World} (found : (world.ledger.row sid).isSome) :
      SpawnMoves env sid .begun .plain world world .resolved
  | looks {world : World} :
      SpawnMoves env sid .resolved .looks world world (.looking (world.standing sid))
  | bare {world : World} {place : SessionId × Nat}
      (nothing : world.frameAt place.1 (place.2 + 1) = none) :
      SpawnMoves env sid (.looking place) .plain world world .clear
  | creates {before after : World} (pushed : Pushed env sid before after) :
      SpawnMoves env sid .clear .creates before after .spent

/-- A call succeeds only once it has put a frame above its session. -/
def Succeeds (phase : SpawnPhase) (outcome : Except Exn Val) : Prop :=
    succeeds outcome = true → phase = .spent

theorem Steady.refl (world : World) :
    Steady world world := ⟨rfl, Nat.le_refl _, fun _ _ found => by simp [found]⟩

theorem Steady.of_becomes {old new : Session} (found : world.ledger.row sid = some old)
    (becomes : Becomes world (world.ledger.setRow sid new) after) : Steady world after := by
  refine ⟨by rw [becomes.ledger_eq, Ledger.places_setRow], becomes.minted_eq.ge,
    fun other row there => ?_⟩
  rw [becomes.ledger_eq, Ledger.setRow_row] at there
  split at there
  · rename_i same
    rw [same, found]
    rfl
  · rw [there]
    rfl

theorem wp_changeRow_steady {change : Session → Session}
    {keeps : ∀ session, (change session).sessionId = session.sessionId} :
    Wp (changeRow env sid change keeps) (fun _ after => Steady world after) world := by
  refine wp_changeRow ?_ ?_
  · exact fun session now after found becomes => .of_becomes found becomes
  · intro after _ becomes
    refine ⟨by rw [becomes.ledger_eq], becomes.minted_eq.ge, fun other row there => ?_⟩
    rw [becomes.ledger_eq] at there
    simp [there]

theorem Steady.trans {middle : World} (start : Steady before middle) (rest : Steady middle after) :
    Steady before after := by
  refine ⟨rest.places_eq.trans start.places_eq, start.minted_le.trans rest.minted_le,
    fun other row there => ?_⟩
  obtain ⟨old, isOld⟩ := Option.isSome_iff_exists.mp (rest.rows other row there)
  exact start.rows other old isOld

theorem Steady.of_ledger (same : after.ledger = before.ledger)
    (grown : before.minted ≤ after.minted) :
    Steady before after :=
  ⟨by rw [same], grown, fun other row there => by simp [← same, there]⟩

theorem wp_incrementVisit_steady {stepId : Val} :
    Wp (incrementVisit env sid stepId) (fun _ after => Steady world after) world := by
  unfold incrementVisit
  rw [wp_bind, wp_ofExcept]
  cases jsonKey env stepId with
  | error raised => exact Steady.refl world
  | ok key => exact wp_changeRow_steady

theorem wp_updateCurrentStep_steady {currentStep : Val} {stepData : Option StepData} :
    Wp (updateCurrentStep env sid currentStep stepData)
    (fun _ after => Steady world after) world := by
  unfold updateCurrentStep
  rw [wp_bind, wp_ofExcept]
  cases columnText env currentStep with
  | error raised => exact Steady.refl world
  | ok text =>
      dsimp only
      rw [wp_bind]
      refine wp_nowIso fun now reached becomes => ?_
      refine Wp.mono wp_changeRow_steady fun _ _ steady => ?_
      exact (Steady.of_ledger becomes.ledger_eq becomes.minted_eq.ge).trans steady

theorem wp_setCalledSession_steady {child : SessionId} {step : String} :
    Wp (setCalledSession env sid (some child) (some step))
    (fun _ after => Steady world after) world := by
  unfold setCalledSession
  refine wp_transaction ?_
  rw [wp_bind]
  refine wp_changeRow ?_ ?_
  · intro row now reached found becomes
    rw [wp_write]
    refine (Steady.of_becomes found becomes).trans ⟨?_, Nat.le_refl _, fun other row there => ?_⟩
    · funext other
      simp only [Ledger.places, World.ledger, Table.lookup_update]
      split
      · rename_i same
        rw [same, Option.map_map]
        rfl
      · rfl
    · exact Option.isSome_of_eq_some there
  · intro reached _ becomes restored ledgerEq mintedEq _
    exact .of_ledger ledgerEq (mintedEq.trans becomes.minted_eq).ge

theorem wp_createSession_pushed {workflowType currentStep fingerprint : String}
    {frameType : FrameType} {callStepId : Option String} {maxStackDepth : Option Nat} :
    Wp (createSession env workflowType currentStep (some sid) frameType callStepId maxStackDepth fingerprint)
    (fun outcome after => (∀ child, outcome = .ok child → Pushed env sid world after) ∧
        ∀ raised, outcome = .error raised → Steady world after) world := by
  refine wp_createSession ?_ ?_
  · intro now after row _ creates
    refine ⟨fun _ _ => ⟨⟨evictedIds env.sessionCap world.sessions, ?_⟩, creates.minted_eq,
      fun other found there => ?_⟩,
      fun raised same => by cases same⟩
    · rw [creates.ledger_eq, creates.sessionId_eq]
      funext other
      by_cases same : other = env.token world.minted
      · subst same
        rw [push_self, ← Ledger.standing_places]
        simp [Ledger.places, Ledger.insert, creates.sessionId_eq, Ledger.childFrame]
      · rw [push_other same]
        simp [Ledger.places, Ledger.insert, creates.sessionId_eq, same]
    · rw [creates.ledger_eq] at there
      simp only [Ledger.insert, Option.map_some, Ledger.setFrame_row, Ledger.setRow_row,
        Ledger.without_row] at there
      split at there
      · rename_i same
        exact .inl (same.trans creates.sessionId_eq)
      · split at there
        · cases there
        · exact .inr (Option.isSome_of_eq_some there)
  · intro raised after _ ledgerEq mintedEq
    exact ⟨fun child same => (by cases same), fun _ _ => .of_ledger ledgerEq (by omega)⟩

/-! Both tools keep to the protocol. -/

section Follow

open Interleaved

variable {β : Type} {ends : SpawnPhase → Except Exn β → Prop} {phase : SpawnPhase}
    {next : α → Tool β}

theorem follows_query {view : World → α}
    (rest : ∀ world, Follows (SpawnMoves env sid) ends phase (next (view world))) :
    Follows (SpawnMoves env sid) ends phase (query view >>= next) :=
  fun state => ⟨phase, .plain (.refl state), rest state⟩

theorem follows_update {body : Server α}
    (steady : ∀ world, Wp body (fun _ after => Steady world after) world)
    (raises : ∀ raised, ends phase (.error raised))
    (rest : ∀ value, Follows (SpawnMoves env sid) ends phase (next value)) :
    Follows (SpawnMoves env sid) ends phase (update body >>= next) := by
  intro state
  refine ⟨phase, .plain (steady state), ?_⟩
  change Follows (SpawnMoves env sid) ends phase (Thread.bind (.done (body.run state).1) next)
  cases (body.run state).1 with
  | error raised => exact raises raised
  | ok value => exact rest value

theorem follows_topFrameFor {next : Option Frame → Tool β}
    (pending : ∀ phase frame, Follows (SpawnMoves env sid) ends phase (next (some frame)))
    (bare : Follows (SpawnMoves env sid) ends .clear (next none)) :
    Follows (SpawnMoves env sid) ends .resolved (topFrameFor sid >>= next) := by
  intro first
  refine ⟨.looking (first.standing sid), .looks, fun second => ?_⟩
  change ∃ later, SpawnMoves env sid (.looking (first.standing sid)) .plain second second later ∧
    Follows (SpawnMoves env sid) ends later (next (second.frameAt (first.standing sid).1 ((first.standing sid).2 + 1)))
  cases found : second.frameAt (first.standing sid).1 ((first.standing sid).2 + 1) with
  | none => exact ⟨.clear, .bare found, bare⟩
  | some frame => exact ⟨_, .plain (.refl second), pending _ frame⟩

theorem follows_createSession {workflowType currentStep fingerprint : String}
    {frameType : FrameType} {callStepId : Option String} {maxStackDepth : Option Nat}
    {next : SessionId → Tool β}
    (raises : ∀ raised, ends .clear (.error raised))
    (rest : ∀ child, Follows (SpawnMoves env sid) ends .spent (next child)) :
    Follows (SpawnMoves env sid) ends .clear
      (Interleaved.createSession env workflowType currentStep sid frameType callStepId maxStackDepth fingerprint >>=
        next) := by
  intro state
  cases ran : (Megalos.createSession env workflowType currentStep (some sid) frameType callStepId maxStackDepth
    fingerprint).run state with
  | mk outcome after =>
  obtain ⟨pushed, steady⟩ := Wp.elim wp_createSession_pushed ran
  dsimp only
  cases outcome with
  | error raised => exact ⟨.clear, .plain (steady raised rfl), raises raised⟩
  | ok child => exact ⟨.spent, .creates (pushed child rfl), rest child⟩

theorem follows_refusal {response : Val} (failed : response.isError = true) :
    Follows (SpawnMoves env sid) Succeeds phase (pure response : Tool Val) := by
  intro success
  simp [succeeds, failed] at success

theorem follows_resolveSession {presented : String}
    {next : Except Val (Session × Workflow) → Tool Val}
    (refused : ∀ phase err, err.isError = true →
      Follows (SpawnMoves env sid) Succeeds phase (next (.error err)))
    (resolved : ∀ session wf, session.sessionId = sid →
      Follows (SpawnMoves env sid) Succeeds .resolved (next (.ok (session, wf)))) :
    Follows (SpawnMoves env sid) Succeeds .begun (Interleaved.resolveSession env deployment presented sid >>= next) := by
  intro world
  change ∃ later, SpawnMoves env sid .begun .plain world world later ∧
    Follows (SpawnMoves env sid) Succeeds later
    (Thread.bind (Thread.bind (.done (.ok (world.sessions.lookup sid))) _) next)
  cases found : world.sessions.lookup sid with
  | none => exact ⟨.begun, .plain (.refl world), refused _ _ (errorResponse_isError _ _ _)⟩
  | some session =>
      refine ⟨.resolved, .resolves (Option.isSome_of_eq_some found), ?_⟩
      simp only [Thread.bind]
      split
      · exact refused _ _ (errorResponse_isError _ _ _)
      split
      · exact refused _ _ (errorResponse_isError _ _ _)
      split
      · exact refused _ _ (errorResponse_isError _ _ _)
      split
      · split
        · rename_i wf _ _ currentFp _ _
          have marks : ∀ outcome : Except Exn Unit, Follows (SpawnMoves env sid) Succeeds .resolved
              (Thread.bind (Thread.bind (.done outcome) fun _ =>
                pure (.error (workflowChangedEnvelope env session currentFp))) next) := by
            rintro (raised | _)
            · exact fun success => by cases success
            · exact refused _ _ (errorResponse_isError _ _ _)
          exact fun state => ⟨.resolved, .plain wp_updateCurrentStep_steady, marks _⟩
        · exact resolved session _ (Table.lookup_key found)
      · exact resolved session _ (Table.lookup_key found)

theorem follows_trapErrors {field : String} {sessionId : Option String} {body : Tool Val}
    (start : Follows (SpawnMoves env sid) Succeeds phase body) :
    Follows (SpawnMoves env sid) Succeeds phase (Interleaved.trapErrors env field sessionId body) := by
  refine follows_rescue start (fun _ _ holds => holds) fun later raised _ => ?_
  cases raised with
  | sessionNotFound => exact follows_refusal (errorResponse_isError _ _ _)
  | typeError message => exact follows_refusal (errorResponse_isError _ _ _)
  | valueError message => exact follows_refusal (errorResponse_isError _ _ _)
  | _ => exact fun success => by cases success

theorem follows_withSession {sessionId : String} {checks : List (String × String × Bool)}
    {body : Session → Workflow → Tool Val} (same : env.normalizeSessionId sessionId = sid)
    (resolved : ∀ session wf, session.sessionId = sid →
      Follows (SpawnMoves env sid) Succeeds .resolved (body session wf)) :
    Follows (SpawnMoves env sid) Succeeds .begun (Interleaved.withSession env deployment sessionId checks body) := by
  subst same
  unfold Interleaved.withSession
  cases passed : checkStrs checks with
  | some err => exact follows_refusal (checkStrs_isError passed)
  | none => exact follows_resolveSession (fun phase err failed => follows_refusal failed) resolved

theorem follows_enterSubWorkflow {parentSessionId callStepId : String}
    (same : env.normalizeSessionId parentSessionId = sid) :
    Follows (SpawnMoves env sid) Succeeds .begun
      (Interleaved.enterSubWorkflow env deployment parentSessionId callStepId) := by
  refine follows_trapErrors (follows_withSession same fun parent parentWf isRow => ?_)
  subst isRow
  dsimp only
  split
  · rename_i err refused
    exact follows_refusal (spawnGuards_isError refused)
  split
  · exact follows_refusal (errorResponse_isError _ _ _)
  rename_i callStep target _
  refine follows_topFrameFor (fun phase frame => follows_refusal (errorResponse_isError _ _ _)) ?_
  dsimp only
  split
  · exact follows_refusal (errorResponse_isError _ _ _)
  rename_i name childWf _
  cases given : childContext env parent callStep with
  | error raised => exact fun success => by cases success
  | ok context =>
  cases context with
  | error err => exact follows_refusal (childContext_isError given)
  | ok context =>
  refine follows_createSession (fun raised success => by cases success) fun child => ?_
  refine follows_update (fun _ => wp_incrementVisit_steady)
    (fun raised success => by cases success) fun _ => ?_
  refine follows_update (fun _ => wp_setCalledSession_steady)
    (fun raised success => by cases success) fun _ => ?_
  exact fun _ => rfl

theorem follows_stackFullError {root : SessionId} {depth limit : Nat} {advice : String} :
    Follows (SpawnMoves env sid) Succeeds phase (Interleaved.stackFullError env root depth limit advice) :=
  follows_query fun _ => follows_refusal (errorResponse_isError _ _ _)

theorem follows_sessionCapError {active : Nat} :
    Follows (SpawnMoves env sid) Succeeds phase (Interleaved.sessionCapError env active) :=
  follows_query fun _ => follows_query fun _ => follows_query fun _ =>
    follows_refusal (errorResponse_isError _ _ _)

/-- What comes of the transaction, when the child is created and when the stack was full meanwhile.
-/
def Outcome (phase : SpawnPhase) : Except Exn (Except Val SessionId) → Prop
  | .ok (.ok _) => phase = .spent
  | .ok (.error err) => err.isError = true
  | .error _ => True

theorem follows_spawned {workflowType currentStep fingerprint : String} {frameType : FrameType}
    {callStepId : Option String} {maxStackDepth : Option Nat} {advice : String} :
    Follows (SpawnMoves env sid) Outcome .clear (Thread.rescue (do
        return Except.ok (← Interleaved.createSession env workflowType currentStep sid frameType callStepId maxStackDepth
          fingerprint))
      fun raised => match raised with
        | .stackFull root depth limit => do
            return .error (← Interleaved.stackFullError env root depth limit advice)
        | other => .raise other) := by
  have created : Follows (SpawnMoves env sid) Outcome .clear (do
      return Except.ok (← Interleaved.createSession env workflowType currentStep sid frameType callStepId maxStackDepth
        fingerprint)) := follows_createSession (fun _ => trivial) fun _ => rfl
  refine follows_rescue created (fun _ _ holds => holds) fun later raised _ => ?_
  cases raised with
  | stackFull root depth limit =>
      exact fun state => ⟨later, .plain (.refl state), errorResponse_isError _ _ _⟩
  | _ => exact trivial

theorem follows_pushFlow {sessionId workflowType pausedAtStep context : String}
    (same : env.normalizeSessionId sessionId = sid) :
    Follows (SpawnMoves env sid) Succeeds .begun
      (Interleaved.pushFlow env deployment sessionId workflowType pausedAtStep context) := by
  refine follows_trapErrors (follows_withSession same fun outer outerWf isRow => ?_)
  subst isRow
  split
  · rename_i err refused
    exact follows_refusal (spawnGuards_isError refused)
  refine follows_topFrameFor (fun phase frame => follows_refusal (errorResponse_isError _ _ _)) ?_
  dsimp only
  split
  · exact follows_refusal (errorResponse_isError _ _ _)
  rename_i childWf _
  refine follows_query fun _ => follows_query fun current => ?_
  split
  · exact follows_stackFullError
  refine follows_query fun active => ?_
  split
  · exact follows_sessionCapError
  refine follows_bind follows_spawned ?_ ?_
  case refine_2 =>
    intro later raised _ success
    cases success
  rintro later (err | child) holds
  · exact follows_refusal holds
  obtain rfl : later = .spent := holds
  refine follows_update (fun _ => wp_incrementVisit_steady)
    (fun raised success => by cases success) fun _ => ?_
  refine follows_query fun visited => ?_
  split
  · exact fun success => by cases success
  · exact follows_query fun _ _ => rfl

end Follow

/-! What holds along a run of the protocol. -/

/-- The part of the store's integrity that two calls can break together. -/
structure World.Firm (env : Env) (world : World) : Prop where
  forest : Forest world.ledger.places
  rowIssued : ∀ other row, world.ledger.row other = some row → Issued env world.minted other
  rootIssued : ∀ other root depth, world.ledger.places other = some (root, depth) →
    Issued env world.minted root

theorem World.Sound.firm (sound : world.Sound env) : world.Firm env where
  forest := sound.forest
  rowIssued _ _ found := sound.rowIssued found
  rootIssued other root depth placed := by
    obtain ⟨frame, found, rootEq, -⟩ := Ledger.places_some.mp placed
    rw [← rootEq]
    exact sound.rootIssued found

theorem Steady.firm (steady : Steady before after) (firm : before.Firm env) : after.Firm env := by
  refine ⟨by rw [steady.places_eq]; exact firm.forest, fun other row there => ?_,
    fun other root depth placed => ?_⟩
  · obtain ⟨old, isOld⟩ := Option.isSome_iff_exists.mp (steady.rows other row there)
    exact (firm.rowIssued other old isOld).mono steady.minted_le
  · rw [steady.places_eq] at placed
    exact (firm.rootIssued other root depth placed).mono steady.minted_le

theorem Steady.covers (steady : Steady before after) {lower upper : SessionId} :
    after.ledger.Covers lower upper ↔ before.ledger.Covers lower upper := by
  rw [Ledger.Covers, Ledger.Covers, steady.places_eq]

theorem Steady.standing (steady : Steady before after) (other : SessionId) :
    after.standing other = before.standing other := by
  rw [← World.ledger_standing, ← World.ledger_standing, Ledger.standing_places,
    Ledger.standing_places, steady.places_eq]

theorem Issued.ne_next {minted : Nat} (issued : Issued env minted sid) :
    sid ≠ env.token minted := by
  rintro rfl
  exact issued.not_next

/-- Above a session with nothing on top the child finds its place. -/
theorem Pushed.firm (pushed : Pushed env sid before after) (firm : before.Firm env)
    (issued : Issued env before.minted sid) (bare : ∀ upper, ¬before.ledger.Covers sid upper) :
    after.Firm env := by
  obtain ⟨ids, placesEq⟩ := pushed.places_eq
  have apart := issued.ne_next
  have shrinks := Ledger.Shrinks.without before.ledger ids
  have rest : Forest (before.ledger.without ids).places := by
    rw [Ledger.places_without]
    exact firm.forest.remove
  have kept : ∀ other root depth, (before.ledger.without ids).places other = some (root, depth) →
      Issued env before.minted root := by
    intro other root depth placed
    rw [Ledger.places_without] at placed
    exact firm.rootIssued other root depth (remove_some.mp placed).2
  refine ⟨?_, fun other row there => ?_, fun other root depth placed => ?_⟩
  · rw [placesEq]
    refine rest.push (shrinks.bare firm.forest bare) (fun {other root depth} placed => ?_) apart
    exact (kept other root depth placed).ne_next
  · rw [pushed.minted_eq]
    rcases pushed.rows other row there with rfl | was
    · exact ⟨before.minted, by omega, rfl⟩
    · obtain ⟨old, isOld⟩ := Option.isSome_iff_exists.mp was
      exact (firm.rowIssued other old isOld).mono (by omega)
  · rw [placesEq] at placed
    rw [pushed.minted_eq]
    by_cases same : other = env.token before.minted
    · subst same
      rw [push_self, Option.some.injEq, Prod.mk.injEq] at placed
      rw [← placed.1]
      cases standsAt : (before.ledger.without ids).places sid with
      | none =>
          rw [standing_root standsAt]
          exact issued.mono (by omega)
      | some place =>
          rw [standing_placed standsAt]
          exact (kept sid place.1 place.2 standsAt).mono (by omega)
    · rw [push_other same] at placed
      exact (kept other root depth placed).mono (by omega)

theorem Pushed.covers (pushed : Pushed env sid before after)
    (issued : Issued env before.minted sid) :
    after.ledger.Covers sid (env.token before.minted) := by
  obtain ⟨ids, placesEq⟩ := pushed.places_eq
  rw [Ledger.Covers, ChainForest.Covers, placesEq, push_self, standing_push issued.ne_next]

theorem World.uncovered (nothing : world.topFrameFor sid = none) (upper : SessionId) :
    ¬world.ledger.Covers sid upper := by
  intro covers
  obtain ⟨frame, above, -⟩ := Ledger.covers_above covers fun _ => World.frame_sessionId
  exact World.topFrameFor_none_iff.mp nothing frame above

section Run

variable {ι : Type} [DecidableEq ι] {trace : List (ι × Access)} {phases : ι → SpawnPhase} {call : ι}

/-- What the calls have seen is still so as long as it counts, and one of them has created at most.
-/
structure Exclusive (env : Env) (sid : SessionId) (trace : List (ι × Access)) (world : World)
    (phases : ι → SpawnPhase) : Prop where
  firm : world.Firm env
  issued : ∀ call, phases call ≠ .begun → Issued env world.minted sid
  looking : ∀ call place, phases call = .looking place → Unspoilt call trace = true →
    place = world.standing sid
  clear : ∀ call, phases call = .clear → Unspoilt call trace = true →
    ∀ upper, ¬world.ledger.Covers sid upper
  spent : ∀ call, phases call = .spent → ∃ upper, world.ledger.Covers sid upper
  once : ∀ first second, phases first = .spent → phases second = .spent → first = second

theorem Exclusive.steady (exclusive : Exclusive env sid trace before phases)
    (steady : Steady before after) :
    Exclusive env sid ((call, .plain) :: trace) after phases where
  firm := steady.firm exclusive.firm
  issued other begun := (exclusive.issued other begun).mono steady.minted_le
  looking other place isLooking unspoilt := by
    rw [steady.standing]
    exact exclusive.looking other place isLooking unspoilt
  clear other isClear unspoilt upper := by
    rw [steady.covers]
    exact exclusive.clear other isClear unspoilt upper
  spent other isSpent := by
    obtain ⟨upper, covers⟩ := exclusive.spent other isSpent
    exact ⟨upper, steady.covers.mpr covers⟩
  once := exclusive.once

theorem Exclusive.look (exclusive : Exclusive env sid trace world phases)
    (resolved : phases call = .resolved) :
    Exclusive env sid ((call, .looks) :: trace) world phases := by
  have still : ∀ {other : ι}, phases other ≠ .resolved →
    Unspoilt other ((call, .looks) :: trace) = true →
      Unspoilt other trace = true := by
    intro other unresolved unspoilt
    have apart : call ≠ other := by
      rintro rfl
      exact unresolved resolved
    simpa [Unspoilt, apart] using unspoilt
  refine ⟨exclusive.firm, exclusive.issued, fun other place isLooking unspoilt => ?_,
    fun other isClear unspoilt => ?_, exclusive.spent, exclusive.once⟩
  · exact exclusive.looking other place isLooking (still (by simp [isLooking]) unspoilt)
  · exact exclusive.clear other isClear (still (by simp [isClear]) unspoilt)

theorem Exclusive.enter {later : SpawnPhase} (exclusive : Exclusive env sid trace world phases)
    (issued : Issued env world.minted sid)
    (looking : ∀ place, later = .looking place → Unspoilt call trace = true →
      place = world.standing sid)
    (clear : later = .clear → Unspoilt call trace = true → ∀ upper, ¬world.ledger.Covers sid upper)
    (unspent : later ≠ .spent) :
    Exclusive env sid trace world (Function.update phases call later) := by
  have unmoved : ∀ {other : ι}, other ≠ call →
    Function.update phases call later other = phases other :=
    fun apart => Function.update_of_ne apart _ _
  have moved : Function.update phases call later call = later := Function.update_self _ _ _
  have spentBefore : ∀ other, Function.update phases call later other = .spent →
    phases other = .spent := by
    intro other isSpent
    by_cases same : other = call
    · subst same
      exact absurd (moved.symm.trans isSpent) unspent
    · rwa [unmoved same] at isSpent
  refine ⟨exclusive.firm, fun _ _ => issued, fun other place isLooking unspoilt => ?_,
    fun other isClear unspoilt => ?_, fun other isSpent =>
      exclusive.spent other (spentBefore other isSpent),
    fun first second isFirst isSecond => exclusive.once first second (spentBefore first isFirst)
      (spentBefore second isSecond)⟩
  · by_cases same : other = call
    · subst same
      exact looking place (moved.symm.trans isLooking) unspoilt
    · rw [unmoved same] at isLooking
      exact exclusive.looking other place isLooking unspoilt
  · by_cases same : other = call
    · subst same
      exact clear (moved.symm.trans isClear) unspoilt
    · rw [unmoved same] at isClear
      exact exclusive.clear other isClear unspoilt

theorem Exclusive.create (exclusive : Exclusive env sid trace before phases)
    (isClear : phases call = .clear) (unspoilt : Unspoilt call trace = true)
    (pushed : Pushed env sid before after) :
    Exclusive env sid ((call, .creates) :: trace) after (Function.update phases call .spent) := by
  have bare := exclusive.clear call isClear unspoilt
  have issued := exclusive.issued call (by simp [isClear])
  have others : ∀ other, Function.update phases call .spent other = .spent → other = call := by
    intro other isSpent
    by_contra apart
    rw [Function.update_of_ne apart] at isSpent
    obtain ⟨upper, covers⟩ := exclusive.spent other isSpent
    exact bare upper covers
  refine ⟨pushed.firm exclusive.firm issued bare, fun _ _ =>
    issued.mono (by rw [pushed.minted_eq]; omega), ?_, ?_,
    fun _ _ => ⟨_, pushed.covers issued⟩, fun first second isFirst isSecond => ?_⟩
  · exact fun other place _ spoilt => by cases spoilt
  · exact fun other _ spoilt => by cases spoilt
  · rw [others first isFirst, others second isSecond]

theorem Exclusive.of_run {start : World} (firm : start.Firm env)
    (run : Run (SpawnMoves env sid) start (fun _ : ι => .begun) trace world phases)
    (unraced : Unraced trace = true) :
    Exclusive env sid trace world phases := by
  induction run with
  | start => exact ⟨firm, by simp, by simp, by simp, by simp, by simp⟩
  | @move trace before after reached call tag later ran takes ih =>
      generalize isPhase : reached call = phase at takes
      cases takes with
      | plain steady =>
          rw [← isPhase, Function.update_eq_self]
          exact (ih unraced).steady steady
      | resolves found =>
          have exclusive : Exclusive env sid ((call, .plain) :: trace) before reached :=
            (ih unraced).steady (.refl before)
          obtain ⟨row, isRow⟩ := Option.isSome_iff_exists.mp found
          exact exclusive.enter (exclusive.firm.rowIssued sid row isRow) (by simp) (by simp)
            (by simp)
      | looks =>
          have issued := (ih unraced).issued call (by simp [isPhase])
          refine ((ih unraced).look isPhase).enter issued (fun place same _ => ?_) (by simp)
            (by simp)
          cases same
          rfl
      | @bare world place nothing =>
          have exclusive := ih unraced
          have issued := exclusive.issued call (by simp [isPhase])
          refine (exclusive.steady (.refl before)).enter issued (by simp) (fun _ unspoilt => ?_)
            (by simp)
          rw [exclusive.looking call place isPhase unspoilt] at nothing
          exact World.uncovered nothing
      | creates pushed =>
          simp only [Unraced, Bool.and_eq_true] at unraced
          exact (ih unraced.2).create isPhase unraced.1 pushed

end Run

section Spawning

variable {ι : Type} [DecidableEq ι] {spawns : ι → Spawn} {trace : List (ι × Access)}
  {pool : Pool ι Access World Exn Val} {allowed : World → Request → Prop}

theorem Spawn.follows {spawn : Spawn} (same : env.normalizeSessionId spawn.sessionId = sid) :
    Follows (SpawnMoves env sid) Succeeds .begun (spawn.thread env deployment) := by
  cases spawn with
  | pushFlow => exact follows_pushFlow same
  | enterSubWorkflow => exact follows_enterSubWorkflow same

/-- Whatever the order of the accesses: if every call that creates has looked since the last
creation, then at most one frame stands above the session in every state, and all answers but one
are errors. -/
theorem spawns_exclusive (reached : Reachable env allowed world)
    (same : ∀ call, env.normalizeSessionId (spawns call).sessionId = sid)
    (ran : Execution (spawning env deployment world spawns) trace pool)
    (unraced : Unraced trace = true) :
    pool.state.SingleAbove sid ∧ ∀ first second outcome other, pool.threads first = .done outcome →
      pool.threads second = .done other → first ≠ second → succeeds outcome = true →
        succeeds other = false := by
  obtain ⟨phases, run, follows⟩ := Run.of_execution (fun call => Spawn.follows (same call)) ran
  have exclusive := Exclusive.of_run reached.sound.firm run unraced
  refine ⟨fun upper other above again => ?_,
    fun first second outcome other isFirst isSecond apart success => ?_⟩
  · have sameId := exclusive.firm.forest.covers_upper (Ledger.above_covers above)
      (Ledger.above_covers again)
    have found := above.1
    rw [sameId, again.1, Option.some.injEq] at found
    exact found.symm
  · have firstEnds := follows first
    have secondEnds := follows second
    rw [isFirst] at firstEnds
    rw [isSecond] at secondEnds
    by_contra fails
    exact apart (exclusive.once first second (firstEnds success) (secondEnds (by simpa using fails)))

end Spawning

def racing : World :=
    serveAll sampleEnv (appOf sampleEnv nestedDocs) World.empty [.startWorkflow "outer" ""]

def rivals : Bool → Spawn
  | true => .pushFlow "s" "inner" "a" ""
  | false => .enterSubWorkflow "s" "a"

/-- The two calls on the session of `racing`, after the turns in the list. -/
def afterTurns (turns : List Bool) : List (Bool × Access) × Pool Bool Access World Exn Val :=
  Pool.play turns [] (spawning sampleEnv (appOf sampleEnv nestedDocs) racing rivals)

theorem spawns_exclusive_inOrder :
    (afterTurns (.replicate 12 true ++ .replicate 12 false)).2.state.SingleAbove ⟨"s"⟩ ∧
      ∀ first second outcome other,
        (afterTurns (.replicate 12 true ++ .replicate 12 false)).2.threads first = .done outcome →
        (afterTurns (.replicate 12 true ++ .replicate 12 false)).2.threads second = .done other →
          first ≠ second →
        succeeds outcome = true → succeeds other = false :=
  spawns_exclusive (serveAll_served (by rfl)) (fun call => by cases call <;> rfl)
    (Execution.start.play _) (by rfl)

def crowded : World :=
    (afterTurns (.replicate 6 true ++ .replicate 6 false ++ .replicate 6 true)).2.state

/-- `push_flow` finds the session on top, `enter_sub_workflow` puts a child above it, and then
`push_flow` creates. -/
theorem spawns_not_always_exclusive : ¬∀ (world : World) (spawns : Bool → Spawn) (sid : SessionId)
    (trace : List (Bool × Access)) (pool : Pool Bool Access World Exn Val),
    ServedBy sampleEnv (appOf sampleEnv nestedDocs) world →
      (∀ call, sampleEnv.normalizeSessionId (spawns call).sessionId = sid) →
      Execution (spawning sampleEnv (appOf sampleEnv nestedDocs) world spawns) trace pool →
      pool.state.SingleAbove sid ∧ ∀ first second outcome other,
        pool.threads first = .done outcome →
        pool.threads second = .done other → first ≠ second → succeeds outcome = true →
          succeeds other = false := by
  intro always
  have single : crowded.SingleAbove ⟨"s"⟩ :=
    (always racing rivals ⟨"s"⟩ _ _ (serveAll_served (by rfl))
    (fun call => by cases call <;> rfl) (Execution.start.play _)).1
  have above : ∀ child,
    (crowded.ownFrame child).map (fun frame => (frame.rootSessionId, frame.depth)) = some (⟨"s"⟩,
    1) →
      ∃ frame, crowded.ledger.Above ⟨"s"⟩ frame ∧ frame.sessionId = child := by
    intro child placed
    obtain ⟨frame, found, same⟩ := Option.map_eq_some_iff.mp placed
    have isChild := World.frame_sessionId (show crowded.ledger.frame child = some frame from found)
    have stands : crowded.ledger.standing ⟨"s"⟩ = (⟨"s"⟩, 0) := by rfl
    refine ⟨frame, ⟨isChild ▸ found, ?_, ?_⟩, isChild⟩
    · rw [stands]
      exact congrArg Prod.fst same
    · rw [stands]
      exact congrArg Prod.snd same
  obtain ⟨first, isFirst, firstId⟩ := above ⟨"ss"⟩ (by rfl)
  obtain ⟨second, isSecond, secondId⟩ := above ⟨"sss"⟩ (by rfl)
  have same := firstId.symm.trans ((congrArg Frame.sessionId (single first second isFirst isSecond)).trans secondId)
  exact absurd same (by decide)

end Megalos
