import Megalos.Bounded
import Megalos.InterleavedStart
import Megalos.Races
import Megalos.RowChange

/-!
The two caps under concurrency.  The depth is read again inside the transaction that adds
a frame; the number of active sessions is read before it, and calls that have read the
same number may all create.
-/

namespace Megalos

open ChainForest KeyedTable Interleaving Interleaving.Protocol StatefulProgram StatefulProgram.Program

/-- A call that puts a session into the store. -/
inductive Opening where
  | startWorkflow (workflowType context : String)
  | child (spawn : Spawn)

namespace Opening

def thread (env : Env) (deployment : Deployment) : Opening → Tool Val
  | .startWorkflow workflowType context =>
    Interleaved.startWorkflow env deployment workflowType context
  | .child spawn => spawn.thread env deployment

def call : Opening → Call
  | .startWorkflow workflowType context => .startWorkflow workflowType context
  | .child spawn => spawn.call

def checks : Opening → Bool
  | .child (.enterSubWorkflow _ _) => false
  | _ => true

theorem whole_thread {env : Env} {deployment : Deployment} (opening : Opening) :
    (opening.thread env deployment).whole = callTool env deployment opening.call := by
  cases opening with
  | startWorkflow workflowType context => exact Interleaved.whole_startWorkflow _ _
  | child spawn => exact spawn.whole_thread

end Opening

def opening {ι : Type} (env : Env) (deployment : Deployment) (world : World)
    (openings : ι → Opening) : Pool ι Access World Exn Val :=
  ⟨world, fun call => (openings call).thread env deployment⟩

/-- How many of the calls look at the caps, or do not. -/
def numberOf {ι : Type} [Fintype ι] (checking : Bool) (openings : ι → Opening) : Nat :=
  (Finset.univ.filter fun call => (openings call).checks = checking).card

/-- Every session of a workflow that is served has the fingerprint that is served. -/
def World.Stamped (deployment : Deployment) (world : World) : Prop :=
  ∀ sid row fp, world.ledger.row sid = some row →
    deployment.workflowFingerprints.get? row.workflowType = some fp → row.workflowFingerprint = fp

/-- The sessions that are active, and those in the list whether active or not. -/
def World.occupied (world : World) (kids : List SessionId) : Nat :=
  (world.sessions.select fun session =>
    session.currentStep != complete || decide (session.sessionId ∈ kids)).length

variable {env : Env} {deployment : Deployment} {world before after : World} {sid child : SessionId}
  {touched : SessionId → Prop} {kids : List SessionId} {α : Type}

/-! What an access does to the two numbers. -/

structure Rewritten (touched : SessionId → Prop) (before after : World) : Prop where
  rows : ∀ other new, after.ledger.row other = some new →
    ∃ old, before.ledger.row other = some old ∧
    old.Same new ∧ (¬touched other → new.currentStep = old.currentStep)
  frames : ∀ other frame, after.ledger.frame other = some frame →
    ∃ old, before.ledger.frame other = some old ∧
    old.rootSessionId = frame.rootSessionId

abbrev Unshifted : World → World → Prop := Rewritten fun _ => False

/-- The child came, and whatever had to make room for it went. -/
structure Added (deployment : Deployment) (child : SessionId) (before after : World) : Prop where
  rows : ∀ other new, after.ledger.row other = some new → before.ledger.row other = some new ∨
    other = child ∧
    ∀ fp, deployment.workflowFingerprints.get? new.workflowType = some fp →
      new.workflowFingerprint = fp
  deep : ∀ root, after.stackDepth root ≤ before.stackDepth root + 1

theorem Rewritten.refl (touched : SessionId → Prop) (world : World) :
    Rewritten touched world world :=
  ⟨fun _ new found => ⟨new, found, .refl new, fun _ => rfl⟩, fun _ frame found =>
    ⟨frame, found, rfl⟩⟩

theorem Rewritten.of_ledger (same : after.ledger = before.ledger) :
    Rewritten touched before after :=
  ⟨fun _ new found => ⟨new, same ▸ found, .refl new, fun _ => rfl⟩,
    fun _ frame found => ⟨frame, same ▸ found, rfl⟩⟩

theorem Rewritten.stackDepth_le (rewritten : Rewritten touched before after) (root : SessionId) :
    after.stackDepth root ≤ before.stackDepth root := by
  refine Ledger.stackDepth_le rfl [] (fun other frame found under => .inr ?_)
    (le_refl (before.stackDepth root))
  obtain ⟨old, there, same⟩ := rewritten.frames other frame found
  exact ⟨old, there, same.trans under⟩

theorem Rewritten.stamped (rewritten : Rewritten touched before after)
    (stamped : before.Stamped deployment) :
    after.Stamped deployment := by
  intro other new fp found current
  obtain ⟨old, there, same, -⟩ := rewritten.rows other new found
  rw [same.workflowFingerprint_eq]
  rw [same.workflowType_eq] at current
  exact stamped other old fp there current

theorem Added.stamped (added : Added deployment child before after)
    (stamped : before.Stamped deployment) :
    after.Stamped deployment := by
  intro other new fp found current
  rcases added.rows other new found with there | ⟨-, isNew⟩
  · exact stamped other new fp there current
  · exact isNew fp current

theorem Rewritten.occupied_le (rewritten : Rewritten touched before after) (kids : List SessionId)
    (known : ∀ other, touched other → other ∈ kids) :
    after.occupied kids ≤ before.occupied kids := by
  refine Table.select_length_le [] fun other new found counts => .inr ?_
  obtain ⟨old, there, same, still⟩ := rewritten.rows other new found
  refine ⟨old, there, ?_⟩
  simp only [Bool.or_eq_true, bne_iff_ne, decide_eq_true_eq] at counts ⊢
  rw [same.sessionId_eq] at counts
  by_cases moved : touched other
  · exact .inr (Table.lookup_key there ▸ known other moved)
  · rwa [still moved] at counts

theorem Added.occupied_le (added : Added deployment child before after) (kids more : List SessionId)
    (known : ∀ other ∈ more, other = child ∨ other ∈ kids) :
    after.occupied more ≤ before.occupied kids + 1 := by
  refine Table.select_length_le [child] fun other new found counts => ?_
  rcases added.rows other new found with there | ⟨isChild, -⟩
  · by_cases isChild : other = child
    · exact .inl (by simp [isChild])
    · refine .inr ⟨new, there, ?_⟩
      have isId : new.sessionId = other := Table.lookup_key there
      simp only [Bool.or_eq_true, bne_iff_ne, decide_eq_true_eq] at counts ⊢
      refine counts.imp_right fun listed => ?_
      exact (known _ listed).resolve_left (isId ▸ isChild)
  · exact .inl (by simp [isChild])

theorem World.occupied_le (world : World) (kids : List SessionId) :
    world.occupied kids ≤ world.countActive + kids.length := by
  refine Table.select_length_le kids fun other row found counts => ?_
  simp only [Bool.or_eq_true, decide_eq_true_eq] at counts
  rcases counts with active | listed
  · exact .inr ⟨row, found, active⟩
  · exact .inl (Table.lookup_key found ▸ listed)

theorem World.countActive_le_occupied (world : World) (kids : List SessionId) :
    world.countActive ≤ world.occupied kids := by
  refine Table.select_length_le [] fun other row found active => .inr ⟨row, found, ?_⟩
  simp [show (row.currentStep != complete) = true from active]

theorem wp_changeRow_rewritten (touched : SessionId → Prop) {change : Session → Session}
    {keeps : ∀ session, (change session).sessionId = session.sessionId}
    (same : ∀ session : Session,
      session.Same { change session with updatedAt := session.updatedAt })
    (still : ∀ session : Session, ¬touched sid →
      (change session).currentStep = session.currentStep) :
    Wp (changeRow env sid change keeps) (fun _ after => Rewritten touched world after) world := by
  refine wp_changeRow ?_ fun after _ becomes => .of_ledger becomes.ledger_eq
  intro session now after found becomes
  refine ⟨fun other new there => ?_, fun other frame there => ⟨frame, ?_, rfl⟩⟩
  · rw [becomes.ledger_eq, Ledger.setRow_row] at there
    split at there
    · rename_i isTarget
      subst isTarget
      rw [Option.some.injEq] at there
      subst there
      have kept := same session
      exact ⟨session, found, ⟨kept.sessionId_eq, kept.workflowType_eq, kept.parentSessionId_eq,
        kept.workflowFingerprint_eq⟩, still session⟩
    · exact ⟨new, there, .refl new, fun _ => rfl⟩
  · rw [becomes.ledger_eq] at there
    exact there

theorem Rewritten.after_ledger {middle : World} (same : middle.ledger = before.ledger)
    (rewritten : Rewritten touched middle after) : Rewritten touched before after := by
  refine ⟨fun other new found => ?_, fun other frame found => ?_⟩
  · rw [← same]
    exact rewritten.rows other new found
  · rw [← same]
    exact rewritten.frames other frame found

theorem wp_incrementVisit_calm {stepId : Val} :
    Wp (incrementVisit env sid stepId) (fun _ after => Unshifted world after) world := by
  unfold incrementVisit
  rw [wp_bind, wp_ofExcept]
  cases jsonKey env stepId with
  | error raised => exact .refl _ world
  | ok key => exact wp_changeRow_rewritten _ (fun _ => ⟨rfl, rfl, rfl, rfl⟩) fun _ _ => rfl

theorem wp_updateCurrentStep_rewritten {pointer : Val} {stepData : Option StepData} :
    Wp (updateCurrentStep env sid pointer stepData)
    (fun _ after => Rewritten (· = sid) world after) world := by
  unfold updateCurrentStep
  rw [wp_bind, wp_ofExcept]
  cases columnText env pointer with
  | error raised => exact .refl _ world
  | ok text =>
      dsimp only
      rw [wp_bind]
      refine wp_nowIso fun now reached becomes => ?_
      refine Wp.mono (wp_changeRow_rewritten (· = sid) (fun _ => ⟨rfl, rfl, rfl, rfl⟩)
        fun _ apart => absurd rfl apart) fun _ _ rewritten => ?_
      exact rewritten.after_ledger becomes.ledger_eq

theorem wp_setCalledSession_calm {step : String} :
    Wp (setCalledSession env sid (some child) (some step))
    (fun _ after => Unshifted world after) world := by
  unfold setCalledSession
  refine wp_transaction ?_
  rw [wp_bind]
  have linked : Wp (changeRow env sid fun session => { session with calledSession := some child })
      (fun _ after => Unshifted world after) world :=
    wp_changeRow_rewritten _ (fun _ => ⟨rfl, rfl, rfl, rfl⟩) fun _ _ => rfl
  refine linked.mono ?_
  rintro (raised | _) reached calm
  · exact fun restored ledgerEq _ _ => .of_ledger ledgerEq
  · rw [wp_write]
    refine ⟨calm.rows, fun other frame found => ?_⟩
    simp only [World.ledger, Table.lookup_update] at found
    split at found
    · obtain ⟨old, there, rfl⟩ := Option.map_eq_some_iff.mp found
      exact calm.frames other old there
    · exact calm.frames other frame found

theorem wp_executeMcpToolCallStep_calm {registry : Option Registry} {step : Step}
    {stepData : StepData} {skippedSet : List String} :
    Wp (executeMcpToolCallStep env registry step stepData skippedSet)
    (fun _ after => Unshifted world after) world := by
  refine (wp_executeMcpToolCallStep step stepData skippedSet).mono ?_
  generalize executed env registry step stepData skippedSet world.outbound.length = result
  rintro outcome reached ran
  cases ran with
  | ok reaches => exact .of_ledger reaches.ledger_eq
  | raised => exact Rewritten.refl _ _

/-- The child is added under the cap that the transaction reads again. -/
theorem wp_createSession_room {workflowType currentStep fingerprint : String}
    {frameType : FrameType} {callStepId : Option String} {parent : SessionId} {limit : Nat} :
    Wp (createSession env workflowType currentStep (some parent) frameType callStepId (some limit) fingerprint)
    (fun outcome _ => ∀ child, outcome = .ok child →
        (world.cleared env).stackDepth ((world.cleared env).standing parent).1 < limit) world := by
  unfold createSession drawToken nowIso insertSession
  simp only [wp_bind, wp_read, wp_write, wp_pure]
  refine wp_transaction ?_
  simp only [wp_bind, wp_read, wp_write]
  split
  · rw [wp_write]
    dsimp only
    split
    · exact fun restored _ _ _ child same => by cases same
    · rename_i room
      have fits := Nat.lt_of_not_ge room
      refine Wp.mono (show Wp _ (fun _ _ => True) _ from trivial) ?_
      rintro (raised | child) reached -
      · exact fun _ _ _ _ _ _ => fits
      · exact fun _ _ => fits
  · exact fun restored _ _ _ child same => by cases same

/-- What a transaction that commits does to the frames of each root. -/
theorem Creates.stackDepth_le {row : Session} {frame : Option Frame}
    (creates : Creates env world row frame after) (root : SessionId) (extra : List SessionId)
    (covered : ∀ new, frame = some new → new.rootSessionId = root → row.sessionId ∈ extra) :
    after.stackDepth root ≤ (world.cleared env).stackDepth root + extra.length := by
  refine Ledger.stackDepth_le creates.ledger_eq extra (fun other new found under => ?_) (le_refl _)
  rw [World.cleared_ledger, World.evicted]
  cases frame with
  | none => exact .inr ⟨new, found, under⟩
  | some frame =>
      simp only [Ledger.insert, Ledger.setFrame_frame] at found
      split at found
      · rename_i same
        rw [same]
        exact .inl (covered frame rfl (Option.some.inj found ▸ under))
      · exact .inr ⟨new, found, under⟩

theorem wp_createSession_added {workflowType currentStep : String} {frameType : FrameType}
    {callStepId : Option String} {maxStackDepth : Option Nat} {parent : Option SessionId} :
    Wp (createSession env workflowType currentStep parent frameType callStepId maxStackDepth
        (fingerprintFor env deployment workflowType))
    (fun outcome after => (∀ child, outcome = .ok child → Added deployment child world after) ∧
        ∀ raised, outcome = .error raised → Unshifted world after) world := by
  refine wp_createSession ?_ ?_
  · intro now after row isRow creates
    refine ⟨fun child same => ?_, fun raised same => by cases same⟩
    cases same
    refine ⟨fun other new found => ?_, fun root => ?_⟩
    · have rows : after.ledger.row other = if other = row.sessionId then some row
          else (world.ledger.without (evictedIds env.sessionCap world.sessions)).row other := by
        rw [creates.ledger_eq]
        cases parent <;> simp [Ledger.insert, Ledger.setRow_row]
      rw [rows] at found
      split at found
      · rename_i isChild
        refine .inr ⟨isChild, fun fp current => ?_⟩
        rw [Option.some.injEq] at found
        subst found isRow
        rw [newSession] at current ⊢
        simp only [fingerprintFor, current]
      · rw [Ledger.without_row] at found
        split at found
        · cases found
        · exact .inl found
    · refine (creates.stackDepth_le root [row.sessionId] fun _ _ _ =>
        List.mem_singleton_self _).trans ?_
      exact Nat.add_le_add_right (World.cleared_stackDepth_le env world root) 1
  · intro raised after _ ledgerEq _
    exact ⟨fun child same => (by cases same), fun _ _ => .of_ledger ledgerEq⟩

/-- Under the limit, a frame is added only where it keeps to it. -/
theorem wp_createSession_shallow {workflowType currentStep fingerprint : String}
    {frameType : FrameType} {callStepId : Option String} {parent : SessionId} {limit : Nat} :
    Wp (createSession env workflowType currentStep (some parent) frameType callStepId (some limit) fingerprint)
    (fun outcome after => ∀ child, outcome = .ok child →
        ∀ root, after.stackDepth root ≤ max (world.stackDepth root) limit) world := by
  refine wp_createSession_room.using (wp_createSession ?_ ?_)
  · intro now after row _ creates room child same root
    cases same
    have fits := room _ rfl
    by_cases under : root = ((world.cleared env).standing parent).1
    · have deep := creates.stackDepth_le root [row.sessionId] fun _ _ _ => List.mem_singleton_self _
      rw [under] at deep ⊢
      exact (deep.trans (show _ + 1 ≤ limit from fits)).trans (Nat.le_max_right _ _)
    · have deep := creates.stackDepth_le root [] fun new isNew isRoot => by
        rw [Option.map_some, Option.some.injEq, ← World.evicted, ← World.cleared_ledger] at isNew
        rw [← isNew] at isRoot
        exact absurd isRoot.symm under
      exact (deep.trans (World.cleared_stackDepth_le env world root)).trans (Nat.le_max_left _ _)
  · intro raised after _ _ _ _ child same
    cases same

theorem wp_createSession_unframed {workflowType currentStep fingerprint : String}
    {frameType : FrameType} {callStepId : Option String} {limit : Option Nat} :
    Wp (createSession env workflowType currentStep none frameType callStepId limit fingerprint)
    (fun outcome after => ∀ child, outcome = .ok child →
        ∀ root, after.stackDepth root ≤ world.stackDepth root) world := by
  refine wp_createSession ?_ ?_
  · intro now after row _ creates child _ root
    exact (creates.stackDepth_le root [] fun new isNew => (by cases isNew)).trans
      (World.cleared_stackDepth_le env world root)
  · intro raised after _ _ _ child same
    cases same

/-! The protocol of a call. -/

inductive CapPhase where
  | begun
  /-- A call of `enter_sub_workflow` that has not put its child above the session. -/
  | entering
  | stale (checks : Bool)
  /-- The number of active sessions was below the cap when the call looked. -/
  | counted
  | spent (child : SessionId)
  | entered

def CapPhase.isIdle : CapPhase → Bool
  | .begun | .entering => true
  | _ => false

def CapPhase.isCounted : CapPhase → Bool
  | .counted => true
  | _ => false

def CapPhase.isUsed : CapPhase → Bool
  | .counted | .spent _ => true
  | _ => false

def CapPhase.isEntered : CapPhase → Bool
  | .entered => true
  | _ => false

def CapPhase.checks : CapPhase → Bool
  | .entering | .entered => false
  | .stale checks => checks
  | _ => true

inductive CapMoves (deployment : Deployment) : Protocol Access World CapPhase
  | calm {phase : CapPhase} {tag : Access} {before after : World} (calm : Unshifted before after) :
      CapMoves deployment phase tag before after phase
  | finds {phase : CapPhase} {tag : Access} {world : World} {sid : SessionId} {row : Session}
      {fp : String}
      (idle : phase.isIdle = true) (found : world.ledger.row sid = some row)
      (current : deployment.workflowFingerprints.get? row.workflowType = some fp)
      (drifted : row.workflowFingerprint ≠ fp) :
        CapMoves deployment phase tag world world (.stale phase.checks)
  | marks {checks : Bool} {tag : Access} {before after : World} {sid : SessionId}
      (marked : Rewritten (· = sid) before after) :
      CapMoves deployment (.stale checks) tag before after (.stale checks)
  | counts {tag : Access} {world : World} (room : world.countActive < activeCap) :
      CapMoves deployment .begun tag world world .counted
  | creates {tag : Access} {before after : World} {child : SessionId}
      (added : Added deployment child before after)
      (shallow : ∀ root, after.stackDepth root ≤ max (before.stackDepth root) maxStackDepth) :
      CapMoves deployment .counted tag before after (.spent child)
  | settles {tag : Access} {before after : World} {child : SessionId}
      (settled : Rewritten (· = child) before after) :
      CapMoves deployment (.spent child) tag before after (.spent child)
  | enters {tag : Access} {before after : World} {child : SessionId}
      (added : Added deployment child before after) :
      CapMoves deployment .entering tag before after .entered

theorem CapMoves.checks_eq {phase later : CapPhase} {tag : Access}
    (moves : CapMoves deployment phase tag before after later) : later.checks = phase.checks := by
  cases moves <;> rfl

namespace Opening

open Interleaved

section Follow

variable {β : Type} {ends : CapPhase → Except Exn β → Prop} {phase : CapPhase} {next : α → Tool β}

theorem follows_query {view : World → α}
    (rest : ∀ world, Follows (CapMoves deployment) ends phase (next (view world))) :
    Follows (CapMoves deployment) ends phase (query view >>= next) :=
  fun state => ⟨phase, .calm (.refl _ state), rest state⟩

theorem follows_update {body : Server α}
    (moves : ∀ before after outcome, body.run before = (outcome, after) →
      CapMoves deployment phase .plain before after phase)
    (raises : ∀ raised, ends phase (.error raised))
    (rest : ∀ value, Follows (CapMoves deployment) ends phase (next value)) :
    Follows (CapMoves deployment) ends phase (update body >>= next) := by
  intro state
  refine ⟨phase, moves state _ _ rfl, ?_⟩
  change Follows (CapMoves deployment) ends phase (Thread.bind (.done (body.run state).1) next)
  cases (body.run state).1 with
  | error raised => exact raises raised
  | ok value => exact rest value

theorem follows_calm {body : Server α}
    (calm : ∀ world, Wp body (fun _ after => Unshifted world after) world)
    (raises : ∀ raised, ends phase (.error raised))
    (rest : ∀ value, Follows (CapMoves deployment) ends phase (next value)) :
    Follows (CapMoves deployment) ends phase (update body >>= next) :=
  follows_update (fun _ _ _ ran => .calm (Wp.elim (calm _) ran)) raises rest

end Follow

section Tools

variable {phase : CapPhase} {sessionId : String}

/-- How a call ends is open. -/
abbrev Ended (_ : CapPhase) (_ : Except Exn Val) : Prop := True

theorem follows_topFrameFor {next : Option Frame → Tool Val}
    (rest : ∀ found, Follows (CapMoves deployment) Ended phase (next found)) :
    Follows (CapMoves deployment) Ended phase (topFrameFor sid >>= next) :=
  fun first => ⟨phase, .calm (.refl _ first), fun second => ⟨phase, .calm (.refl _ second), rest _⟩⟩

theorem follows_resolveSession {presented : String}
    {next : Except Val (Session × Workflow) → Tool Val} (idle : phase.isIdle = true)
    (refused : ∀ later err, Follows (CapMoves deployment) Ended later (next (.error err)))
    (resolved : ∀ session wf,
      Follows (CapMoves deployment) Ended phase (next (.ok (session, wf)))) :
    Follows (CapMoves deployment) Ended phase (Interleaved.resolveSession env deployment presented sid >>= next) := by
  intro world
  change ∃ later, CapMoves deployment phase .plain world world later ∧
    Follows (CapMoves deployment) Ended later
    (Thread.bind (Thread.bind (.done (.ok (world.sessions.lookup sid))) _) next)
  cases found : world.sessions.lookup sid with
  | none => exact ⟨phase, .calm (.refl _ world), refused _ _⟩
  | some session =>
      simp only [Thread.bind]
      split
      · exact ⟨phase, .calm (.refl _ world), refused _ _⟩
      split
      · exact ⟨phase, .calm (.refl _ world), refused _ _⟩
      split
      · exact ⟨phase, .calm (.refl _ world), refused _ _⟩
      split
      · split
        · rename_i currentFp current drifted
          have marks : ∀ outcome : Except Exn Unit,
            Follows (CapMoves deployment) Ended (.stale phase.checks)
              (Thread.bind (Thread.bind (.done outcome) fun _ =>
                pure (.error (workflowChangedEnvelope env session currentFp))) next) := by
            rintro (raised | _)
            · trivial
            · exact refused _ _
          refine ⟨_, .finds idle found current drifted, fun state => ?_⟩
          exact ⟨_, .marks wp_updateCurrentStep_rewritten, marks _⟩
        · exact ⟨phase, .calm (.refl _ world), resolved session _⟩
      · exact ⟨phase, .calm (.refl _ world), resolved session _⟩

theorem follows_trapErrors {field : String} {sessionId : Option String} {body : Tool Val}
    (start : Follows (CapMoves deployment) Ended phase body) :
    Follows (CapMoves deployment) Ended phase (Interleaved.trapErrors env field sessionId body) := by
  refine follows_rescue start (fun _ _ holds => holds) fun later raised _ => ?_
  cases raised <;> trivial

theorem follows_withSession {checks : List (String × String × Bool)}
    {body : Session → Workflow → Tool Val} (idle : phase.isIdle = true)
    (resolved : ∀ session wf, Follows (CapMoves deployment) Ended phase (body session wf)) :
    Follows (CapMoves deployment) Ended phase (Interleaved.withSession env deployment sessionId checks body) := by
  unfold Interleaved.withSession
  cases checkStrs checks with
  | some err => trivial
  | none => exact follows_resolveSession idle (fun _ _ => trivial) resolved

theorem follows_enterSubWorkflow {callStepId : String} :
    Follows (CapMoves deployment) Ended .entering (Interleaved.enterSubWorkflow env deployment sessionId callStepId) := by
  refine follows_trapErrors (follows_withSession rfl fun parent parentWf => ?_)
  dsimp only
  split
  · trivial
  split
  · trivial
  rename_i callStep target _
  refine follows_topFrameFor fun pending => ?_
  cases pending with
  | some frame => trivial
  | none =>
  dsimp only
  split
  · trivial
  rename_i name childWf _
  cases childContext env parent callStep with
  | error raised => trivial
  | ok context =>
  cases context with
  | error err => trivial
  | ok context =>
  intro state
  cases ran : (Megalos.createSession env name childWf.first.id (some parent.sessionId) .call none none
    (fingerprintFor env deployment name)).run state with
  | mk outcome after =>
  obtain ⟨added, calm⟩ := Wp.elim wp_createSession_added ran
  dsimp only
  cases outcome with
  | error raised => exact ⟨_, .calm (calm raised rfl), trivial⟩
  | ok child =>
      refine ⟨.entered, .enters (added child rfl), ?_⟩
      refine follows_calm (fun _ => wp_incrementVisit_calm) (fun _ => trivial) fun _ => ?_
      exact follows_calm (fun _ => wp_setCalledSession_calm) (fun _ => trivial) fun _ => trivial

theorem follows_sessionCapError {active : Nat} :
    Follows (CapMoves deployment) Ended phase (Interleaved.sessionCapError env active) :=
  follows_query fun _ => follows_query fun _ => follows_query fun _ => trivial

theorem follows_countActive {next : Nat → Tool Val}
    (full : ∀ active, activeCap ≤ active → Follows (CapMoves deployment) Ended .begun (next active))
    (room : ∀ active, ¬activeCap ≤ active →
      Follows (CapMoves deployment) Ended .counted (next active)) :
    Follows (CapMoves deployment) Ended .begun (query World.countActive >>= next) := by
  intro state
  by_cases isFull : activeCap ≤ state.countActive
  · exact ⟨.begun, .calm (.refl _ state), full _ isFull⟩
  · exact ⟨.counted, .counts (Nat.lt_of_not_ge isFull), room _ isFull⟩

def Spent (phase : CapPhase) : Except Exn (Except Val SessionId) → Prop
  | .ok (.ok child) => phase = .spent child
  | _ => True

theorem follows_spawned {workflowType currentStep advice : String} {frameType : FrameType}
    {callStepId : Option String} :
    Follows (CapMoves deployment) Spent .counted (Thread.rescue (do
        return Except.ok (← Interleaved.createSession env workflowType currentStep sid frameType callStepId (some maxStackDepth)
          (fingerprintFor env deployment workflowType)))
      fun raised => match raised with
        | .stackFull root depth limit => do
            return .error (← Interleaved.stackFullError env root depth limit advice)
        | other => .raise other) := by
  have created : Follows (CapMoves deployment) Spent .counted (do
      return Except.ok (← Interleaved.createSession env workflowType currentStep sid frameType callStepId (some maxStackDepth)
        (fingerprintFor env deployment workflowType))) := by
    intro state
    cases ran : (Megalos.createSession env workflowType currentStep (some sid) frameType callStepId (some maxStackDepth)
      (fingerprintFor env deployment workflowType)).run state with
    | mk outcome after =>
    obtain ⟨added, calm⟩ := Wp.elim wp_createSession_added ran
    have shallow := Wp.elim wp_createSession_shallow ran
    dsimp only
    cases outcome with
    | error raised => exact ⟨_, .calm (calm raised rfl), trivial⟩
    | ok child => exact ⟨.spent child, .creates (added child rfl) (shallow child rfl), rfl⟩
  refine follows_rescue created (fun _ _ holds => holds) fun later raised _ => ?_
  cases raised with
  | stackFull root depth limit => exact fun state => ⟨later, .calm (.refl _ state), trivial⟩
  | _ => trivial

theorem follows_pushFlow {workflowType pausedAtStep context : String} :
    Follows (CapMoves deployment) Ended .begun
      (Interleaved.pushFlow env deployment sessionId workflowType pausedAtStep context) := by
  refine follows_trapErrors (follows_withSession rfl fun outer outerWf => ?_)
  split
  · trivial
  refine follows_topFrameFor fun top => ?_
  cases top with
  | some frame => trivial
  | none =>
  dsimp only
  split
  · trivial
  refine follows_query fun _ => follows_query fun current => ?_
  split
  · exact follows_query fun _ => trivial
  refine follows_countActive (fun active full => ?_) fun active room => ?_
  · rw [if_pos full]
    exact follows_sessionCapError
  rw [if_neg room]
  refine follows_bind follows_spawned ?_ fun _ _ _ => trivial
  rintro later (err | child) holds
  · trivial
  obtain rfl : later = .spent child := holds
  refine follows_calm (fun _ => wp_incrementVisit_calm) (fun _ => trivial) fun _ => ?_
  refine follows_query fun visited => ?_
  split
  · trivial
  · exact follows_query fun _ => trivial

abbrev Stays (phase : CapPhase) {β : Type} (later : CapPhase) (_ : Except Exn β) : Prop :=
    later = phase

theorem stays_attemptCascade {body : Tool α}
    (start : Follows (CapMoves deployment) (Stays phase) phase body) :
    Follows (CapMoves deployment) (Stays phase) phase (Interleaved.attemptCascade body) := by
  have tried : Follows (CapMoves deployment) (Stays phase) phase
      (do return (Except.ok (← body) : Except (String × String) α)) :=
    follows_bind start (fun _ _ same => same) fun _ _ same => same
  refine follows_rescue tried (fun _ _ same => same) ?_
  intro later raised same
  cases raised <;> exact same

theorem stays_calm {body : Server α}
    (calm : ∀ world, Wp body (fun _ after => Unshifted world after) world) :
    Follows (CapMoves deployment) (Stays phase) phase (update body) :=
  fun state => ⟨phase, .calm (calm state), rfl⟩

theorem stays_autoExecuteMcpSteps {registry : Option Registry} {wf : Workflow} {fuel : Nat}
    {pointer : Val} {stepData : StepData} : Follows (CapMoves deployment) (Stays phase) phase
      (Interleaved.autoExecuteMcpSteps env registry wf sid fuel pointer stepData) := by
  induction fuel generalizing pointer stepData with
  | zero => rfl
  | succ fuel ih =>
      unfold Interleaved.autoExecuteMcpSteps
      split
      · rfl
      cases findStep wf pointer with
      | none => rfl
      | some entry =>
      dsimp only
      split
      · rfl
      refine follows_bind (show Follows _ (Stays phase) phase (ofResult _) from rfl) ?_ fun _ _ same => same
      rintro _ skippedSet rfl
      refine follows_bind (stays_attemptCascade (stays_calm fun _ =>
        wp_executeMcpToolCallStep_calm)) ?_
        fun _ _ same => same
      rintro _ (cascade | envelope) rfl
      · rfl
      dsimp only
      refine follows_bind (stays_calm fun _ => wp_incrementVisit_calm) ?_ fun _ _ same => same
      rintro _ _ rfl
      refine follows_bind (stays_attemptCascade (show Follows _ (Stays _) _ (ofResult _) from rfl)) ?_
        fun _ _ same => same
      rintro _ (cascade | skips) rfl
      · rfl
      · exact ih

theorem follows_runFront {workflowType context : String} {wf : Workflow} :
    Follows (CapMoves deployment) Ended (.spent sid)
    (Interleaved.runFront env deployment workflowType context wf sid) := by
  refine follows_calm (fun _ => wp_incrementVisit_calm) (fun _ => trivial) fun _ => ?_
  refine follows_bind stays_autoExecuteMcpSteps ?_ fun _ _ _ => trivial
  rintro later ⟨pointer, stepData, cascade⟩ rfl
  have settles : ∀ before after outcome,
      (updateCurrentStep env sid pointer (some stepData)).run before = (outcome, after) →
        CapMoves deployment (.spent sid) .plain before after (.spent sid) :=
    fun _ _ _ ran => .settles (Wp.elim wp_updateCurrentStep_rewritten ran)
  cases cascade with
  | some err => exact follows_update settles (fun _ => trivial) fun _ => trivial
  | none =>
      dsimp only
      split
      · refine follows_update settles (fun _ => trivial) fun _ => ?_
        split
        · exact follows_calm (fun _ => wp_incrementVisit_calm) (fun _ => trivial) fun _ => trivial
        · trivial
      · trivial

theorem follows_startWorkflow {workflowType context : String} :
    Follows (CapMoves deployment) Ended .begun (Interleaved.startWorkflow env deployment workflowType context) := by
  refine follows_trapErrors ?_
  split
  · trivial
  split
  · trivial
  rename_i wf _
  refine follows_countActive (fun active full => ?_) fun active room => ?_
  · rw [if_pos full]
    exact follows_sessionCapError
  rw [if_neg room]
  intro state
  cases ran : (Megalos.createSession env workflowType wf.first.id none .call none none
    (fingerprintFor env deployment workflowType)).run state with
  | mk outcome after =>
  obtain ⟨added, calm⟩ := Wp.elim wp_createSession_added ran
  have unframed := Wp.elim wp_createSession_unframed ran
  dsimp only
  cases outcome with
  | error raised => exact ⟨_, .calm (calm raised rfl), trivial⟩
  | ok child =>
      refine ⟨.spent child, .creates (added child rfl) fun root => ?_, follows_runFront⟩
      exact (unframed child rfl root).trans (Nat.le_max_left _ _)

end Tools

end Opening

/-! What holds along a run of the protocol. -/

section Run

variable {ι : Type} [DecidableEq ι] {start : World} {trace : List (ι × Access)}
    {starts phases : ι → CapPhase} {call : ι}

theorem CapMoves.run_checks (run : Run (CapMoves deployment) start starts trace world phases)
    (call : ι) :
    (phases call).checks = (starts call).checks := by
  induction run with
  | start => rfl
  | @move trace before after reached other tag later ran takes ih =>
      by_cases same : call = other
      · subst same
        rw [Function.update_self, takes.checks_eq, ih]
      · rw [Function.update_of_ne same, ih]

variable [Fintype ι]

/-- Only calls that do not look at the cap make a stack deeper than the cap. -/
theorem CapMoves.run_depth (run : Run (CapMoves deployment) start starts trace world phases)
    (root : SessionId) :
    world.stackDepth root ≤ max (start.stackDepth root) maxStackDepth + countIn CapPhase.isEntered phases := by
  induction run with
  | start => omega
  | @move trace before after reached call tag later ran takes ih =>
      generalize isPhase : reached call = phase at takes
      have counts := countIn_update CapPhase.isEntered reached call later
      rw [isPhase] at counts
      cases takes with
      | calm calm =>
          have := calm.stackDepth_le root
          omega
      | finds idle =>
          have unentered : phase.isEntered = false :=
            by cases phase <;> simp_all [CapPhase.isIdle, CapPhase.isEntered]
          simp only [unentered, show (CapPhase.stale phase.checks).isEntered = false from rfl,
            Bool.false_eq_true, if_false] at counts
          omega
      | marks marked =>
          have := marked.stackDepth_le root
          omega
      | counts =>
          simp only [CapPhase.isEntered, Bool.false_eq_true, if_false] at counts
          omega
      | creates added shallow =>
          have := shallow root
          simp only [CapPhase.isEntered, Bool.false_eq_true, if_false] at counts
          omega
      | settles settled =>
          have := settled.stackDepth_le root
          omega
      | enters added =>
          have := added.deep root
          simp only [CapPhase.isEntered, Bool.false_eq_true, if_false, if_true] at counts
          omega

/-- What the calls have put into the store, and may still put there, is within the cap and one for
each call but one. -/
structure Charged (deployment : Deployment) (start world : World) (starts phases : ι → CapPhase) :
    Prop where
  stamped : world.Stamped deployment
  fresh : ∀ call checks, phases call ≠ .stale checks
  room : ∃ kids, (∀ call child, phases call = .spent child → child ∈ kids) ∧
    kids.length + countIn CapPhase.isCounted phases ≤ countIn CapPhase.isUsed phases ∧
    world.occupied kids + countIn CapPhase.isCounted phases ≤
      max start.countActive (activeCap - 1 + countIn CapPhase.checks starts) + countIn CapPhase.isEntered phases

omit [DecidableEq ι] in
theorem Charged.rewritten (charged : Charged deployment start before starts phases)
    (rewritten : Rewritten touched before after)
    (known : ∀ other, touched other → ∃ call, phases call = .spent other) :
    Charged deployment start after starts phases := by
  obtain ⟨kids, listed, within, fits⟩ := charged.room
  refine ⟨rewritten.stamped charged.stamped, charged.fresh, kids, listed, within, ?_⟩
  have := rewritten.occupied_le kids fun other moved => by
    obtain ⟨call, isSpent⟩ := known other moved
    exact listed call other isSpent
  omega

/-- A call finds room.  The calls before it have put into the store what they could. -/
theorem Charged.count (charged : Charged deployment start world starts phases)
    (isBegun : phases call = .begun)
    (checked : countIn CapPhase.isUsed (Function.update phases call .counted) ≤ countIn CapPhase.checks starts)
    (free : world.countActive < activeCap) :
    Charged deployment start world starts (Function.update phases call .counted) := by
  obtain ⟨kids, listed, within, fits⟩ := charged.room
  have counted := countIn_update CapPhase.isCounted phases call .counted
  have used := countIn_update CapPhase.isUsed phases call .counted
  have occupied := world.occupied_le kids
  simp only [isBegun, CapPhase.isCounted, CapPhase.isUsed, Bool.false_eq_true, if_false,
    if_true] at counted used
  refine ⟨charged.stamped, fun other checks => ?_, kids, fun other child isSpent => ?_, by omega,
    ?_⟩
  · by_cases same : other = call
    · subst same
      simp
    · rw [Function.update_of_ne same]
      exact charged.fresh other checks
  · by_cases same : other = call
    · subst same
      simp at isSpent
    · rw [Function.update_of_ne same] at isSpent
      exact listed other child isSpent
  · omega

theorem Charged.create (charged : Charged deployment start before starts phases)
    (isCounted : phases call = .counted) (added : Added deployment child before after) :
    Charged deployment start after starts (Function.update phases call (.spent child)) := by
  obtain ⟨kids, listed, within, fits⟩ := charged.room
  have counted := countIn_update CapPhase.isCounted phases call (.spent child)
  have used := countIn_update CapPhase.isUsed phases call (.spent child)
  have entered := countIn_update CapPhase.isEntered phases call (.spent child)
  have occupied := added.occupied_le kids (child :: kids) fun other => List.mem_cons.mp
  simp only [isCounted, CapPhase.isCounted, CapPhase.isUsed, CapPhase.isEntered, Bool.false_eq_true,
    if_false, if_true]
    at counted used entered
  refine ⟨added.stamped charged.stamped, fun other checks => ?_, child :: kids,
    fun other kid isSpent => ?_, ?_, by omega⟩
  · by_cases same : other = call
    · subst same
      simp
    · rw [Function.update_of_ne same]
      exact charged.fresh other checks
  · by_cases same : other = call
    · subst same
      rw [Function.update_self, CapPhase.spent.injEq] at isSpent
      simp [isSpent]
    · rw [Function.update_of_ne same] at isSpent
      exact List.mem_cons_of_mem _ (listed other kid isSpent)
  · rw [List.length_cons]
    omega

theorem Charged.enter (charged : Charged deployment start before starts phases)
    (isEntering : phases call = .entering) (added : Added deployment child before after) :
    Charged deployment start after starts (Function.update phases call .entered) := by
  obtain ⟨kids, listed, within, fits⟩ := charged.room
  have counted := countIn_update CapPhase.isCounted phases call .entered
  have used := countIn_update CapPhase.isUsed phases call .entered
  have entered := countIn_update CapPhase.isEntered phases call .entered
  have occupied := added.occupied_le kids kids fun other => .inr
  simp only [isEntering, CapPhase.isCounted, CapPhase.isUsed, CapPhase.isEntered,
    Bool.false_eq_true, if_false, if_true]
    at counted used entered
  refine ⟨added.stamped charged.stamped, fun other checks => ?_, kids, fun other kid isSpent => ?_,
    by omega, by omega⟩
  · by_cases same : other = call
    · subst same
      simp
    · rw [Function.update_of_ne same]
      exact charged.fresh other checks
  · by_cases same : other = call
    · subst same
      simp at isSpent
    · rw [Function.update_of_ne same] at isSpent
      exact listed other kid isSpent

theorem Charged.of_run (stamped : start.Stamped deployment)
    (idle : ∀ call, (starts call).isIdle = true)
    (run : Run (CapMoves deployment) start starts trace world phases) :
    Charged deployment start world starts phases := by
  induction run with
  | start =>
      have unspent : ∀ call phase, starts call = phase → phase.isIdle = true :=
        fun call phase same => same ▸ idle call
      have uncounted : countIn CapPhase.isCounted starts = 0 := by
        refine Finset.card_eq_zero.mpr (Finset.filter_eq_empty_iff.mpr fun call _ => ?_)
        have := idle call
        cases isPhase : starts call <;> simp_all [CapPhase.isIdle, CapPhase.isCounted]
      have occupied := start.occupied_le []
      rw [List.length_nil] at occupied
      refine ⟨stamped, fun call checks same => ?_, [], fun call child same => ?_,
        by simp [uncounted], by omega⟩
      · cases unspent call _ same
      · cases unspent call _ same
  | @move trace before after reached call tag later ran takes ih =>
      generalize isPhase : reached call = phase at takes
      cases takes with
      | calm calm =>
          rw [← isPhase, Function.update_eq_self]
          exact ih.rewritten calm fun _ nothing => nothing.elim
      | finds idle found current drifted => exact absurd (ih.stamped _ _ _ found current) drifted
      | marks marked => exact absurd isPhase (ih.fresh call _)
      | counts free =>
          have takes : CapMoves deployment (reached call) tag before before .counted :=
            isPhase ▸ .counts free
          have checked : countIn CapPhase.isUsed (Function.update reached call .counted) ≤
              countIn CapPhase.checks starts := by
            refine countIn_le fun other used => ?_
            rw [← CapMoves.run_checks (ran.move takes) other]
            cases isOther : Function.update reached call .counted other <;> simp_all [CapPhase.isUsed, CapPhase.checks]
          exact ih.count isPhase checked free
      | creates added shallow => exact ih.create isPhase added
      | settles settled =>
          rw [← isPhase, Function.update_eq_self]
          exact ih.rewritten settled fun other same => ⟨call, same ▸ isPhase⟩
      | enters added => exact ih.enter isPhase added

end Run

section Opening

variable {ι : Type} [Fintype ι] [DecidableEq ι] {openings : ι → Opening} {trace : List (ι × Access)}
  {pool : Pool ι Access World Exn Val}

def Opening.phase (opening : Opening) : CapPhase := if opening.checks then .begun else .entering

theorem Opening.follows (opening : Opening) :
    Follows (CapMoves deployment) Opening.Ended opening.phase (opening.thread env deployment) := by
  cases opening with
  | startWorkflow workflowType context => exact Opening.follows_startWorkflow
  | child spawn =>
      cases spawn with
      | pushFlow => exact Opening.follows_pushFlow
      | enterSubWorkflow => exact Opening.follows_enterSubWorkflow

omit [DecidableEq ι] in
/-- The calls that have put a child above a session are among those that may. -/
theorem numberOf_entered {reached : ι → CapPhase}
    (same : ∀ call, (reached call).checks = (openings call).checks) :
    countIn CapPhase.isEntered reached ≤ numberOf false openings := by
  refine Finset.card_le_card (Finset.monotone_filter_right _ fun call _ entered => ?_)
  rw [← same call]
  cases isPhase : reached call <;> simp_all [CapPhase.isEntered, CapPhase.checks]

theorem Opening.phase_checks (opening : Opening) : opening.phase.checks = opening.checks := by
  unfold Opening.phase
  split
  · rename_i checks
    exact checks.symm
  · rename_i unchecked
    exact (Bool.eq_false_iff.mpr unchecked).symm

/-- Whatever the order of the accesses, no stack grows past the cap but by the calls that do not
look at it. -/
theorem openings_depth (ran : Execution (opening env deployment world openings) trace pool)
    (root : SessionId) :
    pool.state.stackDepth root ≤ max (world.stackDepth root) maxStackDepth + numberOf false openings := by
  obtain ⟨reached, run, -⟩ := Run.of_execution (fun call => (openings call).follows) ran
  have kinds : ∀ call, (reached call).checks = (openings call).checks := fun call =>
    (CapMoves.run_checks run call).trans (openings call).phase_checks
  exact (CapMoves.run_depth run root).trans (Nat.add_le_add_left (numberOf_entered kinds) _)

theorem ServedBy.stamped (served : ServedBy env deployment world) : world.Stamped deployment := by
  refine served.invariant (World.Stamped deployment) (fun sid row fp found => by cases found) ?_
  intro before request after sound stamped isServed serves sid new fp found current
  rcases serves.rowEffect sound found with ⟨row, there, change⟩ | ⟨-, birth⟩
  · have same := change.same
    rw [same.workflowFingerprint_eq]
    rw [same.workflowType_eq] at current
    exact stamped sid row fp there current
  · rw [isServed] at birth
    generalize request.call = call at birth
    cases birth with
    | started loaded opened =>
        rw [opened.same.workflowFingerprint_eq]
        rw [opened.same.workflowType_eq] at current
        simp only [newSession] at current ⊢
        rw [fingerprintFor, current]
    | spawned above loaded counts =>
        rw [counts.workflowFingerprint_eq]
        rw [counts.workflowType_eq] at current
        simp only [newSession] at current ⊢
        rw [fingerprintFor, current]

/-- Whatever the order of the accesses, the calls that look at the cap pass it by one for each of
them but one, and the others by one each. -/
theorem openings_active (served : ServedBy env deployment world)
    (ran : Execution (opening env deployment world openings) trace pool) :
    pool.state.countActive ≤ max world.countActive (activeCap - 1 + numberOf true openings) + numberOf false openings := by
  obtain ⟨reached, run, -⟩ := Run.of_execution (fun call => (openings call).follows) ran
  have kinds : ∀ call, (reached call).checks = (openings call).checks := fun call =>
    (CapMoves.run_checks run call).trans (openings call).phase_checks
  have idle : ∀ call, (openings call).phase.isIdle = true := by
    intro call
    unfold Opening.phase
    split <;> rfl
  obtain ⟨kids, -, -, fits⟩ := (Charged.of_run served.stamped idle run).room
  have checking : countIn CapPhase.checks (fun call => (openings call).phase) =
    numberOf true openings := by
    simp only [countIn, numberOf, Opening.phase_checks]
  have entered := numberOf_entered kinds
  have active := pool.state.countActive_le_occupied kids
  omega

end Opening

def busy : World :=
  serveAll sampleEnv (appOf sampleEnv nestedDocs) World.empty (.replicate 4 (.startWorkflow "inner" ""))

def newcomers : Bool → Opening := fun _ => .startWorkflow "inner" ""

def afterOpenings (world : World) (openings : Bool → Opening) (turns : List Bool) :
    List (Bool × Access) × Pool Bool Access World Exn Val :=
  Pool.play turns [] (opening sampleEnv (appOf sampleEnv nestedDocs) world openings)

/-- Both look before one of them creates: six sessions are active, as many as the bound says. -/
theorem openings_active_tight :
    (afterOpenings busy newcomers [true, false, true, false]).2.state.countActive = 6 ∧
      (afterOpenings busy newcomers [true, false, true, false]).2.state.countActive ≤
        max busy.countActive (activeCap - 1 + numberOf true newcomers) + numberOf false newcomers :=
  ⟨by rfl, openings_active (serveAll_served (by rfl)) (Execution.start.play _)⟩

def stacked : World :=
  serveAll sampleEnv (appOf sampleEnv nestedDocs) World.empty [.startWorkflow "inner" "",
    .pushFlow "s" "inner" "x" "", .pushFlow "ss" "inner" "x" ""]

def pushers : Bool → Opening := fun _ => .child (.pushFlow "sss" "inner" "x" "")

/-- Both calls find room for a third frame, and the transaction of the second finds none. -/
theorem openings_depth_held :
    (afterOpenings stacked pushers (.replicate 6 true ++ .replicate 6 false ++
      [true, false])).2.state.stackDepth ⟨"s"⟩ ≤
      max (stacked.stackDepth ⟨"s"⟩) maxStackDepth + numberOf false pushers :=
  openings_depth (Execution.start.play _) _

end Megalos
