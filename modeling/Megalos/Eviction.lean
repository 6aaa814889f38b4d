import Megalos.Bounded
import Megalos.Library.Selection
import Megalos.Sample

/-!
Making room: `create_session` removes the first sessions in the order of its query, so
many that the new one fits under the cap.
-/

namespace Megalos

open ChainForest KeyedTable Selection StatefulProgram StatefulProgram.Program

abbrev EvictsBefore (left right : Session) : Prop := evictsBefore left right = true

def Session.evictionTime (session : Session) : Timestamp :=
    session.completedAt.getD session.updatedAt

theorem evictsBefore_iff (left right : Session) : EvictsBefore left right ↔
    (left.currentStep = complete ∧ right.currentStep ≠ complete) ∨
      ((left.currentStep = complete ↔ right.currentStep = complete) ∧
        left.evictionTime ≤ right.evictionTime) := by
  unfold EvictsBefore evictsBefore Session.evictionTime
  by_cases leftDone : left.currentStep = complete <;> by_cases rightDone : right.currentStep =
    complete <;>
    simp [leftDone, rightDone]

instance : Std.Total EvictsBefore where
  total left right := by
    rw [evictsBefore_iff, evictsBefore_iff]
    rcases Nat.le_total left.evictionTime right.evictionTime with earlier | earlier <;> tauto

instance : IsTrans Session EvictsBefore where
  trans first second third := by
    rw [evictsBefore_iff, evictsBefore_iff, evictsBefore_iff]
    intro firstSecond secondThird
    rcases firstSecond with done | ⟨alike, earlier⟩
    · rcases secondThird with again | ⟨alike, -⟩ <;> tauto
    · rcases secondThird with done | ⟨same, later⟩
      · tauto
      · exact .inr ⟨alike.trans same, le_trans earlier later⟩

theorem evictedIds_eq (cap : Nat) (sessions : Table Session.sessionId) : evictedIds cap sessions =
    (firstBy EvictsBefore (sessions.size + 1 - cap) sessions.rows).map Session.sessionId := by
  unfold evictedIds
  split
  · rfl
  · rename_i room
    rw [show sessions.size + 1 - cap = 0 by omega]
    rfl

variable {env : Env} {deployment : Deployment} {world : World} {call : Call} {ledger : Ledger}
    {minted : Nat}

theorem World.cleared_sessions (env : Env) (world : World) : (world.cleared env).sessions =
    dropFirst EvictsBefore (world.sessions.size + 1 - env.sessionCap) world.sessions := by
  unfold cleared evicted
  rw [evictedIds_eq]
  rfl

theorem World.cleared_size (env : Env) (world : World) :
    (world.cleared env).sessions.size =
      world.sessions.size - (world.sessions.size + 1 - env.sessionCap) := by
  rw [cleared_sessions, dropFirst_size]

/-! The number of sessions. -/

def Ledger.RowsWithin (ledger : Ledger) (limit : Nat) : Prop :=
  ∀ world : World, world.ledger = ledger → world.sessions.size ≤ limit

theorem Ledger.rowsWithin (base : World) {limit : Nat} (extra : List SessionId)
    (covered : ∀ sid row, ledger.row sid = some row → sid ∈ extra ∨ (base.ledger.row sid).isSome)
    (room : base.sessions.size + extra.length ≤ limit) : ledger.RowsWithin limit := by
  rintro world rfl
  have all : ∀ table : Table Session.sessionId,
    (table.select fun _ => true).length = table.size := by
    intro table
    rw [Table.select, List.filter_true, Table.size]
  rw [← all]
  refine le_trans (Table.select_length_le extra ?_) (all base.sessions ▸ room)
  intro sid row found _
  refine (covered sid row found).imp_right fun there => ?_
  obtain ⟨old, found⟩ := Option.isSome_iff_exists.mp there
  exact ⟨old, found, rfl⟩

theorem Ledger.rowsWithin_created (world : World) (new : SessionId) (positive : 0 < env.sessionCap)
    (covered : ∀ sid row, ledger.row sid = some row →
      sid = new ∨ ((world.ledger.without (world.evicted env)).row sid).isSome) : ledger.RowsWithin env.sessionCap := by
  have size := World.cleared_size env world
  refine Ledger.rowsWithin (world.cleared env) [new] ?_ ?_
  · intro sid row found
    rw [World.cleared_ledger, List.mem_singleton]
    exact covered sid row found
  · rw [size, List.length_singleton]
    omega

theorem Shape.rowsWithin (positive : 0 < env.sessionCap)
    (within : world.sessions.size ≤ env.sessionCap)
    (shape : Shape env deployment world call ledger minted) :
    ledger.RowsWithin env.sessionCap := by
  cases shape with
  | shrunk shrinks cause grown =>
      refine Ledger.rowsWithin world [] ?_ within
      intro sid row found
      obtain ⟨-, old, there, -⟩ := shrinks.row_of_after found
      exact .inr (there ▸ rfl)
  | rooted makesRoom unowned =>
      refine Ledger.rowsWithin_created world (env.token world.minted) positive ?_
      intro sid row found
      rw [Ledger.setRow_row] at found
      split at found
      · exact .inl ‹_›
      · exact .inr (found ▸ rfl)
  | spawned above there bare shrinks owned placed =>
      refine Ledger.rowsWithin_created world (env.token world.minted) positive ?_
      intro sid row found
      rw [Ledger.setFrame_row, Ledger.setRow_row] at found
      split at found
      · exact .inl ‹_›
      · obtain ⟨kept, old, there, -⟩ := shrinks.row_of_after found
        rw [Ledger.without_row, if_neg kept, there]
        exact .inr rfl

theorem Serves.keepsCap {request : Request} {before after : World} (positive : 0 < env.sessionCap)
    (sound : before.Sound env) (within : before.sessions.size ≤ env.sessionCap)
    (serves : Serves env before request after) : after.sessions.size ≤ env.sessionCap :=
  (serves.shape sound).rowsWithin positive within after rfl

/-! The chain that is extended. -/

def Ledger.AtOrBelow (ledger : Ledger) (top sid : SessionId) : Prop :=
  sid = top ∨ sid = (ledger.standing top).1 ∨ ∃ frame, ledger.frame sid = some frame ∧
    frame.rootSessionId = (ledger.standing top).1 ∧ frame.depth < (ledger.standing top).2

/-- The rows of the session and of all below it are still there. -/
def World.KeepsChain (before after : World) (top : SessionId) : Prop :=
  ∀ sid, before.ledger.AtOrBelow top sid → (before.ledger.row sid).isSome →
    (after.ledger.row sid).isSome

def World.ChainRanksLate (world : World) (cap : Nat) (top : SessionId) : Prop :=
  ∀ sid row, world.ledger.AtOrBelow top sid → world.ledger.row sid = some row →
    world.sessions.size + 1 - cap ≤ ahead EvictsBefore Session.sessionId row world.sessions.rows

theorem World.mem_evicted_iff {sid : SessionId} {row : Session} (cap : Nat)
    (found : world.ledger.row sid = some row) :
    sid ∈ evictedIds cap world.sessions ↔
      ahead EvictsBefore Session.sessionId row world.sessions.rows < world.sessions.size + 1 - cap := by
  have member := Table.lookup_mem found
  rw [evictedIds_eq, ← World.row_sessionId found, key_mem_firstBy member,
    mem_firstBy_iff world.sessions.keysNodup member]

/-- A committed `create_session` removes the first sessions of the query, and no other. -/
theorem createSession_stays_iff {after : World} {parent : Option SessionId} {child sid : SessionId}
    {row : Session} {workflowType currentStep fingerprint : String} {frameType : FrameType}
    {callStepId : Option String}
    {limit : Option Nat} {cap : Nat}
    (issued : ∀ {sid row}, world.ledger.row sid = some row → Issued env world.minted sid)
    (creates : (createSession { env with sessionCap :=
      cap } workflowType currentStep parent frameType callStepId
      limit fingerprint).run world = (.ok child, after)) (found : world.ledger.row sid = some row) :
    (after.ledger.row sid).isSome ↔ sid ∉ evictedIds cap world.sessions := by
  have committed : Wp (createSession { env with sessionCap :=
    cap } workflowType currentStep parent frameType
      callStepId limit fingerprint) (fun outcome after => outcome = .ok child →
        ((after.ledger.row sid).isSome ↔ sid ∉ evictedIds cap world.sessions)) world := by
    refine wp_createSession ?_ ?_
    · intro now final new newEq created _
      have apart : sid ≠ new.sessionId := by
        rw [created.sessionId_eq]
        rintro rfl
        exact Issued.not_next (issued found)
      rw [created.ledger_eq]
      cases parent <;>
        simp only [Ledger.insert, Option.map_some, Option.map_none, Ledger.setFrame_row,
          Ledger.setRow_row, if_neg apart, Ledger.without_row, found] <;>
        split <;> simp_all
    · intro raised final _ _ _ never
      cases never
  exact Wp.elim committed creates rfl

theorem createSession_size_le {after : World} {parent : Option SessionId} {child : SessionId}
    {workflowType currentStep fingerprint : String} {frameType : FrameType}
    {callStepId : Option String}
    {limit : Option Nat} {cap : Nat} (positive : 1 ≤ cap)
    (creates : (createSession { env with sessionCap :=
      cap } workflowType currentStep parent frameType callStepId
      limit fingerprint).run world = (.ok child, after)) : after.sessions.size ≤ cap := by
  have committed : Wp (createSession { env with sessionCap :=
    cap } workflowType currentStep parent frameType
      callStepId limit fingerprint) (fun outcome after => outcome = .ok child →
        after.ledger.RowsWithin cap) world := by
    refine wp_createSession ?_ ?_
    · intro now final new newEq created _
      have rows : ∀ sid, final.ledger.row sid = if sid = new.sessionId then some new
          else (world.ledger.without (evictedIds cap world.sessions)).row sid := by
        intro sid
        rw [created.ledger_eq]
        cases parent <;> simp [Ledger.insert, Ledger.setRow_row]
      have covered : ∀ sid row, final.ledger.row sid = some row → sid = new.sessionId ∨
          ((world.ledger.without (World.evicted { env with sessionCap :=
            cap } world)).row sid).isSome := by
        intro sid row found
        rw [rows] at found
        split at found
        · exact .inl ‹_›
        · exact .inr (found ▸ rfl)
      exact @Ledger.rowsWithin_created { env with sessionCap :=
        cap } _ world new.sessionId positive covered
    · intro raised final _ _ _ never
      cases never
  exact Wp.elim committed creates rfl after rfl

/-- From any reachable state, `create_session` keeps the chain it extends exactly when the chain
ranks late enough. -/
theorem createSession_keepsChain_iff {allowed : World → Request → Prop} {after : World}
    {parent child : SessionId} {workflowType currentStep fingerprint : String}
    {frameType : FrameType} {callStepId : Option String}
    {limit : Option Nat} (reachable : Reachable env allowed world) (cap : Nat)
    (creates : (createSession { env with sessionCap :=
      cap } workflowType currentStep (some parent) frameType callStepId
      limit fingerprint).run world = (.ok child, after)) :
    world.KeepsChain after parent ↔ world.ChainRanksLate cap parent := by
  have sound := reachable.sound
  have rows : ∀ {sid row}, world.ledger.row sid = some row →
      ((after.ledger.row sid).isSome ↔ sid ∉ evictedIds cap world.sessions) :=
    fun found => createSession_stays_iff sound.rowIssued creates found
  constructor
  · intro keeps sid row below found
    by_contra early
    have stays := keeps sid below (found ▸ rfl)
    rw [rows found] at stays
    exact stays ((World.mem_evicted_iff cap found).mpr (by omega))
  · intro late sid below there
    obtain ⟨row, found⟩ := Option.isSome_iff_exists.mp there
    rw [rows found, World.mem_evicted_iff cap found]
    have := late sid row below found
    omega

/-- One session, and a second one after it. -/
def twoSessions : World :=
  serveAll sampleEnv (appOf sampleEnv nestedDocs) World.empty [.startWorkflow "outer" "",
    .startWorkflow "inner" ""]

/-- A child of the session with that id, the cap being two. -/
def childUnderTwo (parent : SessionId) : Except Exn SessionId × World :=
  (createSession { sampleEnv with sessionCap :=
    2 } "middle" "m" (some parent) .call none none "").run twoSessions

theorem youngerParent_kept :
    twoSessions.KeepsChain (childUnderTwo (sampleToken 1)).2 (sampleToken 1) := by
  have reachable : ServedBy sampleEnv (appOf sampleEnv nestedDocs) twoSessions :=
    serveAll_served (by rfl)
  have creates : (createSession { sampleEnv with sessionCap :=
    2 } "middle" "m" (some (sampleToken 1)) .call none none
      "").run twoSessions = (.ok (sampleToken 2), (childUnderTwo (sampleToken 1)).2) :=
        Prod.ext rfl rfl
  refine (createSession_keepsChain_iff reachable 2 creates).mpr ?_
  intro sid row below found
  have unframed : ∀ other, twoSessions.ledger.frame other = none := fun _ => rfl
  have isTop : sid = sampleToken 1 := by
    rcases below with same | same | ⟨frame, framed, -⟩
    · exact same
    · exact same
    · simp [unframed] at framed
  subst isTop
  have rank : (twoSessions.ledger.row (sampleToken 1)).map
      (fun row => ahead EvictsBefore Session.sessionId row twoSessions.sessions.rows) = some 1 :=
        by rfl
  rw [found, Option.map_some, Option.some.injEq] at rank
  rw [rank]
  decide

/-- The cap leaves room for the parent and its child, and the parent is the oldest session. -/
theorem olderParent_evicted :
    ¬∀ (env : Env) (allowed : World → Request → Prop) (world after : World)
    (parent child : SessionId) (cap : Nat), Reachable env allowed world →
      (world.ledger.row parent).isSome →
    ((world.sessions.select fun row =>
      decide ((world.standing row.sessionId).1 = (world.standing parent).1)).length < cap) →
    (createSession { env with sessionCap :=
      cap } "middle" "m" (some parent) .call none none "").run world =
      (.ok child, after) → world.KeepsChain after parent := by
  intro always
  have keeps := always sampleEnv _ twoSessions _ (sampleToken 0) _ 2
    (serveAll_served (by rfl) : ServedBy sampleEnv (appOf sampleEnv nestedDocs) twoSessions)
      (by rfl) (by decide)
    (Prod.ext (show _ = Except.ok (sampleToken 2) from rfl) rfl)
  have gone := keeps (sampleToken 0) (.inl rfl) (by rfl)
  exact absurd gone (by decide)

end Megalos
