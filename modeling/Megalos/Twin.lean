import Megalos.Mirror

/-!
Two stores that agree on one chain.  The helpers of `state.py` and the shared helpers
of `tools.py`, run on sessions of that chain, answer the same over both and leave stores
that agree on it again.  The clock may read differently: no response shows a time.
-/

namespace Megalos

open KeyedTable StatefulProgram StatefulProgram.Program

def Session.untimed (session : Session) : Session :=
    { session with createdAt := 0, updatedAt := 0, completedAt := none }

/-- The frames of a root belong to the sessions of a chain, one at each depth, and the chain has no
other frames. -/
structure Ledger.Chained (ledger : Ledger) (root : SessionId) (chain : SessionId → Prop) :
    Prop where
  base : chain root
  rootFree : ledger.frame root = none
  under : ∀ {sid frame}, chain sid → ledger.frame sid = some frame → frame.rootSessionId = root
  closed : ∀ {sid frame}, ledger.frame sid = some frame → chain frame.rootSessionId →
    frame.rootSessionId = root ∧ chain sid
  single : ∀ {first second lower upper}, ledger.frame first = some lower →
    ledger.frame second = some upper →
    lower.rootSessionId = root → upper.rootSessionId = root → lower.depth = upper.depth →
      first = second

structure Twin (env : Env) (root : SessionId) (chain : SessionId → Prop) (left right : World) :
    Prop where
  row : ∀ {sid}, chain sid →
    (left.ledger.row sid).map Session.untimed = (right.ledger.row sid).map Session.untimed
  frame : ∀ {sid}, chain sid → left.ledger.frame sid = right.ledger.frame sid
  leftChained : left.ledger.Chained root chain
  rightChained : right.ledger.Chained root chain
  outcomes : ∀ call, env.mcpOutcome (left.outbound.length + call) =
    env.mcpOutcome (right.outbound.length + call)

variable {env : Env} {root sid : SessionId} {chain : SessionId → Prop} {left right : World}

namespace Ledger.Chained

variable {ledger after : Ledger}

theorem mono (chained : Chained ledger root chain)
    (kept : ∀ {sid frame}, after.frame sid = some frame → ledger.frame sid = some frame) :
    Chained after root chain where
  base := chained.base
  rootFree := by
    cases found : after.frame root with
    | none => rfl
    | some frame => simpa [chained.rootFree] using kept found
  under member found := chained.under member (kept found)
  closed found := chained.closed (kept found)
  single first second := chained.single (kept first) (kept second)

theorem standing (chained : Chained ledger root chain) (member : chain sid) :
    chain (ledger.standing sid).1 := by
  cases found : ledger.frame sid with
  | none => rwa [Ledger.standing_of_root found]
  | some frame =>
      rw [Ledger.standing_of_frame found, chained.under member found]
      exact chained.base

end Ledger.Chained

theorem World.frameAt_iff {world : World} {below : SessionId} {depth : Nat} {frame : Frame}
    (chained : world.ledger.Chained root chain) (member : chain below) :
    world.frameAt below depth = some frame ↔
      world.ledger.frame frame.sessionId = some frame ∧ frame.rootSessionId = below ∧
        frame.depth = depth := by
  refine ⟨World.frameAt_some, ?_⟩
  rintro ⟨found, rfl, rfl⟩
  cases first : world.frameAt frame.rootSessionId frame.depth with
  | none => exact absurd ⟨rfl, rfl⟩ (World.frameAt_none_iff.mp first _ _ found)
  | some other =>
      obtain ⟨there, sameRoot, sameDepth⟩ := World.frameAt_some first
      obtain ⟨isRoot, -⟩ := chained.closed found member
      have same := chained.single there found (sameRoot.trans isRoot) isRoot sameDepth
      rw [same, found, Option.some.injEq] at there
      rw [there]

namespace Twin

theorem ownFrame (twin : Twin env root chain left right) (member : chain sid) :
    left.ownFrame sid = right.ownFrame sid := twin.frame member

theorem standing (twin : Twin env root chain left right) (member : chain sid) :
    left.standing sid = right.standing sid := by
  rw [World.standing, World.standing, twin.ownFrame member]

/-- Both stores have the same frames above a session of the chain. -/
theorem frame_iff (twin : Twin env root chain left right) {frame : Frame}
    (member : chain frame.rootSessionId) :
    left.ledger.frame frame.sessionId = some frame ↔
      right.ledger.frame frame.sessionId = some frame := by
  constructor
  · intro found
    rw [← twin.frame (twin.leftChained.closed found member).2]
    exact found
  · intro found
    rw [twin.frame (twin.rightChained.closed found member).2]
    exact found

theorem frameAt (twin : Twin env root chain left right) (member : chain sid) (depth : Nat) :
    left.frameAt sid depth = right.frameAt sid depth := by
  refine Option.ext fun frame => ?_
  rw [World.frameAt_iff twin.leftChained member, World.frameAt_iff twin.rightChained member]
  constructor
  · rintro ⟨found, rfl, deep⟩
    exact ⟨(twin.frame_iff member).mp found, rfl, deep⟩
  · rintro ⟨found, rfl, deep⟩
    exact ⟨(twin.frame_iff member).mpr found, rfl, deep⟩

theorem topFrameFor (twin : Twin env root chain left right) (member : chain sid) :
    left.topFrameFor sid = right.topFrameFor sid := by
  rw [World.topFrameFor, World.topFrameFor, twin.standing member]
  exact twin.frameAt (World.ledger_standing right sid ▸ twin.rightChained.standing member) _

theorem parentOf (twin : Twin env root chain left right) (member : chain sid) :
    left.parentOf sid = right.parentOf sid := by
  unfold World.parentOf
  rw [twin.ownFrame member]
  cases found : right.ownFrame sid with
  | none => rfl
  | some frame =>
      have under : chain frame.rootSessionId := by
        rw [twin.rightChained.under member found]
        exact twin.rightChained.base
      simp only [twin.frameAt under]

theorem parent_member (twin : Twin env root chain left right) (member : chain sid)
    {parent : SessionId} (owner : right.parentOf sid = some parent) : chain parent := by
  obtain ⟨frame, found, ⟨-, rfl⟩ | ⟨-, below, there, sameRoot, -⟩⟩ := World.parentOf_some owner
  · rw [twin.rightChained.under member found]
    exact twin.rightChained.base
  · refine (twin.rightChained.closed there ?_).2
    rw [sameRoot, twin.rightChained.under member found]
    exact twin.rightChained.base

theorem lookup (twin : Twin env root chain left right) (member : chain sid) :
    (left.sessions.lookup sid).map Session.untimed =
      (right.sessions.lookup sid).map Session.untimed :=
  twin.row member

/-! What both sides write. -/

variable {leftAfter rightAfter : World}

/-- Both sides change the tables in a way that keeps the frames of the chain alike. -/
theorem change {leftLedger rightLedger : Ledger} (twin : Twin env root chain left right)
    (becomesLeft : Becomes left leftLedger leftAfter)
    (becomesRight : Becomes right rightLedger rightAfter)
    (rows : ∀ {sid}, chain sid →
      (leftLedger.row sid).map Session.untimed = (rightLedger.row sid).map Session.untimed)
    (frames : ∀ {sid}, chain sid → leftLedger.frame sid = rightLedger.frame sid)
    (leftKept : ∀ {sid frame}, leftLedger.frame sid = some frame →
      left.ledger.frame sid = some frame)
    (rightKept : ∀ {sid frame}, rightLedger.frame sid = some frame →
      right.ledger.frame sid = some frame) :
    Twin env root chain leftAfter rightAfter where
  row member := by
    rw [becomesLeft.ledger_eq, becomesRight.ledger_eq]
    exact rows member
  frame member := by
    rw [becomesLeft.ledger_eq, becomesRight.ledger_eq]
    exact frames member
  leftChained := becomesLeft.ledger_eq ▸ twin.leftChained.mono leftKept
  rightChained := becomesRight.ledger_eq ▸ twin.rightChained.mono rightKept
  outcomes := by
    rw [becomesLeft.outbound_eq, becomesRight.outbound_eq]
    exact twin.outcomes

theorem setRow {target : SessionId} {leftNew rightNew : Session}
    (twin : Twin env root chain left right)
    (becomesLeft : Becomes left (left.ledger.setRow target leftNew) leftAfter)
    (becomesRight : Becomes right (right.ledger.setRow target rightNew) rightAfter)
    (alike : leftNew.untimed = rightNew.untimed) : Twin env root chain leftAfter rightAfter := by
  refine twin.change becomesLeft becomesRight ?_ twin.frame id id
  intro sid member
  rw [Ledger.setRow_row, Ledger.setRow_row]
  split
  · exact congrArg some alike
  · exact twin.row member

theorem same (twin : Twin env root chain left right)
    (becomesLeft : Becomes left left.ledger leftAfter)
    (becomesRight : Becomes right right.ledger rightAfter) :
    Twin env root chain leftAfter rightAfter :=
  twin.change becomesLeft becomesRight twin.row twin.frame id id

theorem drop {target : SessionId} (twin : Twin env root chain left right)
    (becomesLeft : Becomes left (left.ledger.drop target) leftAfter)
    (becomesRight : Becomes right (right.ledger.drop target) rightAfter) :
    Twin env root chain leftAfter rightAfter := by
  have kept : ∀ {ledger : Ledger} {sid frame}, (ledger.drop target).frame sid = some frame →
      ledger.frame sid = some frame := by
    intro ledger sid frame found
    rw [Ledger.drop_frame] at found
    split at found
    · simp at found
    · exact found
  refine twin.change becomesLeft becomesRight ?_ ?_ kept kept
  · intro sid member
    rw [Ledger.drop_row, Ledger.drop_row]
    split
    · rfl
    · exact twin.row member
  · intro sid member
    rw [Ledger.drop_frame, Ledger.drop_frame]
    split
    · rfl
    · exact twin.frame member

theorem dropAt {below : SessionId} {depth : Nat} (twin : Twin env root chain left right)
    (becomesLeft : Becomes left (left.ledger.dropAt below depth) leftAfter)
    (becomesRight : Becomes right (right.ledger.dropAt below depth) rightAfter) :
    Twin env root chain leftAfter rightAfter := by
  refine twin.change becomesLeft becomesRight twin.row ?_ ?_ ?_
  · intro sid member
    simp only [Ledger.dropAt, twin.frame member]
  · exact fun found => ((Ledger.dropAt_frame_some _).mp found).1
  · exact fun found => ((Ledger.dropAt_frame_some _).mp found).1

end Twin

theorem Session.untimed_eq {session other : Session} (same : session.untimed = other.untimed) :
    ∃ created updated completed, other =
      { session with createdAt := created, updatedAt := updated, completedAt := completed } := by
  refine ⟨other.createdAt, other.updatedAt, other.completedAt, ?_⟩
  cases session
  cases other
  simp only [Session.untimed, Session.mk.injEq] at same
  simp [same]

/-! The helpers of `state.py`. -/

section Store

variable {α : Type}

/-- The program, run over two stores that agree on the chain, answers the same and keeps them so. -/
abbrev Mirrored (env : Env) (root : SessionId) (chain : SessionId → Prop) (body : Server α) :
    Prop :=
  Lockstep (Twin env root chain) (Twin env root chain) Eq body body

theorem lockstep_nowIso : Lockstep (Twin env root chain) (Twin env root chain) (fun _ _ => True)
    (nowIso env) (nowIso env) := by
  refine Lockstep.of_wp fun left right twin => ?_
  refine wp_nowIso fun _ leftAfter becomesLeft => ?_
  refine wp_nowIso fun _ rightAfter becomesRight => ?_
  exact ⟨.ok trivial, twin.same becomesLeft becomesRight⟩

theorem lockstep_changeRow {change other : Session → Session}
    {keeps : ∀ session, (change session).sessionId = session.sessionId}
    {otherKeeps : ∀ session, (other session).sessionId = session.sessionId} (member : chain sid)
    (alike : ∀ first second, first.untimed = second.untimed →
      (change first).untimed = (other second).untimed) :
    Lockstep (Twin env root chain) (Twin env root chain) Eq (changeRow env sid change keeps)
    (changeRow env sid other otherKeeps) := by
  refine Lockstep.of_wp fun left right twin => ?_
  have rows := twin.row member
  refine wp_changeRow ?_ ?_
  · intro session now leftAfter found becomesLeft
    refine wp_changeRow ?_ ?_
    · intro twinSession then_ rightAfter foundRight becomesRight
      simp only [found, foundRight, Option.map_some, Option.some.injEq] at rows
      exact ⟨.ok rfl, twin.setRow becomesLeft becomesRight (alike _ _ rows)⟩
    · intro rightAfter missing becomesRight
      simp [found, missing] at rows
  · intro leftAfter missing becomesLeft
    refine wp_changeRow ?_ ?_
    · intro twinSession then_ rightAfter foundRight becomesRight
      simp [missing, foundRight] at rows
    · intro rightAfter missingRight becomesRight
      exact ⟨.error _, twin.same becomesLeft becomesRight⟩

theorem mirrored_changeRow {change : Session → Session}
    {keeps : ∀ session, (change session).sessionId = session.sessionId} (member : chain sid)
    (timeless : ∀ session, (change session).untimed = (change session.untimed).untimed) :
    Mirrored env root chain (changeRow env sid change keeps) := by
  refine lockstep_changeRow member ?_
  intro first second same
  rw [timeless first, timeless second, same]

theorem lockstep_getSession (member : chain sid) :
    Lockstep (Twin env root chain) (Twin env root chain)
    (fun first second => first.untimed = second.untimed ∧ first.sessionId = sid)
    (getSession sid) (getSession sid) := by
  refine Lockstep.of_wp fun left right twin => ?_
  have rows := twin.row member
  refine wp_getSession ?_ ?_
  · intro session found
    refine wp_getSession ?_ ?_
    · intro other foundRight
      simp only [found, foundRight, Option.map_some, Option.some.injEq] at rows
      exact ⟨.ok ⟨rows, World.row_sessionId found⟩, twin⟩
    · intro missing
      simp [found, missing] at rows
  · intro missing
    refine wp_getSession ?_ ?_
    · intro other foundRight
      simp [missing, foundRight] at rows
    · exact fun _ => ⟨.error _, twin⟩

theorem mirrored_incrementRetry (member : chain sid) (stepId : String) :
    Mirrored env root chain (incrementRetry env sid stepId) := by
  refine lockstep_bind_eq (mirrored_changeRow member fun _ => rfl) fun _ => ?_
  refine lockstep_bind (lockstep_getSession member) ?_
  rintro first second ⟨same, -⟩
  obtain ⟨created, updated, completed, rfl⟩ := Session.untimed_eq same
  exact lockstep_return _

theorem mirrored_getArtifacts (member : chain sid) (stepId : String) :
    Mirrored env root chain (getArtifacts sid stepId) := by
  refine lockstep_bind (lockstep_getSession member) ?_
  rintro first second ⟨same, -⟩
  obtain ⟨created, updated, completed, rfl⟩ := Session.untimed_eq same
  exact lockstep_return _

theorem mirrored_transaction {body : Server α} (mirrored : Mirrored env root chain body) :
    Mirrored env root chain (transaction body) := by
  refine lockstep_atomically mirrored ?_
  intro left right leftAfter rightAfter twin after
  exact ⟨twin.row, twin.frame, twin.leftChained, twin.rightChained, after.outcomes⟩

theorem mirrored_unlink (member : chain sid) :
    Mirrored env root chain (setCalledSession env sid none none) := by
  refine mirrored_transaction (lockstep_bind_eq (mirrored_changeRow member fun _ => rfl) fun _ =>
    ?_)
  refine lockstep_bind_eq (lockstep_read fun _ _ twin => twin.standing member) fun place => ?_
  obtain ⟨below, depth⟩ := place
  refine lockstep_write fun left right twin => ?_
  exact twin.dropAt ⟨⟨World.ledger_deleteAt left below (depth + 1), rfl⟩, rfl⟩
    ⟨⟨World.ledger_deleteAt right below (depth + 1), rfl⟩, rfl⟩

theorem lockstep_deleteSessionRow (member : chain sid) :
    Lockstep (Twin env root chain) (Twin env root chain) (fun _ _ => True) (deleteSessionRow sid)
    (deleteSessionRow sid) := by
  refine lockstep_bind (lockstep_getSession member) ?_
  rintro first second -
  refine lockstep_bind_eq (lockstep_write fun left right twin => ?_) fun _ => lockstep_pure trivial
  exact twin.drop ⟨⟨World.ledger_erase left sid, rfl⟩, rfl⟩ ⟨⟨World.ledger_erase right sid, rfl⟩,
    rfl⟩

theorem mirrored_mcpCall (registry : Registry) (request : McpRequest) :
    Mirrored env root chain (mcpCall env registry request) := by
  refine lockstep_bind_eq (lockstep_ofExcept _) fun _ => ?_
  refine lockstep_bind_eq (lockstep_read fun left right twin => twin.outcomes 0) fun outcome => ?_
  refine lockstep_bind_eq (lockstep_write fun left right twin => ?_) fun _ =>
    lockstep_return outcome
  refine ⟨twin.row, twin.frame, twin.leftChained, twin.rightChained, ?_⟩
  intro call
  have next := twin.outcomes (call + 1)
  simpa only [List.length_append, List.length_singleton, Nat.add_assoc,
    Nat.add_comm 1 call] using next

end Store

def seeCheckpoints (_ : Timestamp) (_ : Option Timestamp) (checkpoints : Dict (Dict String)) :
    Dict (Dict String) := checkpoints

theorem Session.seen_iff {session other : Session} :
    session.seen seeCheckpoints = other.seen seeCheckpoints ↔ session.untimed = other.untimed := by
  constructor
  · intro same
    obtain ⟨created, updated, completed, checkpoints, kept, rfl⟩ := Session.seen_eq same
    rw [show checkpoints = session.artifactCheckpoints from kept.symm]
    rfl
  · intro same
    obtain ⟨created, updated, completed, rfl⟩ := Session.untimed_eq same
    rfl

theorem Twin.seen (twin : Twin env root chain left right) (member : chain sid) :
    (left.sessions.lookup sid).map (Session.seen seeCheckpoints) =
      (right.sessions.lookup sid).map (Session.seen seeCheckpoints) := by
  have rows := twin.lookup member
  revert rows
  rcases left.sessions.lookup sid with _ | first <;> rcases right.sessions.lookup sid with _ | second <;> intro rows
  · rfl
  · exact nomatch rows
  · exact nomatch rows
  · exact congrArg some (Session.seen_iff.mpr (Option.some.inj rows))

/-- The shared helpers of `tools.py` keep the stores alike on the chain. -/
theorem twin_mirror : Mirror env seeCheckpoints chain (Twin env root chain) where
  stamps same _ := same
  lookup := Twin.seen
  ownFrame := Twin.ownFrame
  parentOf := Twin.parentOf
  parentInside twin member owner := twin.parent_member member owner
  nowIso := lockstep_nowIso
  changeRow member alike := lockstep_changeRow member fun first second same =>
    Session.seen_iff.mp (alike first second (Session.seen_iff.mpr same))
  unlink := mirrored_unlink
  deleteSessionRow := lockstep_deleteSessionRow
  mcpCall := mirrored_mcpCall

end Megalos
