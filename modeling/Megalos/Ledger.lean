import Mathlib.Logic.Function.Basic
import Megalos.Tools

/-!
The abstract store: which row and which frame each session has.  `World.ledger`
forgets the order of the rows, the clock and the log; the lemmas below say what
each helper of `state.py` does to the ledger.
-/

namespace Megalos

open KeyedTable StatefulProgram StatefulProgram.Program

structure Ledger where
  row : SessionId → Option Session
  frame : SessionId → Option Frame

def World.ledger (world : World) : Ledger := ⟨world.sessions.lookup, world.sessionStack.lookup⟩

namespace Ledger

variable (ledger : Ledger)

def setRow (sid : SessionId) (session : Session) : Ledger :=
  { ledger with row := Function.update ledger.row sid (some session) }

def setFrame (sid : SessionId) (frame : Frame) : Ledger :=
  { ledger with frame := Function.update ledger.frame sid (some frame) }

def drop (sid : SessionId) : Ledger :=
  ⟨Function.update ledger.row sid none, Function.update ledger.frame sid none⟩

def without (ids : List SessionId) : Ledger :=
  ⟨fun sid => if sid ∈ ids then none else ledger.row sid,
    fun sid => if sid ∈ ids then none else ledger.frame sid⟩

def dropAt (rootSessionId : SessionId) (depth : Nat) : Ledger :=
  { ledger with frame := fun sid =>
      (ledger.frame sid).filter fun frame =>
        !(frame.rootSessionId = rootSessionId ∧ frame.depth = depth) }

def standing (sid : SessionId) : SessionId × Nat :=
  match ledger.frame sid with
  | none => (sid, 0)
  | some frame => (frame.rootSessionId, frame.depth)

def dropAbove (sid : SessionId) : Ledger :=
    ledger.dropAt (ledger.standing sid).1 ((ledger.standing sid).2 + 1)

def insert (row : Session) : Option Frame → Ledger
  | none => ledger.setRow row.sessionId row
  | some frame => (ledger.setRow row.sessionId row).setFrame row.sessionId frame

def Above (sid : SessionId) (frame : Frame) : Prop :=
  ledger.frame frame.sessionId = some frame ∧
    frame.rootSessionId = (ledger.standing sid).1 ∧ frame.depth = (ledger.standing sid).2 + 1

/-- `parent_of` as a relation: the root under depth 1, the frame one below otherwise. -/
def Parent (sid parent : SessionId) : Prop :=
  ∃ frame, ledger.frame sid = some frame ∧
    (frame.depth = 1 ∧ parent = frame.rootSessionId ∨
      frame.depth ≠ 1 ∧ ∃ below, ledger.frame parent = some below ∧
        below.rootSessionId = frame.rootSessionId ∧ below.depth = frame.depth - 1)

@[simp] theorem setRow_row (sid other : SessionId) (session : Session) :
    (ledger.setRow sid session).row other = if other =
      sid then some session else ledger.row other := by
  simp [setRow, Function.update_apply]

@[simp] theorem setRow_frame (sid : SessionId) (session : Session) :
    (ledger.setRow sid session).frame = ledger.frame := rfl

@[simp] theorem setFrame_row (sid : SessionId) (frame : Frame) :
    (ledger.setFrame sid frame).row = ledger.row := rfl

@[simp] theorem setFrame_frame (sid other : SessionId) (frame : Frame) :
    (ledger.setFrame sid frame).frame other = if other =
      sid then some frame else ledger.frame other := by
  simp [setFrame, Function.update_apply]

@[simp] theorem drop_row (sid other : SessionId) :
    (ledger.drop sid).row other = if other = sid then none else ledger.row other := by
  simp [drop, Function.update_apply]

@[simp] theorem drop_frame (sid other : SessionId) :
    (ledger.drop sid).frame other = if other = sid then none else ledger.frame other := by
  simp [drop, Function.update_apply]

@[simp] theorem without_row (ids : List SessionId) (other : SessionId) :
    (ledger.without ids).row other = if other ∈ ids then none else ledger.row other := rfl

@[simp] theorem without_frame (ids : List SessionId) (other : SessionId) :
    (ledger.without ids).frame other = if other ∈ ids then none else ledger.frame other := rfl

@[simp] theorem dropAt_row (root : SessionId) (depth : Nat) :
    (ledger.dropAt root depth).row = ledger.row := rfl

theorem dropAt_frame_some {root : SessionId} {depth : Nat} {sid : SessionId} {frame : Frame} :
    (ledger.dropAt root depth).frame sid = some frame ↔
      ledger.frame sid = some frame ∧ ¬(frame.rootSessionId = root ∧ frame.depth = depth) := by
  simp only [dropAt, Option.filter_eq_some_iff, Bool.not_eq_eq_eq_not, Bool.not_true,
    decide_eq_false_iff_not]

@[simp] theorem setRow_standing (sid : SessionId) (session : Session) :
    (ledger.setRow sid session).standing = ledger.standing := rfl

theorem setRow_above {sid other : SessionId} {session : Session} {frame : Frame} :
    (ledger.setRow sid session).Above other frame ↔ ledger.Above other frame := Iff.rfl

variable {ledger}

theorem setRow_self {sid : SessionId} {session : Session} (found : ledger.row sid = some session) :
    ledger.setRow sid session = ledger := by
  simp [setRow, ← found]

@[simp] theorem setRow_setRow (sid : SessionId) (first second : Session) :
    (ledger.setRow sid first).setRow sid second = ledger.setRow sid second := by
  simp [setRow]

theorem drop_setRow {sid child : SessionId} {session : Session} (differs : child ≠ sid) :
    (ledger.setRow sid session).drop child = (ledger.drop child).setRow sid session := by
  simp only [drop, setRow, mk.injEq, and_true]
  exact Function.update_comm differs.symm _ _ _

theorem standing_of_frame {sid : SessionId} {frame : Frame}
    (found : ledger.frame sid = some frame) :
    ledger.standing sid = (frame.rootSessionId, frame.depth) := by
  simp [standing, found]

theorem standing_of_root {sid : SessionId} (root : ledger.frame sid = none) :
    ledger.standing sid = (sid, 0) := by
  simp [standing, root]

end Ledger

theorem World.ledger_standing (world : World) (sid : SessionId) :
    world.ledger.standing sid = world.standing sid := rfl

theorem World.row_sessionId {world : World} {sid : SessionId} {session : Session}
    (found : world.ledger.row sid = some session) : session.sessionId = sid :=
  Table.lookup_key found

theorem World.frame_sessionId {world : World} {sid : SessionId} {frame : Frame}
    (found : world.ledger.frame sid = some frame) : frame.sessionId = sid :=
  Table.lookup_key found

theorem World.frameAt_some {world : World} {root : SessionId} {depth : Nat} {frame : Frame}
    (found : world.frameAt root depth = some frame) :
    world.ledger.frame frame.sessionId = some frame ∧ frame.rootSessionId = root ∧
      frame.depth = depth := by
  obtain ⟨looked, wanted⟩ := Table.selectOne_some found
  exact ⟨looked, by simpa using wanted⟩

theorem World.frameAt_none_iff {world : World} {root : SessionId} {depth : Nat} :
    world.frameAt root depth = none ↔
      ∀ sid frame, world.ledger.frame sid = some frame →
        ¬(frame.rootSessionId = root ∧ frame.depth = depth) := by
  simp only [frameAt, Table.selectOne_none_iff, decide_eq_false_iff_not]
  rfl

theorem World.topFrameFor_some {world : World} {sid : SessionId} {frame : Frame}
    (found : world.topFrameFor sid = some frame) : world.ledger.Above sid frame := by
  obtain ⟨looked, sameRoot, sameDepth⟩ := World.frameAt_some found
  exact ⟨looked, sameRoot, sameDepth⟩

theorem World.topFrameFor_none_iff {world : World} {sid : SessionId} :
    world.topFrameFor sid = none ↔ ∀ frame, ¬world.ledger.Above sid frame := by
  rw [topFrameFor, World.frameAt_none_iff]
  constructor
  · intro bare frame above
    exact bare frame.sessionId frame above.1 ⟨above.2.1, above.2.2⟩
  · intro bare other frame found matched
    have keyEq := World.frame_sessionId found
    exact bare frame ⟨by rw [keyEq]; exact found, matched.1, matched.2⟩

theorem World.parentOf_some {world : World} {sid parent : SessionId}
    (found : world.parentOf sid = some parent) : world.ledger.Parent sid parent := by
  unfold World.parentOf at found
  split at found
  · simp at found
  · rename_i frame own
    refine ⟨frame, own, ?_⟩
    split at found
    · rename_i bottom
      rw [Option.some.injEq] at found
      exact .inl ⟨bottom, found.symm⟩
    · rename_i higher
      obtain ⟨below, there, rfl⟩ := Option.map_eq_some_iff.mp found
      exact .inr ⟨higher, below, World.frameAt_some there⟩

theorem World.parentOf_none {world : World} {sid : SessionId}
    (none : world.parentOf sid = none) (parent : SessionId) : ¬world.ledger.Parent sid parent := by
  rintro ⟨frame, own, position⟩
  have looked : world.ownFrame sid = some frame := own
  simp only [World.parentOf, looked] at none
  rcases position with ⟨bottom, -⟩ | ⟨higher, below, there, sameRoot, sameDepth⟩
  · simp [bottom] at none
  · rw [if_neg higher, Option.map_eq_none_iff] at none
    exact World.frameAt_none_iff.mp none parent below there ⟨sameRoot, sameDepth⟩

/-! What a write may change of a row. -/

structure Session.Same (old new : Session) : Prop where
  sessionId_eq : new.sessionId = old.sessionId
  workflowType_eq : new.workflowType = old.workflowType
  parentSessionId_eq : new.parentSessionId = old.parentSessionId
  workflowFingerprint_eq : new.workflowFingerprint = old.workflowFingerprint

structure Session.Counted (old new : Session) : Prop extends Session.Same old new where
  currentStep_eq : new.currentStep = old.currentStep
  stepData_eq : new.stepData = old.stepData
  escalation_eq : new.escalation = old.escalation

/-- The pointer went to `step` and `stepData` was stored with it. -/
structure Session.Moved (old new : Session) (step : String) (stepData : StepData) : Prop
    extends Session.Same old new where
  currentStep_eq : new.currentStep = step
  stepData_eq : new.stepData = stepData
  escalation_eq : new.escalation = old.escalation

structure Session.Escalated (old new : Session) (stepData : StepData) : Prop
    extends Session.Same old new where
  currentStep_eq : new.currentStep = old.currentStep
  stepData_eq : new.stepData = stepData
  escalation_isSome : new.escalation.isSome

structure Session.Stored (old new : Session) (step : String) (stepData : StepData) : Prop
    extends Session.Moved old new step stepData where
  retryCounts_eq : new.retryCounts = old.retryCounts
  stepVisitCounts_eq : new.stepVisitCounts = old.stepVisitCounts
  artifactCheckpoints_eq : new.artifactCheckpoints = old.artifactCheckpoints

abbrev Session.Marked (old new : Session) : Prop :=
    Session.Stored old new workflowChanged old.stepData

namespace Session

variable {first second third : Session} {step : String} {stepData : StepData}

theorem Same.refl (session : Session) : Same session session := ⟨rfl, rfl, rfl, rfl⟩

theorem Same.trans (start : Same first second) (rest : Same second third) : Same first third :=
  ⟨rest.sessionId_eq.trans start.sessionId_eq, rest.workflowType_eq.trans start.workflowType_eq,
    rest.parentSessionId_eq.trans start.parentSessionId_eq,
    rest.workflowFingerprint_eq.trans start.workflowFingerprint_eq⟩

theorem Counted.refl (session : Session) : Counted session session :=
  ⟨Same.refl session, rfl, rfl, rfl⟩

theorem Counted.trans (start : Counted first second) (rest : Counted second third) :
    Counted first third :=
  ⟨start.toSame.trans rest.toSame, rest.currentStep_eq.trans start.currentStep_eq,
    rest.stepData_eq.trans start.stepData_eq, rest.escalation_eq.trans start.escalation_eq⟩

theorem Counted.moved (start : Counted first second) (rest : Moved second third step stepData) :
    Moved first third step stepData :=
  ⟨start.toSame.trans rest.toSame, rest.currentStep_eq, rest.stepData_eq,
    rest.escalation_eq.trans start.escalation_eq⟩

theorem Moved.counted (start : Moved first second step stepData) (rest : Counted second third) :
    Moved first third step stepData :=
  ⟨start.toSame.trans rest.toSame, rest.currentStep_eq.trans start.currentStep_eq,
    rest.stepData_eq.trans start.stepData_eq, rest.escalation_eq.trans start.escalation_eq⟩

end Session

structure Reaches (before : World) (ledger : Ledger) (after : World) : Prop where
  ledger_eq : after.ledger = ledger
  minted_eq : after.minted = before.minted

/-- … and without a call to an MCP server. -/
structure Becomes (before : World) (ledger : Ledger) (after : World) : Prop
    extends Reaches before ledger after where
  outbound_eq : after.outbound = before.outbound

theorem Becomes.refl (world : World) : Becomes world world.ledger world := ⟨⟨rfl, rfl⟩, rfl⟩

theorem Reaches.unmoved {world : World} {sid : SessionId} {session : Session}
    (found : world.ledger.row sid = some session) :
    Reaches world (world.ledger.setRow sid session) world :=
  ⟨(Ledger.setRow_self found).symm, rfl⟩

theorem Reaches.then_setRow {first second third : World} {sid : SessionId} {old new : Session}
    (start : Reaches first (first.ledger.setRow sid old) second)
    (rest : Reaches second (second.ledger.setRow sid new) third) :
    Reaches first (first.ledger.setRow sid new) third := by
  refine ⟨?_, rest.minted_eq.trans start.minted_eq⟩
  rw [rest.ledger_eq, start.ledger_eq, Ledger.setRow_setRow]

theorem Reaches.trans {first second third : World} {middle final : Ledger}
    (start : Reaches first middle second) (rest : Reaches second final third) :
    Reaches first final third :=
  ⟨rest.ledger_eq, rest.minted_eq.trans start.minted_eq⟩

theorem Becomes.trans {first second third : World} {middle final : Ledger}
    (start : Becomes first middle second) (rest : Becomes second final third) :
    Becomes first final third :=
  ⟨start.toReaches.trans rest.toReaches, rest.outbound_eq.trans start.outbound_eq⟩

variable {α : Type} {env : Env} {world : World}

theorem wp_nowIso {post : Except Exn Timestamp → World → Prop}
    (next : ∀ now after, Becomes world world.ledger after → post (.ok now) after) :
    Wp (nowIso env) post world :=
  next _ _ ⟨⟨rfl, rfl⟩, rfl⟩

theorem World.ledger_update (world : World) (sid : SessionId) (change : Session → Session)
    (keeps : ∀ session, (change session).sessionId = session.sessionId) {session : Session}
    (found : world.ledger.row sid = some session) :
    ({ world with sessions := world.sessions.update sid change keeps } : World).ledger =
      world.ledger.setRow sid (change session) := by
  have looked : world.sessions.lookup sid = some session := found
  simp only [World.ledger, Ledger.setRow, Ledger.mk.injEq, and_true]
  funext other
  rw [Table.lookup_update, Function.update_apply]
  split
  · rename_i same; rw [same, looked]; rfl
  · rfl

theorem wp_changeRow {sid : SessionId} {change : Session → Session}
    {keeps : ∀ session, (change session).sessionId = session.sessionId}
    {post : Except Exn Unit → World → Prop}
    (onRow : ∀ session now after, world.ledger.row sid = some session →
      Becomes world (world.ledger.setRow sid { change session with updatedAt := now }) after →
      post (.ok ()) after)
    (onMissing : ∀ after, world.ledger.row sid = none → Becomes world world.ledger after →
      post (.error .sessionNotFound) after) :
    Wp (changeRow env sid change keeps) post world := by
  unfold changeRow
  rw [wp_bind]
  refine wp_nowIso ?_
  intro now after becomes
  simp only [wp_bind, wp_read, Table.contains]
  cases found : after.sessions.lookup sid with
  | none =>
      have missing : world.ledger.row sid = none := by rw [← becomes.ledger_eq]; exact found
      simpa using onMissing after missing becomes
  | some session =>
      have looked : world.ledger.row sid = some session := by rw [← becomes.ledger_eq]; exact found
      simp only [Option.isSome_some, if_true, wp_write]
      refine onRow session now _ looked ⟨⟨?_, becomes.minted_eq⟩, becomes.outbound_eq⟩
      rw [← becomes.ledger_eq]
      exact World.ledger_update after sid _ _ found

theorem wp_changeRow_of {sid : SessionId} {change : Session → Session}
    {keeps : ∀ session, (change session).sessionId = session.sessionId} {session : Session}
    {post : Except Exn Unit → World → Prop} (found : world.ledger.row sid = some session)
    (next : ∀ now after,
      Becomes world (world.ledger.setRow sid { change session with updatedAt := now }) after →
      post (.ok ()) after) :
    Wp (changeRow env sid change keeps) post world := by
  refine wp_changeRow ?_ ?_
  · intro other now after looked becomes
    rw [found, Option.some.injEq] at looked
    subst looked
    exact next now after becomes
  · intro after missing
    simp [found] at missing

end Megalos
