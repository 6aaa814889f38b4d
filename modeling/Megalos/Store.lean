import Mathlib.Algebra.Group.Int.Defs
import Mathlib.Data.List.Sort
import Megalos.Library.KeyedTable
import Megalos.Library.StatefulProgram
import Megalos.Value

/-!
The session store of `state.py` over the two SQLite tables of `db.py`.  A raise
inside a transaction rolls both tables back; everything else a tool call does is a
sequence of committed transactions, so a raise between two of them keeps the first.
-/

namespace Megalos

open KeyedTable StatefulProgram StatefulProgram.Program

def complete : String := "__complete__"

def workflowChanged : String := "__workflow_changed__"

/-- A reading of `_now_iso`, in microseconds; the stored texts sort in this order. -/
abbrev Timestamp := Nat

structure Escalation where
  guardrailId : Val
  message : Val

inductive Identity where
  | anonymous
  | bearer (subject : String)
  deriving DecidableEq, Repr

def Identity.toVal : Identity → Val
  | .anonymous => .obj [("kind", .str "anonymous")]
  | .bearer subject => .obj [("kind", .str "bearer"), ("subject", .str subject)]

abbrev StepData := Dict String

structure Session where
  sessionId : SessionId
  workflowType : String
  currentStep : String
  stepData : StepData
  retryCounts : Dict Nat
  stepVisitCounts : Dict Nat
  escalation : Option Escalation
  artifactCheckpoints : Dict (Dict String)
  createdAt : Timestamp
  updatedAt : Timestamp
  completedAt : Option Timestamp
  calledSession : Option SessionId
  parentSessionId : Option SessionId
  workflowFingerprint : String

def Session.ownerIdentity (_ : Session) : Identity := .anonymous

inductive FrameType where
  | call
  | digression
  deriving DecidableEq, Repr

def FrameType.text : FrameType → String
  | .call => "call"
  | .digression => "digression"

structure Frame where
  sessionId : SessionId
  rootSessionId : SessionId
  depth : Nat
  frameType : FrameType
  callStepId : Option String
  createdAt : Timestamp

/-- A call that left the server, as `mcp_client.call` receives it. -/
structure McpRequest where
  serverName : Val
  tool : Val
  args : Val
  timeout : Val

inductive CallOutcome where
  | ok (value : String)
  | toolExecutionError (message : String)
  | transportError (detail : String)
  | protocolError (detail : String)
  | schemaValidationError (detail : String)
  | timeoutError

def failureEnvelope (message : String) : Val :=
  .obj [("ok", .bool false), ("error", .obj [("message", .str message)])]

def mapOutcomeToEnvelope : CallOutcome → Val
  | .ok value => .obj [("ok", .bool true), ("value", .str value)]
  | .toolExecutionError message => failureEnvelope message
  | .transportError detail => failureEnvelope ("transport error: " ++ detail)
  | .protocolError detail => failureEnvelope ("protocol error: " ++ detail)
  | .schemaValidationError detail => failureEnvelope ("schema error: " ++ detail)
  | .timeoutError => failureEnvelope "timeout"

/-- How `json.loads` refuses a text; only the first is a `JSONDecodeError`. -/
inductive JsonError where
  | decodeError (message : String)
  /-- An integer of more digits than Python reads. -/
  | valueError (message : String)
  /-- A nesting deeper than the stack. -/
  | recursionError (message : String)

/-- What `json.loads` returns or raises stays inside an `except json.JSONDecodeError`. -/
def Contained (result : Except JsonError Val) : Prop :=
  ∀ error, result = .error error → ∃ message, error = .decodeError message

@[simp] theorem contained_ok {value : Val} : Contained (.ok value) := by simp [Contained]

@[simp] theorem contained_decodeError {message : String} :
    Contained (.error (.decodeError message)) := by
  simp [Contained]

structure ValidationError where
  jsonPath : String
  message : String

/-- How `check_schema` refuses a schema; only the first is a `SchemaError`. -/
inductive SchemaFailure where
  | schemaError (message : String)
  | raises (raised : Exn)

/-- What the server reads from outside its own source: randomness, the clock, the environment, the
MCP servers, and the libraries it calls. -/
structure Env where
  /-- `normalize_session_id(secrets.token_urlsafe(32))`, draw after draw. -/
  token : Nat → SessionId
  tokenInjective : Function.Injective token
  normalizeSessionId : String → SessionId
  clock : Nat → Timestamp
  sessionCap : Nat
  /-- The outcome of the n-th call of `mcp_client.call`. -/
  mcpOutcome : Nat → CallOutcome
  sha256 : String → String
  /-- `json.loads`. -/
  loads : String → Except JsonError Val
  dumps : Val → String
  /-- An envelope holds no number and two levels of nesting. -/
  envelopeContained : ∀ outcome, Contained (loads (dumps (mapOutcomeToEnvelope outcome)))
  /-- `json.dumps(…, sort_keys=True, ensure_ascii=False, separators=(",", ":"))`. -/
  canonicalDumps : Val → String
  floatText : PyFloat → String
  floatTextPlain : ∀ value, '_' ∉ (floatText value).toList
  /-- `repr`. -/
  pyRepr : Val → String
  /-- `Draft202012Validator(schema).iter_errors(instance)`. -/
  iterErrors : Val → Val → Except Exn (List ValidationError)
  /-- `Draft202012Validator.check_schema`. -/
  checkSchema : Val → Except SchemaFailure Unit
  /-- `re.search(pattern, content, re.IGNORECASE)`. -/
  reSearch : Val → String → Except Exn Bool
  /-- How many turns a loop may take before it counts as endless. -/
  fuel : Nat

/-- `json.loads` in a `try … except (json.JSONDecodeError, TypeError)`: the value, or the text of
the error. -/
def Env.tryLoads (env : Env) (text : String) : Except Exn (Except String Val) :=
  match env.loads text with
  | .ok value => .ok (.ok value)
  | .error (.decodeError message) => .ok (.error message)
  | .error (.valueError message) => .error (.valueError message)
  | .error (.recursionError message) => .error (.uncaught "RecursionError" message)

theorem tryLoads_parsed {env : Env} {text : String} {value : Val} :
    env.tryLoads text = .ok (.ok value) ↔ env.loads text = .ok value := by
  unfold Env.tryLoads
  split <;> simp_all

theorem tryLoads_refused {env : Env} {text : String}
    (refused : ∀ value, env.tryLoads text ≠ .ok (.ok value)) :
    ∃ error, env.loads text = .error error := by
  cases loaded : env.loads text with
  | error error => exact ⟨error, rfl⟩
  | ok value => exact absurd (tryLoads_parsed.mpr loaded) (refused value)

theorem tryLoads_raises {env : Env} {text : String} {raised : Exn}
    (raises : env.tryLoads text = .error raised) :
    ∃ message, raised = .valueError message ∨ raised = .uncaught "RecursionError" message := by
  unfold Env.tryLoads at raises
  split at raises
  · cases raises
  · cases raises
  · exact ⟨_, .inl (Except.error.inj raises).symm⟩
  · exact ⟨_, .inr (Except.error.inj raises).symm⟩

theorem contained_iff {env : Env} {text : String} :
    Contained (env.loads text) ↔ ∃ read, env.tryLoads text = .ok read := by
  unfold Contained Env.tryLoads
  split
  · rename_i loaded
    simp [loaded]
  · rename_i message refused
    simp [refused]
  · rename_i message refused
    simp [refused]
  · rename_i message refused
    simp [refused]

structure World where
  sessions : Table Session.sessionId
  sessionStack : Table Frame.sessionId
  minted : Nat
  ticks : Nat
  outbound : List McpRequest

def World.empty : World := ⟨Table.empty, Table.empty, 0, 0, []⟩

abbrev Server (α : Type) := Program World Exn α

def computeFingerprint (env : Env) (sessionId : String) : String :=
  String.ofList ((env.sha256 sessionId).toList.take 12)

def nowIso (env : Env) : Server Timestamp := do
  let now ← read fun world => env.clock world.ticks
  write fun world => { world with ticks := world.ticks + 1 }
  return now

def drawToken (env : Env) : Server SessionId := do
  let sid ← read fun world => env.token world.minted
  write fun world => { world with minted := world.minted + 1 }
  return sid

def transaction {α : Type} (body : Server α) : Server α :=
  atomically (fun before after =>
    { after with sessions := before.sessions, sessionStack := before.sessionStack }) body

/-- `ORDER BY (current_step = COMPLETE) DESC, COALESCE(completed_at, updated_at) ASC`. -/
def evictsBefore (left right : Session) : Bool :=
  let leftDone := left.currentStep == complete
  let rightDone := right.currentStep == complete
  if leftDone == rightDone then
    decide (left.completedAt.getD left.updatedAt ≤ right.completedAt.getD right.updatedAt)
  else leftDone

/-- The sessions that `create_session` removes to make room for one more. -/
def evictedIds (cap : Nat) (sessions : Table Session.sessionId) : List SessionId :=
  if cap ≤ sessions.size then
    ((sessions.rows.insertionSort (fun left right => evictsBefore left right)).take
      (sessions.size + 1 - cap)).map Session.sessionId
  else []

def World.ownFrame (world : World) (sessionId : SessionId) : Option Frame :=
  world.sessionStack.lookup sessionId

/-- The root and the depth at which a session stands; a session without a frame is a root. -/
def World.standing (world : World) (sessionId : SessionId) : SessionId × Nat :=
  match world.ownFrame sessionId with
  | none => (sessionId, 0)
  | some frame => (frame.rootSessionId, frame.depth)

def World.frameAt (world : World) (rootSessionId : SessionId) (depth : Nat) : Option Frame :=
  world.sessionStack.selectOne fun frame =>
    frame.rootSessionId = rootSessionId ∧ frame.depth = depth

def World.topFrameFor (world : World) (sessionId : SessionId) : Option Frame :=
  world.frameAt (world.standing sessionId).1 ((world.standing sessionId).2 + 1)

def World.parentOf (world : World) (sessionId : SessionId) : Option SessionId :=
  match world.ownFrame sessionId with
  | none => none
  | some frame =>
      if frame.depth = 1 then some frame.rootSessionId
      else (world.frameAt frame.rootSessionId (frame.depth - 1)).map Frame.sessionId

def World.stackDepth (world : World) (rootSessionId : SessionId) : Nat :=
  (world.sessionStack.select fun frame => frame.rootSessionId = rootSessionId).length

def World.countActive (world : World) : Nat :=
  (world.sessions.select fun session => session.currentStep != complete).length

def insertSession (session : Session) : Server Unit := do
  match ← read fun world => world.sessions.insert session with
  | some grown => write fun world => { world with sessions := grown }
  | none => raise (.uncaught "IntegrityError" "UNIQUE constraint failed: sessions.session_id")

def insertFrame (frame : Frame) : Server Unit := do
  match ← read fun world => world.sessionStack.insert frame with
  | some grown => write fun world => { world with sessionStack := grown }
  | none => raise (.uncaught "IntegrityError" "UNIQUE constraint failed: session_stack.session_id")

/-- `DELETE … WHERE session_id = ?` on both tables, for each id. -/
def World.withoutSessions (world : World) (ids : List SessionId) : World :=
  { world with
    sessions := world.sessions.deleteWhere fun session => session.sessionId ∈ ids
    sessionStack := world.sessionStack.deleteWhere fun frame => frame.sessionId ∈ ids }

def newSession (sessionId : SessionId) (workflowType currentStep : String)
    (parentSessionId : Option SessionId) (workflowFingerprint : String) (now : Timestamp) :
    Session where
  sessionId := sessionId
  workflowType := workflowType
  currentStep := currentStep
  stepData := Table.empty
  retryCounts := Table.empty
  stepVisitCounts := Table.empty
  escalation := none
  artifactCheckpoints := Table.empty
  createdAt := now
  updatedAt := now
  completedAt := none
  calledSession := none
  parentSessionId := parentSessionId
  workflowFingerprint := workflowFingerprint

def createSession (env : Env) (workflowType currentStep : String)
    (parentSessionId : Option SessionId) (frameType : FrameType) (callStepId : Option String)
    (maxStackDepth : Option Nat) (workflowFingerprint : String) : Server SessionId := do
  let sid ← drawToken env
  let now ← nowIso env
  transaction do
    let evicted ← read fun world => evictedIds env.sessionCap world.sessions
    write fun world => world.withoutSessions evicted
    insertSession (newSession sid workflowType currentStep parentSessionId workflowFingerprint now)
    match parentSessionId with
    | none => return sid
    | some parent =>
        let (rootSid, parentDepth) ← read fun world => world.standing parent
        let current ← read fun world => world.stackDepth rootSid
        match maxStackDepth with
        | some limit =>
            if limit ≤ current then raise (.stackFull rootSid current limit)
        | none => pure ()
        insertFrame
          { sessionId := sid, rootSessionId := rootSid, depth := parentDepth + 1
            frameType, callStepId, createdAt := now }
        return sid

def getSession (sessionId : SessionId) : Server Session := do
  match ← read fun world => world.sessions.lookup sessionId with
  | some session => return session
  | none => raise .sessionNotFound

def changeRow (env : Env) (sessionId : SessionId) (change : Session → Session)
    (keeps : ∀ session, (change session).sessionId = session.sessionId := by intro session; rfl) :
    Server Unit := do
  let now ← nowIso env
  let found ← read fun world => world.sessions.contains sessionId
  if found then
    write fun world =>
      { world with
        sessions := world.sessions.update sessionId
          (fun session => { change session with updatedAt := now }) keeps }
  else raise .sessionNotFound

/-- What SQLite stores when the value is bound to a `TEXT NOT NULL` column; it takes integers of 64
bits, and NaN for NULL. -/
def columnText (env : Env) : Val → Except Exn String
  | .str text => .ok text
  | .int value =>
      if -2 ^ 63 ≤ value ∧ value < 2 ^ 63 then .ok (toString value)
      else .error (.uncaught "OverflowError" "Python int too large to convert to SQLite INTEGER")
  | .bool value => .ok (if value then "1" else "0")
  | .float .nan => .error (.uncaught "IntegrityError" "NOT NULL constraint failed: sessions.current_step")
  | .float value => .ok (env.floatText value)
  | .none => .error (.uncaught "IntegrityError" "NOT NULL constraint failed: sessions.current_step")
  -- `workflow_fingerprint` lets no workflow with a timestamp or bytes be served
  | _ => .error (.uncaught "InterfaceError" "Error binding parameter: type is not supported")

/-- The key `json.dumps` writes for a dict key. -/
def jsonKey (env : Env) : Val → Except Exn String
  | .str text => .ok text
  | .int value => .ok (toString value)
  | .bool value => .ok (if value then "true" else "false")
  | .float value => .ok (env.floatText value)
  | .none => .ok "null"
  | other => .error (.typeError ("unhashable type: '" ++ other.typeName ++ "'"))

def updateCurrentStep (env : Env) (sessionId : SessionId) (currentStep : Val)
    (stepData : Option StepData) : Server Unit := do
  let text ← ofExcept (columnText env currentStep)
  let now ← nowIso env
  let stamp := if text = complete then some now else none
  changeRow env sessionId fun session =>
    { session with
      currentStep := text
      completedAt := stamp.or session.completedAt
      stepData := stepData.getD session.stepData }

def updateStepData (env : Env) (sessionId : SessionId) (stepData : StepData) : Server Unit :=
  changeRow env sessionId fun session => { session with stepData := stepData }

def invalidateStepsAfter (env : Env) (sessionId : SessionId) (stepIds : List String) :
    Server Unit :=
  changeRow env sessionId fun session =>
    { session with stepData := stepIds.foldl (fun data sid => data.erase sid) session.stepData }

def clearStepDataKey (env : Env) (sessionId : SessionId) (key : String) : Server Unit :=
  changeRow env sessionId fun session => { session with stepData := session.stepData.erase key }

def incrementRetry (env : Env) (sessionId : SessionId) (stepId : String) : Server Nat := do
  changeRow env sessionId fun session =>
    { session with
      retryCounts := session.retryCounts.set stepId (session.retryCounts.getD stepId 0 + 1) }
  let session ← getSession sessionId
  return session.retryCounts.getD stepId 0

/-- A key that is not a string is absent from the loaded counts, and replaces its text. -/
def incrementVisit (env : Env) (sessionId : SessionId) (stepId : Val) : Server Unit := do
  let key ← ofExcept (jsonKey env stepId)
  changeRow env sessionId fun session =>
    { session with
      stepVisitCounts := session.stepVisitCounts.set key
        (match stepId with
        | .str text => session.stepVisitCounts.getD text 0 + 1
        | _ => 1) }

def setEscalation (env : Env) (sessionId : SessionId) (guardrailId message : Val) : Server Unit :=
  changeRow env sessionId fun session => { session with escalation := some ⟨guardrailId, message⟩ }

def storeArtifact (env : Env) (sessionId : SessionId) (stepId artifactId content : String) :
    Server Unit :=
  changeRow env sessionId fun session =>
    { session with
      artifactCheckpoints := session.artifactCheckpoints.set stepId
        ((session.artifactCheckpoints.getD stepId Table.empty).set artifactId content) }

def getArtifacts (sessionId : SessionId) (stepId : String) : Server (Dict String) := do
  let session ← getSession sessionId
  return session.artifactCheckpoints.getD stepId Table.empty

/-- Link a child and stamp its frame, or (with no child) unlink and drop the frame above. -/
def setCalledSession (env : Env) (parentSessionId : SessionId) (childSessionId : Option SessionId)
    (callStepId : Option String) : Server Unit := transaction do
  changeRow env parentSessionId fun session => { session with calledSession := childSessionId }
  match childSessionId with
  | some child =>
      match callStepId with
      | some step =>
          write fun world =>
            { world with
              sessionStack := world.sessionStack.update child
                fun frame => { frame with callStepId := some step } }
      | none => pure ()
  | none =>
      let (rootSid, depth) ← read fun world => world.standing parentSessionId
      write fun world =>
        { world with
          sessionStack := world.sessionStack.deleteWhere fun frame =>
            frame.rootSessionId = rootSid ∧ frame.depth = depth + 1 }

/-- `state.delete_session`: the row and its own frame, and nothing else. -/
def deleteSessionRow (sessionId : SessionId) : Server Session := do
  let session ← getSession sessionId
  write fun world =>
    { world with
      sessions := world.sessions.erase sessionId
      sessionStack := world.sessionStack.erase sessionId }
  return session

/-! Observability reads. -/

def sessionStatus (session : Session) : String :=
  if session.currentStep = complete then "completed"
  else if session.currentStep = workflowChanged then "workflow_changed"
  else "active"

def optionText : Option SessionId → Val
  | some sessionId => .str sessionId.text
  | none => .none

def listedSession (env : Env) (world : World) (session : Session) : Val :=
  let own := world.ownFrame session.sessionId
  .obj [
    ("session_id", .str session.sessionId.text),
    ("fingerprint", .str (computeFingerprint env session.sessionId.text)),
    ("owner_identity", session.ownerIdentity.toVal),
    ("workflow_type", .str session.workflowType),
    ("current_step", .str session.currentStep),
    ("status", .str (sessionStatus session)),
    ("created_at", .int session.createdAt),
    ("updated_at", .int session.updatedAt),
    ("parent_session_id", optionText session.parentSessionId),
    ("stack_depth", .int ((own.map Frame.depth).getD 0)),
    ("under_session_id", optionText (own.map Frame.rootSessionId))]

def World.listSessions (env : Env) (world : World) : List Val :=
  world.sessions.rows.map (listedSession env world)

def World.activeSessions (env : Env) (world : World) : List Val :=
  (world.sessions.select fun session =>
    sessionStatus session = "active").map (listedSession env world)

/-- One entry for each session without a frame of its own, deepest chain first. -/
def World.depthBreakdown (world : World) : Val :=
  let roots := (world.sessions.select fun session =>
    (world.ownFrame session.sessionId).isNone).map Session.sessionId
  let deeper := fun left right : SessionId =>
    world.stackDepth right < world.stackDepth left ∨
      (world.stackDepth left = world.stackDepth right ∧ left.text ≤ right.text)
  .list ((roots.insertionSort deeper).map fun root =>
    .obj [("root_session_id", .str root.text), ("depth", .int (world.stackDepth root))])

def stackEntry (depth : Nat) (frameType : FrameType) (sessionId : SessionId)
    (pausedAtStep callStepId : Option String) : Val :=
  let text := fun step : Option String => (step.map Val.str).getD .none
  .obj [
    ("depth", .int depth),
    ("frame_type", .str frameType.text),
    ("session_id", .str sessionId.text),
    ("paused_at_step", text pausedAtStep),
    ("call_step_id", text callStepId)]

def World.fullStack (world : World) (rootSessionId : SessionId) : Val :=
  let frames := (world.sessionStack.select fun frame =>
    frame.rootSessionId = rootSessionId).insertionSort
    fun left right => left.depth ≤ right.depth
  .list (stackEntry 0 .digression rootSessionId none none :: frames.map fun frame =>
    match frame.frameType with
    | .digression => stackEntry frame.depth .digression frame.sessionId frame.callStepId none
    | .call => stackEntry frame.depth .call frame.sessionId none frame.callStepId)

end Megalos
