import Megalos.Eviction
import Megalos.StoreCalls

/-!
The order in which sessions go: the completed ones by the time of their completion, then
the others by their last update.  A run of the store keeps a record of the completions beside
the tables, and `completed_at` is compared with it.
-/

namespace Megalos

open GuardedRuns KeyedTable Selection StatefulProgram StatefulProgram.Program

/-- The store, and when each session was last stored as complete. -/
structure Chronicle where
  world : World
  completedOn : SessionId → Option Timestamp

def Chronicle.empty : Chronicle := ⟨World.empty, fun _ => none⟩

def Chronicle.noted (env : Env) (chronicle : Chronicle) (request : Option StoreRequest) :
    SessionId → Option Timestamp :=
  match request.bind fun made => made.call.completes? env with
  | some sid =>
      if chronicle.world.sessions.contains sid then
        Function.update chronicle.completedOn sid (some (env.clock chronicle.world.ticks))
      else chronicle.completedOn
  | none => chronicle.completedOn

structure Notes (env : Env) (before : Chronicle) (request : Option StoreRequest)
    (after : Chronicle) : Prop where
  step : StoreStep env before.world request after.world
  completedOn_eq : after.completedOn = before.noted env request

/-- The call creates no session at its end, and moves no completed session away from it. -/
def StoreCall.KeepsEnds (env : Env) (world : World) : StoreCall → Prop
  | .createSession _ currentStep _ _ _ _ _ => currentStep ≠ complete
  | .updateCurrentStep sessionId currentStep _ => ∀ row text,
    world.sessions.lookup sessionId = some row →
      row.currentStep = complete → columnText env currentStep = .ok text → text = complete
  | _ => True

/-- … and so does the request, if it is a call of the store. -/
def Chronicle.KeepsEnds (env : Env) (chronicle : Chronicle) (request : Option StoreRequest) :
    Prop :=
  ∀ made, request = some made → made.call.KeepsEnds env chronicle.world

inductive Chronicle.OldestFirst (chronicle : Chronicle) (first second : Session) : Prop
  | ended (complete : first.currentStep = complete) (active : second.currentStep ≠ Megalos.complete)
  | completed {time later : Timestamp} (complete : first.currentStep = complete)
      (completeToo : second.currentStep = Megalos.complete)
      (completedOn : chronicle.completedOn first.sessionId = some time)
      (completedLater : chronicle.completedOn second.sessionId = some later)
      (earlier : time ≤ later)
  | active (active : first.currentStep ≠ complete) (activeToo : second.currentStep ≠ complete)
      (earlier : first.updatedAt ≤ second.updatedAt)

/-- The store makes room under the cap for one session: no more go than must, and the oldest go
first. -/
structure Chronicle.EvictsInOrder (chronicle : Chronicle) (cap : Nat) (after : World) : Prop where
  size_le : after.sessions.size ≤ cap
  removed : (chronicle.world.sessions.rows.filter fun row =>
    ¬after.sessions.contains row.sessionId).length =
    chronicle.world.sessions.size + 1 - cap
  oldestFirst : ∀ first second, first ∈ chronicle.world.sessions.rows →
    second ∈ chronicle.world.sessions.rows →
    ¬after.sessions.contains first.sessionId → after.sessions.contains second.sessionId →
      chronicle.OldestFirst first second

/-- The column holds what was noted of a completed session, and nothing of another one. -/
structure Chronicle.StampedRow (chronicle : Chronicle) (sid : SessionId) (row : Session) :
    Prop where
  completed : row.currentStep = complete → ∃ time, row.completedAt = some time ∧
    chronicle.completedOn sid = some time
  active : row.currentStep ≠ complete → row.completedAt = none

structure Chronicle.Stamped (env : Env) (chronicle : Chronicle) : Prop where
  row : ∀ {sid row}, chronicle.world.sessions.lookup sid = some row → chronicle.StampedRow sid row
  issued : ∀ {sid row}, chronicle.world.sessions.lookup sid = some row →
    Issued env chronicle.world.minted sid

variable {env : Env} {before after chronicle : Chronicle}

theorem Chronicle.noted_of_ne {request : Option StoreRequest} {sid : SessionId}
    (elsewhere : ∀ made, request = some made → made.call.completes? env ≠ some sid) :
    before.noted env request sid = before.completedOn sid := by
  unfold noted
  cases request with
  | none => rfl
  | some made =>
      dsimp only [Option.bind_some]
      cases ends : made.call.completes? env with
      | none => rfl
      | some other =>
          dsimp only
          split
          · refine Function.update_of_ne ?_ _ _
            rintro rfl
            exact elsewhere made rfl ends
          · rfl

theorem Chronicle.noted_self {made : StoreRequest} {sid : SessionId} {row : Session}
    (found : before.world.sessions.lookup sid = some row)
    (ends : made.call.completes? env = some sid) :
    before.noted env (some made) sid = some (env.clock before.world.ticks) := by
  have there : before.world.sessions.contains sid := by rw [Table.contains, found]; rfl
  unfold noted
  rw [Option.bind_some, ends]
  dsimp only
  rw [if_pos there, Function.update_self]

theorem StoreStep.minted_le {request : Option StoreRequest} {world final : World}
    (step : StoreStep env world request final) : world.minted ≤ final.minted := by
  cases step with
  | called made =>
      rw [StoreCall.minted_after]
      omega
  | aside _ _ minted => rw [minted]

theorem Chronicle.StampedRow.same {sid : SessionId} {row new : Session}
    (stamped : before.StampedRow sid row) (pointer : new.currentStep = row.currentStep)
    (stamp : new.completedAt = row.completedAt)
    (noted : after.completedOn sid = before.completedOn sid) : after.StampedRow sid new := by
  refine ⟨?_, ?_⟩
  · rw [pointer, stamp, noted]
    exact stamped.completed
  · rw [pointer, stamp]
    exact stamped.active

theorem Chronicle.Stamped.row_after {made : StoreRequest} {sid : SessionId} {new : Session}
    (stamped : before.Stamped env) (keeps : made.call.KeepsEnds env before.world)
    (noted : after.completedOn = before.noted env (some made))
    (found : (made.call.after { env with sessionCap :=
      made.cap } before.world).sessions.lookup sid = some new) :
    after.StampedRow sid new := by
  rcases StoreCall.row_after found with ⟨old, there, rewrites⟩ |
      ⟨workflowType, currentStep, parent, frameType, callStepId, limit, fingerprint, now, called, -,
        rfl⟩
  · have isOld : old.sessionId = sid := Table.lookup_key there
    generalize same : made.call = call at rewrites keeps
    cases rewrites with
    | @moved currentStep text stepData _ _ column pointer stamp artifacts visits =>
        have found := there
        rw [isOld] at same
        refine ⟨?_, ?_⟩
        · intro ends
          have isEnd : text = complete := pointer.symm.trans ends
          refine ⟨env.clock before.world.ticks, ?_, ?_⟩
          · rw [stamp, if_pos isEnd]
            rfl
          · rw [noted]
            refine Chronicle.noted_self there ?_
            have column : columnText env currentStep = .ok text := column
            rw [same]
            simp only [StoreCall.completes?, column, if_pos isEnd]
        · intro active
          have isActive : text ≠ complete := fun isEnd => active (pointer.trans isEnd)
          have wasActive : old.currentStep ≠ complete := by
            intro ended
            refine isActive (keeps old text ?_ ended column)
            rw [isOld]
            exact there
          rw [stamp, if_neg isActive, (stamped.row there).active wasActive]
          rfl
    | visited pointer stamp artifacts =>
        refine (stamped.row there).same pointer stamp ?_
        rw [noted]
        refine Chronicle.noted_of_ne ?_
        rintro _ ⟨⟩
        simp [same, StoreCall.completes?]
    | stored pointer stamp artifacts visits =>
        refine (stamped.row there).same pointer stamp ?_
        rw [noted]
        refine Chronicle.noted_of_ne ?_
        rintro _ ⟨⟩
        simp [same, StoreCall.completes?]
    | kept elsewhere pointer stamp artifacts visits =>
        refine (stamped.row there).same pointer stamp ?_
        rw [noted]
        refine Chronicle.noted_of_ne ?_
        rintro _ ⟨⟩
        rw [same, ← isOld]
        exact elsewhere
  · rw [called] at keeps
    exact ⟨fun ends => absurd ends keeps, fun _ => rfl⟩

/-- A step that moves no session away from its end keeps the stamps right. -/
theorem Notes.stamped {request : Option StoreRequest} (stamped : before.Stamped env)
    (keeps : before.KeepsEnds env request) (notes : Notes env before request after) :
    after.Stamped env := by
  obtain ⟨step, noted⟩ := notes
  have grown := step.minted_le
  rcases after with ⟨final, completedOn⟩
  dsimp only at step grown noted
  cases step with
  | aside sessions sessionStack minted =>
      refine ⟨?_, ?_⟩
      · intro sid row found
        rw [sessions] at found
        exact (stamped.row found).same rfl rfl (congrFun noted sid)
      · intro sid row found
        rw [sessions] at found
        exact (stamped.issued found).mono grown
  | called made =>
      refine ⟨stamped.row_after (keeps made rfl) noted, ?_⟩
      intro sid row found
      rcases StoreCall.row_after found with ⟨old, there, -⟩ |
          ⟨workflowType, currentStep, parent, frameType, callStepId, limit, fingerprint, now,
            called, isNew, -⟩
      · exact (stamped.issued there).mono grown
      · refine ⟨before.world.minted, ?_, isNew.symm⟩
        rw [StoreCall.minted_after, called]
        exact Nat.lt_succ_self _

theorem Chronicle.empty_stamped : Chronicle.empty.Stamped env := by
  constructor
  · intro sid row found
    exact nomatch found
  · intro sid row found
    exact nomatch found

theorem Chronicle.Stamped.of_run
    (run : Run (Notes env) (fun chronicle request =>
      chronicle.KeepsEnds env request) Chronicle.empty chronicle) :
    chronicle.Stamped env :=
  run.invariant (Chronicle.Stamped env) Chronicle.empty_stamped
    fun _ _ _ stamped keeps notes => notes.stamped stamped keeps

/-! Making room. -/

theorem Chronicle.Stamped.oldestFirst {first second : Session} (stamped : chronicle.Stamped env)
    (firstThere : first ∈ chronicle.world.sessions.rows)
    (secondThere : second ∈ chronicle.world.sessions.rows)
    (order : EvictsBefore first second) : chronicle.OldestFirst first second := by
  have firstRow := stamped.row (Table.lookup_of_mem firstThere)
  have secondRow := stamped.row (Table.lookup_of_mem secondThere)
  rcases (evictsBefore_iff first second).mp order with ⟨ended, active⟩ | ⟨alike, earlier⟩
  · exact .ended ended active
  · unfold Session.evictionTime at earlier
    by_cases ended : first.currentStep = complete
    · obtain ⟨time, stamp, noted⟩ := firstRow.completed ended
      obtain ⟨later, stampLater, notedLater⟩ := secondRow.completed (alike.mp ended)
      rw [stamp, stampLater] at earlier
      exact .completed ended (alike.mp ended) noted notedLater earlier
    · have activeToo : second.currentStep ≠ complete := fun endedToo => ended (alike.mpr endedToo)
      rw [firstRow.active ended, secondRow.active activeToo] at earlier
      exact .active ended activeToo earlier

theorem removed_length {world after : World} {cap : Nat} (positive : 1 ≤ cap)
    (stays : ∀ {sid row}, world.sessions.lookup sid = some row →
      ((after.sessions.lookup sid).isSome ↔ sid ∉ evictedIds cap world.sessions)) :
    (world.sessions.rows.filter fun row => ¬after.sessions.contains row.sessionId).length =
      world.sessions.size + 1 - cap := by
  have same : (world.sessions.rows.filter fun row => ¬after.sessions.contains row.sessionId) =
      world.sessions.rows.filter fun row => row.sessionId ∈ evictedIds cap world.sessions := by
    apply List.filter_congr
    intro row member
    rw [decide_eq_decide]
    exact (not_congr (stays (Table.lookup_of_mem member))).trans not_not
  have left : (world.sessions.rows.filter fun row =>
    !decide (row.sessionId ∈ evictedIds cap world.sessions)).length =
      world.sessions.size - (world.sessions.size + 1 - cap) := by
    rw [evictedIds_eq]
    exact dropFirst_size EvictsBefore (world.sessions.size + 1 - cap) world.sessions
  have both := @List.length_eq_length_filter_add _ world.sessions.rows
    fun row => decide (row.sessionId ∈ evictedIds cap world.sessions)
  rw [same]
  change world.sessions.size = _ at both
  omega

/-- In every run of the store that moves no session away from its end, the oldest sessions go first.
-/
theorem Notes.evictsInOrder {after : World} {cap : Nat} {parent : Option SessionId}
    {child : SessionId} {workflowType currentStep fingerprint : String} {frameType : FrameType}
    {callStepId : Option String}
    {limit : Option Nat}
    (run : Run (Notes env) (fun chronicle request =>
      chronicle.KeepsEnds env request) Chronicle.empty chronicle)
    (positive : 1 ≤ cap)
    (creates : (createSession { env with sessionCap :=
      cap } workflowType currentStep parent frameType callStepId
      limit fingerprint).run chronicle.world =
        (.ok child, after)) : chronicle.EvictsInOrder cap after := by
  have stamped := Chronicle.Stamped.of_run run
  have stays : ∀ {sid row}, chronicle.world.sessions.lookup sid = some row →
      ((after.sessions.lookup sid).isSome ↔ sid ∉ evictedIds cap chronicle.world.sessions) :=
    fun found => createSession_stays_iff stamped.issued creates found
  refine ⟨createSession_size_le positive creates, removed_length positive stays, ?_⟩
  intro first second firstThere secondThere gone kept
  have firstGone : first ∈ firstBy EvictsBefore (chronicle.world.sessions.size + 1 - cap) chronicle.world.sessions.rows := by
    rw [← key_mem_firstBy firstThere, ← evictedIds_eq]
    by_contra spared
    exact gone ((stays (Table.lookup_of_mem firstThere)).mpr spared)
  have secondKept : second ∉ firstBy EvictsBefore (chronicle.world.sessions.size + 1 - cap) chronicle.world.sessions.rows := by
    rw [← key_mem_firstBy secondThere, ← evictedIds_eq]
    exact (stays (Table.lookup_of_mem secondThere)).mp kept
  exact stamped.oldestFirst firstThere secondThere (firstBy_before firstGone secondThere secondKept)

def Chronicle.afterCall (env : Env) (chronicle : Chronicle) (call : StoreCall) : Chronicle :=
  ⟨call.after env chronicle.world, chronicle.noted env (some ⟨env.sessionCap, call⟩)⟩

theorem notes_afterCall (chronicle : Chronicle) (call : StoreCall) :
    Notes env chronicle (some ⟨env.sessionCap, call⟩) (chronicle.afterCall env call) :=
  ⟨.called ⟨env.sessionCap, call⟩, rfl⟩

def createInner : StoreCall := .createSession "inner" "x" none .call none none ""

def youngerCompleted : Chronicle :=
  ((Chronicle.empty.afterCall sampleEnv createInner).afterCall sampleEnv createInner).afterCall sampleEnv
    (.updateCurrentStep (sampleToken 1) (.str complete) none)

theorem youngerCompleted_evicted : youngerCompleted.EvictsInOrder 2
    ((createSession { sampleEnv with sessionCap :=
      2 } "inner" "x" none .call none none "").run youngerCompleted.world).2 := by
  have created : ∀ chronicle : Chronicle,
    chronicle.KeepsEnds sampleEnv (some ⟨sampleEnv.sessionCap, createInner⟩) := by
    rintro chronicle _ ⟨⟩
    exact (by decide : "x" ≠ complete)
  have completed : ∀ chronicle : Chronicle, chronicle.KeepsEnds sampleEnv
      (some ⟨sampleEnv.sessionCap, .updateCurrentStep (sampleToken 1) (.str complete) none⟩) := by
    rintro chronicle _ ⟨⟩ row text _ _ column
    exact (Except.ok.inj column).symm
  have run := (((Run.refl Chronicle.empty).snoc (created _) (notes_afterCall _ _)).snoc (created _)
    (notes_afterCall _ _)).snoc (completed _) (notes_afterCall _ _)
  exact Notes.evictsInOrder run (by decide)
    (Prod.ext (show _ = Except.ok (sampleToken 2) from rfl) rfl)

/-! The tools. -/

theorem StoreRun.noted {permits : StoreCall → Prop} {world final : World}
    (run : StoreRun env permits world final) (completedOn : SessionId → Option Timestamp) :
    ∃ completedAfter, Run (Notes env)
    (fun _ _ => True) ⟨world, completedOn⟩ ⟨final, completedAfter⟩ := by
  induction run with
  | refl => exact ⟨completedOn, Run.refl _⟩
  | tail _ last ih =>
      obtain ⟨completedBefore, start⟩ := ih
      obtain ⟨request, _, step⟩ := last
      exact ⟨_, start.snoc trivial ⟨step, rfl⟩⟩

theorem Reachable.noted {allowed : World → Request → Prop} {world : World}
    (reachable : Reachable env allowed world) :
    ∃ completedOn, Run (Notes env) (fun _ _ => True) Chronicle.empty ⟨world, completedOn⟩ := by
  induction reachable with
  | refl => exact ⟨fun _ => none, Run.refl _⟩
  | tail _ last ih =>
      obtain ⟨completedBefore, start⟩ := ih
      obtain ⟨request, _, _, ran, _⟩ := last
      have stored : Issues env (StoreCall.Permitted (request.call.WritesCheckpoint env))
          (callTool env request.deployment request.call) :=
        issues_callTool request.call
      obtain ⟨completedAfter, rest⟩ := (stored _).noted completedBefore
      rw [ran] at rest
      exact ⟨completedAfter, start.trans rest⟩

/-- Two sessions: one that was completed, then revised, and one that was not touched since. -/
def revisedFirst : World :=
  serveAll sampleEnv (appOf sampleEnv nestedDocs) World.empty
    [.startWorkflow "inner" "", .submitStep "s" "x" "done" "" "", .startWorkflow "inner" "",
      .reviseStep "s" "x"]

/-- No session is complete, and the one that was revised last goes first: its `completed_at` is
still there. -/
theorem revisedFirst_evicted :
    ∃ chronicle after, ServedBy sampleEnv (appOf sampleEnv nestedDocs) chronicle.world ∧
    Run (Notes sampleEnv) (fun _ _ => True) Chronicle.empty chronicle ∧
    (createSession { sampleEnv with sessionCap :=
      2 } "inner" "x" none .call none none "").run chronicle.world =
      (.ok (sampleToken 2), after) ∧ ¬chronicle.EvictsInOrder 2 after := by
  have reachable : ServedBy sampleEnv (appOf sampleEnv nestedDocs) revisedFirst :=
    serveAll_served (by rfl)
  obtain ⟨completedOn, noted⟩ := Reachable.noted reachable
  let room := (createSession { sampleEnv with sessionCap :=
    2 } "inner" "x" none .call none none "").run revisedFirst
  have created : room = (.ok (sampleToken 2), room.2) := Prod.ext rfl rfl
  have gone : room.2.sessions.contains (sampleToken 0) = false := by rfl
  have kept : room.2.sessions.contains (sampleToken 1) = true := by rfl
  refine ⟨⟨revisedFirst, completedOn⟩, room.2, reachable, noted, created, ?_⟩
  intro ordered
  obtain ⟨first, firstFound, firstActive, firstLate⟩ : ∃ first,
    revisedFirst.sessions.lookup (sampleToken 0) = some first ∧
      first.currentStep = "x" ∧ first.updatedAt = 8 := ⟨_, rfl, rfl, rfl⟩
  obtain ⟨second, secondFound, secondEarly⟩ : ∃ second,
    revisedFirst.sessions.lookup (sampleToken 1) = some second ∧
      second.updatedAt = 5 := ⟨_, rfl, rfl⟩
  have order := ordered.oldestFirst first second (Table.lookup_mem firstFound)
    (Table.lookup_mem secondFound)
    (by rw [Table.lookup_key firstFound, gone]; decide) (by rw [Table.lookup_key secondFound, kept])
  have active : first.currentStep ≠ complete := by
    rw [firstActive]
    decide
  cases order with
  | ended ended => exact active ended
  | completed ended => exact active ended
  | active _ _ earlier =>
      rw [firstLate, secondEarly] at earlier
      exact absurd earlier (by decide)

end Megalos
