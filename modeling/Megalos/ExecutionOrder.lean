import Megalos.Linear
import Megalos.Parked
import Megalos.Revision
import Megalos.Skipping

/-!
The order in which content was stored against the order in which the steps are listed.
A revision clears by the list; as long as no pointer goes back in the list, that is
also by the order of the submissions.
-/

namespace Megalos

open GuardedRuns KeyedTable

def Workflow.Lands (wf : Workflow) (env : Env) (pointer : Val) (position : Nat) : Prop :=
  ∃ text step, columnText env pointer = .ok text ∧ findStep wf (.str text) = some (position, step)

def Workflow.From (wf : Workflow) (env : Env) (low : Nat) (pointer : Val) : Prop :=
  ∀ position, wf.Lands env pointer position → low ≤ position

structure Workflow.PassesForward (wf : Workflow) (env : Env) : Prop where
  runs : ∀ idx step, findStep wf (.str step.id) = some (idx, step) → step.isMcpToolCall = true →
    wf.From env idx (afterMcpStep wf idx step)
  skips : ∀ idx step, findStep wf (.str step.id) = some (idx, step) →
    step.precondition.isSome = true →
    wf.From env idx (.str (wf.following idx))

/-- The call moves the session to a step that is listed before the one it comes from, or moves it at
all in a workflow where passing steps can go back. -/
inductive GoesBack (env : Env) (deployment : Deployment) (world : World) (sid : SessionId) : Call →
    Prop
  | jumped {call : Call} {row : Session} {wf : Workflow} {idx calls position : Nat} {step : Step}
      {content : String}
      {pointer : Val} {forced : Bool} (named : row.sessionId = sid)
      (advances : Advances env deployment world call row wf idx step content pointer forced calls)
      (lands : wf.Lands env pointer position) (back : position < idx) :
        GoesBack env deployment world sid call
  | passed {call : Call} {row : Session} {wf : Workflow} {idx calls : Nat} {step : Step}
      {content : String}
      {pointer : Val} {forced : Bool} (named : row.sessionId = sid)
      (advances : Advances env deployment world call row wf idx step content pointer forced calls)
      (loops : ¬wf.PassesForward env) : GoesBack env deployment world sid call
  | opened {workflowType context : String} {wf : Workflow} (fresh : sid = env.token world.minted)
      (loaded : deployment.workflows.get? workflowType = some wf) (loops : ¬wf.PassesForward env) :
      GoesBack env deployment world sid (.startWorkflow workflowType context)

def Workflow.Clear (wf : Workflow) (env : Env) (pointer : Val) (data : StepData) : Prop :=
  ∀ position, wf.Lands env pointer position → ∀ stepId later step,
    findStep wf (.str stepId) = some (later, step) →
    position < later → data.get? stepId = none

def Workflow.Listed (wf : Workflow) (first second : String) : Prop :=
  ∀ early late step other, findStep wf (.str first) = some (early, step) →
    findStep wf (.str second) = some (late, other) → early ≤ late

variable {env : Env} {deployment : Deployment} {registry : Option Registry} {world after : World}
  {wf : Workflow} {pointer next : Val} {data : StepData} {advance : Advance} {step : Step}
  {idx low position : Nat} {sid : SessionId}
  {call : Call} {row new : Session} {steps log : List String} {first second stepId : String}

namespace Workflow

theorem lands_of_found (found : findStep wf pointer = some (idx, step)) :
    wf.Lands env pointer idx := by
  obtain ⟨-, rfl⟩ := findStep_spec found
  exact ⟨step.id, step, rfl, found⟩

theorem Lands.unique {other : Nat} (lands : wf.Lands env pointer position)
    (again : wf.Lands env pointer other) :
    position = other := by
  obtain ⟨text, step, column, found⟩ := lands
  obtain ⟨otherText, otherStep, otherColumn, otherFound⟩ := again
  rw [column, Except.ok.injEq] at otherColumn
  subst otherColumn
  rw [found] at otherFound
  simp only [Option.some.injEq, Prod.mk.injEq] at otherFound
  exact otherFound.1

theorem Lands.stored {text : String} (column : columnText env pointer = .ok text)
    (lands : wf.Lands env (.str text) position) : wf.Lands env pointer position := by
  obtain ⟨same, step, isText, found⟩ := lands
  cases isText
  exact ⟨text, step, column, found⟩

/-- Content for a step at a position leaves the steps at other positions as they are. -/
theorem get?_set_elsewhere {place : Nat} {other : Step} {text : String}
    (at_ : findStep wf pointer = some (idx, step))
    (found : findStep wf (.str stepId) = some (place, other)) (elsewhere : place ≠ idx) :
    (data.set step.id text).get? stepId = data.get? stepId := by
  rw [Dict.get?_set, if_neg]
  rintro rfl
  rw [findStep_own at_, Option.some.injEq, Prod.mk.injEq] at found
  exact elsewhere found.1.symm

theorem Clear.set {stored : String} (clear : wf.Clear env pointer data)
    (at_ : findStep wf pointer = some (idx, step)) (onward : wf.From env idx next) :
    wf.Clear env next (data.set step.id stored) := by
  intro position lands stepId later other found ahead
  have notBefore := onward position lands
  rw [get?_set_elsewhere at_ found (by omega)]
  exact clear idx (lands_of_found at_) stepId later other found (by omega)

theorem From.mono {lower : Nat} (from_ : wf.From env low pointer) (below : lower ≤ low) :
    wf.From env lower pointer :=
  fun position lands => below.trans (from_ position lands)

theorem Listed.strict (listed : wf.Listed first second) (differs : second ≠ first)
    {early late : Nat} {other : Step} (found : findStep wf (.str first) = some (early, step))
    (foundSecond : findStep wf (.str second) = some (late, other)) :
    early < late := by
  refine Nat.lt_of_le_of_ne (listed _ _ _ _ found foundSecond) ?_
  rintro rfl
  have spec := findStep_spec found
  have otherSpec := findStep_spec foundSecond
  rw [spec.1, Option.some.injEq] at otherSpec
  rw [Val.str.injEq] at spec otherSpec
  exact differs (by rw [otherSpec.2, spec.2, otherSpec.1])

theorem mem_after {later : Nat} (found : findStep wf (.str stepId) = some (later, step))
    (ahead : idx < later) :
    stepId ∈ (wf.steps.drop (idx + 1)).map Step.id := by
  obtain ⟨there, isStep⟩ := findStep_spec found
  refine List.mem_map.mpr ⟨step, List.mem_iff_getElem?.mpr ⟨later - (idx + 1), ?_⟩,
    (Val.str.inj isStep).symm⟩
  rw [List.getElem?_drop, show idx + 1 + (later - (idx + 1)) = later by omega]
  exact there

namespace PassesForward

theorem applySkipLoop {forced : Bool} {skipped : List String} (forward : wf.PassesForward env)
    (skip : applySkipLoop env pointer wf data forced = .ok (next, skipped))
    (from_ : wf.From env low pointer) :
    wf.From env low next := by
  refine applySkipLoop_rule (wf.From env low) ?_ skip from_
  intro last idx step holds _ at_ guarded
  exact (forward.skips idx step (findStep_own at_) guarded).mono (holds idx (lands_of_found at_))

theorem clear_skip {forced : Bool} {skipped : List String} (forward : wf.PassesForward env)
    (skip : Megalos.applySkipLoop env pointer wf data forced = .ok (next, skipped))
    (clear : wf.Clear env pointer data) :
    wf.Clear env next data := by
  refine applySkipLoop_rule (fun last => wf.Clear env last data) ?_ skip clear
  intro last idx step holds _ at_ guarded position lands stepId later other isLater ahead
  have notBefore := forward.skips idx step (findStep_own at_) guarded position lands
  exact holds idx (lands_of_found at_) stepId later other isLater (by omega)

theorem afterMcpStep (forward : wf.PassesForward env) (at_ : findStep wf pointer = some (idx, step))
    (mcp : step.isMcpToolCall = true) : wf.From env idx (afterMcpStep wf idx step) :=
  forward.runs idx step (findStep_own at_) mcp

end PassesForward

end Workflow

/-- What runs automatically stands no earlier in the list than where it starts. -/
theorem AutoRuns.from_ (runs : AutoRuns env registry wf pointer data steps advance)
    (forward : wf.PassesForward env) (start : wf.From env low pointer) :
    ∀ stepId ∈ steps, ∃ position step, findStep wf (.str stepId) = some (position, step) ∧
      low ≤ position := by
  have ofStep : ∀ {pointer idx step}, wf.From env low pointer →
    findStep wf pointer = some (idx, step) →
      ∃ position other, findStep wf (.str step.id) = some (position, other) ∧ low ≤ position := by
    intro pointer idx step start at_
    exact ⟨idx, step, findStep_own at_, start idx (Workflow.lands_of_found at_)⟩
  induction runs with
  | arrives => simp
  | stops => simp
  | stopsAfter at_ mcp =>
      intro stepId member
      rw [List.mem_singleton.mp member]
      exact ofStep start at_
  | runs at_ mcp skips rest ih =>
      intro stepId member
      rcases List.mem_cons.mp member with rfl | later
      · exact ofStep start at_
      · refine ih (forward.applySkipLoop skips ?_) stepId later
        exact (forward.afterMcpStep at_ mcp).mono (start _ (Workflow.lands_of_found at_))

theorem AutoRuns.sorted (runs : AutoRuns env registry wf pointer data steps advance)
    (forward : wf.PassesForward env) :
    steps.Pairwise wf.Listed := by
  induction runs with
  | arrives => exact .nil
  | stops => exact .nil
  | stopsAfter at_ mcp => exact List.pairwise_singleton _ _
  | @runs pointer next data idx step text skipped steps advance at_ mcp skips rest ih =>
      refine List.pairwise_cons.mpr ⟨?_, ih⟩
      intro stepId member early late found other isFound isLate
      rw [findStep_own at_] at isFound
      simp only [Option.some.injEq, Prod.mk.injEq] at isFound
      obtain ⟨rfl, rfl⟩ := isFound
      obtain ⟨position, otherStep, there, notBefore⟩ :=
        rest.from_ forward (forward.applySkipLoop skips (forward.afterMcpStep at_ mcp)) stepId member
      rw [there] at isLate
      simp only [Option.some.injEq, Prod.mk.injEq] at isLate
      omega

/-- Automatic execution leaves no entry ahead of the pointer where there was none. -/
theorem AutoRuns.clear {last : Val} {lastData : StepData}
    (runs : AutoRuns env registry wf pointer data steps advance) (forward : wf.PassesForward env)
    (resting : advance.resting = some (last, lastData)) (clear : wf.Clear env pointer data) :
    wf.Clear env last lastData := by
  induction runs with
  | arrives =>
      simp only [Advance.resting, Option.some.injEq, Prod.mk.injEq] at resting
      rw [← resting.1, ← resting.2]
      exact clear
  | stops =>
      simp only [Advance.resting, Option.some.injEq, Prod.mk.injEq] at resting
      rw [← resting.1, ← resting.2]
      exact clear
  | stopsAfter at_ mcp =>
      simp only [Advance.resting, Option.some.injEq, Prod.mk.injEq] at resting
      rw [← resting.1, ← resting.2]
      exact clear.set at_ (forward.afterMcpStep at_ mcp)
  | runs at_ mcp skips rest ih =>
      exact ih resting (clear.set at_ (forward.applySkipLoop skips (forward.afterMcpStep at_ mcp)))

/-- The one step was last stored after the other. -/
def Later (log : List String) (first second : String) : Prop :=
  ∃ before after, log = before ++ second :: after ∧ second ∉ after ∧ first ∈ after

theorem Later.append (later : Later (log ++ steps) first second) :
    second ∈ steps ∧ Later steps first second ∨
      second ∉ steps ∧ second ∈ log ∧ (first ∈ steps ∨ Later log first second) := by
  obtain ⟨before, after, split, last, member⟩ := later
  rcases List.append_eq_append_iff.mp split with ⟨middle, rfl, isSteps⟩ | ⟨middle, isLog, isAfter⟩
  · exact .inl ⟨by simp [isSteps], middle, after, isSteps, last, member⟩
  · cases middle with
    | nil =>
        rw [List.nil_append] at isAfter
        exact .inl ⟨by simp [← isAfter], [], after, isAfter.symm, last, member⟩
    | cons head rest =>
        rw [List.cons_append, List.cons.injEq] at isAfter
        obtain ⟨rfl, rfl⟩ := isAfter
        rw [List.mem_append, not_or] at last
        refine .inr ⟨last.2, by simp [isLog], ?_⟩
        rcases List.mem_append.mp member with inRest | inSteps
        · exact .inr ⟨before, rest, isLog, last.1, inRest⟩
        · exact .inl inSteps

theorem Later.listed (later : Later steps first second) (sorted : steps.Pairwise wf.Listed) :
    wf.Listed second first ∧ first ≠ second := by
  obtain ⟨before, after, rfl, last, member⟩ := later
  have tail := (List.pairwise_append.mp sorted).2.1
  refine ⟨(List.pairwise_cons.mp tail).1 first member, ?_⟩
  rintro rfl
  exact last member

/-- Entries stand behind the pointer, and a step that was stored after one that still has its entry
is listed after it. -/
structure InOrder (wf : Workflow) (env : Env) (row : Session) (log : List String) : Prop where
  clear : row.currentStep ≠ workflowChanged → wf.Clear env (.str row.currentStep) row.stepData
  listed : ∀ stepId ∈ log, ∃ position step, findStep wf (.str stepId) = some (position, step)
  sorted : ∀ first second, Later log first second → (row.stepData.get? second).isSome = true →
    wf.Listed second first ∧ first ≠ second

/-- A call that stores nothing keeps the order, if it clears enough where it moves the pointer. -/
theorem InOrder.quiet (order : InOrder wf env row log)
    (clear : new.currentStep ≠ workflowChanged → wf.Clear env (.str new.currentStep) new.stepData)
    (kept : ∀ key, (new.stepData.get? key).isSome = true → (row.stepData.get? key).isSome = true) :
    InOrder wf env new log :=
  ⟨clear, order.listed, fun first second later stands =>
    order.sorted first second later (kept second stands)⟩

/-- A call that stores content from the pointer on keeps the order. -/
theorem InOrder.stored (order : InOrder wf env row log)
    (unmarked : row.currentStep ≠ workflowChanged)
    (at_ : findStep wf (.str row.currentStep) = some (idx, step))
    (clear : new.currentStep ≠ workflowChanged → wf.Clear env (.str new.currentStep) new.stepData)
    (kept : ∀ key, key ∉ steps → (new.stepData.get? key).isSome = true →
      (row.stepData.get? key).isSome = true)
    (from_ : ∀ stepId ∈ steps, ∃ position step, findStep wf (.str stepId) = some (position, step) ∧
      idx ≤ position)
    (sorted : steps.Pairwise wf.Listed) : InOrder wf env new (log ++ steps) := by
  refine ⟨clear, ?_, ?_⟩
  · intro stepId member
    rcases List.mem_append.mp member with old | added
    · exact order.listed stepId old
    · obtain ⟨position, step, found, -⟩ := from_ stepId added
      exact ⟨position, step, found⟩
  · intro first second later stands
    rcases later.append with ⟨-, inSteps⟩ | ⟨unstored, logged, inSteps | inLog⟩
    · exact inSteps.listed sorted
    · have stood := kept second unstored stands
      refine ⟨?_, fun same => unstored (same ▸ inSteps)⟩
      intro early late stepOf other found foundFirst
      -- an entry that stands is behind the pointer, and what is stored now is not
      obtain ⟨position, stored, there, notBefore⟩ := from_ first inSteps
      rw [there] at foundFirst
      simp only [Option.some.injEq, Prod.mk.injEq] at foundFirst
      by_contra behind
      have absent := order.clear unmarked idx (Workflow.lands_of_found at_) second early stepOf found (by omega)
      rw [absent] at stood
      exact nomatch stood
    · exact order.sorted first second inLog (kept second unstored stands)

section Call

variable {calls : Nat} {content : String} {forced : Bool}

theorem Advances.onward
    (advances : Advances env deployment world call row wf idx step content pointer forced calls)
    (behaves : ¬GoesBack env deployment world row.sessionId call) :
    wf.PassesForward env ∧ wf.From env idx pointer := by
  constructor
  · by_contra loops
    exact behaves (.passed rfl advances loops)
  · intro position lands
    by_contra back
    exact behaves (.jumped rfl advances lands (by omega))

theorem Rewrites.clear (rewrites : Rewrites env deployment world call row new)
    (reads : ∀ other, Resolves deployment world.ledger row.sessionId row other → other = wf)
    (behaves : ¬GoesBack env deployment world row.sessionId call)
    (clear : row.currentStep ≠ workflowChanged → wf.Clear env (.str row.currentStep) row.stepData)
    (unmarked : new.currentStep ≠ workflowChanged) :
    wf.Clear env (.str new.currentStep) new.stepData := by
  cases rewrites with
  | kept data pointer =>
      rcases pointer with same | marked
      · rw [data, same]
        rw [same] at unmarked
        exact clear unmarked
      · exact absurd marked unmarked
  | escalated records data pointer =>
      rw [pointer] at unmarked ⊢
      intro position lands stepId later other found ahead
      rw [data, Dict.get?_set, if_neg]
      · exact clear unmarked position lands stepId later other found ahead
      · rintro rfl
        rw [lands.unique (Workflow.lands_of_found found)] at ahead
        omega
  | revised isCall revises moved =>
      have resolves := revises.resolves
      rw [← resolves.sessionId_eq] at resolves
      obtain rfl := reads _ resolves
      rw [moved.currentStep_eq, moved.stepData_eq]
      intro position lands stepId later other found ahead
      have target := revises.found
      rw [(findStep_spec target).2] at target
      rw [lands.unique (Workflow.lands_of_found target)] at ahead
      rw [get?_revisedData, if_pos (.inl (Workflow.mem_after found ahead))]
  | @advanced wf idx calls step content text pointer last data forced advance advances at_ ran resting column moved =>
      obtain ⟨resolves, -⟩ := advances.at_
      obtain rfl := reads _ resolves
      obtain ⟨forward, onward⟩ := advances.onward behaves
      rw [moved.currentStep_eq, moved.stepData_eq]
      have start : wf.Clear env pointer (row.stepData.set step.id content) :=
        (clear resolves.unmarked).set at_ onward
      rcases skipAndRun_runs ran with rfl | ⟨next, skipped, skip, runs⟩
      · simp [Advance.resting] at resting
      · have ended := runs.clear forward resting (forward.clear_skip skip start)
        intro position lands
        exact ended position (lands.stored column)

/-- What a call that does not go back stores content for is listed from the pointer on, and in
order. -/
theorem Records.places (records : Records env deployment world row.sessionId call steps)
    (reads : ∀ other otherWf, Resolves deployment world.ledger row.sessionId other otherWf →
      other = row ∧ otherWf = wf)
    (behaves : ¬GoesBack env deployment world row.sessionId call) :
    row.currentStep ≠ workflowChanged ∧
      ∃ idx step, findStep wf (.str row.currentStep) = some (idx, step) ∧
      (∀ stepId ∈ steps, ∃ position step, findStep wf (.str stepId) = some (position, step) ∧
        idx ≤ position) ∧
      steps.Pairwise wf.Listed := by
  cases records with
  | @escalated sessionId stepId content branch artifactId other otherWf idx step named submits fires =>
      have resolves := submits.resolves
      rw [← resolves.sessionId_eq, named] at resolves
      obtain ⟨rfl, rfl⟩ := reads _ _ resolves
      have at_ := submits.accepts.found
      rw [submits.accepts.inOrder] at at_
      refine ⟨resolves.unmarked, idx, step, at_, ?_, List.pairwise_singleton _ _⟩
      intro stepId member
      rw [List.mem_singleton.mp member]
      exact ⟨idx, step, findStep_own at_, le_rfl⟩
  | @advanced _ other otherWf idx calls step content pointer forced named advances stored =>
      obtain ⟨resolves, at_⟩ := advances.at_
      rw [named] at resolves
      obtain ⟨rfl, rfl⟩ := reads _ _ resolves
      obtain ⟨forward, onward⟩ := advances.onward behaves
      refine ⟨resolves.unmarked, idx, step, at_, ?_⟩
      have ran : (ranSteps env deployment.registry otherWf calls pointer (other.stepData.set step.id content)
          forced).Pairwise otherWf.Listed ∧
          ∀ stepId ∈ ranSteps env deployment.registry otherWf calls pointer (other.stepData.set step.id content) forced,
            ∃ position step, findStep otherWf (.str stepId) = some (position, step) ∧
              idx ≤ position := by
        cases result : skipAndRun env deployment.registry otherWf calls pointer (other.stepData.set step.id content)
          forced with
        | error raised => simp [result, storedBy] at stored
        | ok advance =>
            rcases skipAndRun_runs result with rfl | ⟨next, skipped, skip, runs⟩
            · simp [result, storedBy, Advance.stored, Advance.resting] at stored
            · exact ⟨runs.sorted forward, runs.from_ forward (forward.applySkipLoop skip onward)⟩
      constructor
      · intro stepId member
        rcases List.mem_cons.mp member with rfl | later
        · exact ⟨idx, step, findStep_own at_, le_rfl⟩
        · exact ran.2 stepId later
      · refine List.pairwise_cons.mpr ⟨?_, ran.1⟩
        intro stepId member early late found laterStep isFound isLate
        obtain ⟨position, ranStep, there, notBefore⟩ := ran.2 stepId member
        rw [findStep_own at_] at isFound
        rw [there] at isLate
        simp only [Option.some.injEq, Prod.mk.injEq] at isFound isLate
        omega

end Call

/-- The call creates the session, and the server runs these steps at its front. -/
structure Opens (env : Env) (deployment : Deployment) (before after : World) (sid : SessionId)
    (call : Call) (wf : Workflow) : Prop where
  starts : ∃ workflowType context, call = .startWorkflow workflowType context ∧
    deployment.workflows.get? workflowType = some wf
  fresh : sid = env.token before.minted
  created : (after.sessions.lookup sid).isSome = true
  stored : (storedBy env (autoRun env deployment.registry wf env.fuel before.outbound.length (.str wf.first.id)
    Table.empty)).isSome = true

inductive Recorded (env : Env) (deployment : Deployment) (before after : World) (sid : SessionId)
    (call : Call) : List String → Prop
  | stored {steps : List String} (records : Records env deployment before sid call steps) :
      Recorded env deployment before after sid call steps
  | opened {wf : Workflow} (opens : Opens env deployment before after sid call wf) :
      Recorded env deployment before after sid call
        (autoRunSteps env deployment.registry wf env.fuel before.outbound.length (.str wf.first.id) Table.empty)
  | quiet (unstored : ∀ steps, ¬Records env deployment before sid call steps)
      (unopened : ∀ wf, ¬Opens env deployment before after sid call wf) :
      Recorded env deployment before after sid call []

/-- A run together with the steps of one session that content was stored for, the last one at the
end. -/
inductive Logged (env : Env) (allowed : World → Request → Prop) (sid : SessionId) : World →
    List String → Prop
  | start : Logged env allowed sid World.empty []
  | served {before after : World} {request : Request} {log steps : List String}
      (logged : Logged env allowed sid before log) (meets : allowed before request)
      (serves : Serves env before request after)
      (recorded : Recorded env request.deployment before after sid request.call steps) :
      Logged env allowed sid after (log ++ steps)

variable {allowed : World → Request → Prop} {served : Deployment → Prop} {request : Request}

theorem Logged.reachable (logged : Logged env allowed sid world log) :
    Reachable env allowed world := by
  induction logged with
  | start => exact GuardedRuns.Run.refl _
  | served logged meets serves recorded ih => exact ih.snoc meets serves

theorem Reachable.logged (reachable : Reachable env allowed world) (sid : SessionId) :
    ∃ log, Logged env allowed sid world log := by
  induction reachable with
  | refl => exact ⟨[], .start⟩
  | @tail before final run last ih =>
      obtain ⟨log, logged⟩ := ih
      obtain ⟨request, meets, serves⟩ := last
      by_cases stores : ∃ steps, Records env request.deployment before sid request.call steps
      · obtain ⟨steps, records⟩ := stores
        exact ⟨_, .served logged meets serves (.stored records)⟩
      by_cases opens : ∃ wf, Opens env request.deployment before final sid request.call wf
      · obtain ⟨wf, opens⟩ := opens
        exact ⟨_, .served logged meets serves (.opened opens)⟩
      · exact ⟨_, .served logged meets serves (.quiet (fun steps records =>
          stores ⟨steps, records⟩) fun wf isOpened =>
          opens ⟨wf, isOpened⟩)⟩

structure World.InOrder (served : Deployment → Prop) (env : Env) (sid : SessionId) (world : World)
    (log : List String) : Prop where
  rows : ∀ row deployment wf, world.sessions.lookup sid = some row → served deployment →
    deployment.workflows.get? row.workflowType = some wf →
    deployment.workflowFingerprints.get? row.workflowType = some row.workflowFingerprint →
    Megalos.InOrder wf env row log
  unborn : ¬Issued env world.minted sid → log = []

/-- Nothing is stored for a session that is still to be created. -/
theorem Records.issued (sound : world.Sound env)
    (records : Records env deployment world sid call steps) :
    Issued env world.minted sid := by
  cases records with
  | escalated named submits fires =>
      have resolves := submits.resolves
      rw [← resolves.sessionId_eq, named] at resolves
      exact sound.rowIssued resolves.row
  | advanced named advances stored =>
      have resolves := advances.at_.1
      rw [named] at resolves
      exact sound.rowIssued resolves.row

theorem clear_empty : wf.Clear env pointer Table.empty := fun _ _ _ _ _ _ _ => rfl

/-- A row that is born is in order with what the server ran at the front. -/
theorem RowBirth.inOrder (birth : RowBirth env deployment world call new)
    (recorded : Recorded env deployment world after (env.token world.minted) call steps)
    (reads : ∀ other, deployment.workflows.get? new.workflowType = some other → other = wf)
    (behaves : ¬GoesBack env deployment world (env.token world.minted) call)
    (sound : world.Sound env) :
    InOrder wf env new steps := by
  cases birth with
  | @started workflowType context loadedWf now _ loaded opened =>
      have isWf : loadedWf = wf :=
        reads loadedWf (by rw [opened.same.workflowType_eq]; exact loaded)
      subst isWf
      have forward : loadedWf.PassesForward env := by
        by_contra loops
        exact behaves (.opened rfl loaded loops)
      have counted : ∀ {fresh : Session}, fresh.stepData = Table.empty → fresh.Counted new →
          loadedWf.Clear env (.str new.currentStep) new.stepData := by
        intro fresh empty counts
        rw [counts.stepData_eq, empty]
        exact clear_empty
      have clear : loadedWf.Clear env (.str new.currentStep) new.stepData := by
        rcases opened with applies | ⟨-, counts⟩
        · rcases applies.cases with ⟨-, counts⟩ | ⟨advance, last, text, data, ran, resting, column,
            moved⟩
          · exact counted rfl counts
          · rw [moved.currentStep_eq, moved.stepData_eq]
            intro position lands
            exact (autoRun_runs ran).clear forward resting clear_empty position (lands.stored column)
        · exact counted rfl counts
      cases recorded with
      | stored records => exact absurd (records.issued sound) Issued.not_next
      | quiet => exact ⟨fun _ => clear, by simp,
        by rintro first second ⟨before, after, split, -⟩; simp at split⟩
      | @opened wf opens =>
          obtain ⟨otherType, otherContext, sameCall, otherLoaded⟩ := opens.starts
          cases sameCall
          obtain rfl : loadedWf = wf := Option.some.inj (loaded.symm.trans otherLoaded)
          have stored := opens.stored
          cases ran : autoRun env deployment.registry loadedWf env.fuel world.outbound.length
            (.str loadedWf.first.id) Table.empty with
          | error raised => simp [ran, storedBy] at stored
          | ok advance =>
              have runs := autoRun_runs ran
              refine ⟨fun _ => clear, ?_, fun first second later _ =>
                later.listed (runs.sorted forward)⟩
              intro stepId member
              obtain ⟨position, step, found, -⟩ :=
                runs.from_ forward (fun _ _ => Nat.zero_le _) stepId member
              exact ⟨position, step, found⟩
  | spawned above loaded counts =>
      have isEmpty : new.stepData = Table.empty := counts.stepData_eq
      have unstarted : ∀ workflowType context, call ≠ .startWorkflow workflowType context := by
        rintro workflowType context rfl
        cases above
      cases recorded with
      | stored records => exact absurd (records.issued sound) Issued.not_next
      | opened opens =>
          obtain ⟨workflowType, context, same, -⟩ := opens.starts
          exact absurd same (unstarted workflowType context)
      | quiet =>
          refine ⟨fun _ => ?_, by simp,
            by rintro first second ⟨before, after, split, -⟩; simp at split⟩
          rw [isEmpty]
          exact clear_empty

theorem Serves.inOrder (sound : world.Sound env) (serves : Serves env world request after)
    (accepted : ∀ deployment, served deployment → deployment.Accepted env)
    (distinct : Distinguished served)
    (isServed : served request.deployment)
    (behaves : ¬GoesBack env request.deployment world sid request.call)
    (recorded : Recorded env request.deployment world after sid request.call steps)
    (order : world.InOrder served env sid log) : after.InOrder served env sid (log ++ steps) := by
  constructor
  · intro new deployment wf found reading loaded live
    rcases serves.rowEffect sound found with ⟨row, there, change⟩ | ⟨fresh, birth⟩
    · have rowId : row.sessionId = sid := World.row_sessionId there
      subst rowId
      have same := change.same
      rw [same.workflowType_eq] at loaded live
      rw [same.workflowFingerprint_eq] at live
      have before : InOrder wf env row log := order.rows row deployment wf there reading loaded live
      have reads : ∀ other otherWf,
        Resolves request.deployment world.ledger row.sessionId other otherWf →
          other = row ∧ otherWf = wf := by
        intro other otherWf resolves
        have isRow : other = row := Option.some.inj (resolves.row.symm.trans there)
        subst isRow
        exact ⟨rfl, distinct _ _ isServed reading _ _ _ _ resolves.loaded loaded
          (resolves.fingerprint (accepted _ isServed)) live⟩
      have rewrites := change.rewrites sound
      have clear : new.currentStep ≠ workflowChanged →
        wf.Clear env (.str new.currentStep) new.stepData :=
        rewrites.clear (fun other resolves => (reads row other resolves).2) behaves before.clear
      have entry : ∀ key, (new.stepData.get? key).isSome = true →
        (row.stepData.get? key).isSome = true ∨
          Stores env request.deployment world row.sessionId key request.call := by
        intro key stands
        rcases rewrites.entry key with same | gone | stores
        · exact .inl (same ▸ stands)
        · simp [gone] at stands
        · exact .inr stores
      cases recorded with
      | stored records =>
          obtain ⟨unmarked, idx, step, at_, places, sorted⟩ := records.places reads behaves
          refine before.stored unmarked at_ clear ?_ places sorted
          intro key unstored stands
          rcases entry key stands with stood | ⟨others, again, member⟩
          · exact stood
          · rw [records.unique sound again] at unstored
            exact absurd member unstored
      | opened opens =>
          have fresh := opens.fresh
          exact absurd (fresh ▸ sound.rowIssued there) Issued.not_next
      | quiet unstored unopened =>
          rw [List.append_nil]
          refine before.quiet clear fun key stands => ?_
          rcases entry key stands with stood | ⟨others, again, -⟩
          · exact stood
          · exact absurd again (unstored others)
    · subst fresh
      rw [order.unborn Issued.not_next, List.nil_append]
      refine birth.inOrder recorded ?_ behaves sound
      intro other isLoaded
      exact distinct _ _ isServed reading _ _ _ _ isLoaded loaded (birth.live (accepted _ isServed)) live
  · intro unissued
    have before : ¬Issued env world.minted sid :=
      fun issued => unissued (issued.mono (serves.shape sound).minted_le)
    rw [order.unborn before, List.nil_append]
    cases recorded with
    | stored records => exact absurd (records.issued sound) before
    | opened opens =>
        obtain ⟨row, found⟩ := Option.isSome_iff_exists.mp opens.created
        exact absurd ((serves.sound sound).rowIssued found) unissued
    | quiet => rfl

theorem Logged.inOrder (accepted : ∀ deployment, served deployment → deployment.Accepted env)
    (distinct : Distinguished served)
    (logged : Logged env (fun world request => served request.deployment ∧
      ¬GoesBack env request.deployment world sid request.call) sid world log) :
    world.InOrder served env sid log := by
  induction logged with
  | start => exact ⟨fun row deployment wf found => (nomatch found), fun _ => rfl⟩
  | served logged meets serves recorded ih =>
      exact serves.inOrder logged.reachable.sound accepted distinct meets.1 meets.2 recorded ih

def recorded? (env : Env) (deployment : Deployment) (world : World)
    (sessionId stepId content branch artifactId : String) : Option (List String) := do
  let (session, wf, idx, step) ← submission? env deployment world sessionId stepId content
  match verdictOf env deployment.registry world.outbound.length session wf idx step content branch artifactId,
    firedGuardrail env wf content { session with stepData := session.stepData.set step.id content } step.id with
  | .advanced _, .ok fired =>
      match nextStepOf wf idx step fired branch with
      | .ok (.goTo pointer forced) =>
          if (storedBy env (skipAndRun env deployment.registry wf world.outbound.length pointer
              (session.stepData.set step.id content) forced)).isSome then
            some (step.id :: ranSteps env deployment.registry wf world.outbound.length pointer
              (session.stepData.set step.id content) forced)
          else none
      | _ => none
  | _, _ => none

theorem Records.of_recorded {sessionId stepId content branch artifactId : String}
    (found : recorded? env deployment world sessionId stepId content branch artifactId =
      some steps) :
    Records env deployment world (env.normalizeSessionId sessionId)
    (.submitStep sessionId stepId content branch artifactId) steps := by
  obtain ⟨⟨session, wf, idx, step⟩, submitted, found⟩ := Option.bind_eq_some_iff.mp found
  have submits := Submits.of_submission submitted
  dsimp only at found
  split at found
  · rename_i advance fired passed guarded
    split at found
    · rename_i pointer forced goes
      split at found
      · rename_i stored
        rw [Option.some.injEq] at found
        rw [← found]
        exact .advanced submits.resolves.sessionId_eq (.own submits passed guarded goes) stored
      · exact nomatch found
    · exact nomatch found
  · exact nomatch found

theorem Logged.stored (logged : Logged env allowed sid world log)
    (meets : allowed world ⟨deployment, call⟩) (ends : allEnd env deployment world [call] = true)
    (records : Records env deployment world sid call steps) :
    Logged env allowed sid (serveAll env deployment world [call]) (log ++ steps) :=
  .served logged meets (serves_of_ends ends) (.stored records)

theorem Logged.passed (logged : Logged env allowed sid world log)
    (meets : allowed world ⟨deployment, call⟩) (ends : allEnd env deployment world [call] = true)
    (submits : ∀ sessionId stepId content branch artifactId,
      call ≠ .submitStep sessionId stepId content branch artifactId)
    (starts : ∀ workflowType context, call ≠ .startWorkflow workflowType context) :
    Logged env allowed sid (serveAll env deployment world [call]) log := by
  have quiet : Recorded env deployment world (serveAll env deployment world [call]) sid call [] := by
    refine .quiet ?_ ?_
    · intro steps records
      cases records with
      | escalated => exact submits _ _ _ _ _ rfl
      | advanced named advances stored => cases advances <;> exact submits _ _ _ _ _ rfl
    · rintro wf ⟨⟨workflowType, context, same, -⟩, -⟩
      exact starts _ _ same
  have logged := Logged.served logged meets (serves_of_ends ends) quiet
  rw [List.append_nil] at logged
  exact logged

/-- The session of the first call, while nothing runs at its front. -/
theorem Logged.started {workflowType : String}
    (meets : allowed World.empty ⟨deployment, .startWorkflow workflowType ""⟩)
    (ends : allEnd env deployment World.empty [.startWorkflow workflowType ""] = true)
    (created : ((serveAll env deployment World.empty [.startWorkflow workflowType ""]).sessions.lookup
      (env.token 0)).isSome = true)
    (opens : (deployment.workflows.get? workflowType).map (fun wf =>
      ((storedBy env (autoRun env deployment.registry wf env.fuel 0 (.str wf.first.id) Table.empty)).isSome,
        autoRunSteps env deployment.registry wf env.fuel 0 (.str wf.first.id) Table.empty)) =
          some (true, [])) :
    Logged env allowed (env.token 0)
    (serveAll env deployment World.empty [.startWorkflow workflowType ""]) [] := by
  obtain ⟨wf, loaded, opens⟩ := Option.map_eq_some_iff.mp opens
  simp only [Prod.mk.injEq] at opens
  have logged : Logged env allowed (env.token 0)
    (serveAll env deployment World.empty [.startWorkflow workflowType ""])
      ([] ++ _) := .served .start meets (serves_of_ends ends)
        (.opened ⟨⟨workflowType, "", rfl, loaded⟩, rfl, created, opens.1⟩)
  rw [show World.empty.outbound.length = 0 from rfl, opens.2] at logged
  exact logged

theorem Workflow.Distinct.onward (distinct : wf.Distinct) :
    wf.From env (idx + 1) (.str (wf.following idx)) := by
  rintro position ⟨text, step, column, found⟩
  cases column
  cases next : wf.steps[idx + 1]? with
  | none =>
      rw [Workflow.following, next] at found
      obtain ⟨there, same⟩ := findStep_spec found
      have isComplete : complete = step.id := Val.str.inj same
      refine absurd ?_ distinct.2
      rw [isComplete]
      exact List.mem_map_of_mem (List.mem_of_getElem? there)
  | some later =>
      rw [Workflow.following, next] at found
      dsimp only at found
      rw [distinct.found next] at found
      simp only [Option.some.injEq, Prod.mk.injEq] at found
      omega

theorem Workflow.Linear.passesForward (linear : wf.Linear) (distinct : wf.Distinct) :
    wf.PassesForward env where
  runs idx step found mcp := by
    rw [linear.listwise.afterMcp_eq found]
    exact distinct.onward.mono (Nat.le_succ idx)
  skips idx step found guarded := distinct.onward.mono (Nat.le_succ idx)

/-- Where only the list decides, an advance starts at the following step. -/
theorem Workflow.Listwise.advances_eq {calls : Nat} {content : String} {forced : Bool}
    (listwise : wf.Listwise)
    (advances : Advances env deployment world call row wf idx step content pointer forced calls) :
    pointer = .str (wf.following idx) := by
  cases advances with
  | own submits passed guarded goes =>
    exact listwise.next_eq (findStep_mem submits.accepts.found) guarded goes
  | parent submits reached atEnd framed called owner resolves at_ call valid goes =>
      rw [afterCallStep, listwise.unbranched step (findStep_mem at_), if_neg (by simp),
        Except.ok.injEq] at goes
      exact goes.symm

theorem not_goesBack (plain : ∀ name wf, deployment.workflows.get? name = some wf → wf.Linear ∧
    wf.Distinct) :
    ¬GoesBack env deployment world sid call := by
  intro back
  cases back with
  | jumped named advances lands earlier =>
      obtain ⟨linear, distinct⟩ := plain _ _ advances.at_.1.loaded
      rw [linear.listwise.advances_eq advances] at lands
      have onward := distinct.onward _ lands
      omega
  | passed named advances loops =>
      obtain ⟨linear, distinct⟩ := plain _ _ advances.at_.1.loaded
      exact loops (linear.passesForward distinct)
  | opened fresh loaded loops =>
      obtain ⟨linear, distinct⟩ := plain _ _ loaded
      exact loops (linear.passesForward distinct)

theorem listwise_of_rows (each : ∀ entry ∈ deployment.workflows.rows,
      entry.2.steps.all (fun step => !step.flag "branches") = true ∧
        (entry.2.get? "guardrails").isNone = true ∧
      (entry.2.steps.map Step.id).Nodup ∧ complete ∉ entry.2.steps.map Step.id) :
    ∀ name wf, deployment.workflows.get? name = some wf → wf.Listwise ∧ wf.Distinct := by
  intro name wf loaded
  obtain ⟨unbranched, bare, distinct⟩ := each _ (Dict.mem_of_get? loaded)
  refine ⟨⟨fun step member => by simpa using List.all_eq_true.mp unbranched step member, ?_⟩,
    distinct⟩
  intro guardrails items declared
  rw [Option.isNone_iff_eq_none.mp bare] at declared
  exact nomatch declared

theorem linear_of_rows (deployment : Deployment)
    (each : ∀ entry ∈ deployment.workflows.rows,
      entry.2.steps.all (fun step => !step.flag "branches") = true ∧
      entry.2.steps.all (fun step => step.precondition.isNone) = true ∧
        (entry.2.get? "guardrails").isNone = true ∧
      (entry.2.steps.map Step.id).Nodup ∧ complete ∉ entry.2.steps.map Step.id) :
    ∀ name wf, deployment.workflows.get? name = some wf → wf.Linear ∧ wf.Distinct := by
  intro name wf loaded
  obtain ⟨unbranched, unconditional, bare, distinct⟩ := each _ (Dict.mem_of_get? loaded)
  exact ⟨.of_bare unbranched unconditional (Option.isNone_iff_eq_none.mp bare), distinct⟩

def letterDocs : List Val := [workflowDoc "letter" [stepDoc "draft" [], stepDoc "send" []]]

def letter (calls : Nat) : World :=
  serveAll sampleEnv (appOf sampleEnv letterDocs) World.empty (([.startWorkflow "letter" "",
    .submitStep "s" "draft" "one" "" "", .submitStep "s" "send" "gone" "" ""] : List Call).take calls)

def loopDocs : List Val := [
  workflowDoc "paper" [stepDoc "draft" [], stepDoc "review" [
    ("branches", .list [
      .obj [("next", .str "draft"), ("condition", .str "not yet")],
      .obj [("next", .str "send"), ("condition", .str "fine")]]),
    ("default_branch", .str "send")], stepDoc "send" []]]

def looped (calls : Nat) : World :=
  serveAll sampleEnv (appOf sampleEnv loopDocs) World.empty (([.startWorkflow "paper" "",
    .submitStep "s" "draft" "one" "" "", .submitStep "s" "review" "again" "draft" "",
    .submitStep "s" "draft" "two" "" ""] : List Call).take calls)

theorem looped_logged :
    Logged sampleEnv (fun _ request => request.deployment = appOf sampleEnv loopDocs)
    (sampleToken 0)
    (looped 4) ["draft", "review", "draft"] := by
  let allowed := fun (_ : World) (request : Request) => request.deployment = appOf sampleEnv loopDocs
  have first : Logged sampleEnv allowed (sampleToken 0) (looped 1) [] := Logged.started rfl (by rfl) (by rfl) (by rfl)
  have second : Logged sampleEnv allowed (sampleToken 0) (looped 2) ["draft"] :=
    first.stored rfl (by rfl) (.of_recorded (by rfl))
  have third : Logged sampleEnv allowed (sampleToken 0) (looped 3) ["draft", "review"] :=
    second.stored rfl (by rfl) (.of_recorded (by rfl))
  exact third.stored rfl (by rfl) (.of_recorded (by rfl))

def delivered? (env : Env) (deployment : Deployment) (world : World) (parent : SessionId)
    (sessionId stepId content branch artifactId : String) : Option (List String) := do
  let (child, childWf, childIdx,
    childStep) ← submission? env deployment world sessionId stepId content
  let (last, data, calls) ← (verdictOf env deployment.registry world.outbound.length child childWf childIdx childStep
    content branch artifactId).arrival?
  let frame ← world.ownFrame child.sessionId
  let row ← world.sessions.lookup parent
  let wf ← deployment.workflows.get? row.workflowType
  let (idx, step) ← findStep wf (.str row.currentStep)
  if last.isStr complete ∧ frame.frameType = .call ∧ world.parentOf child.sessionId = some parent ∧
      deployment.caller = .anonymous ∧ row.currentStep ≠ workflowChanged ∧
      (deployment.workflowFingerprints.get? row.workflowType).all (row.workflowFingerprint == ·) ∧
        step.isCall then
    match validateOutput env (data.getD childWf.last.id "") step, afterCallStep wf idx step with
    | .ok none, .ok pointer =>
        if (storedBy env (skipAndRun env deployment.registry wf calls pointer
            (row.stepData.set step.id (data.getD childWf.last.id "")) false)).isSome then
          some (step.id :: ranSteps env deployment.registry wf calls pointer
            (row.stepData.set step.id (data.getD childWf.last.id "")) false)
        else none
    | _, _ => none
  else none

theorem Records.of_delivered {parent : SessionId}
    {sessionId stepId content branch artifactId : String}
    (found : delivered? env deployment world parent sessionId stepId content branch artifactId =
      some steps) :
    Records env deployment world parent (.submitStep sessionId stepId content branch artifactId) steps := by
  obtain ⟨⟨child, childWf, childIdx, childStep⟩, submitted, found⟩ :=
    Option.bind_eq_some_iff.mp found
  obtain ⟨⟨last, data, calls⟩, arrives, found⟩ := Option.bind_eq_some_iff.mp found
  obtain ⟨frame, framed, found⟩ := Option.bind_eq_some_iff.mp found
  obtain ⟨row, isRow, found⟩ := Option.bind_eq_some_iff.mp found
  obtain ⟨wf, loaded, found⟩ := Option.bind_eq_some_iff.mp found
  obtain ⟨⟨idx, step⟩, at_, found⟩ := Option.bind_eq_some_iff.mp found
  dsimp only at found
  split at found
  case isFalse => exact nomatch found
  rename_i guards
  obtain ⟨atEnd, called, owner, caller, unmarked, unchanged, call⟩ := guards
  have rowId : row.sessionId = parent := World.row_sessionId isRow
  have resolves : Resolves deployment world.ledger parent row wf := by
    refine ⟨isRow, caller, unmarked, loaded, ?_⟩
    intro fp current
    simpa [current] using unchanged
  rw [← rowId] at owner resolves
  split at found
  · rename_i pointer valid goes
    split at found
    · rename_i stored
      rw [Option.some.injEq] at found
      rw [← found]
      exact .advanced rowId (.parent (Submits.of_submission submitted) (Verdict.arrived_of_arrival arrives) atEnd framed
        called owner resolves at_ call valid goes) stored
    · exact nomatch found
  · exact nomatch found

def recallDocs : List Val := [
  workflowDoc "outer" [stepDoc "a" [], stepDoc "c" [("call", .str "inner")], stepDoc "z" []],
  workflowDoc "inner" [stepDoc "x" []]]

def recalled (calls : Nat) : World :=
  serveAll sampleEnv (appOf sampleEnv recallDocs) World.empty (([.startWorkflow "outer" "",
    .submitStep "s" "a" "one" "" "", .enterSubWorkflow "s" "c", .submitStep "ss" "x" "done" "" "",
    .reviseStep "s" "a", .submitStep "s" "a" "two" "" "", .enterSubWorkflow "s" "c"] : List Call).take calls)

theorem not_forward_executionOrder :
    ¬∀ (env : Env) (deployment : Deployment) (world after : World) (log : List String)
    (sessionId target stepId : String)
    (response : Val) (new : Session), deployment.Accepted env →
      Logged env (fun world request => request.deployment = deployment ∧
        ¬GoesBack env request.deployment world (env.normalizeSessionId sessionId) request.call)
        (env.normalizeSessionId sessionId) world log →
      (callTool env deployment (.reviseStep sessionId target)).run world = (.ok response, after) →
      response.isError = false →
        after.sessions.lookup (env.normalizeSessionId sessionId) = some new →
      Later log stepId target → new.stepData.get? stepId = none := by
  intro always
  have plain := linear_of_rows (appOf sampleEnv recallDocs) (by decide)
  let allowed := fun (world : World) (request : Request) =>
    request.deployment = appOf sampleEnv recallDocs ∧
    ¬GoesBack sampleEnv request.deployment world (sampleToken 0) request.call
  have meets : ∀ world call, allowed world ⟨appOf sampleEnv recallDocs, call⟩ :=
    fun world call => ⟨rfl, not_goesBack plain⟩
  have first : Logged sampleEnv allowed (sampleToken 0) (recalled 1) [] :=
    Logged.started (meets _ _) (by rfl) (by rfl) (by rfl)
  have second : Logged sampleEnv allowed (sampleToken 0) (recalled 2) ["a"] :=
    first.stored (meets _ _) (by rfl) (.of_recorded (by rfl))
  have third : Logged sampleEnv allowed (sampleToken 0) (recalled 3) ["a"] :=
    second.passed (meets _ (.enterSubWorkflow "s" "c")) (by rfl) (by simp) (by simp)
  have fourth : Logged sampleEnv allowed (sampleToken 0) (recalled 4) ["a", "c"] :=
    third.stored (meets _ (.submitStep "ss" "x" "done" "" "")) (by rfl) (.of_delivered (by rfl))
  have fifth : Logged sampleEnv allowed (sampleToken 0) (recalled 5) ["a", "c"] :=
    fourth.passed (meets _ (.reviseStep "s" "a")) (by rfl) (by simp) (by simp)
  have sixth : Logged sampleEnv allowed (sampleToken 0) (recalled 6) ["a", "c", "a"] :=
    fifth.stored (meets _ (.submitStep "s" "a" "two" "" "")) (by rfl) (.of_recorded (by rfl))
  have seventh : Logged sampleEnv allowed (sampleToken 0) (recalled 7) ["a", "c", "a"] :=
    sixth.passed (meets _ (.enterSubWorkflow "s" "c")) (by rfl) (by simp) (by simp)
  obtain ⟨new, isNew⟩ :=
    Option.isSome_iff_exists.mp (show ((serveAll sampleEnv (appOf sampleEnv recallDocs) (recalled 7)
    [.reviseStep "s" "c"]).sessions.lookup (sampleToken 0)).isSome = true by rfl)
  have kept : ((serveAll sampleEnv (appOf sampleEnv recallDocs) (recalled 7) [.reviseStep "s" "c"]).sessions.lookup
    (sampleToken 0)).map (fun row => row.stepData.get? "a") = some (some "two") := by rfl
  rw [isNew, Option.map_some, Option.some.injEq] at kept
  have gone := always sampleEnv _ _ _ _ "s" "c" "a" _ new (appOf_accepted (by decide)) seventh rfl (by rfl) isNew
    ⟨["a"], ["a"], rfl, by decide, by decide⟩
  rw [kept] at gone
  exact nomatch gone

end Megalos
