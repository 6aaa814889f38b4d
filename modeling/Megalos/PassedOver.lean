import Megalos.ExecutionOrder
import Megalos.Locality

/-!
The steps that the skip loop passes over: in one loop, in an advance, and for one session
in each call of a run.
-/

namespace Megalos

open GuardedRuns KeyedTable StatefulProgram StatefulProgram.Program

/-- The steps that are passed over between the ones that `autoRun` executes. -/
def autoRunPassed (env : Env) (registry : Option Registry) (wf : Workflow) :
    Nat → Nat → Val → StepData → List String
  | 0, _, _, _ => []
  | fuel + 1, calls, pointer, stepData =>
      if pointer.isStr complete then []
      else
        match findStep wf pointer with
        | none => []
        | some (idx, step) =>
            if step.isMcpToolCall then
              match computeSkippedSteps env wf stepData with
              | .error _ => []
              | .ok skippedSet =>
                  match executed env registry step stepData skippedSet calls with
                  | .error _ => []
                  | .ok (envelope, calls) =>
                      let stepData := stepData.set step.id (env.dumps envelope)
                      match applySkipLoop env (afterMcpStep wf idx step) wf stepData false with
                      | .error _ => []
                      | .ok (next, skipped) => skipped ++
                        autoRunPassed env registry wf fuel calls next stepData
            else []

def passedSteps (env : Env) (registry : Option Registry) (wf : Workflow) (calls : Nat)
    (pointer : Val) (stepData : StepData) (forceBranched : Bool) : List String :=
  match applySkipLoop env pointer wf stepData forceBranched with
  | .error _ => []
  | .ok (next, skipped) => skipped ++ autoRunPassed env registry wf env.fuel calls next stepData

/-- What holds of the pointer, the step data and the steps passed over so far, and goes on to hold
when the server runs one of the steps it may run, and when a false precondition makes it pass one
over. -/
structure Tracked (env : Env) (wf : Workflow) (mayRun : String → Prop)
    (inv : Val → StepData → List String → Prop) : Prop where
  runs : ∀ {pointer idx step data passed text}, inv pointer data passed →
    pointer.isStr complete = false →
    findStep wf pointer = some (idx, step) → step.isMcpToolCall = true → mayRun step.id →
    inv (afterMcpStep wf idx step) (data.set step.id text) passed
  passes : ∀ {pointer idx step pc data skippedSet passed}, inv pointer data passed →
    pointer.isStr complete = false →
    findStep wf pointer = some (idx, step) → step.precondition = some pc →
    evaluatePrecondition env pc data skippedSet step.id = .ok false →
    inv (.str (wf.following idx)) data (passed ++ [step.id])

variable {env : Env} {deployment : Deployment} {registry : Option Registry} {world after : World}
  {wf : Workflow} {pointer next last : Val} {data lastData : StepData} {advance : Advance}
  {fuel calls idx : Nat} {step : Step}
  {sid : SessionId} {call : Call} {row new : Session} {passed skipped : List String}
  {mayRun : String → Prop}
  {inv : Val → StepData → List String → Prop}

namespace Tracked

theorem skipLoop (tracked : Tracked env wf mayRun inv) {skippedSet before result : List String}
    (ran : skipLoop env wf data fuel pointer skippedSet before = .ok (next, result))
    (holds : inv pointer data (passed ++ before)) : inv next data (passed ++ result) := by
  induction fuel generalizing pointer skippedSet before with
  | zero => simp [Megalos.skipLoop] at ran
  | succ fuel ih =>
      have stays : (Except.ok (pointer, before) : Except Exn _) = .ok (next, result) →
        inv next data (passed ++ result) := by
        intro same
        simp only [Except.ok.injEq, Prod.mk.injEq] at same
        rw [← same.1, ← same.2]
        exact holds
      unfold Megalos.skipLoop at ran
      split at ran
      · exact stays ran
      rename_i unfinished
      cases at_ : findStep wf pointer with
      | none =>
          rw [at_] at ran
          exact stays ran
      | some entry =>
      obtain ⟨idx, step⟩ := entry
      simp only [at_] at ran
      cases guarded : step.precondition with
      | none =>
          rw [guarded] at ran
          exact stays ran
      | some pc =>
      simp only [guarded] at ran
      split at ran
      · simp at ran
      · exact stays ran
      · rename_i fails
        refine ih ran ?_
        rw [← List.append_assoc]
        exact tracked.passes holds (by simpa using unfinished) at_ guarded fails

theorem applySkipLoop (tracked : Tracked env wf mayRun inv) {forced : Bool}
    (ran : applySkipLoop env pointer wf data forced = .ok (next, skipped))
    (holds : inv pointer data passed) :
    inv next data (passed ++ skipped) := by
  unfold Megalos.applySkipLoop at ran
  split at ran
  · simp only [Except.ok.injEq, Prod.mk.injEq] at ran
    rw [← ran.1, ← ran.2, List.append_nil]
    exact holds
  · split at ran
    · simp at ran
    · refine tracked.skipLoop ran ?_
      rw [List.append_nil]
      exact holds

/-- The induction over the turns of `autoRun`, with the list of the steps passed over. -/
theorem autoRun (tracked : Tracked env wf mayRun inv)
    (ran : autoRun env registry wf fuel calls pointer data = .ok advance)
    (may : ∀ stepId ∈ autoRunSteps env registry wf fuel calls pointer data, mayRun stepId)
    (resting : advance.resting = some (last, lastData)) (holds : inv pointer data passed) :
    inv last lastData (passed ++ autoRunPassed env registry wf fuel calls pointer data) := by
  induction fuel generalizing calls pointer data passed with
  | zero => simp [Megalos.autoRun] at ran
  | succ fuel ih =>
      have rests : ∀ {ended : Advance} {place : Val} {stored : StepData}, ended = advance →
          ended.resting = some (place, stored) → inv place stored passed →
            inv last lastData (passed ++ []) := by
        intro ended place stored isAdvance same holds
        rw [isAdvance, resting] at same
        simp only [Option.some.injEq, Prod.mk.injEq] at same
        rw [same.1, same.2, List.append_nil]
        exact holds
      unfold Megalos.autoRun at ran
      unfold autoRunSteps at may
      unfold autoRunPassed
      by_cases finished : pointer.isStr complete = true
      · rw [if_pos finished, Except.ok.injEq] at ran
        rw [if_pos finished]
        exact rests ran rfl holds
      rw [if_neg finished] at ran may ⊢
      cases at_ : findStep wf pointer with
      | none =>
          simp only [at_, Except.ok.injEq] at ran
          exact rests ran rfl holds
      | some entry =>
      obtain ⟨idx, step⟩ := entry
      simp only [at_] at ran may
      dsimp only
      by_cases mcp : step.isMcpToolCall = true
      case neg =>
        rw [if_neg mcp, Except.ok.injEq] at ran
        rw [if_neg mcp]
        exact rests ran rfl holds
      rw [if_pos mcp] at ran may ⊢
      cases computed : computeSkippedSteps env wf data with
      | error raised => simp [computed] at ran
      | ok skippedSet =>
      simp only [computed] at ran may
      dsimp only
      cases result : executed env registry step data skippedSet calls with
      | error raised =>
          simp only [result] at ran
          split at ran
          · rw [Except.ok.injEq] at ran
            exact rests ran rfl holds
          · cases ran
          · rename_i same
            cases same
      | ok answer =>
      obtain ⟨envelope, later⟩ := answer
      simp only [result] at ran may
      dsimp only
      have afterRun : mayRun step.id → inv (afterMcpStep wf idx step)
        (data.set step.id (env.dumps envelope)) passed :=
        tracked.runs holds (by simpa using finished) at_ mcp
      cases skip : Megalos.applySkipLoop env (afterMcpStep wf idx step) wf (data.set step.id (env.dumps envelope)) false with
      | error raised =>
          simp only [skip, List.mem_singleton, forall_eq] at ran may
          split at ran
          · rw [Except.ok.injEq] at ran
            exact rests ran rfl (afterRun may)
          · cases ran
          · rename_i same
            cases same
      | ok skips =>
          obtain ⟨next, skipped⟩ := skips
          simp only [skip, List.forall_mem_cons] at ran may
          dsimp only
          rw [← List.append_assoc]
          exact ih ran may.2 (tracked.applySkipLoop skip (afterRun may.1))

theorem skipAndRun (tracked : Tracked env wf mayRun inv) {forced : Bool}
    (ran : skipAndRun env registry wf calls pointer data forced = .ok advance)
    (may : ∀ stepId ∈ ranSteps env registry wf calls pointer data forced, mayRun stepId)
    (resting : advance.resting = some (last, lastData)) (holds : inv pointer data passed) :
    inv last lastData (passed ++ passedSteps env registry wf calls pointer data forced) := by
  unfold Megalos.skipAndRun at ran
  unfold ranSteps at may
  unfold passedSteps
  cases skip : Megalos.applySkipLoop env pointer wf data forced with
  | error raised =>
      simp only [skip] at ran
      split at ran
      · rw [Except.ok.injEq] at ran
        rw [← ran] at resting
        exact nomatch resting
      · exact nomatch ran
      · rename_i same
        exact nomatch same
  | ok skips =>
      obtain ⟨next, skipped⟩ := skips
      simp only [skip] at ran may
      dsimp only
      rw [← List.append_assoc]
      exact tracked.autoRun ran may resting (tracked.applySkipLoop skip holds)

end Tracked

/-- A loop that is not forced looks at the whole list first. -/
theorem applySkipLoop_computed (ran : applySkipLoop env pointer wf data false = .ok (next,
    skipped)) :
    ∃ result, computeSkippedSteps env wf data = .ok result := by
  unfold applySkipLoop at ran
  rw [if_neg (by simp)] at ran
  split at ran
  · cases ran
  · rename_i result computed
    exact ⟨result, computed⟩

theorem applySkipLoop_cascaded {named referencing : String}
    (ran : applySkipLoop env pointer wf data false =
      .error (.skippedPredecessor named referencing)) :
    ∃ result, computeSkippedSteps env wf data = .ok result := by
  unfold applySkipLoop at ran
  rw [if_neg (by simp)] at ran
  split at ran
  · rename_i raised computed
    exact absurd (Except.error.inj ran ▸ computed) skippedFrom_calm
  · rename_i result computed
    exact ⟨result, computed⟩

/-- Where steps were passed over, or the data was changed, the skipped steps of the final data have
been computed. -/
theorem autoRun_computed (ran : autoRun env registry wf fuel calls pointer data = .ok advance)
    (resting : advance.resting = some (last, lastData)) :
    lastData = data ∧ autoRunPassed env registry wf fuel calls pointer data = [] ∨
      ∃ skipped, computeSkippedSteps env wf lastData = .ok skipped := by
  induction fuel generalizing calls pointer data with
  | zero => simp [autoRun] at ran
  | succ fuel ih =>
      have rests : ∀ {ended : Advance} {place : Val} {stored : StepData}, ended = advance →
          ended.resting = some (place, stored) → lastData = stored := by
        intro ended place stored isAdvance same
        rw [isAdvance, resting] at same
        simp only [Option.some.injEq, Prod.mk.injEq] at same
        exact same.2
      unfold autoRun at ran
      unfold autoRunPassed
      by_cases finished : pointer.isStr complete = true
      · rw [if_pos finished, Except.ok.injEq] at ran
        rw [if_pos finished]
        exact .inl ⟨rests ran rfl, rfl⟩
      rw [if_neg finished] at ran ⊢
      cases at_ : findStep wf pointer with
      | none =>
          simp only [at_, Except.ok.injEq] at ran
          exact .inl ⟨rests ran rfl, rfl⟩
      | some entry =>
      obtain ⟨idx, step⟩ := entry
      simp only [at_] at ran
      dsimp only
      by_cases mcp : step.isMcpToolCall = true
      case neg =>
        rw [if_neg mcp, Except.ok.injEq] at ran
        rw [if_neg mcp]
        exact .inl ⟨rests ran rfl, rfl⟩
      rw [if_pos mcp] at ran ⊢
      cases computed : computeSkippedSteps env wf data with
      | error raised => simp [computed] at ran
      | ok skippedSet =>
      simp only [computed] at ran
      cases result : executed env registry step data skippedSet calls with
      | error raised =>
          simp only [result] at ran
          split at ran
          · rw [Except.ok.injEq] at ran
            exact .inr ⟨skippedSet, rests ran rfl ▸ computed⟩
          · cases ran
          · rename_i same
            cases same
      | ok answer =>
      obtain ⟨envelope, later⟩ := answer
      simp only [result] at ran
      cases skip : applySkipLoop env (afterMcpStep wf idx step) wf (data.set step.id (env.dumps envelope)) false with
      | error raised =>
          simp only [skip] at ran
          split at ran
          · rename_i cascades
            rw [Except.ok.injEq] at ran
            obtain ⟨skipped, again⟩ := applySkipLoop_cascaded (Except.error.inj cascades ▸ skip)
            exact .inr ⟨skipped, rests ran rfl ▸ again⟩
          · cases ran
          · rename_i same
            cases same
      | ok skips =>
          obtain ⟨next, skipped⟩ := skips
          simp only [skip] at ran
          obtain ⟨again, computedAgain⟩ := applySkipLoop_computed skip
          rcases ih ran with ⟨same, -⟩ | found
          · exact .inr ⟨again, same ▸ computedAgain⟩
          · exact .inr found

theorem skipAndRun_computed {forced : Bool}
    (ran : skipAndRun env registry wf calls pointer data forced = .ok advance)
    (resting : advance.resting = some (last, lastData)) :
    passedSteps env registry wf calls pointer data forced = [] ∨
      ∃ skipped, computeSkippedSteps env wf lastData = .ok skipped := by
  unfold skipAndRun at ran
  unfold passedSteps
  cases skip : applySkipLoop env pointer wf data forced with
  | error raised => exact .inl rfl
  | ok skips =>
      obtain ⟨next, skipped⟩ := skips
      simp only [skip] at ran
      dsimp only
      rcases autoRun_computed ran resting with ⟨same, none⟩ | found
      · cases forced with
        | false =>
            obtain ⟨again, computed⟩ := applySkipLoop_computed skip
            exact .inr ⟨again, same ▸ computed⟩
        | true =>
            rw [applySkipLoop, if_pos rfl, Except.ok.injEq, Prod.mk.injEq] at skip
            exact .inl (by rw [none, ← skip.2, List.append_nil])
      · exact .inr found

/-- What the skip loop passes over while a call moves a session on, or starts it. -/
inductive PassesOver (env : Env) (deployment : Deployment) (before after : World)
    (sid : SessionId) : Call → List String → Prop
  | advanced {call : Call} {row : Session} {wf : Workflow} {idx calls : Nat} {step : Step}
      {content : String}
      {pointer : Val} {forced : Bool} (named : row.sessionId = sid)
      (advances : Advances env deployment before call row wf idx step content pointer forced calls)
      (stored : (storedBy env (skipAndRun env deployment.registry wf calls pointer
        (row.stepData.set step.id content) forced)).isSome = true) :
      PassesOver env deployment before after sid call (passedSteps env deployment.registry wf calls pointer
        (row.stepData.set step.id content) forced)
  | opened {call : Call} {wf : Workflow} (opens : Opens env deployment before after sid call wf) :
      PassesOver env deployment before after sid call (autoRunPassed env deployment.registry wf env.fuel
        before.outbound.length (.str wf.first.id) Table.empty)

inductive Adds (env : Env) (deployment : Deployment) (before after : World) (sid : SessionId)
    (call : Call) (log : List (List String)) : List (List String) → Prop
  | moved {passed : List String} (passes : PassesOver env deployment before after sid call passed) :
      Adds env deployment before after sid call log (log ++ [passed])
  | quiet (still : ∀ passed, ¬PassesOver env deployment before after sid call passed) :
      Adds env deployment before after sid call log log

/-- A run together with what the skip loop passed over for one session, one list for each advance.
-/
inductive Passing (env : Env) (allowed : World → Request → Prop) (sid : SessionId) :
    World → List (List String) → Prop
  | start : Passing env allowed sid World.empty []
  | served {before after : World} {request : Request} {log later : List (List String)}
      (passing : Passing env allowed sid before log) (meets : allowed before request)
      (serves : Serves env before request after)
      (adds : Adds env request.deployment before after sid request.call log later) :
      Passing env allowed sid after later

inductive Continues (env : Env) (deployment : Deployment) (world : World) (call : Call)
    (wf : Workflow) (row new : Session) (log : List (List String)) : List (List String) → Prop
  | kept (data : new.stepData = row.stepData)
      (pointer : new.currentStep = row.currentStep ∨ new.currentStep = workflowChanged) :
      Continues env deployment world call wf row new log log
  | escalated {content : String} (data : new.stepData = row.stepData.set row.currentStep content)
      (pointer : new.currentStep = row.currentStep)
      (found : (findStep wf (.str row.currentStep)).isSome = true) :
      Continues env deployment world call wf row new log log
  | revised {sessionId stepId : String} {idx : Nat} {target : Step}
      (isCall : call = .reviseStep sessionId stepId)
      (revises : Revises env deployment world sessionId stepId row wf idx target)
      (moved : row.Moved new target.id (revisedData wf idx target row.stepData)) :
      Continues env deployment world call wf row new log log
  | advanced {idx calls : Nat} {step : Step} {content text : String} {pointer last : Val}
      {data : StepData}
      {forced : Bool} {advance : Advance}
      (advances : Advances env deployment world call row wf idx step content pointer forced calls)
      (ran : skipAndRun env deployment.registry wf calls pointer (row.stepData.set step.id content) forced =
        .ok advance)
      (resting : advance.resting = some (last, data)) (column : columnText env last = .ok text)
      (moved : row.Moved new text data) :
      Continues env deployment world call wf row new log (log ++
        [passedSteps env deployment.registry wf calls pointer
        (row.stepData.set step.id content) forced])

inductive Begins (env : Env) (deployment : Deployment) (world : World) (call : Call) (wf : Workflow)
    (new : Session) : List (List String) → Prop
  | opened {workflowType context text : String} {advance : Advance} {last : Val} {data : StepData}
      (isCall : call = .startWorkflow workflowType context)
      (loaded : deployment.workflows.get? workflowType = some wf)
      (ran : autoRun env deployment.registry wf env.fuel world.outbound.length (.str wf.first.id) Table.empty =
        .ok advance)
      (resting : advance.resting = some (last, data)) (column : columnText env last = .ok text)
      (current : new.currentStep = text) (stored : new.stepData = data) :
      Begins env deployment world call wf new [autoRunPassed env deployment.registry wf env.fuel
        world.outbound.length (.str wf.first.id) Table.empty]
  | fresh {log : List (List String)} (current : new.currentStep = wf.first.id)
      (stored : new.stepData = Table.empty) : Begins env deployment world call wf new log

variable {allowed : World → Request → Prop} {served : Deployment → Prop} {request : Request}
  {log later : List (List String)} {other : List String}

theorem Passing.reachable (passing : Passing env allowed sid world log) :
    Reachable env allowed world := by
  induction passing with
  | start => exact GuardedRuns.Run.refl _
  | served passing meets serves adds ih => exact ih.snoc meets serves

theorem Reachable.passing (reachable : Reachable env allowed world) (sid : SessionId) :
    ∃ log, Passing env allowed sid world log := by
  induction reachable with
  | refl => exact ⟨[], .start⟩
  | @tail before final run last ih =>
      obtain ⟨log, passing⟩ := ih
      obtain ⟨request, meets, serves⟩ := last
      by_cases passes : ∃ passed,
        PassesOver env request.deployment before final sid request.call passed
      · obtain ⟨passed, passes⟩ := passes
        exact ⟨_, .served passing meets serves (.moved passes)⟩
      · exact ⟨_, .served passing meets serves (.quiet (not_exists.mp passes))⟩

/-- A session that is moved on has its row; one that starts has none before. -/
theorem PassesOver.cases (passes : PassesOver env deployment world after sid call passed) :
    (∃ row wf idx step content pointer forced calls, row.sessionId = sid ∧
      Advances env deployment world call row wf idx step content pointer forced calls ∧
      (storedBy env (skipAndRun env deployment.registry wf calls pointer (row.stepData.set step.id content)
        forced)).isSome = true ∧
      passed = passedSteps env deployment.registry wf calls pointer (row.stepData.set step.id content) forced) ∨
    ∃ wf, Opens env deployment world after sid call wf ∧
      passed = autoRunPassed env deployment.registry wf env.fuel world.outbound.length (.str wf.first.id) Table.empty := by
  cases passes with
  | advanced named advances stored => exact .inl ⟨_, _, _, _, _, _, _, _, named, advances, stored,
    rfl⟩
  | opened opens => exact .inr ⟨_, opens, rfl⟩

theorem Advances.issued {content : String} {forced : Bool} (sound : world.Sound env)
    (advances : Advances env deployment world call row wf idx step content pointer forced calls) :
    Issued env world.minted row.sessionId := sound.rowIssued advances.at_.1.row

theorem PassesOver.unique (sound : world.Sound env)
    (passes : PassesOver env deployment world after sid call passed)
    (again : PassesOver env deployment world after sid call other) : passed = other := by
  rcases passes.cases with ⟨row, wf, idx, step, content, pointer, forced, calls, named, advances, -,
    rfl⟩ | ⟨wf, opens, rfl⟩
  · rcases again.cases with ⟨row', wf', idx', step', content', pointer', forced', calls', named',
      advances', -, rfl⟩ |
      ⟨wf', opens, rfl⟩
    · obtain ⟨rfl, rfl, rfl, rfl, rfl, rfl, rfl⟩ :=
        advances.unique sound advances' (named.trans named'.symm)
      rfl
    · exact absurd (opens.fresh ▸ named ▸ advances.issued sound) Issued.not_next
  · rcases again.cases with ⟨row', wf', idx', step', content', pointer', forced', calls', named,
      advances, -, rfl⟩ |
      ⟨wf', opens', rfl⟩
    · exact absurd (opens.fresh ▸ named ▸ advances.issued sound) Issued.not_next
    · obtain ⟨workflowType, context, rfl, loaded⟩ := opens.starts
      obtain ⟨_, _, same, loaded'⟩ := opens'.starts
      cases same
      obtain rfl : wf = wf' := Option.some.inj (loaded.symm.trans loaded')
      rfl

section Submission

variable {sessionId stepId content branch artifactId : String} {ledger : Ledger}

theorem Submitted.own (sound : world.Sound env)
    (submitted : Submitted env deployment world row wf idx step content branch artifactId ledger)
    (found : ledger.row row.sessionId = some new) :
    (verdictOf env deployment.registry world.outbound.length row wf idx step content branch artifactId).Changes env
      (row.stepData.set step.id content) row new := by
  have written : ∀ {base : Ledger} {last : Session},
    (base.setRow row.sessionId last).row row.sessionId = some new →
      last = new := by
    intro base last there
    rw [Ledger.setRow_row, if_pos rfl, Option.some.injEq] at there
    exact there
  -- where the parent's row is written as well, it is another one
  have past : ∀ {base : Ledger} {parent : SessionId} {other : Session},
    world.ledger.Parent row.sessionId parent →
      (base.setRow parent other).row row.sessionId = some new →
        base.row row.sessionId = some new := by
    intro base parent other owner there
    rw [Ledger.setRow_row, if_neg (Ne.symm (sound.apart owner))] at there
    exact there
  cases submitted with
  | answered ends =>
      cases ends with
      | settled calm changes unowned => exact written found ▸ changes
      | failed fails changes wrapped =>
          cases wrapped with
          | root unowned => exact written found ▸ changes
          | missing owner gone => exact written found ▸ changes
          | escalated owner foundParent escalates => exact written (past owner found) ▸ changes
  | @finished pointer data calls last frame _ reached atEnd moved framed finished =>
      have changes : last = new →
        (verdictOf env deployment.registry world.outbound.length row wf idx step content branch
          artifactId).Changes env (row.stepData.set step.id content) row new := by
        rintro rfl
        rw [reached]
        simp only [Verdict.Changes, Applies, storedBy, Advance.stored, Advance.resting,
          Option.bind_some, columnText_isStr atEnd]
        exact moved
      refine changes ?_
      generalize frame.frameType = frameType at finished
      cases finished with
      | orphan => exact written found
      | retained => exact written found
      | unchecked => exact written found
      | marked owner stale marks => exact written (past owner found)
      | popped owner resolves => simp [Ledger.drop_row] at found
      | drifted owner resolves off escalates => exact written (past owner found)
      | rejected owner resolves at_ call invalid escalates => exact written (past owner found)
      | delivered owner resolves at_ call valid applies =>
          have gone := past owner found
          simp [Ledger.dropAbove, Ledger.dropAt_row, Ledger.drop_row] at gone

theorem Submitted.parent {child : Session} {childWf : Workflow} {childIdx : Nat} {childStep : Step}
    {frame : Frame} (sound : world.Sound env)
    (submitted : Submitted env deployment world child childWf childIdx childStep content branch artifactId ledger)
    (reached : verdictOf env deployment.registry world.outbound.length child childWf childIdx childStep content branch
      artifactId = .advanced (.arrived last data calls))
    (atEnd : last.isStr complete = true) (framed : world.ledger.frame child.sessionId = some frame)
    (called : frame.frameType = .call) (owner : world.ledger.Parent child.sessionId row.sessionId)
    (resolves : Resolves deployment world.ledger row.sessionId row wf)
    (at_ : findStep wf (.str row.currentStep) = some (idx, step)) (call : step.isCall = true)
    (valid : validateOutput env (data.getD childWf.last.id "") step = .ok none)
    (found : ledger.row row.sessionId = some new) :
    Applies env (parentAdvance env deployment.registry wf idx step
      (row.stepData.set row.currentStep (data.getD childWf.last.id "")) calls) row new := by
  cases submitted with
  | answered ends =>
      cases ends with
      | settled calm changes unowned =>
          rw [reached] at unowned
          exact absurd owner (unowned atEnd _)
      | failed fails =>
          rw [reached] at fails
          exact nomatch fails
  | @finished pointer' data' calls' last' frame' _ reached' atEnd' moved' framed' finished =>
      rw [reached] at reached'
      simp only [Verdict.advanced.injEq, Advance.arrived.injEq] at reached'
      obtain ⟨rfl, rfl, rfl⟩ := reached'
      obtain rfl : frame = frame' := Option.some.inj (framed.symm.trans framed')
      rw [called] at finished
      have apart := sound.apart owner
      -- the parent is the same and its row is untouched before the delivery
      have same : ∀ {parent : SessionId} {session : Session} {otherWf : Workflow},
          (world.ledger.setRow child.sessionId last').Parent child.sessionId parent →
          Resolves deployment (world.ledger.setRow child.sessionId last') parent session otherWf →
          parent = row.sessionId ∧ session = row ∧ otherWf = wf := by
        intro parent session otherWf owner' resolves'
        obtain rfl : row.sessionId = parent := Ledger.Parent.unique sound.forest owner owner'
        obtain ⟨rfl, rfl⟩ := resolves.unique (Resolves.of_setRow apart resolves')
        exact ⟨rfl, rfl, rfl⟩
      have still : Resolves deployment (world.ledger.setRow child.sessionId last') row.sessionId row wf :=
        ⟨by rw [Ledger.setRow_row, if_neg apart]; exact resolves.row, resolves.caller,
          resolves.unmarked, resolves.loaded, resolves.unchanged⟩
      cases finished with
      | orphan unowned => exact absurd owner (unowned _)
      | retained owner' unresolved =>
          rw [← Ledger.Parent.unique sound.forest owner owner'] at unresolved
          exact absurd still (unresolved _ _)
      | marked owner' stale =>
          rw [← Ledger.Parent.unique sound.forest owner owner'] at stale
          exact absurd stale still.not_stale
      | drifted owner' resolves' off =>
          obtain ⟨rfl, rfl, rfl⟩ := same owner' resolves'
          rw [off _ _ at_] at call
          exact nomatch call
      | unchecked owner' resolves' there call' broken =>
          obtain ⟨rfl, rfl, rfl⟩ := same owner' resolves'
          rw [at_, Option.some.injEq, Prod.mk.injEq] at there
          obtain ⟨rfl, rfl⟩ := there
          rw [valid] at broken
          exact nomatch broken
      | rejected owner' resolves' there call' invalid =>
          obtain ⟨rfl, rfl, rfl⟩ := same owner' resolves'
          rw [at_, Option.some.injEq, Prod.mk.injEq] at there
          obtain ⟨rfl, rfl⟩ := there
          rw [valid] at invalid
          exact nomatch invalid
      | delivered owner' resolves' there call' valid' applies =>
          obtain ⟨rfl, rfl, rfl⟩ := same owner' resolves'
          rw [at_, Option.some.injEq, Prod.mk.injEq] at there
          obtain ⟨rfl, rfl⟩ := there
          rw [Ledger.setRow_row, if_pos rfl, Option.some.injEq] at found
          exact found ▸ applies

end Submission

/-- A row that an advance is computed for ends where the advance does. -/
theorem Advances.moves {content : String} {forced : Bool} (sound : world.Sound env)
    (advances : Advances env deployment world call row wf idx step content pointer forced calls)
    (stored : (storedBy env (skipAndRun env deployment.registry wf calls pointer
      (row.stepData.set step.id content) forced)).isSome = true)
    (serves : Serves env world ⟨deployment, call⟩ after)
    (found : after.sessions.lookup row.sessionId = some new) :
    ∃ advance last text data,
      skipAndRun env deployment.registry wf calls pointer (row.stepData.set step.id content)
      forced = .ok advance ∧ advance.resting = some (last, data) ∧ columnText env last = .ok text ∧
      row.Moved new text data := by
  have applies : Applies env (skipAndRun env deployment.registry wf calls pointer (row.stepData.set step.id content)
      forced) row new := by
    cases advances with
    | own submits passed guarded goes =>
        have changes := (submits.carriedOut sound serves).own sound found
        rw [passed] at changes
        obtain ⟨fired, next, forced', guarded', goes', ran⟩ := verdictOf_advanced passed
        rw [guarded, Except.ok.injEq] at guarded'
        subst guarded'
        rw [goes] at goes'
        simp only [Except.ok.injEq, NextStep.goTo.injEq] at goes'
        obtain ⟨rfl, rfl⟩ := goes'
        rw [ran]
        exact changes
    | parent submits reached atEnd framed called owner resolves at_ isCall valid goes =>
        have applies := (submits.carriedOut sound serves).parent sound reached atEnd framed called
          (World.parentOf_some owner) resolves at_ isCall valid found
        have isStep : row.currentStep = step.id := Val.str.inj (findStep_spec at_).2
        unfold parentAdvance at applies
        rw [goes, isStep] at applies
        exact applies
  rcases applies.cases with ⟨unstored, -⟩ | ⟨advance, last, text, data, moves⟩
  · rw [unstored] at stored
    exact nomatch stored
  · exact ⟨advance, last, text, data, moves⟩

theorem Records.found {steps : List String}
    (records : Records env deployment world row.sessionId call steps)
    (reads : ∀ other otherWf, Resolves deployment world.ledger row.sessionId other otherWf →
      other = row ∧ otherWf = wf) :
    (findStep wf (.str row.currentStep)).isSome = true := by
  cases records with
  | @escalated sessionId stepId content branch artifactId other otherWf idx step named submits fires =>
      have resolves := submits.resolves
      rw [← resolves.sessionId_eq, named] at resolves
      obtain ⟨rfl, rfl⟩ := reads other otherWf resolves
      rw [← submits.accepts.inOrder, submits.accepts.found]
      rfl
  | @advanced _ other otherWf idx calls step content pointer forced named advances stored =>
      obtain ⟨resolves, at_⟩ := advances.at_
      rw [named] at resolves
      obtain ⟨rfl, rfl⟩ := reads other otherWf resolves
      rw [at_]
      rfl

theorem Rewrites.continues (sound : world.Sound env)
    (serves : Serves env world ⟨deployment, call⟩ after)
    (there : world.sessions.lookup row.sessionId = some row)
    (found : after.sessions.lookup row.sessionId = some new)
    (reads : ∀ other otherWf, Resolves deployment world.ledger row.sessionId other otherWf →
      other = row ∧ otherWf = wf)
    (rewrites : Rewrites env deployment world call row new)
    (adds : Adds env deployment world after row.sessionId call log later) :
    Continues env deployment world call wf row new log later := by
  cases adds with
  | moved passes =>
      cases passes with
      | @advanced other otherWf idx calls step content pointer forced named advances stored =>
          have resolves := advances.at_.1
          rw [named] at resolves
          obtain ⟨rfl, rfl⟩ := reads other otherWf resolves
          obtain ⟨advance, last, text, data, ran, resting, column, moved⟩ :=
            advances.moves sound stored serves found
          exact .advanced advances ran resting column moved
      | opened opens => exact absurd (opens.fresh ▸ sound.rowIssued there) Issued.not_next
  | quiet still =>
      cases rewrites with
      | kept data pointer => exact .kept data pointer
      | escalated records data pointer => exact .escalated data pointer (records.found reads)
      | @revised sessionId stepId otherWf idx target isCall revises moved =>
          have resolves := revises.resolves
          rw [← resolves.sessionId_eq] at resolves
          obtain ⟨-, rfl⟩ := reads row otherWf resolves
          exact .revised isCall revises moved
      | advanced advances at_ ran resting column moved =>
          exact absurd (.advanced rfl advances (by simp [ran, storedBy, Advance.stored, resting,
            column])) (still _)

theorem RowBirth.begins (sound : world.Sound env) (birth : RowBirth env deployment world call new)
    (there : (after.sessions.lookup (env.token world.minted)).isSome = true)
    (reads : ∀ other, deployment.workflows.get? new.workflowType = some other → other = wf)
    (adds : Adds env deployment world after (env.token world.minted) call [] later) :
    Begins env deployment world call wf new later := by
  cases birth with
  | @started workflowType context loadedWf now _ loaded opened =>
      obtain rfl : loadedWf = wf :=
        reads loadedWf (by rw [opened.same.workflowType_eq]; exact loaded)
      rcases opened with applies | ⟨-, counts⟩
      · rcases applies.cases with ⟨-, counts⟩ | ⟨advance, last, text, data, ran, resting, column,
          moved⟩
        · exact .fresh counts.currentStep_eq counts.stepData_eq
        · have opens : Opens env deployment world after (env.token world.minted)
            (.startWorkflow workflowType context)
              loadedWf :=
            ⟨⟨workflowType, context, rfl, loaded⟩, rfl, there,
              by simp [ran, storedBy, Advance.stored, resting, column]⟩
          cases adds with
          | quiet still => exact absurd (.opened opens) (still _)
          | moved others =>
              rw [others.unique sound (.opened opens), List.nil_append]
              exact .opened rfl loaded ran resting column moved.currentStep_eq moved.stepData_eq
      · exact .fresh counts.currentStep_eq counts.stepData_eq
  | spawned above loaded counts =>
      rw [← reads _ (by rw [counts.workflowType_eq]; exact loaded)]
      exact .fresh counts.currentStep_eq counts.stepData_eq

/-- The rule for what holds of every row of a session together with the history of the session. -/
theorem Passing.invariant {inv : Workflow → Session → List (List String) → Prop}
    (accepted : ∀ deployment, served deployment → deployment.Accepted env)
    (distinct : Distinguished served)
    (serves : ∀ world request, allowed world request → served request.deployment)
    (continues : ∀ {world request wf row new log later}, allowed world request →
      row.sessionId = sid →
      (∃ name deployment, served deployment ∧ deployment.workflows.get? name = some wf) →
        inv wf row log →
      Continues env request.deployment world request.call wf row new log later → inv wf new later)
    (begins : ∀ {world request wf new later}, allowed world request → sid = env.token world.minted →
      (∃ name deployment, served deployment ∧ deployment.workflows.get? name = some wf) →
      Begins env request.deployment world request.call wf new later → inv wf new later)
    (passing : Passing env allowed sid world log) :
    (¬Issued env world.minted sid → log = []) ∧ ∀ row deployment wf,
      world.sessions.lookup sid = some row →
      served deployment → deployment.workflows.get? row.workflowType = some wf →
      deployment.workflowFingerprints.get? row.workflowType = some row.workflowFingerprint →
        inv wf row log := by
  induction passing with
  | start => exact ⟨fun _ => rfl, fun row deployment wf found => nomatch found⟩
  | @served before final request log later passing meets step adds ih =>
      have sound := passing.reachable.sound
      have isServed := serves _ _ meets
      constructor
      · intro unissued
        have unborn : ¬Issued env before.minted sid :=
          fun issued => unissued (issued.mono (step.shape sound).minted_le)
        rw [← ih.1 unborn]
        cases adds with
        | quiet still => rfl
        | moved passes =>
            rcases passes.cases with ⟨other, otherWf, idx, step, content, pointer, forced, calls,
              named, advances, -⟩ |
              ⟨otherWf, opens, -⟩
            · exact absurd (named ▸ advances.issued sound) unborn
            · obtain ⟨row, found⟩ := Option.isSome_iff_exists.mp opens.created
              exact absurd ((step.sound sound).rowIssued found) unissued
      · intro new deployment wf found reading loaded live
        rcases step.rowEffect sound found with ⟨row, there, change⟩ | ⟨fresh, birth⟩
        · obtain rfl : row.sessionId = sid := World.row_sessionId there
          have same := change.same
          rw [same.workflowType_eq] at loaded live
          rw [same.workflowFingerprint_eq] at live
          have reads : ∀ other otherWf,
            Resolves request.deployment before.ledger row.sessionId other otherWf →
              other = row ∧ otherWf = wf := by
            intro other otherWf resolves
            obtain rfl : other = row := Option.some.inj (resolves.row.symm.trans there)
            exact ⟨rfl, distinct _ _ isServed reading _ _ _ _ resolves.loaded loaded
              (resolves.fingerprint (accepted _ isServed)) live⟩
          exact continues meets rfl ⟨_, deployment, reading,
            loaded⟩ (ih.2 row deployment wf there reading loaded live)
            ((change.rewrites sound).continues sound step there found reads adds)
        · subst fresh
          rw [ih.1 Issued.not_next] at adds
          have reads : ∀ other, request.deployment.workflows.get? new.workflowType = some other →
            other = wf := by
            intro other isLoaded
            exact distinct _ _ isServed reading _ _ _ _ isLoaded loaded (birth.live (accepted _ isServed)) live
          exact begins meets rfl ⟨_, deployment, reading,
            loaded⟩ (birth.begins sound (by rw [found]; rfl) reads adds)

def advance? (env : Env) (deployment : Deployment) (world : World)
    (sessionId stepId content branch artifactId : String) :
    Option (Session × Workflow × Nat × Step × Val × Bool) := do
  let (session, wf, idx, step) ← submission? env deployment world sessionId stepId content
  match verdictOf env deployment.registry world.outbound.length session wf idx step content branch artifactId,
    firedGuardrail env wf content { session with stepData := session.stepData.set step.id content } step.id with
  | .advanced _, .ok fired =>
      match nextStepOf wf idx step fired branch with
      | .ok (.goTo pointer forced) => some (session, wf, idx, step, pointer, forced)
      | _ => none
  | _, _ => none

theorem Advances.of_advance {sessionId stepId content branch artifactId : String}
    {session : Session} {forced : Bool}
    (found : advance? env deployment world sessionId stepId content branch artifactId =
      some (session, wf, idx, step, pointer, forced)) :
    session.sessionId = env.normalizeSessionId sessionId ∧
      Advances env deployment world (.submitStep sessionId stepId content branch artifactId) session wf idx step content
        pointer forced world.outbound.length := by
  obtain ⟨⟨row, loaded, place, target⟩, submitted, found⟩ := Option.bind_eq_some_iff.mp found
  have submits := Submits.of_submission submitted
  dsimp only at found
  split at found
  · rename_i advance fired passed guarded
    split at found
    · rename_i pointer forced goes
      simp only [Option.some.injEq, Prod.mk.injEq] at found
      obtain ⟨rfl, rfl, rfl, rfl, rfl, rfl⟩ := found
      exact ⟨submits.resolves.sessionId_eq, .own submits passed guarded goes⟩
    · exact nomatch found
  · exact nomatch found

/-- What the skip loop passes over for a submission, when the row is written. -/
def passed? (env : Env) (deployment : Deployment) (world : World)
    (sessionId stepId content branch artifactId : String) : Option (List String) := do
  let (session, wf, _, step, pointer,
    forced) ← advance? env deployment world sessionId stepId content branch artifactId
  let data := session.stepData.set step.id content
  if (storedBy env (skipAndRun env deployment.registry wf world.outbound.length pointer data forced)).isSome then
    some (passedSteps env deployment.registry wf world.outbound.length pointer data forced)
  else none

theorem PassesOver.of_passed {sessionId stepId content branch artifactId : String}
    (found : passed? env deployment world sessionId stepId content branch artifactId =
      some passed) :
    PassesOver env deployment world after (env.normalizeSessionId sessionId)
    (.submitStep sessionId stepId content branch artifactId) passed := by
  obtain ⟨⟨session, wf, idx, step, pointer, forced⟩, moves, found⟩ :=
    Option.bind_eq_some_iff.mp found
  obtain ⟨named, advances⟩ := Advances.of_advance moves
  dsimp only at found
  split at found
  · rename_i stored
    rw [Option.some.injEq] at found
    rw [← found]
    exact .advanced named advances stored
  · exact nomatch found

theorem Passing.submitted (passing : Passing env allowed sid world log)
    (meets : allowed world ⟨deployment, call⟩) (ends : allEnd env deployment world [call] = true)
    (passes : PassesOver env deployment world (serveAll env deployment world [call]) sid call passed) :
    Passing env allowed sid (serveAll env deployment world [call]) (log ++ [passed]) :=
  .served passing meets (serves_of_ends ends) (.moved passes)

theorem Passing.started {workflowType : String}
    (meets : allowed World.empty ⟨deployment, .startWorkflow workflowType ""⟩)
    (ends : allEnd env deployment World.empty [.startWorkflow workflowType ""] = true)
    (created : ((serveAll env deployment World.empty [.startWorkflow workflowType ""]).sessions.lookup
      (env.token 0)).isSome = true)
    (opens : (deployment.workflows.get? workflowType).map (fun wf =>
      ((storedBy env (autoRun env deployment.registry wf env.fuel 0 (.str wf.first.id) Table.empty)).isSome,
        autoRunPassed env deployment.registry wf env.fuel 0 (.str wf.first.id) Table.empty)) =
          some (true, passed)) :
    Passing env allowed (env.token 0)
    (serveAll env deployment World.empty [.startWorkflow workflowType ""]) [passed] := by
  obtain ⟨wf, loaded, opens⟩ := Option.map_eq_some_iff.mp opens
  simp only [Prod.mk.injEq] at opens
  rw [← opens.2]
  exact .served .start meets (serves_of_ends ends)
    (.moved (.opened ⟨⟨workflowType, "", rfl, loaded⟩, rfl, created, opens.1⟩))

/-- The second of two steps runs when the content of the first is "go". -/
def askedDocs : List Val := [workflowDoc "asked" [stepDoc "a" [],
  stepDoc "b" [("precondition",
    .obj [("when_equals", .obj [("ref", .str "step_data.a"), ("value", .str "go")])])]]]

def asked (calls : Nat) : World :=
  serveAll sampleEnv (appOf sampleEnv askedDocs) World.empty
    (([.startWorkflow "asked" "", .submitStep "s" "a" "stay" "" ""] : List Call).take calls)

end Megalos
