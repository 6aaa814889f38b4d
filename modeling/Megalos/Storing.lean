import Megalos.Advancing
import Megalos.RowChange

/-!
Which steps a call stores content for: the step that is submitted, or at which a child
is called, and then the steps that the server runs itself on the way.
-/

namespace Megalos

open KeyedTable

def autoRunSteps (env : Env) (registry : Option Registry) (wf : Workflow) :
    Nat → Nat → Val → StepData → List String
  | 0, _, _, _ => []
  | fuel + 1, calls, pointer, stepData =>
      if pointer.isStr complete then []
      else
        match findStep wf pointer with
        | none => []
        | some (idx, step) =>
            if step.isMcpToolCall then
              match computeSkippedSteps env wf stepData with
              | .error _ => []
              | .ok skippedSet =>
                  match executed env registry step stepData skippedSet calls with
                  | .error _ => []
                  | .ok (envelope, calls) =>
                      let stepData := stepData.set step.id (env.dumps envelope)
                      match applySkipLoop env (afterMcpStep wf idx step) wf stepData false with
                      | .error _ => [step.id]
                      | .ok (next, _) => step.id :: autoRunSteps env registry wf fuel calls next stepData
            else []

def ranSteps (env : Env) (registry : Option Registry) (wf : Workflow) (calls : Nat) (pointer : Val)
    (stepData : StepData) (forceBranched : Bool) : List String :=
  match applySkipLoop env pointer wf stepData forceBranched with
  | .error _ => []
  | .ok (next, _) => autoRunSteps env registry wf env.fuel calls next stepData

/-- Automatic execution as a big step: where it ends, and what it ran on the way. -/
inductive AutoRuns (env : Env) (registry : Option Registry) (wf : Workflow) :
    Val → StepData → List String → Advance → Prop
  | arrives {pointer : Val} {data : StepData} {calls : Nat} :
      AutoRuns env registry wf pointer data [] (.arrived pointer data calls)
  | stops {pointer : Val} {data : StepData} {calls : Nat} :
      AutoRuns env registry wf pointer data [] (.stopped pointer data calls)
  | stopsAfter {pointer : Val} {data : StepData} {idx calls : Nat} {step : Step} {text : String}
      (at_ : findStep wf pointer = some (idx, step)) (mcp : step.isMcpToolCall = true) :
      AutoRuns env registry wf pointer data [step.id]
        (.stopped (afterMcpStep wf idx step) (data.set step.id text) calls)
  | runs {pointer next : Val} {data : StepData} {idx : Nat} {step : Step} {text : String}
      {skipped steps : List String} {advance : Advance}
      (at_ : findStep wf pointer = some (idx, step)) (mcp : step.isMcpToolCall = true)
      (skips : applySkipLoop env (afterMcpStep wf idx step) wf (data.set step.id text) false =
        .ok (next, skipped))
      (rest : AutoRuns env registry wf next (data.set step.id text) steps advance) :
      AutoRuns env registry wf pointer data (step.id :: steps) advance

variable {env : Env} {deployment : Deployment} {registry : Option Registry} {world : World}
  {wf : Workflow} {pointer : Val} {data : StepData} {advance : Advance} {fuel calls : Nat}

theorem autoRun_runs (ran : autoRun env registry wf fuel calls pointer data = .ok advance) :
    AutoRuns env registry wf pointer data (autoRunSteps env registry wf fuel calls pointer data) advance := by
  induction fuel generalizing calls pointer data with
  | zero => simp [autoRun] at ran
  | succ fuel ih =>
      unfold autoRun at ran
      unfold autoRunSteps
      by_cases finished : pointer.isStr complete = true
      · rw [if_pos finished, Except.ok.injEq] at ran
        rw [if_pos finished, ← ran]
        exact .arrives
      rw [if_neg finished] at ran ⊢
      cases at_ : findStep wf pointer with
      | none =>
          simp only [at_, Except.ok.injEq] at ran
          rw [← ran]
          exact .arrives
      | some entry =>
      obtain ⟨idx, step⟩ := entry
      simp only [at_] at ran
      dsimp only
      by_cases mcp : step.isMcpToolCall = true
      case neg =>
        rw [if_neg mcp, Except.ok.injEq] at ran
        rw [if_neg mcp, ← ran]
        exact .arrives
      rw [if_pos mcp] at ran ⊢
      cases computed : computeSkippedSteps env wf data with
      | error raised => simp [computed] at ran
      | ok skippedSet =>
      simp only [computed] at ran
      dsimp only
      cases result : executed env registry step data skippedSet calls with
      | error raised =>
          simp only [result] at ran
          split at ran
          · rw [Except.ok.injEq] at ran
            rw [← ran]
            exact .stops
          · simp at ran
          · simp_all
      | ok answer =>
      obtain ⟨envelope, after⟩ := answer
      simp only [result] at ran
      dsimp only
      cases skip : applySkipLoop env (afterMcpStep wf idx step) wf (data.set step.id (env.dumps envelope)) false with
      | error raised =>
          simp only [skip] at ran
          split at ran
          · rw [Except.ok.injEq] at ran
            rw [← ran]
            exact .stopsAfter at_ mcp
          · simp at ran
          · simp_all
      | ok skips =>
          obtain ⟨next, skipped⟩ := skips
          simp only [skip] at ran
          exact .runs at_ mcp skip (ih ran)

theorem AutoRuns.entry {steps : List String}
    (runs : AutoRuns env registry wf pointer data steps advance) {last : Val} {lastData : StepData}
    {key : String} (resting : advance.resting = some (last, lastData))
    (unran : key ∉ steps) : lastData.get? key = data.get? key := by
  induction runs with
  | arrives =>
      simp only [Advance.resting, Option.some.injEq, Prod.mk.injEq] at resting
      rw [resting.2]
  | stops =>
      simp only [Advance.resting, Option.some.injEq, Prod.mk.injEq] at resting
      rw [resting.2]
  | stopsAfter at_ mcp =>
      simp only [Advance.resting, Option.some.injEq, Prod.mk.injEq] at resting
      rw [← resting.2, Dict.get?_set, if_neg (by simpa using unran)]
  | runs at_ mcp skips rest ih =>
      rw [List.mem_cons, not_or] at unran
      rw [ih resting unran.2, Dict.get?_set, if_neg unran.1]

theorem skipAndRun_runs {forced : Bool}
    (ran : skipAndRun env registry wf calls pointer data forced = .ok advance) :
    advance = .skipCascade ∨ ∃ next skipped,
      applySkipLoop env pointer wf data forced = .ok (next, skipped) ∧
      AutoRuns env registry wf next data (ranSteps env registry wf calls pointer data forced) advance := by
  unfold skipAndRun at ran
  unfold ranSteps
  cases skip : applySkipLoop env pointer wf data forced with
  | error raised =>
      simp only [skip] at ran
      split at ran
      · exact .inl (Except.ok.inj ran).symm
      · simp at ran
      · simp_all
  | ok skips =>
      obtain ⟨next, skipped⟩ := skips
      simp only [skip] at ran
      exact .inr ⟨next, skipped, rfl, autoRun_runs ran⟩

theorem skipAndRun_entry {forced : Bool} {last : Val} {lastData : StepData} {key : String}
    (ran : skipAndRun env registry wf calls pointer data forced = .ok advance)
    (resting : advance.resting = some (last, lastData))
    (unran : key ∉ ranSteps env registry wf calls pointer data forced) :
    lastData.get? key = data.get? key := by
  rcases skipAndRun_runs ran with rfl | ⟨next, skipped, -, runs⟩
  · simp [Advance.resting] at resting
  · exact runs.entry resting unran

/-- A submission moves the session on to a pointer: its own, or the last one of a child called at
its step. -/
inductive Advances (env : Env) (deployment : Deployment) (world : World) :
    Call → Session → Workflow → Nat → Step → String → Val → Bool → Nat → Prop
  | own {sessionId stepId content branch artifactId : String} {row : Session} {wf : Workflow}
      {idx : Nat}
      {step : Step} {fired : Option Val} {pointer : Val} {forced : Bool} {advance : Advance}
      (submits : Submits env deployment world sessionId stepId content row wf idx step)
      (passed : verdictOf env deployment.registry world.outbound.length row wf idx step content branch
        artifactId = .advanced advance)
      (guarded : firedGuardrail env wf content { row with stepData := row.stepData.set step.id content } step.id =
        .ok fired)
      (goes : nextStepOf wf idx step fired branch = .ok (.goTo pointer forced)) :
      Advances env deployment world (.submitStep sessionId stepId content branch artifactId) row wf idx step
        content pointer forced world.outbound.length
  | parent {sessionId stepId content branch artifactId : String} {child row : Session}
      {childWf wf : Workflow}
      {childIdx idx calls : Nat} {childStep step : Step} {frame : Frame} {last pointer : Val}
      {data : StepData}
      (submits : Submits env deployment world sessionId stepId content child childWf childIdx childStep)
      (reached : verdictOf env deployment.registry world.outbound.length child childWf childIdx childStep
        content branch artifactId = .advanced (.arrived last data calls))
      (atEnd : last.isStr complete = true) (framed : world.ownFrame child.sessionId = some frame)
      (called : frame.frameType = .call)
      (owner : world.parentOf child.sessionId = some row.sessionId)
      (resolves : Resolves deployment world.ledger row.sessionId row wf)
      (at_ : findStep wf (.str row.currentStep) = some (idx, step)) (call : step.isCall = true)
      (valid : validateOutput env (data.getD childWf.last.id "") step = .ok none)
      (goes : afterCallStep wf idx step = .ok pointer) :
      Advances env deployment world (.submitStep sessionId stepId content branch artifactId) row wf idx step
        (data.getD childWf.last.id "") pointer false calls

inductive Records (env : Env) (deployment : Deployment) (world : World) (sid : SessionId) :
    Call → List String → Prop
  | escalated {sessionId stepId content branch artifactId : String} {row : Session} {wf : Workflow}
      {idx : Nat}
      {step : Step} (named : row.sessionId = sid)
      (submits : Submits env deployment world sessionId stepId content row wf idx step)
      (fires : verdictOf env deployment.registry world.outbound.length row wf idx step content branch
        artifactId = .escalated) :
      Records env deployment world sid (.submitStep sessionId stepId content branch artifactId)
        [step.id]
  | advanced {call : Call} {row : Session} {wf : Workflow} {idx calls : Nat} {step : Step} {content : String}
      {pointer : Val} {forced : Bool} (named : row.sessionId = sid)
      (advances : Advances env deployment world call row wf idx step content pointer forced calls)
      (stored : (storedBy env (skipAndRun env deployment.registry wf calls pointer
        (row.stepData.set step.id content) forced)).isSome = true) :
      Records env deployment world sid call (step.id :: ranSteps env deployment.registry wf calls pointer
        (row.stepData.set step.id content) forced)

def Stores (env : Env) (deployment : Deployment) (world : World) (sid : SessionId) (stepId : String) (call : Call) :
    Prop :=
  ∃ steps, Records env deployment world sid call steps ∧ stepId ∈ steps

inductive Rewrites (env : Env) (deployment : Deployment) (world : World) (call : Call)
    (row new : Session) : Prop
  | kept (data : new.stepData = row.stepData)
      (pointer : new.currentStep = row.currentStep ∨ new.currentStep = workflowChanged)
  | escalated {content : String} (records : Records env deployment world row.sessionId call [row.currentStep])
      (data : new.stepData = row.stepData.set row.currentStep content) (pointer : new.currentStep = row.currentStep)
  | revised {sessionId stepId : String} {wf : Workflow} {idx : Nat} {target : Step}
      (isCall : call = .reviseStep sessionId stepId)
      (revises : Revises env deployment world sessionId stepId row wf idx target)
      (moved : row.Moved new target.id (revisedData wf idx target row.stepData))
  | advanced {wf : Workflow} {idx calls : Nat} {step : Step} {content text : String} {pointer last : Val}
      {data : StepData} {forced : Bool} {advance : Advance}
      (advances : Advances env deployment world call row wf idx step content pointer forced calls)
      (at_ : findStep wf (.str row.currentStep) = some (idx, step))
      (ran : skipAndRun env deployment.registry wf calls pointer (row.stepData.set step.id content) forced =
        .ok advance)
      (resting : advance.resting = some (last, data)) (column : columnText env last = .ok text)
      (moved : row.Moved new text data)

variable {call : Call} {row new : Session} {stepId : String}

theorem RowChange.rewrites {ledger : Ledger} (sound : world.Sound env)
    (change : RowChange env deployment world ledger call row new) :
    Rewrites env deployment world call row new := by
  cases change with
  | counted counts => exact .kept counts.stepData_eq (.inl counts.currentStep_eq)
  | marked stale marks => exact .kept marks.stepData_eq (.inr marks.currentStep_eq)
  | escalated submits framed owner cause escalates =>
    exact .kept escalates.stepData_eq (.inl escalates.currentStep_eq)
  | revised revises moved dropped => exact .revised rfl revises moved
  | @submitted sessionId submittedStep content branch artifactId _ _ wf idx step submits changes =>
      have isStep : row.currentStep = step.id :=
        submits.accepts.inOrder ▸ Val.str.inj (findStep_spec submits.accepts.found).2
      cases verdict : verdictOf env deployment.registry world.outbound.length row wf idx step content branch
        artifactId with
      | kept =>
          rw [verdict] at changes
          exact .kept changes.stepData_eq (.inl changes.currentStep_eq)
      | retriesExhausted =>
          rw [verdict] at changes
          exact .kept changes.stepData_eq (.inl changes.currentStep_eq)
      | escalated =>
          rw [verdict] at changes
          have data : new.stepData = row.stepData.set row.currentStep content := by
            rw [isStep]
            exact changes.stepData_eq
          refine .escalated ?_ data changes.currentStep_eq
          rw [isStep]
          exact .escalated rfl submits verdict
      | advanced advance =>
          rw [verdict] at changes
          rcases Applies.cases changes with ⟨-, counts⟩ | ⟨reached, pointer, text, data, same,
            resting, column, moved⟩
          · exact .kept counts.stepData_eq (.inl counts.currentStep_eq)
          · cases same
            obtain ⟨fired, next, forced, guarded, goes, ran⟩ := verdictOf_advanced verdict
            refine .advanced (.own submits verdict guarded goes) ?_ ran resting column moved
            rw [← submits.accepts.inOrder]
            exact submits.accepts.found
  | @delivered sessionId childStepId content branch artifactId child _ _ childWf wf childIdx idx calls childStep step
      frame pointer data submits reached atEnd framed called owner resolves at_ isCall valid applies gone =>
      rcases applies.cases with ⟨-, counts⟩ | ⟨advance, last, text, rest, advanced, resting, column,
        moved⟩
      · exact .kept counts.stepData_eq (.inl counts.currentStep_eq)
      · have isParent : world.parentOf child.sessionId = some row.sessionId :=
          World.parentOf_of_covers sound.forest ((Ledger.parent_iff_covers sound.forest).mp owner)
        have isStep : row.currentStep = step.id := Val.str.inj (findStep_spec at_).2
        unfold parentAdvance at advanced
        split at advanced
        · exact nomatch advanced
        · rename_i next goes
          rw [isStep] at advanced
          exact .advanced (.parent submits reached atEnd framed called isParent resolves at_ isCall valid goes) at_
            advanced resting column moved

/-- An entry of a row is as it was, or gone, or the call stored content for its step. -/
theorem Rewrites.entry (rewrites : Rewrites env deployment world call row new) (key : String) :
    new.stepData.get? key = row.stepData.get? key ∨ new.stepData.get? key = none ∨
      Stores env deployment world row.sessionId key call := by
  cases rewrites with
  | kept data pointer => exact .inl (by rw [data])
  | escalated records data pointer =>
      by_cases isStep : key = row.currentStep
      · exact .inr (.inr ⟨_, records, by simp [isStep]⟩)
      · rw [data, Dict.get?_set, if_neg isStep]
        exact .inl rfl
  | revised isCall revises moved =>
      rw [moved.stepData_eq, get?_revisedData]
      split
      · exact .inr (.inl rfl)
      · exact .inl rfl
  | @advanced wf idx calls step content text pointer last data forced advance advances at_ ran resting column moved =>
      have stored : (storedBy env (skipAndRun env deployment.registry wf calls pointer
          (row.stepData.set step.id content) forced)).isSome = true := by
        simp [ran, storedBy, Advance.stored, resting, column]
      by_cases recorded : key ∈ step.id :: ranSteps env deployment.registry wf calls pointer
          (row.stepData.set step.id content) forced
      · exact .inr (.inr ⟨_, .advanced rfl advances stored, recorded⟩)
      · rw [List.mem_cons, not_or] at recorded
        left
        rw [moved.stepData_eq, skipAndRun_entry ran resting recorded.2, Dict.get?_set,
          if_neg recorded.1]

theorem Advances.at_ {call : Call} {row : Session} {idx : Nat} {step : Step} {content : String}
    {forced : Bool} (advances : Advances env deployment world call row wf idx step content pointer forced calls) :
    Resolves deployment world.ledger row.sessionId row wf ∧
      findStep wf (.str row.currentStep) = some (idx, step) := by
  cases advances with
  | own submits passed guarded goes =>
      have resolves := submits.resolves
      rw [← resolves.sessionId_eq] at resolves
      refine ⟨resolves, ?_⟩
      rw [← submits.accepts.inOrder]
      exact submits.accepts.found
  | parent submits reached atEnd framed called owner resolves at_ call valid goes =>
    exact ⟨resolves, at_⟩

theorem World.parentOf_ne (sound : world.Sound env) {sid : SessionId} :
    world.parentOf sid ≠ some sid := by
  intro own
  exact sound.apart (World.parentOf_some own) rfl

theorem Advances.unique {call : Call} {row other : Session} {otherWf : Workflow}
    {idx otherIdx otherCalls : Nat} {step otherStep : Step} {content otherContent : String}
    {otherPointer : Val} {forced otherForced : Bool}
    (sound : world.Sound env)
    (advances : Advances env deployment world call row wf idx step content pointer forced calls)
    (again : Advances env deployment world call other otherWf otherIdx otherStep otherContent otherPointer otherForced
      otherCalls) (same : row.sessionId = other.sessionId) :
    row = other ∧ wf = otherWf ∧ step = otherStep ∧ content = otherContent ∧
      pointer = otherPointer ∧
      forced = otherForced ∧ calls = otherCalls := by
  have sameRow : row = other ∧ wf = otherWf := by
    have resolves := again.at_.1
    rw [← same] at resolves
    exact advances.at_.1.unique resolves
  obtain ⟨rfl, rfl⟩ := sameRow
  have sameStep := advances.at_.2.symm.trans again.at_.2
  simp only [Option.some.injEq, Prod.mk.injEq] at sameStep
  obtain ⟨rfl, rfl⟩ := sameStep
  cases advances with
  | own submits passed guarded goes =>
      cases again with
      | own submitsAgain passedAgain guardedAgain goesAgain =>
          rw [guarded, Except.ok.injEq] at guardedAgain
          subst guardedAgain
          rw [goes] at goesAgain
          simp only [Except.ok.injEq, NextStep.goTo.injEq] at goesAgain
          exact ⟨rfl, rfl, rfl, rfl, goesAgain.1, goesAgain.2, rfl⟩
      | parent child reached atEnd framed called owner =>
          rw [← (submits.unique child).1] at owner
          exact absurd owner (World.parentOf_ne sound)
  | parent child reached atEnd framed called owner resolves at_ call valid goes =>
      cases again with
      | own submits =>
          rw [(child.unique submits).1] at owner
          exact absurd owner (World.parentOf_ne sound)
      | parent childAgain reachedAgain _ _ _ _ _ _ _ _ goesAgain =>
          obtain ⟨rfl, rfl, rfl, rfl⟩ := child.unique childAgain
          rw [reached] at reachedAgain
          simp only [Verdict.advanced.injEq, Advance.arrived.injEq] at reachedAgain
          obtain ⟨-, rfl, rfl⟩ := reachedAgain
          rw [goes, Except.ok.injEq] at goesAgain
          exact ⟨rfl, rfl, rfl, rfl, goesAgain, rfl, rfl⟩

theorem Records.unique {call : Call} {sid : SessionId} {steps others : List String}
    (sound : world.Sound env) (records : Records env deployment world sid call steps)
    (again : Records env deployment world sid call others) :
    steps = others := by
  have apart : ∀ {sessionId stepId content branch artifactId : String} {session row : Session}
    {wf otherWf : Workflow}
    {idx otherIdx calls : Nat} {step otherStep : Step} {stored : String} {pointer : Val}
        {forced : Bool},
      Submits env deployment world sessionId stepId content session wf idx step →
      verdictOf env deployment.registry world.outbound.length session wf idx step content branch artifactId =
        .escalated → row.sessionId = session.sessionId →
      ¬Advances env deployment world (.submitStep sessionId stepId content branch artifactId) row otherWf otherIdx
        otherStep stored pointer forced calls := by
    intro sessionId stepId content branch artifactId session row wf otherWf idx otherIdx calls step otherStep stored
      pointer forced submits fires same advances
    cases advances with
    | own submitsAgain passed =>
        obtain ⟨rfl, rfl, rfl, rfl⟩ := submits.unique submitsAgain
        rw [fires] at passed
        exact nomatch passed
    | parent child reached atEnd framed called owner =>
        rw [same, (submits.unique child).1] at owner
        exact World.parentOf_ne sound owner
  cases records with
  | escalated named submits fires =>
      cases again with
      | escalated _ submitsAgain => rw [(submits.unique submitsAgain).2.2.2]
      | advanced namedAgain advances =>
        exact absurd advances (apart submits fires (namedAgain.trans named.symm))
  | advanced named advances =>
      cases again with
      | escalated namedAgain submits fires =>
        exact absurd advances (apart submits fires (named.trans namedAgain.symm))
      | advanced namedAgain advancesAgain =>
          obtain ⟨rfl, rfl, rfl, rfl, rfl, rfl, rfl⟩ :=
            advances.unique sound advancesAgain (named.trans namedAgain.symm)
          rfl

end Megalos
