import Megalos.Verdict

/-!
Rules for reasoning about an advance: what skipping keeps and what running one step
keeps, the whole advance keeps.
-/

namespace Megalos

open KeyedTable

def Advance.Rests (inv : Val → StepData → Prop) (advance : Advance) : Prop :=
  ∀ pointer data, advance.resting = some (pointer, data) → inv pointer data

def AtRest (wf : Workflow) (pointer : Val) : Prop :=
  pointer.isStr complete = true ∨
    ∀ idx step, findStep wf pointer = some (idx, step) → step.isMcpToolCall = false

variable {env : Env} {registry : Option Registry} {wf : Workflow}
  {pointer next : Val} {data : StepData} {advance : Advance} {fuel calls : Nat}

/-- What holds of the pointer holds after skipping, if leaving a step with a precondition keeps it.
-/
theorem skipLoop_rule {inv : Val → Prop}
    (skips : ∀ {pointer idx step}, inv pointer → pointer.isStr complete = false →
      findStep wf pointer = some (idx, step) → step.precondition.isSome →
        inv (.str (wf.following idx)))
    {skippedSet before after : List String}
    (ran : skipLoop env wf data fuel pointer skippedSet before = .ok (next, after))
    (holds : inv pointer) :
    inv next := by
  induction fuel generalizing pointer skippedSet before with
  | zero => simp [skipLoop] at ran
  | succ fuel ih =>
      have stays : (Except.ok (pointer, before) : Except Exn _) = .ok (next, after) → inv next := by
        intro same
        simp only [Except.ok.injEq, Prod.mk.injEq] at same
        exact same.1 ▸ holds
      unfold skipLoop at ran
      split at ran
      · exact stays ran
      rename_i unfinished
      cases at_ : findStep wf pointer with
      | none =>
          rw [at_] at ran
          exact stays ran
      | some entry =>
      obtain ⟨idx, step⟩ := entry
      simp only [at_] at ran
      cases guarded : step.precondition with
      | none =>
          rw [guarded] at ran
          exact stays ran
      | some pc =>
      simp only [guarded] at ran
      split at ran
      · simp at ran
      · exact stays ran
      · exact ih ran (skips holds (by simpa using unfinished) at_ (by simp [guarded]))

theorem applySkipLoop_rule (inv : Val → Prop)
    (skips : ∀ {pointer idx step}, inv pointer → pointer.isStr complete = false →
      findStep wf pointer = some (idx, step) → step.precondition.isSome →
        inv (.str (wf.following idx)))
    {forced : Bool} {skipped : List String}
    (ran : applySkipLoop env pointer wf data forced = .ok (next, skipped)) (holds : inv pointer) :
    inv next := by
  unfold applySkipLoop at ran
  split at ran
  · simp only [Except.ok.injEq, Prod.mk.injEq] at ran
    exact ran.1 ▸ holds
  · split at ran
    · simp at ran
    · exact skipLoop_rule skips ran holds

theorem autoRun_rule (inv : Val → StepData → Prop)
    (runs : ∀ {pointer idx step data skippedSet before envelope after}, inv pointer data →
      pointer.isStr complete = false → findStep wf pointer = some (idx, step) →
        step.isMcpToolCall = true →
      executed env registry step data skippedSet before = .ok (envelope, after) →
      inv (afterMcpStep wf idx step) (data.set step.id (env.dumps envelope)))
    (skips : ∀ {pointer data next skipped}, inv pointer data →
      applySkipLoop env pointer wf data false = .ok (next, skipped) → inv next data)
    (ran : autoRun env registry wf fuel calls pointer data = .ok advance)
    (holds : inv pointer data) :
    advance.Rests inv := by
  induction fuel generalizing calls pointer data with
  | zero => simp [autoRun] at ran
  | succ fuel ih =>
      have rests : ∀ {pointer data calls}, inv pointer data →
          Advance.Rests inv (.arrived pointer data calls) ∧
            Advance.Rests inv (.stopped pointer data calls) := by
        intro pointer data calls holds
        constructor <;>
        · intro otherPointer otherData same
          simp only [Advance.resting, Option.some.injEq, Prod.mk.injEq] at same
          obtain ⟨rfl, rfl⟩ := same
          exact holds
      have waits : (Except.ok (.arrived pointer data calls) : Except Exn _) = .ok advance →
        advance.Rests inv := by
        intro same
        rw [Except.ok.injEq] at same
        exact same ▸ (rests holds).1
      unfold autoRun at ran
      split at ran
      · exact waits ran
      rename_i unfinished
      cases at_ : findStep wf pointer with
      | none =>
          rw [at_] at ran
          exact waits ran
      | some entry =>
      obtain ⟨idx, step⟩ := entry
      simp only [at_] at ran
      by_cases mcp : step.isMcpToolCall
      case neg =>
        simp only [mcp, Bool.false_eq_true, if_false] at ran
        exact waits ran
      simp only [mcp, if_true] at ran
      split at ran
      · simp at ran
      split at ran
      · rw [Except.ok.injEq] at ran
        exact ran ▸ (rests holds).2
      · simp at ran
      rename_i envelope after result
      have executedHolds := runs holds (by simpa using unfinished) at_ mcp result
      split at ran
      · rw [Except.ok.injEq] at ran
        exact ran ▸ (rests executedHolds).2
      · simp at ran
      · rename_i skip
        exact ih ran (skips executedHolds skip)

theorem autoRun_arrived {last : StepData} {after : Nat}
    (ran : autoRun env registry wf fuel calls pointer data = .ok (.arrived next last after)) :
    AtRest wf next := by
  induction fuel generalizing calls pointer data with
  | zero => simp [autoRun] at ran
  | succ fuel ih =>
      unfold autoRun at ran
      split at ran
      · rename_i finished
        simp only [Except.ok.injEq, Advance.arrived.injEq] at ran
        exact .inl (ran.1 ▸ finished)
      cases at_ : findStep wf pointer with
      | none =>
          simp only [at_, Except.ok.injEq, Advance.arrived.injEq] at ran
          refine .inr fun idx step found => ?_
          rw [← ran.1, at_] at found
          simp at found
      | some entry =>
      obtain ⟨idx, step⟩ := entry
      simp only [at_] at ran
      by_cases mcp : step.isMcpToolCall
      case neg =>
        simp only [mcp, Bool.false_eq_true, if_false, Except.ok.injEq, Advance.arrived.injEq] at ran
        refine .inr fun other otherStep found => ?_
        rw [← ran.1, at_] at found
        simp only [Option.some.injEq, Prod.mk.injEq] at found
        rw [← found.2]
        simpa using mcp
      simp only [mcp, if_true] at ran
      split at ran
      · simp at ran
      split at ran
      · simp at ran
      · simp at ran
      split at ran
      · simp at ran
      · simp at ran
      · exact ih ran

theorem skippedFrom_calm {steps : List Step} {skipped : List String} {sid referencing : String} :
    skippedFrom env data steps skipped ≠ .error (.skippedPredecessor sid referencing) := by
  induction steps generalizing skipped with
  | nil => simp [skippedFrom]
  | cons step rest ih =>
      unfold skippedFrom
      split
      · exact ih
      split
      · exact ih
      split
      · exact ih
      · exact ih
      · exact ih
      · rename_i raised other _
        intro same
        rw [Except.error.injEq] at same
        exact other _ _ same

theorem applySkipLoop_complete {forced : Bool} {sid referencing : String}
    (atEnd : pointer.isStr complete = true) :
    applySkipLoop env pointer wf data forced ≠ .error (.skippedPredecessor sid referencing) := by
  unfold applySkipLoop
  split
  · simp
  split
  · rename_i raised computed
    intro same
    rw [Except.error.injEq] at same
    subst same
    exact skippedFrom_calm computed
  · cases env.fuel with
    | zero => simp [skipLoop]
    | succ fuel => simp [skipLoop, atEnd]

theorem autoRun_stopped {last : StepData} {after : Nat}
    (ran : autoRun env registry wf fuel calls pointer data = .ok (.stopped next last after)) :
    next.isStr complete = false := by
  induction fuel generalizing calls pointer data with
  | zero => simp [autoRun] at ran
  | succ fuel ih =>
      unfold autoRun at ran
      split at ran
      · simp at ran
      rename_i unfinished
      cases at_ : findStep wf pointer with
      | none => simp [at_] at ran
      | some entry =>
      obtain ⟨idx, step⟩ := entry
      simp only [at_] at ran
      by_cases mcp : step.isMcpToolCall
      case neg => simp [mcp] at ran
      simp only [mcp, if_true] at ran
      split at ran
      · simp at ran
      split at ran
      · simp only [Except.ok.injEq, Advance.stopped.injEq] at ran
        rw [← ran.1]
        simpa using unfinished
      · simp at ran
      split at ran
      · rename_i cascade
        simp only [Except.ok.injEq, Advance.stopped.injEq] at ran
        by_contra finished
        rw [← ran.1, Bool.not_eq_false] at finished
        exact applySkipLoop_complete finished cascade
      · simp at ran
      · exact ih ran

theorem skipAndRun_rule (inv : Val → StepData → Prop) {forced : Bool}
    (runs : ∀ {pointer idx step data skippedSet before envelope after}, inv pointer data →
      pointer.isStr complete = false → findStep wf pointer = some (idx, step) →
        step.isMcpToolCall = true →
      executed env registry step data skippedSet before = .ok (envelope, after) →
      inv (afterMcpStep wf idx step) (data.set step.id (env.dumps envelope)))
    (skips : ∀ {pointer data next skipped forced}, inv pointer data →
      applySkipLoop env pointer wf data forced = .ok (next, skipped) → inv next data)
    (ran : skipAndRun env registry wf calls pointer data forced = .ok advance)
    (holds : inv pointer data) :
    advance.Rests inv := by
  unfold skipAndRun at ran
  split at ran
  · rw [Except.ok.injEq] at ran
    intro last lastData same
    rw [← ran] at same
    simp [Advance.resting] at same
  · simp at ran
  · rename_i skip
    exact autoRun_rule inv runs skips ran (skips holds skip)

theorem skipAndRun_arrived {forced : Bool} {last : StepData} {after : Nat}
    (ran : skipAndRun env registry wf calls pointer data forced = .ok (.arrived next last after)) :
    AtRest wf next := by
  unfold skipAndRun at ran
  split at ran
  · simp at ran
  · simp at ran
  · exact autoRun_arrived ran

theorem skipAndRun_stopped {forced : Bool} {last : StepData} {after : Nat}
    (ran : skipAndRun env registry wf calls pointer data forced = .ok (.stopped next last after)) :
    next.isStr complete = false := by
  unfold skipAndRun at ran
  split at ran
  · simp at ran
  · simp at ran
  · exact autoRun_stopped ran

/-- A row that an advance was applied to was counted, or moved to where the advance ended. -/
theorem Applies.cases {result : Except Exn Advance} {old new : Session}
    (applies : Applies env result old new) :
    storedBy env result = none ∧ old.Counted new ∨ ∃ advance pointer text data,
      result = .ok advance ∧
      advance.resting = some (pointer, data) ∧ columnText env pointer = .ok text ∧
        old.Moved new text data := by
  unfold Applies at applies
  split at applies
  · rename_i step stepData stored
    cases result with
    | error raised => simp [storedBy] at stored
    | ok advance =>
        simp only [storedBy, Advance.stored] at stored
        obtain ⟨rest, resting, bound⟩ := Option.bind_eq_some_iff.mp stored
        split at bound
        · rename_i text column
          simp only [Option.some.injEq, Prod.mk.injEq] at bound
          obtain ⟨rfl, rfl⟩ := bound
          exact .inr ⟨advance, rest.1, text, rest.2, rfl, resting, column, applies⟩
        · simp at bound
  · rename_i unstored
    exact .inl ⟨unstored, applies⟩

/-- A submission advances by skipping and running from the step that the content and the branch
select. -/
theorem verdictOf_advanced {session : Session} {idx : Nat} {step : Step}
    {content branch artifactId : String}
    (reached : verdictOf env registry calls session wf idx step content branch artifactId =
      .advanced advance) :
    ∃ fired pointer forced,
      firedGuardrail env wf content { session with stepData := session.stepData.set step.id content } step.id =
        .ok fired ∧ nextStepOf wf idx step fired branch = .ok (.goTo pointer forced) ∧
      skipAndRun env registry wf calls pointer (session.stepData.set step.id content) forced = .ok advance := by
  have ofCommitted : committed env registry calls session wf idx step content branch = .advanced advance →
      ∃ fired pointer forced,
        firedGuardrail env wf content { session with stepData := session.stepData.set step.id content } step.id =
          .ok fired ∧ nextStepOf wf idx step fired branch = .ok (.goTo pointer forced) ∧
        skipAndRun env registry wf calls pointer (session.stepData.set step.id content) forced =
          .ok advance := by
    intro passed
    unfold committed at passed
    dsimp only at passed
    split at passed
    · simp at passed
    rename_i fired guardrail
    split at passed
    · simp at passed
    split at passed
    · split at passed <;> simp at passed
    split at passed
    · simp at passed
    split at passed
    · rename_i pointer forced goes
      cases result : skipAndRun env registry wf calls pointer (session.stepData.set step.id content) forced with
      | error raised => simp [result, Verdict.ofAdvance] at passed
      | ok advance' =>
          simp only [result, Verdict.ofAdvance, Verdict.advanced.injEq] at passed
          exact ⟨fired, pointer, forced, guardrail, goes, passed ▸ result⟩
    · simp at passed
  unfold verdictOf at reached
  split at reached
  · cases passes : artifactPasses env step content artifactId with
    | true =>
        simp only [passes, cond_true] at reached
        exact ofCommitted reached
    | false => simp [passes] at reached
  · split at reached
    · simp at reached
    · exact ofCommitted reached
    · split at reached <;> simp at reached

theorem evaluateGuardrails_mem {content stepId : String} {session : Session} {items : List Val}
    {fired : Val} (evaluated : evaluateGuardrails env content session stepId items =
      .ok (some fired)) : fired ∈ items := by
  induction items with
  | nil => simp [evaluateGuardrails] at evaluated
  | cons guardrail rest ih =>
      simp only [evaluateGuardrails] at evaluated
      split at evaluated
      · simp at evaluated
      · simp only [Except.ok.injEq, Option.some.injEq] at evaluated
        simp [evaluated]
      · simp [ih evaluated]

theorem firedGuardrail_mem {content stepId : String} {session : Session} {fired : Val}
    (fires : firedGuardrail env wf content session stepId = .ok (some fired)) :
    ∃ guardrails items, wf.get? "guardrails" = some guardrails ∧ guardrails.iter = .ok items ∧
      fired ∈ items := by
  unfold firedGuardrail at fires
  dsimp only at fires
  split at fires
  · cases declared : wf.get? "guardrails" with
    | none => simp [declared, Val.iter, evaluateGuardrails, bind, Except.bind] at fires
    | some guardrails =>
        rw [declared, Option.getD_some] at fires
        cases iterates : guardrails.iter with
        | error raised => simp [iterates, bind, Except.bind] at fires
        | ok items =>
            simp only [iterates, bind, Except.bind] at fires
            exact ⟨guardrails, items, rfl, iterates, evaluateGuardrails_mem fires⟩
  · simp [pure, Except.pure] at fires

def Workflow.McpStep (wf : Workflow) (sid : String) : Prop :=
  ∃ idx step, findStep wf (.str sid) = some (idx, step) ∧ step.isMcpToolCall = true

def ExecutorEntry (env : Env) (registry : Option Registry) (text : String) : Prop :=
  ∃ step stepData skippedSet before envelope after,
    executed env registry step stepData skippedSet before = .ok (envelope, after) ∧
      text = env.dumps envelope

def AddsRuns (env : Env) (registry : Option Registry) (wf : Workflow) (data last : StepData) :
    Prop :=
  ∀ key, last.get? key = data.get? key ∨
    wf.McpStep key ∧ ∃ text, last.get? key = some text ∧ ExecutorEntry env registry text

theorem AddsRuns.run {idx : Nat} {step : Step} {before : StepData} {skippedSet : List String}
    {envelope : Val} {after : Nat} (kept : AddsRuns env registry wf data before)
    (at_ : findStep wf pointer = some (idx, step))
    (mcp : step.isMcpToolCall = true)
    (result : executed env registry step before skippedSet calls = .ok (envelope, after)) :
    AddsRuns env registry wf data (before.set step.id (env.dumps envelope)) := by
  intro key
  rw [Dict.get?_set]
  split
  · rename_i isStep
    have found : findStep wf (.str key) = some (idx, step) := by
      rw [isStep, ← (findStep_spec at_).2]
      exact at_
    exact .inr ⟨⟨idx, step, found, mcp⟩, _, rfl, step, _, _, _, envelope, _, result, rfl⟩
  · exact kept key

theorem autoRun_entries (ran : autoRun env registry wf fuel calls pointer data = .ok advance) :
    advance.Rests fun _ last => AddsRuns env registry wf data last :=
  autoRun_rule _ (fun kept _ at_ mcp result => kept.run at_ mcp result)
    (fun kept _ => kept) ran fun _ => .inl rfl

theorem skipAndRun_entries {forced : Bool}
    (ran : skipAndRun env registry wf calls pointer data forced = .ok advance) :
    advance.Rests fun _ last => AddsRuns env registry wf data last :=
  skipAndRun_rule _ (fun kept _ at_ mcp result => kept.run at_ mcp result)
    (fun kept _ => kept) ran fun _ => .inl rfl

end Megalos
