import Megalos.Advancing
import Megalos.RowChange
import Megalos.Sample

/-!
Between two requests a session stands at a step of the client, and what it stores for
the other steps is what the executor made.
-/

namespace Megalos

open ChainForest GuardedRuns KeyedTable StatefulProgram StatefulProgram.Program

variable {env : Env} {deployment : Deployment} {world : World}

def Workflow.Waits (wf : Workflow) (pointer : String) : Prop :=
  pointer = complete ∨ pointer = workflowChanged ∨
    ∃ idx step, findStep wf (.str pointer) = some (idx, step) ∧ step.isMcpToolCall = false

/-- An advance that goes wrong: it stops at a step of the server, or it goes to a target that is no
text but is stored as the text of no step. -/
inductive Strays (env : Env) (wf : Workflow) : Except Exn Advance → Prop
  | stopped {pointer : Val} {data : StepData} {calls idx : Nat} {step : Step}
      (at_ : findStep wf pointer = some (idx, step)) (mcp : step.isMcpToolCall = true) :
      Strays env wf (.ok (.stopped pointer data calls))
  | untext {advance : Advance} {pointer : Val} {data : StepData} {text : String}
      (resting : advance.resting = some (pointer, data)) (notText : isString pointer = false)
      (column : columnText env pointer = .ok text) (unknown : ¬wf.Waits text) :
        Strays env wf (.ok advance)

/-- The calls that leave a session where it does not wait for the client. -/
inductive Misplaces (env : Env) (deployment : Deployment) (world : World) : Call → Prop
  /-- The advance of a submission. -/
  | submitted {sessionId stepId content branch artifactId : String} {session : Session}
      {wf : Workflow} {idx : Nat}
      {step : Step} {advance : Advance}
      (submits : Submits env deployment world sessionId stepId content session wf idx step)
      (reached : verdictOf env deployment.registry world.outbound.length session wf idx step content branch
        artifactId = .advanced advance) (strays : Strays env wf (.ok advance)) :
      Misplaces env deployment world (.submitStep sessionId stepId content branch artifactId)
  /-- The advance of the parent that an artifact is delivered to. -/
  | delivered {sessionId stepId content branch artifactId : String} {child row : Session}
      {childWf wf : Workflow}
      {childIdx idx calls : Nat} {childStep step : Step} {pointer : Val} {data : StepData}
      (submits : Submits env deployment world sessionId stepId content child childWf childIdx childStep)
      (reached : verdictOf env deployment.registry world.outbound.length child childWf childIdx childStep content
        branch artifactId = .advanced (.arrived pointer data calls))
      (atEnd : pointer.isStr complete = true)
      (owner : world.ledger.Parent child.sessionId row.sessionId)
      (resolves : Resolves deployment world.ledger row.sessionId row wf)
      (at_ : findStep wf (.str row.currentStep) = some (idx, step)) (call : step.isCall = true)
      (strays : Strays env wf (parentAdvance env deployment.registry wf idx step
        (row.stepData.set row.currentStep (data.getD childWf.last.id "")) calls)) :
      Misplaces env deployment world (.submitStep sessionId stepId content branch artifactId)
  /-- A revision to a step of the server. -/
  | revised {sessionId stepId : String} {session : Session} {wf : Workflow} {idx : Nat}
      {target : Step}
      (revises : Revises env deployment world sessionId stepId session wf idx target)
      (unmanned : ¬wf.Waits target.id) :
        Misplaces env deployment world (.reviseStep sessionId stepId)
  /-- A child whose first step is one of the server's. -/
  | entered {parentSessionId callStepId workflowType : String} {parent : Session}
      {parentWf childWf : Workflow}
      (spawns : Spawns env deployment world parentSessionId callStepId parent parentWf workflowType childWf)
      (calls : CallsInto env parent parentWf callStepId workflowType)
      (unmanned : ¬childWf.Waits childWf.first.id) :
      Misplaces env deployment world (.enterSubWorkflow parentSessionId callStepId)
  | pushed {sessionId workflowType pausedAtStep context : String} {outer : Session}
      {outerWf childWf : Workflow}
      (spawns : Spawns env deployment world sessionId pausedAtStep outer outerWf workflowType childWf)
      (shallow : world.stackDepth (world.standing outer.sessionId).1 < maxStackDepth)
      (room : world.countActive < activeCap) (unmanned : ¬childWf.Waits childWf.first.id) :
      Misplaces env deployment world (.pushFlow sessionId workflowType pausedAtStep context)
  /-- The front of a started session. -/
  | started {workflowType context : String} {wf : Workflow} (named : workflowType ≠ "")
      (loaded : deployment.workflows.get? workflowType = some wf)
      (room : world.countActive < activeCap)
      (strays : Strays env wf (autoRun env deployment.registry wf env.fuel world.outbound.length (.str wf.first.id)
        Table.empty)) : Misplaces env deployment world (.startWorkflow workflowType context)
  /-- The front raises at a first step of the server, or ends where SQLite stores nothing. -/
  | unstarted {workflowType context : String} {wf : Workflow} (named : workflowType ≠ "")
      (loaded : deployment.workflows.get? workflowType = some wf)
      (room : world.countActive < activeCap)
      (unmanned : ¬wf.Waits wf.first.id)
      (unstored : storedBy env (autoRun env deployment.registry wf env.fuel world.outbound.length (.str wf.first.id)
        Table.empty) = none) : Misplaces env deployment world (.startWorkflow workflowType context)

/-! Where an advance can go. -/

def Workflow.Aims (wf : Workflow) (pointer : Val) : Prop :=
  ∀ text, pointer = .str text → text = complete ∨ (findStep wf pointer).isSome

/-- From a position the pointer goes down the list, or to a named step. -/
def Workflow.Leads (wf : Workflow) (idx : Nat) (next : Val) : Prop :=
  next = .str (wf.following idx) ∨ ∀ text, next = .str text → wf.Names text

section Aims

variable {wf : Workflow} {registry : Option Registry} {pointer next : Val} {data : StepData}
  {advance : Advance} {fuel calls idx : Nat} {step : Step}

theorem Workflow.following_aims (wf : Workflow) (idx : Nat) :
    wf.Aims (.str (wf.following idx)) := by
  rintro text same
  unfold following
  split
  · rename_i step there
    exact .inr (findStepFrom_isSome (List.mem_of_getElem? there) rfl)
  · rename_i beyond
    rw [Val.str.injEq, following, beyond] at same
    exact .inl same.symm

theorem Workflow.Leads.aims (leads : wf.Leads idx next) : wf.Aims next := by
  rcases leads with rfl | names
  · exact wf.following_aims idx
  · rintro text rfl
    exact .inr (names text rfl).found

theorem afterMcpStep_aims (checked : wf.Checked) (member : step ∈ wf.steps) :
    wf.Aims (afterMcpStep wf idx step) := by
  unfold afterMcpStep
  split
  · cases declared : step.get? "default_branch" with
    | none =>
        rintro text same
        simp only [Option.getD_none, Val.str.injEq] at same
        exact .inl same.symm
    | some target =>
        rintro text same
        simp only [Option.getD_some] at same ⊢
        subst same
        exact .inr (checked.mcpDefault step member text declared).found
  · exact wf.following_aims idx

theorem autoRun_aims (checked : wf.Checked) (aims : wf.Aims pointer)
    (ran : autoRun env registry wf fuel calls pointer data = .ok advance) :
    advance.Rests fun next _ => wf.Aims next :=
  autoRun_rule (fun next _ => wf.Aims next)
    (fun _ _ at_ _ _ => afterMcpStep_aims checked (findStep_mem at_))
    (fun aims skip => applySkipLoop_rule wf.Aims (fun _ _ _ _ =>
      wf.following_aims _) skip aims) ran aims

theorem skipAndRun_aims {forced : Bool} (checked : wf.Checked) (aims : wf.Aims pointer)
    (ran : skipAndRun env registry wf calls pointer data forced = .ok advance) :
    advance.Rests fun next _ => wf.Aims next :=
  skipAndRun_rule (fun next _ => wf.Aims next)
    (fun _ _ at_ _ _ => afterMcpStep_aims checked (findStep_mem at_))
    (fun aims skip => applySkipLoop_rule wf.Aims (fun _ _ _ _ =>
      wf.following_aims _) skip aims) ran aims

/-- An advance that does not stray ends where the client is waited for. -/
theorem Advance.waits {text : String} (aims : advance.Rests fun next _ => wf.Aims next)
    (arrives : ∀ {last after}, advance = .arrived next last after → AtRest wf next)
    (stops : ∀ {last after}, advance = .stopped next last after → next.isStr complete = false)
    (straight : ¬Strays env wf (.ok advance)) (resting : advance.resting = some (next, data))
    (column : columnText env next = .ok text) : wf.Waits text := by
  cases isText : isString next with
  | false =>
      by_contra unknown
      exact straight (.untext resting isText column unknown)
  | true =>
      obtain ⟨pointer, rfl⟩ : ∃ pointer, next = .str pointer := by
        cases next <;> simp [isString] at isText ⊢
      rw [columnText, Except.ok.injEq] at column
      subst column
      rcases aims _ _ resting pointer rfl with atEnd | found
      · exact .inl atEnd
      obtain ⟨⟨idx, step⟩, found⟩ := Option.isSome_iff_exists.mp found
      cases advance with
      | skipCascade => simp [Advance.resting] at resting
      | arrived last lastData after =>
          simp only [Advance.resting, Option.some.injEq, Prod.mk.injEq] at resting
          obtain ⟨rfl, rfl⟩ := resting
          rcases arrives rfl with atEnd | plain
          · exact .inl (by simpa using atEnd)
          · exact .inr (.inr ⟨idx, step, found, plain idx step found⟩)
      | stopped last lastData after =>
          simp only [Advance.resting, Option.some.injEq, Prod.mk.injEq] at resting
          obtain ⟨rfl, rfl⟩ := resting
          cases mcp : step.isMcpToolCall with
          | true => exact absurd (.stopped found mcp) straight
          | false => exact .inr (.inr ⟨idx, step, found, mcp⟩)

theorem afterCallStep_leads (checked : wf.Checked) (member : step ∈ wf.steps)
    (call : step.isCall = true) (goes : afterCallStep wf idx step = .ok next) :
    wf.Leads idx next := by
  unfold afterCallStep at goes
  split at goes
  · have plain : step.isMcpToolCall = false := by
      by_contra mcp
      simp [checked.mcpUncalled step member (by simpa using mcp)] at call
    unfold Step.item fieldItem at goes
    split at goes
    · rename_i value declared
      rw [Except.ok.injEq] at goes
      obtain ⟨target, isTarget, names⟩ := checked.defaultTarget step member plain value declared
      rw [← goes, isTarget]
      refine .inr fun text same => ?_
      rw [← Val.str.inj same]
      exact names
    · simp at goes
  · rw [Except.ok.injEq] at goes
    exact .inl goes.symm

theorem pyEq_str {text : String} {value : Val} (same : (Val.str text).pyEq value = true) :
    value = .str text := by
  cases value <;> simp_all [Val.pyEq]

/-- Without a guardrail that forces it, a submission goes down the list, or along a branch of a step
that has some. -/
theorem nextStepOf_unforced {branch : String} {forced : Bool}
    (goes : (if step.flag "branches" then do
        let validTargets ← (← (optionVal (step.get? "branches")).iter).mapM (·.item "next")
        let target := if branch =
          "" then (step.get? "default_branch").getD (.str "") else .str branch
        if validTargets.any target.pyEq then return .goTo target false
        else return .invalidBranch target validTargets
      else return .goTo (.str (wf.following idx)) false : Except Exn NextStep) =
        .ok (.goTo next forced)) :
    step.flag "branches" = false ∧ next = .str (wf.following idx) ∨
      step.flag "branches" = true ∧
        (next = .str branch ∨ next = (step.get? "default_branch").getD (.str "")) ∧
        ∃ items, (optionVal (step.get? "branches")).iter = .ok items ∧
          ∀ text, next = .str text → ∃ option ∈ items, option.item "next" = .ok (.str text) := by
  split at goes
  · rename_i branched
    obtain ⟨items, iterates, goes⟩ := except_bind_ok.mp goes
    obtain ⟨targets, collected, goes⟩ := except_bind_ok.mp goes
    dsimp only at goes
    generalize chooses : (if branch =
      "" then (step.get? "default_branch").getD (.str "") else .str branch) = target at goes
    split at goes
    · rename_i chosen
      simp only [pure, Except.pure, Except.ok.injEq, NextStep.goTo.injEq] at goes
      rw [goes.1] at chosen chooses
      refine .inr ⟨branched, ?_, items, iterates, ?_⟩
      · split at chooses
        · exact .inr chooses.symm
        · exact .inl chooses.symm
      · rintro text rfl
        obtain ⟨target, isTarget, equal⟩ := List.any_eq_true.mp chosen
        obtain ⟨option, isOption, named⟩ := forall₂_mem_right (mapM_ok_forall₂ collected) isTarget
        rw [pyEq_str equal] at named
        exact ⟨option, isOption, named⟩
    · simp [pure, Except.pure] at goes
  · rename_i unbranched
    simp only [pure, Except.pure, Except.ok.injEq, NextStep.goTo.injEq] at goes
    exact .inl ⟨by simpa using unbranched, goes.1.symm⟩

/-- Where a submission goes on: down the list, where a forcing guardrail aims, or along a branch of
the step. -/
theorem nextStepOf_goTo {branch : String} {fired : Option Val} {forced : Bool}
    (goes : nextStepOf wf idx step fired branch = .ok (.goTo next forced)) :
    next = .str (wf.following idx) ∨
      (∃ guardrail, fired = some guardrail ∧ guardrail.item "action" = .ok (.str "force_branch") ∧
        guardrail.item "target_step" = .ok next) ∨
      ∃ branches items, step.get? "branches" = some branches ∧ branches.iter = .ok items ∧
        ∀ text, next = .str text → ∃ option ∈ items, option.item "next" = .ok (.str text) := by
  have unforced : ∀ {result : Except Exn NextStep}, result = .ok (.goTo next forced) →
      result = (if step.flag "branches" then do
          let validTargets ← (← (optionVal (step.get? "branches")).iter).mapM (·.item "next")
          let target := if branch =
            "" then (step.get? "default_branch").getD (.str "") else .str branch
          if validTargets.any target.pyEq then return .goTo target false
          else return .invalidBranch target validTargets
        else return .goTo (.str (wf.following idx)) false) →
      next = .str (wf.following idx) ∨ ∃ branches items, step.get? "branches" = some branches ∧
        branches.iter = .ok items ∧ ∀ text, next = .str text → ∃ option ∈ items,
          option.item "next" = .ok (.str text) := by
    intro result isGoTo same
    rcases nextStepOf_unforced (same.symm.trans isGoTo) with ⟨-, down⟩ | ⟨branched, -, items,
      iterates, along⟩
    · exact .inl down
    · cases declared : step.get? "branches" with
      | none => simp [Step.flag, declared] at branched
      | some branches => exact .inr ⟨branches, items, rfl,
        by simpa [declared, optionVal] using iterates, along⟩
  unfold nextStepOf at goes
  cases fired with
  | none => exact (unforced goes rfl).imp_right .inr
  | some guardrail =>
      cases acts : guardrail.item "action" with
      | error raised => simp [acts, Functor.map, Except.map, StatefulProgram.error_bind] at goes
      | ok action =>
          simp only [acts, Functor.map, Except.map, StatefulProgram.ok_bind] at goes
          cases forces : action.isStr "force_branch" with
          | false =>
              rw [forces] at goes
              exact (unforced goes rfl).imp_right .inr
          | true =>
              simp only [forces, except_bind_ok, pure, Except.pure, Except.ok.injEq,
                NextStep.goTo.injEq] at goes
              obtain ⟨target, aimed, rfl, -⟩ := goes
              rw [Val.isStr_iff] at forces
              exact .inr (.inl ⟨guardrail, rfl, forces ▸ acts, aimed⟩)

/-- A guardrail and a branch lead to a step that is named, everything else down the list. -/
theorem nextStepOf_leads {content stepId branch : String} {session : Session} {fired : Option Val}
    {forced : Bool} (checked : wf.Checked) (member : step ∈ wf.steps)
    (plain : step.isMcpToolCall = false)
    (fires : firedGuardrail env wf content session stepId = .ok fired)
    (goes : nextStepOf wf idx step fired branch = .ok (.goTo next forced)) : wf.Leads idx next := by
  rcases nextStepOf_goTo goes with down | ⟨guardrail, rfl, acts, aimed⟩ | ⟨branches, items,
    declared, iterates, along⟩
  · exact .inl down
  · obtain ⟨guardrails, items, declared, iterates, isOne⟩ := firedGuardrail_mem fires
    obtain ⟨list, rfl, each⟩ := checked.forced guardrails declared
    rw [Val.iter, Except.ok.injEq] at iterates
    right
    rintro text rfl
    exact each guardrail (iterates ▸ isOne) (Val.get?_of_item acts) text (Val.get?_of_item aimed)
  · obtain ⟨list, rfl, each⟩ := checked.branchTargets step member plain branches declared
    rw [Val.iter, Except.ok.injEq] at iterates
    right
    rintro text rfl
    obtain ⟨option, isOption, named⟩ := along text rfl
    obtain ⟨known, isKnown, names⟩ := each option (iterates ▸ isOption)
    rw [named, Except.ok.injEq, Val.str.injEq] at isKnown
    rw [isKnown]
    exact names

end Aims

/-! One row over one call. -/

def Workflow.Executed (env : Env) (registry : Option Registry) (wf : Workflow) (data : StepData) :
    Prop :=
  ∀ key text, data.get? key = some text → wf.McpStep key → ExecutorEntry env registry text

section Row

variable {wf : Workflow} {registry : Option Registry} {data last : StepData} {row new : Session}
  {after : Ledger} {call : Call}

theorem Workflow.Executed.runs (holds : wf.Executed env registry data)
    (adds : AddsRuns env registry wf data last) :
    wf.Executed env registry last := by
  intro key text found mcp
  rcases adds key with same | ⟨-, entry, there, made⟩
  · exact holds key text (same ▸ found) mcp
  · rw [found, Option.some.injEq] at there
    exact there ▸ made

theorem Workflow.Executed.set {key text : String} (holds : wf.Executed env registry data)
    (client : ¬wf.McpStep key) :
    wf.Executed env registry (data.set key text) := by
  intro other found there mcp
  rw [Dict.get?_set] at there
  split at there
  · rename_i same
    exact absurd (same ▸ mcp) client
  · exact holds other found there mcp

theorem not_mcpStep {pointer : String} {idx : Nat} {step : Step}
    (at_ : findStep wf (.str pointer) = some (idx, step)) (plain : step.isMcpToolCall = false) :
    ¬wf.McpStep pointer := by
  rintro ⟨other, found, there, mcp⟩
  rw [at_, Option.some.injEq, Prod.mk.injEq] at there
  rw [← there.2, plain] at mcp
  simp at mcp

/-- The row a session waits with: its pointer, and what it stores for the steps of the server. -/
structure Session.Manned (env : Env) (deployment : Deployment) (wf : Workflow) (row : Session) :
    Prop where
  waits : wf.Waits row.currentStep
  executed : wf.Executed env deployment.registry row.stepData

theorem Session.Manned.counted (manned : row.Manned env deployment wf) (counts : row.Counted new) :
    new.Manned env deployment wf := by
  obtain ⟨waits, executed⟩ := manned
  rw [← counts.currentStep_eq] at waits
  rw [← counts.stepData_eq] at executed
  exact ⟨waits, executed⟩

theorem Session.Manned.advanced {pointer : Val} {result : Except Exn Advance}
    (manned : row.Manned env deployment wf) (checked : wf.Checked) (aims : wf.Aims pointer)
    (ran : ∀ advance, result = .ok advance → ∃ calls forced,
      skipAndRun env deployment.registry wf calls pointer data forced = .ok advance)
    (executed : wf.Executed env deployment.registry data) (straight : ¬Strays env wf result)
    (applies : Applies env result row new) : new.Manned env deployment wf := by
  rcases applies.cases with ⟨-, counts⟩ | ⟨advance, next, text, stored, rfl, resting, column, moved⟩
  · exact manned.counted counts
  · obtain ⟨calls, forced, computed⟩ := ran _ rfl
    refine ⟨?_, ?_⟩
    · rw [moved.currentStep_eq]
      refine Advance.waits (skipAndRun_aims checked aims computed) ?_ ?_ straight resting column
      · rintro last after rfl
        exact skipAndRun_arrived computed
      · rintro last after rfl
        exact skipAndRun_stopped computed
    · rw [moved.stepData_eq]
      exact executed.runs (skipAndRun_entries computed _ _ resting)

theorem RowChange.keepsManned (checked : wf.Checked)
    (loaded : deployment.workflows.get? row.workflowType = some wf)
    (manned : row.Manned env deployment wf) (placed : ¬Misplaces env deployment world call)
    (change : RowChange env deployment world after call row new) :
    new.Manned env deployment wf := by
  have isWf : ∀ {sid : SessionId} {other : Workflow},
    Resolves deployment world.ledger sid row other → other = wf := by
    intro sid other resolves
    have again := resolves.loaded
    rw [loaded, Option.some.injEq] at again
    exact again.symm
  cases change with
  | counted counts => exact manned.counted counts
  | marked stale marks =>
      refine ⟨?_, ?_⟩
      · rw [marks.currentStep_eq]
        exact .inr (.inl rfl)
      · rw [marks.stepData_eq]
        exact manned.executed
  | @submitted sessionId stepId content branch artifactId _ _ own idx step submits changes =>
      obtain rfl := isWf submits.resolves
      have at_ := submits.accepts.found
      have plain : step.isMcpToolCall = false := by
        rcases manned.waits with atEnd | marked | ⟨place, found, there, plain⟩
        · exact absurd atEnd submits.accepts.unfinished
        · exact absurd marked submits.resolves.unmarked
        · rw [submits.accepts.inOrder, there, Option.some.injEq, Prod.mk.injEq] at at_
          exact at_.2 ▸ plain
      have stored : own.Executed env deployment.registry (row.stepData.set step.id content) :=
        manned.executed.set (not_mcpStep (by rw [← (findStep_spec at_).2]; exact at_) plain)
      generalize reached : verdictOf env deployment.registry world.outbound.length row own idx step content branch
        artifactId = verdict at changes
      cases verdict with
      | kept => exact manned.counted changes
      | retriesExhausted => exact manned.counted changes
      | escalated =>
          obtain ⟨waits, -⟩ := manned
          rw [← changes.currentStep_eq] at waits
          rw [← changes.stepData_eq] at stored
          exact ⟨waits, stored⟩
      | advanced advance =>
          obtain ⟨fired, next, forced, fires, goes, ran⟩ := verdictOf_advanced reached
          refine manned.advanced checked (nextStepOf_leads checked (findStep_mem at_) plain fires goes).aims ?_ stored
            (fun strays => placed (.submitted submits reached strays)) changes
          intro other same
          rw [← same]
          exact ⟨_, _, ran⟩
  | @revised sessionId stepId _ _ own idx target revises moved dropped =>
      obtain rfl := isWf revises.resolves
      refine ⟨?_, ?_⟩
      · rw [moved.currentStep_eq]
        by_contra unmanned
        exact placed (.revised revises unmanned)
      · rw [moved.stepData_eq]
        intro key text found mcp
        rw [get?_revisedData] at found
        split at found
        · simp at found
        · exact manned.executed key text found mcp
  | escalated submits framed owner cause escalates =>
      obtain ⟨waits, executed⟩ := manned
      rw [← escalates.currentStep_eq] at waits
      rw [← escalates.stepData_eq] at executed
      exact ⟨waits, executed⟩
  | @delivered sessionId stepId content branch artifactId child _ _ childWf own childIdx idx calls childStep step frame
      pointer data submits reached atEnd framed called owner resolves at_ isCall valid applies gone =>
      obtain rfl := isWf resolves
      have plain : step.isMcpToolCall = false := by
        by_contra mcp
        simp [checked.mcpUncalled step (findStep_mem at_) (by simpa using mcp)] at isCall
      have stored : own.Executed env deployment.registry (row.stepData.set row.currentStep (data.getD childWf.last.id "")) :=
        manned.executed.set (not_mcpStep at_ plain)
      cases goes : afterCallStep own idx step with
      | error raised =>
          simp only [parentAdvance, goes, Applies, storedBy] at applies
          exact manned.counted applies
      | ok next =>
          refine manned.advanced checked (afterCallStep_leads checked (findStep_mem at_) isCall goes).aims ?_ stored
            (fun strays => placed (.delivered submits reached atEnd owner resolves at_ isCall strays)) applies
          intro advance computed
          rw [parentAdvance, goes] at computed
          exact ⟨_, _, computed⟩

theorem Opened.startsManned {workflowType context : String} {now : Timestamp} (checked : wf.Checked)
    (named : workflowType ≠ "") (loaded : deployment.workflows.get? workflowType = some wf)
    (room : world.countActive < activeCap)
    (placed : ¬Misplaces env deployment world (.startWorkflow workflowType context))
    (opened : Opened env deployment.registry wf world.outbound.length
      (newSession (env.token world.minted) workflowType wf.first.id none (fingerprintFor env deployment workflowType)
        now) new) : new.Manned env deployment wf := by
  have firstFound := findStep_first wf
  have nothing : wf.Executed env deployment.registry Table.empty := by
    intro key text found
    simp at found
  have fromStart : ∀ {counted : Session},
    (newSession (env.token world.minted) workflowType wf.first.id none
      (fingerprintFor env deployment workflowType) now).Counted counted → wf.Waits wf.first.id →
      counted.Manned env deployment wf := by
    intro counted counts waits
    exact Session.Manned.counted ⟨waits, nothing⟩ counts
  rcases opened with applies | ⟨⟨data, calls, arrived⟩, counts⟩
  · have aims : wf.Aims (.str wf.first.id) := by
      rintro text same
      exact .inr (by simp [firstFound])
    rcases applies.cases with ⟨unstored, counts⟩ | ⟨advance, next, text, stored, computed, resting,
      column, moved⟩
    · refine fromStart counts ?_
      by_contra unmanned
      exact placed (.unstarted named loaded room unmanned unstored)
    · refine ⟨?_, ?_⟩
      · rw [moved.currentStep_eq]
        refine Advance.waits (autoRun_aims checked aims computed) ?_ ?_
          (fun strays => placed (.started named loaded room (computed ▸ strays))) resting column
        · rintro last after rfl
          exact autoRun_arrived computed
        · rintro last after rfl
          exact autoRun_stopped computed
      · rw [moved.stepData_eq]
        exact nothing.runs (autoRun_entries computed _ _ resting)
  · refine fromStart counts ?_
    rcases autoRun_arrived arrived with atEnd | plain
    · exact .inl (by simpa using atEnd)
    · exact .inr (.inr ⟨0, wf.first, firstFound, plain 0 wf.first firstFound⟩)

theorem Grown.startsManned {outer : Session} {workflowType : String} {frameType : FrameType}
    {ledger : Ledger} (grown : Grown env world outer workflowType wf (fingerprintFor env deployment workflowType) frameType ledger)
    (waits : wf.Waits wf.first.id) (found : ledger.row (env.token world.minted) = some new) :
    new.workflowType = workflowType ∧ new.Manned env deployment wf := by
  obtain ⟨now, row, childRow, counts⟩ := grown.child
  rw [found, Option.some.injEq] at childRow
  subst childRow
  refine ⟨counts.workflowType_eq, Session.Manned.counted ⟨waits, ?_⟩ counts⟩
  intro key text there
  simp [newSession] at there

end Row

def World.Manned (env : Env) (deployment : Deployment) (world : World) : Prop :=
  ∀ sid row, world.sessions.lookup sid = some row →
    ∃ wf, deployment.workflows.get? row.workflowType = some wf ∧
    wf.Waits row.currentStep ∧ ∀ key text, row.stepData.get? key = some text → wf.McpStep key →
      ExecutorEntry env deployment.registry text

theorem Effect.startsManned {call : Call} {ledger : Ledger} {minted : Nat} {new : Session}
    (accepted : deployment.Accepted env) (sound : world.Sound env)
    (placed : ¬Misplaces env deployment world call)
    (effect : Effect env deployment world call ledger minted)
    (found : ledger.row (env.token world.minted) = some new) :
    ∃ wf, deployment.workflows.get? new.workflowType = some wf ∧ new.Manned env deployment wf := by
  have unused : world.ledger.row (env.token world.minted) = none := by
    cases there : world.ledger.row (env.token world.minted) with
    | none => rfl
    | some row => exact absurd (sound.rowIssued there) Issued.not_next
  have unmarked : ∀ {sid : SessionId} {row marked : Session},
    GoesStale deployment world.ledger sid row →
      (world.ledger.setRow sid marked).row (env.token world.minted) = some new → False := by
    intro sid row marked stale there
    rw [Ledger.setRow_row] at there
    split at there
    · rename_i same
      simpa [← same, unused] using stale.row
    · simp [unused] at there
  rcases effect.rowEffect sound found with ⟨row, there, -⟩ | ⟨-, birth⟩
  · simp [unused] at there
  cases birth with
  | started =>
      cases effect with
      | idle => simp [unused] at found
      | marked stale marks => exact (unmarked stale found).elim
      | started named loaded room _ opened =>
          rw [Ledger.setRow_row, if_pos rfl, Option.some.injEq] at found
          subst found
          refine ⟨_, ?_, opened.startsManned (accepted.checked loaded) named loaded room placed⟩
          rw [opened.same.workflowType_eq]
          exact loaded
  | spawned above =>
      cases effect with
      | idle => simp [unused] at found
      | marked stale marks => exact (unmarked stale found).elim
      | entered spawns calls spawned =>
          obtain ⟨type, manned⟩ := spawned.toGrown.startsManned
            (by_contra fun unmanned => placed (.entered spawns calls unmanned)) found
          exact ⟨_, type ▸ spawns.loaded, manned⟩
      | pushed spawns named shallow room spawned =>
          obtain ⟨type, manned⟩ := spawned.toGrown.startsManned
            (by_contra fun unmanned => placed (.pushed spawns shallow room unmanned)) found
          exact ⟨_, type ▸ spawns.loaded, manned⟩
      | started => cases above
      | submitted => cases above
      | revised => cases above
      | popped => cases above
      | deleted => cases above

/-- In a run without a misplacing call every session waits for the client between the calls. -/
theorem Reachable.manned (accepted : deployment.Accepted env)
    (reachable : Reachable env
      (fun state request => request.deployment = deployment ∧
        ¬Misplaces env deployment state request.call) world) :
    world.Manned env deployment := by
  refine reachable.invariant (World.Manned env deployment) ?_ ?_
  · intro sid row found
    exact nomatch found
  · rintro before request after sound manned ⟨rfl, placed⟩ serves sid new found
    have effect := serves.effect sound
    rcases effect.rowEffect sound found with ⟨row, there, change⟩ | ⟨rfl, -⟩
    · obtain ⟨wf, loaded, waits, executed⟩ := manned sid row there
      have kept := change.keepsManned (accepted.checked loaded) loaded ⟨waits, executed⟩ placed
      rw [← change.same.workflowType_eq] at loaded
      exact ⟨wf, loaded, kept.waits, kept.executed⟩
    · obtain ⟨wf, loaded, kept⟩ := effect.startsManned accepted sound placed found
      exact ⟨wf, loaded, kept.waits, kept.executed⟩

theorem not_strays_of_text {wf : Workflow} {text : String} {data : StepData} {calls : Nat} :
    ¬Strays env wf (.ok (.arrived (.str text) data calls)) := by
  intro strays
  cases strays with
  | untext resting notText column unknown =>
      simp only [Advance.resting, Option.some.injEq, Prod.mk.injEq] at resting
      simp [← resting.1, isString] at notText

theorem not_misplaces_of_start {workflowType context text : String} {wf : Workflow}
    {data : StepData} {calls : Nat} (loaded : deployment.workflows.get? workflowType = some wf)
    (arrives : autoRun env deployment.registry wf env.fuel world.outbound.length (.str wf.first.id) Table.empty =
      .ok (.arrived (.str text) data calls)) :
    ¬Misplaces env deployment world (.startWorkflow workflowType context) := by
  intro misplaces
  cases misplaces with
  | started named found room strays =>
      rw [loaded, Option.some.injEq] at found
      rw [← found, arrives] at strays
      exact not_strays_of_text strays
  | unstarted named found room unmanned unstored =>
      rw [loaded, Option.some.injEq] at found
      simp [← found, arrives, storedBy, Advance.stored, Advance.resting, columnText] at unstored

theorem not_misplaces_of_submit {sessionId stepId content branch artifactId text : String}
    {data : StepData} {calls : Nat}
    (root : world.parentOf (env.normalizeSessionId sessionId) = none)
    (arrives : (submissionVerdict env deployment world sessionId stepId content branch artifactId).bind
      Verdict.arrival? = some (.str text, data, calls)) :
    ¬Misplaces env deployment world (.submitStep sessionId stepId content branch artifactId) := by
  intro misplaces
  cases misplaces with
  | submitted submits reached strays =>
      rw [submits.verdict_eq, Option.bind_some] at arrives
      rw [Verdict.arrived_of_arrival arrives, Verdict.advanced.injEq] at reached
      exact not_strays_of_text (reached ▸ strays)
  | delivered submits reached atEnd owner =>
      rw [submits.resolves.sessionId_eq] at owner
      exact World.parentOf_none root _ owner

def servedDocs : List Val := [
  workflowDoc "outer" [stepDoc "a" [], mcpDoc "t" [], stepDoc "c" [("call", .str "inner")]],
  workflowDoc "inner" [mcpDoc "u" [], stepDoc "x" []]]

theorem manned_through_tool :
    (serveAll sampleEnv (appOf sampleEnv servedDocs) World.empty
      [.startWorkflow "outer" "",
        .submitStep "s" "a" "done" "" ""]).Manned sampleEnv (appOf sampleEnv servedDocs) := by
  refine Reachable.manned (appOf_accepted (by decide))
    (serveAll_run (by rfl) ⟨⟨rfl, ?_⟩, ⟨rfl, ?_⟩, trivial⟩)
  · exact not_misplaces_of_start (by rfl) (by rfl)
  · exact not_misplaces_of_submit (by rfl) (by rfl)

def unmanned : World :=
  serveAll sampleEnv (appOf sampleEnv servedDocs) World.empty
    [.startWorkflow "outer" "", .submitStep "s" "a" "done" "" "", .enterSubWorkflow "s" "c"]

theorem not_always_manned :
    ¬∀ env deployment world, deployment.Accepted env → ServedBy env deployment world →
      world.Manned env deployment := by
  intro always
  have manned := always _ _ _ (appOf_accepted (by decide))
    (serveAll_served (by rfl) : ServedBy sampleEnv
    (appOf sampleEnv servedDocs) unmanned)
  have there : (unmanned.sessions.lookup (sampleToken 1)).isSome = true := by rfl
  obtain ⟨row, found⟩ := Option.isSome_iff_exists.mp there
  have fields : (unmanned.sessions.lookup (sampleToken 1)).map (fun row =>
    (row.workflowType, row.currentStep)) =
    some ("inner", "u") := by rfl
  simp only [found, Option.map_some, Option.some.injEq, Prod.mk.injEq] at fields
  obtain ⟨wf, loaded, waits, -⟩ := manned _ _ found
  rw [fields.1] at loaded
  rw [fields.2] at waits
  have served : ((appOf sampleEnv servedDocs).workflows.get? "inner").map (fun wf =>
      (findStep wf (.str "u")).map fun entry => entry.2.isMcpToolCall) = some (some true) := by rfl
  rw [loaded, Option.map_some, Option.some.injEq] at served
  rcases waits with atEnd | marked | ⟨idx, step, at_, plain⟩
  · exact absurd atEnd (by decide)
  · exact absurd marked (by decide)
  · simp [at_, plain] at served

end Megalos
