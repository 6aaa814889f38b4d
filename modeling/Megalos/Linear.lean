import Megalos.Advancing
import Megalos.RowChange
import Megalos.Sample

/-!
Workflows without branches, preconditions and forced branches: the pointer reaches a
step only over the steps before it.
-/

namespace Megalos

open GuardedRuns KeyedTable StatefulProgram StatefulProgram.Program

structure Workflow.Linear (wf : Workflow) : Prop where
  unbranched : ∀ step ∈ wf.steps, step.flag "branches" = false
  unconditional : ∀ step ∈ wf.steps, step.precondition = none
  unforced : ∀ guardrails items, wf.get? "guardrails" = some guardrails →
    guardrails.iter = .ok items →
    ∀ guardrail ∈ items, ∀ action, guardrail.item "action" = .ok action →
      action.isStr "force_branch" = false

structure Workflow.Listwise (wf : Workflow) : Prop where
  unbranched : ∀ step ∈ wf.steps, step.flag "branches" = false
  unforced : ∀ guardrails items, wf.get? "guardrails" = some guardrails →
    guardrails.iter = .ok items →
    ∀ guardrail ∈ items, ∀ action, guardrail.item "action" = .ok action →
      action.isStr "force_branch" = false

def Workflow.Covered (wf : Workflow) (data : StepData) (count : Nat) : Prop :=
  ∀ idx < count, ∀ step, wf.steps[idx]? = some step → data.contains step.id = true

structure Workflow.Ordered (wf : Workflow) (pointer : String) (data : StepData) : Prop where
  before : ∀ idx step, findStep wf (.str pointer) = some (idx, step) → wf.Covered data idx
  finished : pointer = complete → wf.Covered data wf.steps.length
  closed : ∀ idx step, findStep wf (.str step.id) = some (idx, step) →
    data.contains step.id = true →
    wf.Covered data idx

/-- A revision of the workflow that moves past steps without an entry, or erases an entry that the
target's predecessors need. -/
def SkipsAhead (env : Env) (deployment : Deployment) (name : String) (world : World) (call : Call) :
    Prop :=
  ∃ sessionId stepId session wf idx target, call = .reviseStep sessionId stepId ∧
    Revises env deployment world sessionId stepId session wf idx target ∧
      session.workflowType = name ∧
    (session.stepData.contains stepId = false ∧ ¬wf.Covered session.stepData idx ∨
      ∃ early late first second, early < idx ∧ idx < late ∧ wf.steps[early]? = some first ∧
        wf.steps[late]? = some second ∧ first.id = second.id)

variable {env : Env} {deployment : Deployment} {world : World} {wf : Workflow}
  {pointer text : String} {data : StepData} {idx : Nat} {step : Step}

theorem findStepFrom_least {stepId : Val} {start position : Nat} {steps : List Step} {found : Step}
    (looked : findStepFrom stepId start steps = some (idx, found))
    (there : steps[position]? = some step)
    (same : stepId = .str step.id) : idx ≤ start + position := by
  induction steps generalizing start position with
  | nil => simp at there
  | cons first rest ih =>
      simp only [findStepFrom] at looked
      split at looked
      · simp only [Option.some.injEq, Prod.mk.injEq] at looked
        omega
      · rename_i differs
        cases position with
        | zero =>
            simp only [List.getElem?_cons_zero, Option.some.injEq] at there
            subst there same
            simp at differs
        | succ position =>
            have later := ih looked (by simpa using there)
            omega

theorem findStep_least {position : Nat} {found : Step}
    (looked : findStep wf (.str step.id) = some (idx, found))
    (there : wf.steps[position]? = some step) :
    idx ≤ position := by
  have least := findStepFrom_least looked there rfl
  omega

theorem findStep_self (found : findStep wf (.str pointer) = some (idx, step)) :
    findStep wf (.str step.id) = some (idx, step) ∧ step.id = pointer := by
  obtain ⟨-, same⟩ := findStep_spec found
  rw [Val.str.injEq] at same
  exact ⟨same ▸ found, same.symm⟩

namespace Workflow

theorem Covered.mono {later : StepData} {count fewer : Nat} (covered : wf.Covered data count)
    (fewerSteps : fewer ≤ count)
    (kept : ∀ key, data.contains key = true → later.contains key = true) :
    wf.Covered later fewer :=
  fun idx bound step there => kept _ (covered idx (by omega) step there)

theorem contains_set {key : String} (there : data.contains key = true) :
    (data.set step.id text).contains key = true := by
  rw [Dict.contains_iff_get?] at there ⊢
  rw [Dict.get?_set]
  split
  · rfl
  · exact there

theorem contains_of_set {key : String} (there : (data.set step.id text).contains key = true) :
    key = step.id ∨ data.contains key = true := by
  rw [Dict.contains_iff_get?] at there ⊢
  rw [Dict.get?_set] at there
  split at there
  · exact .inl ‹_›
  · exact .inr there

theorem Ordered.store (ordered : wf.Ordered pointer data)
    (found : findStep wf (.str pointer) = some (idx, step)) :
    wf.Ordered pointer (data.set step.id text) where
  before other otherStep there :=
    (ordered.before other otherStep there).mono (le_refl _) fun _ => contains_set
  finished atEnd := (ordered.finished atEnd).mono (le_refl _) fun _ => contains_set
  closed other otherStep there stored := by
    rcases contains_of_set stored with same | old
    · rw [same, (findStep_self found).1] at there
      simp only [Option.some.injEq, Prod.mk.injEq] at there
      exact (ordered.before idx step found).mono (by omega) fun _ => contains_set
    · exact (ordered.closed other otherStep there old).mono (le_refl _) fun _ => contains_set

theorem Ordered.advance (ordered : wf.Ordered pointer data)
    (plain : ∀ step ∈ wf.steps, step.id ≠ complete)
    (found : findStep wf (.str pointer) = some (idx, step)) :
    wf.Ordered (wf.following idx) (data.set step.id text) := by
  have stored : wf.Ordered pointer (data.set step.id text) := ordered.store found
  have through : wf.Covered (data.set step.id text) (idx + 1) := by
    intro position bound other there
    by_cases isStep : position = idx
    · subst isStep
      rw [(findStep_spec found).1, Option.some.injEq] at there
      rw [← there, Dict.contains_iff_get?, Dict.get?_set]
      simp
    · exact stored.before idx step found position (by omega) other there
  refine ⟨?_, ?_, stored.closed⟩
  · intro position other there
    simp only [following] at there
    split at there
    · rename_i next isNext
      have least := findStep_least there isNext
      exact through.mono least fun _ kept => kept
    · obtain ⟨isEnd, same⟩ := findStep_spec there
      rw [Val.str.injEq] at same
      exact absurd same.symm (plain other (List.mem_of_getElem? isEnd))
  · intro atEnd
    simp only [following] at atEnd
    split at atEnd
    · rename_i next isNext
      exact absurd atEnd (plain next (List.mem_of_getElem? isNext))
    · rename_i none
      exact through.mono (by simpa using none) fun _ kept => kept

/-- A revision that neither moves past a gap nor erases an entry before the target. -/
theorem Ordered.revise {stepId : String} {target : Step} (ordered : wf.Ordered pointer data)
    (plain : ∀ step ∈ wf.steps, step.id ≠ complete)
    (found : findStep wf (.str stepId) = some (idx, target))
    (reached : data.contains stepId = true ∨ wf.Covered data idx)
    (apart : ∀ early late first second, early < idx → idx < late → wf.steps[early]? = some first →
      wf.steps[late]? = some second → first.id ≠ second.id) :
    wf.Ordered target.id (revisedData wf idx target data) := by
  obtain ⟨own, sameId⟩ := findStep_self found
  have covered : wf.Covered data idx := by
    rcases reached with stored | covered
    · exact ordered.closed idx target own (sameId ▸ stored)
    · exact covered
  have later : ∀ {position other}, idx < position → wf.steps[position]? = some other →
      other.id ∈ (wf.steps.drop (idx + 1)).map Step.id := by
    intro position other beyond there
    refine List.mem_map.mpr ⟨other, List.mem_iff_getElem?.mpr ⟨position - (idx + 1), ?_⟩, rfl⟩
    rw [List.getElem?_drop, show idx + 1 + (position - (idx + 1)) = position by omega]
    exact there
  have kept : wf.Covered (revisedData wf idx target data) idx := by
    intro position bound other there
    rw [Dict.contains_iff_get?, get?_revisedData, if_neg, ← Dict.contains_iff_get?]
    · exact covered position bound other there
    · rintro (erased | ⟨-, isTarget⟩)
      · obtain ⟨second, member, same⟩ := List.mem_map.mp erased
        obtain ⟨offset, there'⟩ := List.mem_iff_getElem?.mp member
        rw [List.getElem?_drop] at there'
        exact apart position _ other second bound (by omega) there there' same.symm
      · have least := findStep_least (isTarget ▸ own) there
        omega
  refine ⟨?_, fun atEnd => absurd atEnd (plain target (findStep_mem found)), ?_⟩
  · intro position other there
    rw [own, Option.some.injEq, Prod.mk.injEq] at there
    exact there.1 ▸ kept
  · intro position other there stored
    refine kept.mono ?_ fun _ kept => kept
    by_contra beyond
    rw [Dict.contains_iff_get?, get?_revisedData, if_pos] at stored
    · simp at stored
    · exact .inl (later (by omega) (findStep_spec there).1)

end Workflow

theorem Workflow.Linear.listwise (linear : wf.Linear) :
    wf.Listwise := ⟨linear.unbranched, linear.unforced⟩

namespace Workflow.Listwise

theorem afterMcp_eq (listwise : wf.Listwise) {start : Val}
    (at_ : findStep wf start = some (idx, step)) :
    afterMcpStep wf idx step = .str (wf.following idx) := by
  rw [afterMcpStep, listwise.unbranched step (findStep_mem at_), if_neg (by simp)]

theorem unforced_of_fired (listwise : wf.Listwise) {content stepId : String} {session : Session}
    {fired action : Val} (fires : firedGuardrail env wf content session stepId = .ok (some fired))
    (acts : fired.item "action" = .ok action) : action.isStr "force_branch" = false := by
  obtain ⟨guardrails, items, declared, iterates, member⟩ := firedGuardrail_mem fires
  exact listwise.unforced guardrails items declared iterates fired member action acts

theorem next_eq (listwise : wf.Listwise) {content stepId branch : String} {session : Session}
    {fired : Option Val} {next : Val} {forced : Bool} (member : step ∈ wf.steps)
    (fires : firedGuardrail env wf content session stepId = .ok fired)
    (goes : nextStepOf wf idx step fired branch = .ok (.goTo next forced)) :
    next = .str (wf.following idx) := by
  have listed : ∀ {result : Except Exn NextStep}, result = .ok (.goTo next forced) →
      result = .ok (.goTo (.str (wf.following idx)) false) → next = .str (wf.following idx) := by
    intro result first second
    rw [first] at second
    simp only [Except.ok.injEq, NextStep.goTo.injEq] at second
    exact second.1
  refine listed goes ?_
  unfold nextStepOf
  cases fired with
  | none => simp [listwise.unbranched step member, pure, Except.pure, StatefulProgram.ok_bind]
  | some guardrail =>
      cases acts : guardrail.item "action" with
      | error raised =>
          simp [nextStepOf, acts, Functor.map, Except.map, StatefulProgram.error_bind] at goes
      | ok action =>
          simp only [acts, Functor.map, Except.map, listwise.unforced_of_fired fires acts,
            listwise.unbranched step member]
          rfl

end Workflow.Listwise

namespace Workflow.Linear

theorem skip_eq (linear : wf.Linear) {next start : Val} {skipped : List String} {forced : Bool}
    (skip : applySkipLoop env start wf data forced = .ok (next, skipped)) : next = start := by
  refine applySkipLoop_rule (fun last => last = start) ?_ skip rfl
  intro pointer idx step _ _ at_ guarded
  simp [linear.unconditional step (findStep_mem at_)] at guarded

theorem autoRuns (linear : wf.Linear) {registry : Option Registry} {fuel calls : Nat}
    {advance : Advance} (plain : ∀ step ∈ wf.steps, step.id ≠ complete)
    (ran : autoRun env registry wf fuel calls (.str pointer) data = .ok advance)
    (ordered : wf.Ordered pointer data) :
    advance.Rests fun last stored => ∃ text, last = .str text ∧ wf.Ordered text stored := by
  refine autoRun_rule _ ?_ ?_ ran ⟨pointer, rfl, ordered⟩
  · rintro _ idx step before skippedSet calls envelope after ⟨text, rfl,
      held⟩ unfinished at_ mcp result
    exact ⟨wf.following idx, linear.listwise.afterMcp_eq at_, held.advance plain at_⟩
  · intro start before next skipped held skip
    exact linear.skip_eq skip ▸ held

theorem advances (linear : wf.Linear) {registry : Option Registry} {calls : Nat} {forced : Bool}
    {advance : Advance} (plain : ∀ step ∈ wf.steps, step.id ≠ complete)
    (ran : skipAndRun env registry wf calls (.str pointer) data forced = .ok advance)
    (ordered : wf.Ordered pointer data) :
    advance.Rests fun last stored => ∃ text, last = .str text ∧ wf.Ordered text stored := by
  unfold skipAndRun at ran
  split at ran
  · rw [Except.ok.injEq] at ran
    intro last stored rests
    rw [← ran] at rests
    simp [Advance.resting] at rests
  · simp at ran
  · rename_i skip
    rw [linear.skip_eq skip] at ran
    exact linear.autoRuns plain ran ordered

theorem applied (linear : wf.Linear) {registry : Option Registry} {calls : Nat} {forced : Bool}
    {row new : Session} (plain : ∀ step ∈ wf.steps, step.id ≠ complete)
    (applies : Applies env (skipAndRun env registry wf calls (.str pointer) data forced) row new)
    (kept : wf.Ordered row.currentStep row.stepData) (ordered : wf.Ordered pointer data) :
    wf.Ordered new.currentStep new.stepData := by
  rcases applies.cases with ⟨-, counts⟩ | ⟨advance, last, text, stored, computed, resting, column,
    moved⟩
  · rw [counts.currentStep_eq, counts.stepData_eq]
    exact kept
  · obtain ⟨pointer, rfl, held⟩ := linear.advances plain computed ordered last stored resting
    rw [columnText, Except.ok.injEq] at column
    rw [moved.currentStep_eq, moved.stepData_eq, ← column]
    exact held

end Workflow.Linear

theorem Workflow.Ordered.start (plain : ∀ step ∈ wf.steps, step.id ≠ complete) :
    wf.Ordered wf.first.id Table.empty where
  before position other found := by
    simp only [findStep, Workflow.steps, findStepFrom, Val.isStr_str, beq_self_eq_true, if_true,
      Option.some.injEq, Prod.mk.injEq] at found
    intro early bound
    omega
  finished atEnd := absurd atEnd (plain wf.first (by simp [Workflow.steps]))
  closed position other found stored := by simp [Dict.contains_iff_get?] at stored

theorem RowChange.ordered {name : String} {after : Ledger} {call : Call} {row new : Session}
    (linear : wf.Linear) (plain : ∀ step ∈ wf.steps, step.id ≠ complete)
    (loaded : deployment.workflows.get? name = some wf)
    (current : world.ledger.Current env deployment)
    (gapless : ¬SkipsAhead env deployment name world call)
    (change : RowChange env deployment world after call row new) (named : row.workflowType = name)
    (ordered : wf.Ordered row.currentStep row.stepData) :
    wf.Ordered new.currentStep new.stepData := by
  have isWf : ∀ {sid : SessionId} {other : Workflow},
    Resolves deployment world.ledger sid row other → other = wf := by
    intro sid other resolves
    have again := resolves.loaded
    rw [named, loaded, Option.some.injEq] at again
    exact again.symm
  cases change with
  | counted counts =>
      rw [counts.currentStep_eq, counts.stepData_eq]
      exact ordered
  | marked stale marks => exact absurd stale current.not_stale
  | @submitted sessionId stepId content branch artifactId _ _ own idx step submits changes =>
      obtain rfl := isWf submits.resolves
      have at_ : findStep own (.str row.currentStep) = some (idx, step) := by
        rw [← submits.accepts.inOrder]
        exact submits.accepts.found
      generalize reached : verdictOf env deployment.registry world.outbound.length row own idx step content branch
        artifactId = verdict at changes
      cases verdict with
      | kept =>
          rw [changes.currentStep_eq, changes.stepData_eq]
          exact ordered
      | retriesExhausted =>
          rw [changes.currentStep_eq, changes.stepData_eq]
          exact ordered
      | escalated =>
          rw [changes.currentStep_eq, changes.stepData_eq]
          exact ordered.store at_
      | advanced advance =>
          obtain ⟨fired, next, forced, fires, goes, ran⟩ := verdictOf_advanced reached
          rw [linear.listwise.next_eq (findStep_mem at_) fires goes] at ran
          have applies : Applies env (.ok advance) row new := changes
          rw [← ran] at applies
          exact linear.applied plain applies ordered (ordered.advance plain at_)
  | @revised sessionId stepId _ _ own idx target revises moved dropped =>
      obtain rfl := isWf revises.resolves
      rw [moved.currentStep_eq, moved.stepData_eq]
      refine ordered.revise plain revises.found ?_ ?_
      · by_contra missing
        rw [not_or, Bool.not_eq_true] at missing
        exact gapless ⟨sessionId, stepId, row, own, idx, target, rfl, revises, named, .inl missing⟩
      · intro early late first second before beyond isFirst isSecond same
        exact gapless ⟨sessionId, stepId, row, own, idx, target, rfl, revises, named,
          .inr ⟨early, late, first, second, before, beyond, isFirst, isSecond, same⟩⟩
  | escalated submits framed owner cause escalates =>
      rw [escalates.currentStep_eq, escalates.stepData_eq]
      exact ordered
  | delivered submits reached atEnd framed called owner resolves at_ isCall valid applies gone =>
      obtain rfl := isWf resolves
      rw [parentAdvance, afterCallStep, linear.unbranched _ (findStep_mem at_),
        if_neg (by simp)] at applies
      refine linear.applied plain applies ordered ?_
      rw [← (findStep_self at_).2]
      exact Workflow.Ordered.advance ((findStep_self at_).2.symm ▸ ordered) plain (findStep_self at_).1

theorem RowBirth.ordered {name : String} {call : Call} {new : Session} (linear : wf.Linear)
    (plain : ∀ step ∈ wf.steps, step.id ≠ complete)
    (loaded : deployment.workflows.get? name = some wf)
    (birth : RowBirth env deployment world call new) (named : new.workflowType = name) :
    wf.Ordered new.currentStep new.stepData := by
  cases birth with
  | started isLoaded opened =>
      have sameType := opened.same.workflowType_eq
      simp only [newSession, named] at sameType
      subst sameType
      rw [loaded, Option.some.injEq] at isLoaded
      subst isLoaded
      have start := Workflow.Ordered.start plain
      rcases opened with applies | ⟨-, counts⟩
      · rcases applies.cases with ⟨-, counts⟩ | ⟨advance, last, text, stored, computed, resting,
          column, moved⟩
        · rw [counts.currentStep_eq, counts.stepData_eq]
          exact start
        · obtain ⟨pointer, rfl, held⟩ := linear.autoRuns plain computed start last stored resting
          rw [columnText, Except.ok.injEq] at column
          rw [moved.currentStep_eq, moved.stepData_eq, ← column]
          exact held
      · rw [counts.currentStep_eq, counts.stepData_eq]
        exact start
  | spawned above isLoaded counts =>
      have sameType := counts.workflowType_eq
      simp only [newSession, named] at sameType
      subst sameType
      rw [loaded, Option.some.injEq] at isLoaded
      subst isLoaded
      rw [counts.currentStep_eq, counts.stepData_eq]
      exact Workflow.Ordered.start plain

/-- No session of the workflow is past a step that has no entry. -/
def World.Unskipped (world : World) (name : String) (wf : Workflow) : Prop :=
  ∀ sid row, world.sessions.lookup sid = some row → row.workflowType = name →
    (∀ idx step, findStep wf (.str row.currentStep) = some (idx, step) →
      ∀ early < idx, ∀ earlier, wf.steps[early]? = some earlier →
        row.stepData.contains earlier.id = true) ∧
    (row.currentStep = complete → ∀ step ∈ wf.steps, row.stepData.contains step.id = true)

/-- In a run whose revisions skip nothing, no session of a linear workflow skips a step. -/
theorem Reachable.unskipped {name : String} (loaded : deployment.workflows.get? name = some wf)
    (linear : wf.Linear) (plain : ∀ step ∈ wf.steps, step.id ≠ complete)
    (reachable : Reachable env (fun world request => request.deployment = deployment ∧
      ¬SkipsAhead env deployment name world request.call) world) : world.Unskipped name wf := by
  have ordered : world.ledger.Current env deployment ∧ ∀ sid row, world.ledger.row sid = some row →
      row.workflowType = name → wf.Ordered row.currentStep row.stepData := by
    refine reachable.invariant (fun state => state.ledger.Current env deployment ∧ ∀ sid row,
      state.ledger.row sid = some row → row.workflowType = name →
        wf.Ordered row.currentStep row.stepData) ?_ ?_
    · exact ⟨fun sid row found => (nomatch found), fun sid row found => (nomatch found)⟩
    · rintro before ⟨_, call⟩ after sound ⟨current, ordered⟩ ⟨rfl, gapless⟩ serves
      refine ⟨serves.current sound current, ?_⟩
      intro sid new found named
      rcases serves.rowEffect sound found with ⟨row, there, change⟩ | ⟨-, birth⟩
      · have sameType : row.workflowType = name := change.same.workflowType_eq ▸ named
        exact change.ordered linear plain loaded current gapless sameType (ordered sid row there sameType)
      · exact birth.ordered linear plain loaded named
  intro sid row found named
  have held := ordered.2 sid row found named
  refine ⟨held.before, fun atEnd step member => ?_⟩
  obtain ⟨position, there⟩ := List.mem_iff_getElem?.mp member
  obtain ⟨bound, -⟩ := List.getElem?_eq_some_iff.mp there
  exact held.finished atEnd position bound step there

def linearDocs : List Val := [
  workflowDoc "outer" [stepDoc "a" [], mcpDoc "tool" [], stepDoc "c" [("call", .str "inner")]],
  workflowDoc "inner" [stepDoc "x" []],
  workflowDoc "side" [stepDoc "y" []]]

theorem Workflow.Linear.of_bare (unbranched : wf.steps.all (fun step => !step.flag "branches") =
    true)
    (unconditional : wf.steps.all (fun step => step.precondition.isNone) = true)
    (bare : wf.get? "guardrails" = none) :
    wf.Linear where
  unbranched step member := by simpa using List.all_eq_true.mp unbranched step member
  unconditional step member := by simpa using List.all_eq_true.mp unconditional step member
  unforced guardrails items declared := by simp [bare] at declared

theorem not_skipsAhead {name : String} {call : Call}
    (other : ∀ sessionId stepId, call ≠ .reviseStep sessionId stepId) :
    ¬SkipsAhead env deployment name world call := by
  rintro ⟨sessionId, stepId, session, wf, idx, target, isRevise, -⟩
  exact other sessionId stepId isRevise

theorem unskipped_through_tool :
    ∃ wf, (appOf sampleEnv linearDocs).workflows.get? "outer" = some wf ∧
      (serveAll sampleEnv (appOf sampleEnv linearDocs) World.empty
        [.startWorkflow "outer" "", .submitStep "s" "a" "done" "" "",
          .enterSubWorkflow "s" "c"]).Unskipped
          "outer" wf := by
  refine ⟨_, rfl, Reachable.unskipped rfl (.of_bare (by rfl) (by rfl) (by rfl)) (by decide)
    (serveAll_run (by rfl) ⟨⟨rfl, ?_⟩, ⟨rfl, ?_⟩, ⟨rfl, ?_⟩, trivial⟩)⟩
  · exact not_skipsAhead (by simp)
  · exact not_skipsAhead (by simp)
  · exact not_skipsAhead (by simp)

/-- A digression over the first step lets a revision reach the call-step. -/
def skipped : World :=
  serveAll sampleEnv (appOf sampleEnv linearDocs) World.empty
    [.startWorkflow "outer" "", .pushFlow "s" "side" "a" "", .reviseStep "s" "c"]

theorem not_always_unskipped :
    ¬∀ env deployment world name wf, deployment.Accepted env → ServedBy env deployment world →
      deployment.workflows.get? name = some wf → wf.Linear → world.Unskipped name wf := by
  intro always
  have unskipped : skipped.Unskipped "outer" _ :=
    always sampleEnv (appOf sampleEnv linearDocs) skipped "outer" _ (appOf_accepted (by decide))
      (serveAll_served (by rfl)) rfl (.of_bare (by rfl) (by rfl) (by rfl))
  have first := (unskipped (sampleToken 0) _ rfl rfl).1 2 _ rfl 0 (by decide) _ rfl
  exact absurd first (by decide)

end Megalos
