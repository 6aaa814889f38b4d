import Megalos.Library.Lockstep
import Megalos.SubmitPaths

/-!
The keys that the artifacts of a step use.  Once the content of a submission has passed its
check no helper reads them: workflows that differ in these keys alone are advanced alike.
-/

namespace Megalos

open KeyedTable StatefulProgram StatefulProgram.Program

def artifactKeys : List String := ["intermediate_artifacts", "output_from", "output_schema"]

def Step.stripped (step : Step) : Step :=
  { step with fields := step.fields.filter fun entry => entry.1 ∉ artifactKeys }

/-- The workflow whose step at a position has lost the keys. -/
def Workflow.strippedAt (wf : Workflow) : Nat → Workflow
  | 0 => { wf with first := wf.first.stripped }
  | idx + 1 => { wf with rest := wf.rest.modify idx Step.stripped }

/-- The steps differ in what artifacts use, and in nothing if they are call-steps. -/
structure Step.Like (step other : Step) : Prop where
  id : step.id = other.id
  reads : ∀ {key}, key ∉ artifactKeys → step.get? key = other.get? key
  called : step.isCall = true → step.get? "output_schema" = other.get? "output_schema"

structure Workflow.Like (wf other : Workflow) : Prop where
  steps : List.Forall₂ Step.Like wf.steps other.steps
  fields : wf.fields = other.fields

structure Deployment.Like (deployment other : Deployment) : Prop where
  workflows : ∀ name, Option.Rel Workflow.Like (deployment.workflows.get? name)
    (other.workflows.get? name)
  workflowFingerprints : deployment.workflowFingerprints = other.workflowFingerprints
  registry : deployment.registry = other.registry
  caller : deployment.caller = other.caller

variable {env : Env} {deployment deployment' : Deployment} {wf wf' : Workflow} {step step' : Step}
  {idx : Nat} {stepData : StepData} {sid : SessionId}

namespace Step.Like

theorem refl (step : Step) : step.Like step := ⟨rfl, fun _ => rfl, fun _ => rfl⟩

theorem item (like : step.Like step') {key : String} (other : key ∉ artifactKeys) :
    step.item key = step'.item key := by
  have same := like.reads other
  simp only [Step.get?] at same
  simp only [Step.item, fieldItem, same]

theorem flag (like : step.Like step') {key : String} (other : key ∉ artifactKeys) :
    step.flag key = step'.flag key := by
  rw [Step.flag, Step.flag, like.reads other]

theorem isCall (like : step.Like step') : step.isCall = step'.isCall := by
  rw [Step.isCall, Step.isCall, like.reads (by decide)]

theorem isMcpToolCall (like : step.Like step') : step.isMcpToolCall = step'.isMcpToolCall := by
  rw [Step.isMcpToolCall, Step.isMcpToolCall, like.reads (by decide)]

theorem precondition (like : step.Like step') : step.precondition = step'.precondition := by
  rw [Step.precondition, Step.precondition, like.reads (by decide)]

theorem flaggedFields (like : step.Like step') {keys : List String}
    (others : ∀ key ∈ keys, key ∉ artifactKeys) :
    flaggedFields step keys = Megalos.flaggedFields step' keys := by
  induction keys with
  | nil => rfl
  | cons key rest ih =>
      rw [List.forall_mem_cons] at others
      have tail := ih others.2
      simp only [Megalos.flaggedFields] at tail ⊢
      simp only [List.filter_cons, like.flag others.1]
      split
      · simp only [List.map_cons, like.reads others.1, tail]
      · exact tail

theorem stepRef (like : step.Like step') (withTarget : Bool) :
    stepRef step withTarget = Megalos.stepRef step' withTarget := by
  simp only [Megalos.stepRef, like.id, like.item (show "title" ∉ artifactKeys by decide),
    like.flag (show "call" ∉ artifactKeys by decide), like.reads (show "call" ∉ artifactKeys by decide)]

theorem ids {steps steps' : List Step} (like : List.Forall₂ Step.Like steps steps') :
    steps.map Step.id = steps'.map Step.id := by
  induction like with
  | nil => rfl
  | cons first _ ih => rw [List.map_cons, List.map_cons, first.id, ih]

end Step.Like

theorem Step.stripped_get? (step : Step) {key : String} (other : key ∉ artifactKeys) :
    step.stripped.get? key = step.get? key := by
  simp only [Step.get?, Step.stripped, field?, List.find?_filter]
  congr 2
  funext entry
  by_cases isKey : entry.1 = key
  · simp [isKey, other]
  · simp [isKey]

theorem Step.stripped_none (step : Step) {key : String} (isKey : key ∈ artifactKeys) :
    step.stripped.get? key = none := by
  simp only [Step.get?, Step.stripped, field?, Option.map_eq_none_iff, List.find?_eq_none,
    List.mem_filter, beq_iff_eq]
  rintro entry ⟨-, kept⟩ rfl
  simp [isKey] at kept

theorem Step.like_stripped (uncalled : step.isCall = false) : step.Like step.stripped where
  id := rfl
  reads other := (step.stripped_get? other).symm
  called called := by simp [uncalled] at called

namespace Workflow.Like

theorem refl (wf : Workflow) : wf.Like wf := ⟨List.forall₂_same.mpr fun step _ => .refl step, rfl⟩

theorem get? (like : wf.Like wf') (key : String) : wf.get? key = wf'.get? key := by
  rw [Workflow.get?, Workflow.get?, like.fields]

theorem item (like : wf.Like wf') (key : String) : wf.item key = wf'.item key := by
  rw [Workflow.item, Workflow.item, like.fields]

theorem ids (like : wf.Like wf') :
    wf.steps.map Step.id = wf'.steps.map Step.id := Step.Like.ids like.steps

theorem length (like : wf.Like wf') : wf.steps.length = wf'.steps.length := like.steps.length_eq

theorem following (like : wf.Like wf') (idx : Nat) : wf.following idx = wf'.following idx := by
  have byIds : ∀ wf : Workflow,
    wf.following idx = (wf.steps.map Step.id)[idx + 1]?.getD complete := by
    intro wf
    rw [Workflow.following, List.getElem?_map]
    cases wf.steps[idx + 1]? <;> rfl
  rw [byIds, byIds, like.ids]

theorem last (like : wf.Like wf') : wf.last.id = wf'.last.id := by
  have whole : wf.steps.map Step.id ≠ [] := by simp [Workflow.steps]
  have same : (wf.steps.map Step.id).getLast whole =
    (wf'.steps.map Step.id).getLast (like.ids ▸ whole) := by
    simp only [like.ids]
  rwa [List.getLast_map, List.getLast_map] at same

theorem findStepFrom {steps steps' : List Step} (like : List.Forall₂ Step.Like steps steps')
    (stepId : Val) (start : Nat) :
    Option.Rel (fun left right => left.1 = right.1 ∧ left.2.Like right.2)
    (findStepFrom stepId start steps)
    (Megalos.findStepFrom stepId start steps') := by
  induction like generalizing start with
  | nil => exact .none
  | cons first _ ih =>
      simp only [Megalos.findStepFrom, first.id]
      split
      · exact .some ⟨rfl, first⟩
      · exact ih (start + 1)

/-- Both workflows have the step, at the same place, or neither has. -/
theorem findStep (like : wf.Like wf') (stepId : Val) :
    findStep wf stepId = none ∧ Megalos.findStep wf' stepId = none ∨
      ∃ idx step step', Megalos.findStep wf stepId = some (idx, step) ∧
        Megalos.findStep wf' stepId = some (idx, step') ∧
        step.Like step' := by
  have found := findStepFrom like.steps stepId 0
  unfold Megalos.findStep
  revert found
  rcases Megalos.findStepFrom stepId 0 wf.steps with _ | ⟨idx, step⟩ <;>
    rcases Megalos.findStepFrom stepId 0 wf'.steps with _ | ⟨idx',
      step'⟩ <;> intro found <;> cases found
  · exact .inl ⟨rfl, rfl⟩
  · rename_i same
    obtain ⟨rfl, like⟩ := same
    exact .inr ⟨_, _, _, rfl, rfl, like⟩

theorem skippedFrom {steps steps' : List Step} (like : List.Forall₂ Step.Like steps steps')
    (skipped : List String) :
    skippedFrom env stepData steps skipped = Megalos.skippedFrom env stepData steps' skipped := by
  induction like generalizing skipped with
  | nil => rfl
  | cons first _ ih => simp only [Megalos.skippedFrom, first.id, first.precondition, ih]

theorem computeSkippedSteps (like : wf.Like wf') :
    computeSkippedSteps env wf stepData = Megalos.computeSkippedSteps env wf' stepData :=
      skippedFrom like.steps []

theorem skipLoop (like : wf.Like wf') (fuel : Nat) (pointer : Val)
    (skippedSet skipped : List String) :
    skipLoop env wf stepData fuel pointer skippedSet skipped =
      Megalos.skipLoop env wf' stepData fuel pointer skippedSet skipped := by
  induction fuel generalizing pointer skippedSet skipped with
  | zero => rfl
  | succ fuel ih =>
      unfold Megalos.skipLoop
      rcases like.findStep pointer with ⟨missing, missing'⟩ | ⟨idx, step, step', found, found',
        same⟩
      · rw [missing, missing']
      · simp only [found, found', same.precondition, same.id, like.following, ih]

theorem applySkipLoop (like : wf.Like wf') (pointer : Val) (forceBranched : Bool) :
    applySkipLoop env pointer wf stepData forceBranched =
      Megalos.applySkipLoop env pointer wf' stepData forceBranched := by
  simp only [Megalos.applySkipLoop, like.computeSkippedSteps, like.skipLoop]

theorem afterMcpStep (like : wf.Like wf') (same : step.Like step') :
    afterMcpStep wf idx step = Megalos.afterMcpStep wf' idx step' := by
  simp only [Megalos.afterMcpStep, same.flag (show "branches" ∉ artifactKeys by decide),
    same.reads (show "default_branch" ∉ artifactKeys by decide), like.following]

theorem afterCallStep (like : wf.Like wf') (same : step.Like step') :
    afterCallStep wf idx step = Megalos.afterCallStep wf' idx step' := by
  simp only [Megalos.afterCallStep, same.flag (show "branches" ∉ artifactKeys by decide),
    same.item (show "default_branch" ∉ artifactKeys by decide), like.following]

/-! What the responses show. -/

theorem repairFor (like : wf.Like wf') : repairFor wf = Megalos.repairFor wf' := by
  rw [Megalos.repairFor, Megalos.repairFor, like.get?]

theorem guidanceFields (like : wf.Like wf') (same : step.Like step') :
    guidanceFields env wf step stepData = Megalos.guidanceFields env wf' step' stepData := by
  have prompt : promptFields wf step = promptFields wf' step' := by
    simp only [promptFields, same.item (show "directive_template" ∉ artifactKeys by decide),
      like.repairFor, same.item (show "gates" ∉ artifactKeys by decide)]
  have injected : injectedFields env step stepData = injectedFields env step' stepData := by
    simp only [injectedFields, same.flag (show "inject_context" ∉ artifactKeys by decide),
      same.reads (show "inject_context" ∉ artifactKeys by decide)]
  have branches : branchFields step = branchFields step' := by
    simp only [branchFields, same.flag (show "branches" ∉ artifactKeys by decide),
      same.flaggedFields
      (show ∀ key ∈ ["branches", "default_branch"], key ∉ artifactKeys by decide)]
  simp only [Megalos.guidanceFields, prompt, injected, branches, same.flaggedFields
    (show ∀ key ∈ ["directives"], key ∉ artifactKeys by decide)]

theorem advanceFields (like : wf.Like wf') (pointer : Val) :
    advanceFields env wf pointer stepData = Megalos.advanceFields env wf' pointer stepData := by
  unfold Megalos.advanceFields
  rcases like.findStep pointer with ⟨missing, missing'⟩ | ⟨idx, step, step', found, found', same⟩
  · rw [missing, missing']
  · simp only [found, found', same.stepRef, like.guidanceFields same]

theorem submittedResponse (like : wf.Like wf') (same : step.Like step') (sessionId : String)
    (artifactId : Option String) (warning : Option Val) (pointer : Val) :
    submittedResponse env wf idx step sessionId artifactId warning pointer stepData =
      Megalos.submittedResponse env wf' idx step' sessionId artifactId warning pointer stepData := by
  simp only [Megalos.submittedResponse, same.stepRef, like.advanceFields, like.length]

theorem nextStepOf (like : wf.Like wf') (same : step.Like step') (fired : Option Val)
    (branch : String) :
    nextStepOf wf idx step fired branch = Megalos.nextStepOf wf' idx step' fired branch := by
  simp only [Megalos.nextStepOf, same.flag (show "branches" ∉ artifactKeys by decide),
    same.reads (show "branches" ∉ artifactKeys by decide), same.reads (show "default_branch" ∉ artifactKeys by decide),
    like.following]

theorem firedGuardrail (like : wf.Like wf') (content : String) (session : Session)
    (stepId : String) :
    firedGuardrail env wf content session stepId =
      Megalos.firedGuardrail env wf' content session stepId := by
  simp only [Megalos.firedGuardrail, like.get?]

/-! The helpers that run on the store. -/

theorem executeMcpToolCallStep (same : step.Like step') (registry : Option Registry)
    (skippedSet : List String) :
    executeMcpToolCallStep env registry step stepData skippedSet =
      Megalos.executeMcpToolCallStep env registry step' stepData skippedSet := by
  have timeout : ∀ registry, effectiveTimeout step registry = effectiveTimeout step' registry :=
    fun registry => by
    simp only [effectiveTimeout, same.reads (show "timeout" ∉ artifactKeys by decide),
      same.item (show "server" ∉ artifactKeys by decide)]
  simp only [Megalos.executeMcpToolCallStep, same.id,
    same.item (show "args" ∉ artifactKeys by decide), timeout, same.item (show "server" ∉ artifactKeys by decide), same.item (show "tool" ∉ artifactKeys by decide)]

theorem autoExecuteMcpSteps (like : wf.Like wf') (registry : Option Registry) (fuel : Nat)
    (pointer : Val) (stepData : StepData) :
    autoExecuteMcpSteps env registry wf sid fuel pointer stepData =
      Megalos.autoExecuteMcpSteps env registry wf' sid fuel pointer stepData := by
  induction fuel generalizing pointer stepData with
  | zero => rfl
  | succ fuel ih =>
      unfold Megalos.autoExecuteMcpSteps
      rcases like.findStep pointer with ⟨missing, missing'⟩ | ⟨idx, step, step', found, found',
        same⟩
      · rw [missing, missing']
      · simp only [found, found', same.isMcpToolCall, like.computeSkippedSteps,
          executeMcpToolCallStep same, same.id, like.afterMcpStep same, like.applySkipLoop, ih]

theorem wrapChildFailure (like : wf.Like wf') (reason : String) (childError : Val) :
    wrapChildFailureIntoParentEscalation env sid wf reason childError =
      wrapChildFailureIntoParentEscalation env sid wf' reason childError := by
  simp only [wrapChildFailureIntoParentEscalation, like.item]

theorem advanceParent (like : wf.Like wf') (same : step.Like step') (registry : Option Registry)
    (stepData : StepData) :
    advanceParent env registry sid wf step idx stepData =
      Megalos.advanceParent env registry sid wf' step' idx stepData := by
  simp only [Megalos.advanceParent, like.afterCallStep same, like.applySkipLoop,
    like.autoExecuteMcpSteps, same.id, same.stepRef, like.advanceFields, like.length]

theorem validateOutput (same : step.Like step') (called : step.isCall = true) (artifact : String) :
    validateOutput env artifact step = Megalos.validateOutput env artifact step' := by
  unfold Megalos.validateOutput
  rw [Step.flag, Step.flag, same.called called]

end Workflow.Like

namespace Deployment.Like

theorem resolveSession (like : deployment.Like deployment') (presented : String) :
    Lockstep Eq Eq (Alike fun first second => first.1 = second.1 ∧ first.2.Like second.2)
    (resolveSession env deployment presented sid)
        (Megalos.resolveSession env deployment' presented sid) := by
  refine lockstep_bind_eq (lockstep_read fun _ _ same => same ▸ rfl) fun found => ?_
  cases found with
  | none => exact lockstep_pure (Alike.error _)
  | some session =>
      dsimp only
      rw [like.caller, like.workflowFingerprints]
      refine lockstep_ite (fun _ => lockstep_pure (Alike.error _)) fun _ => ?_
      refine lockstep_ite (fun _ => lockstep_pure (Alike.error _)) fun _ => ?_
      have loaded := like.workflows session.workflowType
      revert loaded
      generalize deployment.workflows.get? session.workflowType = mine
      generalize deployment'.workflows.get? session.workflowType = other
      intro loaded
      cases loaded with
      | none => exact lockstep_pure (Alike.error _)
      | some same =>
          cases deployment'.workflowFingerprints.get? session.workflowType with
          | none => exact lockstep_pure (Alike.ok ⟨rfl, same⟩)
          | some currentFp =>
              refine lockstep_ite (fun _ => ?_) fun _ => lockstep_pure (Alike.ok ⟨rfl, same⟩)
              exact lockstep_bind_eq (Lockstep.same _) fun _ => lockstep_pure (Alike.error _)

theorem resolved (like : deployment.Like deployment') {presented : String}
    {body body' : Session → Workflow → Server Val}
    (same : ∀ session wf wf', wf.Like wf' → body session wf = body' session wf') :
    (do match ← Megalos.resolveSession env deployment presented sid with
        | .error err => return err
        | .ok (session, wf) => body session wf : Server Val) =
      (do match ← Megalos.resolveSession env deployment' presented sid with
          | .error err => return err
          | .ok (session, wf) => body' session wf : Server Val) := by
  refine Lockstep.eq (lockstep_bind (like.resolveSession presented) ?_)
  intro first second alike
  cases alike with
  | error err => exact lockstep_return err
  | @ok pair pair' handed =>
      obtain ⟨session, wf⟩ := pair
      obtain ⟨_, wf'⟩ := pair'
      obtain ⟨rfl, like⟩ := handed
      dsimp only
      rw [same session wf wf' like]
      exact Lockstep.same _

theorem resumeParentAfterDigression (like : deployment.Like deployment') :
    resumeParentAfterDigression env deployment sid =
      Megalos.resumeParentAfterDigression env deployment' sid := by
  unfold Megalos.resumeParentAfterDigression
  congr 1
  funext owner
  cases owner with
  | none => rfl
  | some outer =>
      refine like.resolved ?_
      intro session wf wf' like
      rcases like.findStep (.str session.currentStep) with ⟨missing, missing'⟩ | ⟨idx, step, step',
        found, found', same⟩
      · simp only [missing, missing']
      · simp only [found, found', same.stepRef, like.guidanceFields same, like.length]

theorem propagateToParent (like : deployment.Like deployment') (same : wf.Like wf')
    (child : Session) :
    propagateToParent env deployment child wf =
      Megalos.propagateToParent env deployment' child wf' := by
  unfold Megalos.propagateToParent
  dsimp only
  congr 1
  funext owner
  cases owner with
  | none => rfl
  | some parentSid =>
      dsimp only
      rw [same.last]
      refine like.resolved ?_
      intro parent parentWf parentWf' likeParent
      rcases likeParent.findStep (.str parent.currentStep) with ⟨missing, missing'⟩ | ⟨idx, step,
        step', found, found', sameStep⟩
      · simp only [missing, missing']
      · by_cases called : step.isCall = true
        · simp only [found, found', ← sameStep.isCall, called,
            Workflow.Like.validateOutput sameStep called, like.registry,
            same.wrapChildFailure, likeParent.advanceParent sameStep]
        · simp only [found, found', ← sameStep.isCall, called, Bool.not_false, if_true]

theorem autoResumeOnTopFrameComplete (like : deployment.Like deployment') (same : wf.Like wf')
    (child : Session) :
    autoResumeOnTopFrameComplete env deployment child wf =
      Megalos.autoResumeOnTopFrameComplete env deployment' child wf' := by
  simp only [Megalos.autoResumeOnTopFrameComplete, like.resumeParentAfterDigression,
    like.propagateToParent same]

theorem advanceSession (like : deployment.Like deployment') (likeWf : wf.Like wf')
    (same : step.Like step') (sessionId : String) (session : Session) (artifactId : Option String)
    (warning : Option Val) (pointer : Val)
    (forceBranched : Bool) :
    advanceSession env deployment sessionId session wf idx step artifactId warning stepData pointer forceBranched =
      Megalos.advanceSession env deployment' sessionId session wf' idx step' artifactId warning stepData pointer forceBranched := by
  simp only [Megalos.advanceSession, likeWf.applySkipLoop, likeWf.wrapChildFailure, like.registry,
    likeWf.autoExecuteMcpSteps, likeWf.submittedResponse same, same.id]

theorem commitSubmission (like : deployment.Like deployment') (likeWf : wf.Like wf')
    (same : step.Like step') (sessionId : String) (session : Session) (content branch : String)
    (artifactId : Option String) :
    commitSubmission env deployment sessionId session wf idx step content branch artifactId =
      Megalos.commitSubmission env deployment' sessionId session wf' idx step' content branch artifactId := by
  simp only [Megalos.commitSubmission, same.id, likeWf.firedGuardrail, likeWf.wrapChildFailure,
    likeWf.nextStepOf same, like.advanceSession likeWf same]

end Deployment.Like

/-! Taking the keys out of one step. -/

theorem Workflow.strippedAt_steps (wf : Workflow) (idx : Nat) :
    (wf.strippedAt idx).steps = wf.steps.modify idx Step.stripped := by
  cases idx <;> simp [Workflow.strippedAt, Workflow.steps]

theorem like_modify {steps : List Step} (there : steps[idx]? = some step)
    (uncalled : step.isCall = false) :
    List.Forall₂ Step.Like steps (steps.modify idx Step.stripped) := by
  induction steps generalizing idx with
  | nil => exact nomatch there
  | cons first rest ih =>
      cases idx with
      | zero =>
          have isFirst : first = step := Option.some.inj there
          rw [List.modify_zero_cons]
          exact .cons (isFirst ▸ Step.like_stripped uncalled)
            (List.forall₂_same.mpr fun other _ => .refl other)
      | succ idx =>
          rw [List.modify_succ_cons]
          exact .cons (.refl first) (ih there)

theorem Workflow.like_strippedAt (there : wf.steps[idx]? = some step)
    (uncalled : step.isCall = false) :
    wf.Like (wf.strippedAt idx) where
  steps := by
    rw [Workflow.strippedAt_steps]
    exact like_modify there uncalled
  fields := by cases idx <;> rfl

theorem findStep_strippedAt {stepId : Val} (found : findStep wf stepId = some (idx, step))
    (uncalled : step.isCall = false) :
    findStep (wf.strippedAt idx) stepId = some (idx, step.stripped) := by
  have there := (findStep_spec found).1
  have like := Workflow.like_strippedAt there uncalled
  rcases like.findStep stepId with ⟨missing, -⟩ | ⟨idx', step', stripped, first, second, same⟩
  · exact nomatch missing.symm.trans found
  · rw [found, Option.some.injEq, Prod.mk.injEq] at first
    obtain ⟨rfl, rfl⟩ := first
    have isStripped := (findStep_spec second).1
    rw [Workflow.strippedAt_steps, List.getElem?_modify_eq, there, Option.map_eq_map,
      Option.map_some, Option.some.injEq] at isStripped
    rw [second, ← isStripped]

/-- The deployment whose workflow has lost the keys at one of its steps. Its fingerprint stays, so
that sessions are still resolved. -/
def Deployment.strippedAt (deployment : Deployment) (name : String) (wf : Workflow) (idx : Nat) :
    Deployment :=
  { deployment with workflows := deployment.workflows.set name (wf.strippedAt idx) }

theorem Deployment.like_strippedAt {name : String}
    (loaded : deployment.workflows.get? name = some wf) (there : wf.steps[idx]? = some step)
    (uncalled : step.isCall = false) :
    deployment.Like (deployment.strippedAt name wf idx) where
  workflows other := by
    rw [Deployment.strippedAt, Dict.get?_set]
    split
    · rename_i same
      rw [same, loaded]
      exact .some (Workflow.like_strippedAt there uncalled)
    · cases deployment.workflows.get? other with
      | none => exact .none
      | some wf => exact .some (.refl wf)
  workflowFingerprints := rfl
  registry := rfl
  caller := rfl

end Megalos
