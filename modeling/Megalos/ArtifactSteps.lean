import Megalos.Ending
import Megalos.SubmitPaths

/-!
Steps that work in artifacts: what moves a session that rests at one of them.
-/

namespace Megalos

open FiniteRank GuardedRuns KeyedTable StatefulProgram StatefulProgram.Program

/-- The session can be submitted to: it is at the step, with no frame above it and no escalation. -/
structure RestsAt (env : Env) (deployment : Deployment) (world : World) (sessionId : String)
    (session : Session) (wf : Workflow) (idx : Nat) (step : Step) : Prop where
  named : sessionId ≠ ""
  resolves : Resolves deployment world.ledger (env.normalizeSessionId sessionId) session wf
  unescalated : session.escalation = none
  unfinished : session.currentStep ≠ complete
  bare : world.topFrameFor session.sessionId = none
  at_ : findStep wf (.str session.currentStep) = some (idx, step)

def NamesOutput (step : Step) : Prop :=
  ∃ artifacts source, step.get? "intermediate_artifacts" = some (.list artifacts) ∧
    step.get? "output_from" = some (.str source) ∧ ∃ artifact ∈ artifacts,
      artifact.item "id" = .ok (.str source)

/-- The artifact is the one of `output_from`, and the content meets its schema. -/
def OutputValid (env : Env) (step : Step) (content artifactId : String) : Prop :=
  step.get? "output_from" = some (.str artifactId) ∧ ∃ artifacts artifact parsed schema,
    step.get? "intermediate_artifacts" = some (.list artifacts) ∧
      findArtifact artifactId artifacts = .ok (some artifact) ∧
    env.loads content = .ok parsed ∧ artifact.item "schema" = .ok schema ∧
      env.iterErrors schema parsed = .ok []

/-- The session is where it was, with the step data it had. -/
def Unmoved (session : Session) (after : World) : Prop :=
  ∃ row, after.ledger.row session.sessionId = some row ∧ row.currentStep = session.currentStep ∧
    row.stepData = session.stepData

/-- No guardrail fires, the branch is taken, and no precondition or argument refers to a skipped
step. -/
structure Undisturbed (env : Env) (deployment : Deployment) (world : World) (session : Session) (wf : Workflow) (idx : Nat)
    (step : Step) (content branch : String) (target : Val) : Prop where
  quiet : firedGuardrail env wf content { session with stepData := session.stepData.set step.id content } step.id = .ok none
  goes : nextStepOf wf idx step none branch = .ok (.goTo target false)
  uncascaded : ∀ advance, skipAndRun env deployment.registry wf world.outbound.length target
    (session.stepData.set step.id content) false = .ok advance → ∃ pointer data calls,
      advance = .arrived pointer data calls

/-- The submission stores the content under the step and brings the session to the place that the
advance from the target comes to; a session that completed above another may be gone by then. -/
def StoresAndAdvances (env : Env) (deployment : Deployment) (world : World) (sessionId : String)
    (session : Session) (wf : Workflow) (step : Step) (content branch artifactId : String)
    (target : Val) : Prop :=
  ∃ text data calls, skipAndRun env deployment.registry wf world.outbound.length target
      (session.stepData.set step.id content) false = .ok (.arrived (.str text) data calls) ∧
    data.get? step.id = some content ∧
    ∀ after, Serves env world ⟨deployment,
      .submitStep sessionId session.currentStep content branch artifactId⟩ after →
      (∃ row, after.ledger.row session.sessionId = some row ∧ row.currentStep = text ∧
        row.stepData = data) ∨
        text = complete ∧ after.ledger.row session.sessionId = none

/-- The step is moved by its output artifact, and by nothing else. -/
structure MovesOnOutput (env : Env) (deployment : Deployment) (world : World) (sessionId : String)
    (session : Session) (wf : Workflow) (idx : Nat) (step : Step) : Prop where
  names : NamesOutput step
  only : ∀ stepId content branch artifactId after,
    Serves env world ⟨deployment, .submitStep sessionId stepId content branch artifactId⟩ after →
    ¬Unmoved session after → OutputValid env step content artifactId
  every : ∀ content branch artifactId target, content.utf8ByteSize ≤ contentMax → OutputValid env step content artifactId →
    Undisturbed env deployment world session wf idx step content branch target →
    StoresAndAdvances env deployment world sessionId session wf step content branch artifactId target
  completable : (∃ content artifactId, content.utf8ByteSize ≤ contentMax ∧ OutputValid env step content artifactId) →
    ∃ content artifactId, ∀ branch target, Undisturbed env deployment world session wf idx step content branch target →
      StoresAndAdvances env deployment world sessionId session wf step content branch artifactId target

/-- The step has a way out: an output artifact with a name that can be passed, behind a step id that
can be passed, and a way on through the workflow that the server can compute on the step data at
hand. -/
structure HasExit (env : Env) (wf : Workflow) (step : Step) (data : StepData) : Prop where
  output : ∃ source, step.get? "output_from" = some (.str source) ∧ source ≠ ""
  stepNamed : step.id ≠ ""
  tools : wf.ToolsEvaluable env
  legible : wf.Legible env data
  fit : wf.TimeoutsFit
  defaults : ∀ tool ∈ wf.steps, tool.isMcpToolCall = true →
    ∀ value, tool.get? "default_branch" = some value →
    ∃ name, value = .str name
  acyclic : Acyclic wf.Moves
  patient : wf.places.length + 2 < env.fuel

variable {env : Env} {registry : Option Registry} {deployment : Deployment} {world : World}
  {session : Session} {wf : Workflow} {idx : Nat} {step : Step}
  {sessionId stepId content branch artifactId : String}

/-! What the validator promises of the artifacts. -/

theorem validateArtifact_nil {entries : Mapping} {label : String} {index : Nat} {artifact : Val}
    (passed : validateArtifact env entries label index artifact = .ok []) :
    ∃ id schema, artifact.item "id" = .ok (.str id) ∧ artifact.item "schema" = .ok schema := by
  cases artifact with
  | dict artifact =>
      simp only [validateArtifact, gather_ok_nil, List.forall_mem_cons, naming_ok_nil,
        List.flatMap_eq_nil_iff, errorIf_nil, Bool.not_eq_eq_eq_not, Bool.not_false, whenHas_nil] at passed
      obtain ⟨⟨hasId, -, hasSchema, -⟩, isText, -⟩ := passed
      obtain ⟨id, isId⟩ := Option.isSome_iff_exists.mp hasId
      obtain ⟨schema, isSchema⟩ := Option.isSome_iff_exists.mp hasSchema
      have text := isText id isId
      cases id with
      | str id =>
          exact ⟨id, schema, Val.item_of_get isId, Val.item_of_get isSchema⟩
      | _ => simp [isString] at text
  | _ => simp [validateArtifact] at passed

theorem Workflow.Validated.ordinary (validated : wf.Validated env registry)
    (member : step ∈ wf.steps) (lists : step.flag "intermediate_artifacts" = true) :
    step.isMcpToolCall = false := by
  rw [Bool.eq_false_iff]
  intro mcp
  obtain ⟨entries, position, -, -, from_, passed, -, -⟩ := validated.source member
  simp only [validateStep, from_.isMcp, mcp, if_true, gather_ok_nil, List.forall_mem_cons,
    validateMcpToolCallStep] at passed
  have known := validateMcpUnknown_nil passed.2.1.2.2.2.2.2.1
  have absent : entries.get? "intermediate_artifacts" = none := by
    rw [← Option.not_isSome_iff_eq_none, Mapping.get?, valueAt?_isSome_iff]
    intro there
    have allowed := List.filter_eq_nil_iff.mp known _ there
    simp [mcpAllowedStepKeys, mcpMutexFields] at allowed
  rw [Step.flag, from_.get_eq (by simp), absent] at lists
  cases lists

theorem artifactIds_mem {artifacts : List Val} {source : String}
    (member : source ∈ artifactIds artifacts) :
    ∃ artifact ∈ artifacts, artifact.item "id" = .ok (.str source) := by
  obtain ⟨artifact, inArtifacts, named⟩ := List.mem_filterMap.mp member
  refine ⟨artifact, inArtifacts, ?_⟩
  split at named
  · rename_i id isId
    rw [Option.some.injEq] at named
    exact named ▸ Val.item_of_get isId
  · exact nomatch named

structure ArtifactsChecked (step : Step) (artifacts : List Val) : Prop where
  listed : step.get? "intermediate_artifacts" = some (.list artifacts)
  each : ∀ artifact ∈ artifacts, ∃ id schema, artifact.item "id" = .ok (.str id) ∧
    artifact.item "schema" = .ok schema
  output : ∀ value, step.get? "output_from" = some value → ∃ source, value = .str source ∧
    ∃ artifact ∈ artifacts, artifact.item "id" = .ok (.str source)
  uncalled : step.isCall = false

theorem Workflow.Validated.artifacts (validated : wf.Validated env registry)
    (member : step ∈ wf.steps) (lists : step.flag "intermediate_artifacts" = true) :
    ∃ artifacts, ArtifactsChecked step artifacts := by
  obtain ⟨entries, position, -, -, from_, passed, -, -⟩ := validated.source member
  obtain ⟨label, optional⟩ := validateStep_optional from_ passed (validated.ordinary member lists)
  have declared : validateIntermediateArtifacts env entries label = .ok [] :=
    gather_ok_nil.mp optional (validateIntermediateArtifacts env entries label) (by simp)
  have calls : validateCall entries label = [] :=
    naming_ok_nil.mp (gather_ok_nil.mp optional (naming entries (validateCall entries label)) (by simp))
  rw [Step.flag, from_.get_eq (by simp)] at lists
  unfold validateIntermediateArtifacts at declared
  split at declared
  · rename_i artifacts found
    rw [gather_ok_nil] at declared
    simp only [List.forall_mem_cons, naming_ok_nil, validateOutputFrom, whenHas_nil] at declared
    obtain ⟨checks, outputs, -⟩ := declared
    have each : ∀ artifact ∈ artifacts, ∃ id schema, artifact.item "id" = .ok (.str id) ∧
      artifact.item "schema" = .ok schema := by
      intro artifact inArtifacts
      obtain ⟨index, checked⟩ := gather_zipIdx_nil checks inArtifacts
      exact validateArtifact_nil checked
    refine ⟨artifacts, by rw [from_.get_eq (by simp), found], each, ?_, ?_⟩
    · intro value isOutput
      rw [from_.get_eq (by simp)] at isOutput
      have named := outputs value isOutput
      cases value with
      | str source =>
          refine ⟨source, rfl, artifactIds_mem ?_⟩
          rw [errorIf_nil, Bool.and_eq_false_iff, Bool.not_eq_eq_eq_not, Bool.not_false,
            Bool.not_eq_eq_eq_not, Bool.not_false] at named
          rcases named with none | isId
          · obtain ⟨first, rest, rfl⟩ : ∃ first rest, artifacts = first :: rest := by
              cases artifacts with
              | nil =>
                  rw [found] at lists
                  cases lists
              | cons first rest => exact ⟨first, rest, rfl⟩
            obtain ⟨id, -, isId, -⟩ := each first List.mem_cons_self
            simp [artifactIds, Val.get?_of_item isId] at none
          · simpa using isId
      | _ => cases named
    · rw [Step.isCall, from_.get_eq (by simp)]
      cases target : entries.get? "call" with
      | none => rfl
      | some value =>
          have checked := whenHas_nil.mp calls value target
          simp only [List.append_eq_nil_iff, errorIf_nil] at checked
          have absent : entries.has "intermediate_artifacts" = false := checked.1.2
          rw [Mapping.has, show Val.valueAt? entries "intermediate_artifacts" =
            some (.list artifacts) from found] at absent
          cases absent
  · simp at declared
  · rename_i absent
    rw [absent] at lists
    cases lists

/-! What the declaration lets through. -/

theorem ArtifactsChecked.passes_iff {artifacts : List Val}
    (checked : ArtifactsChecked step artifacts) :
    artifactPasses env step content artifactId = true ↔ artifactId ≠ "" ∧
      OutputValid env step content artifactId := by
  have iterates : ∀ others, (optionVal (step.get? "intermediate_artifacts")).iter = .ok others ↔
    others = artifacts := by
    intro others
    rw [checked.listed, optionVal, Option.getD_some, Val.iter, Except.ok.injEq]
    exact eq_comm
  rw [artifactPasses_iff]
  constructor
  · rintro ⟨others, artifact, passes⟩
    obtain rfl := (iterates others).mp passes.listed
    obtain ⟨parsed, schema, loads, declared, clean⟩ := passes.conforms
    refine ⟨passes.named, ?_, others, artifact, parsed, schema, checked.listed, passes.chosen,
      loads, declared, clean⟩
    have moves := passes.moves
    cases output : step.get? "output_from" with
    | none =>
        rw [output, Option.getD_none, Val.isStr_str, beq_iff_eq] at moves
        exact absurd moves.symm passes.named
    | some value =>
        rw [output, Option.getD_some, Val.isStr_iff] at moves
        rw [moves]
  · rintro ⟨named, output, others, artifact, parsed, schema, listed, chosen, loads, declared, clean⟩
    have same : others = artifacts := by
      rw [checked.listed, Option.some.injEq, Val.list.injEq] at listed
      exact listed.symm
    exact ⟨others, artifact, (iterates others).mpr same, named, chosen,
      ⟨parsed, schema, loads, declared, clean⟩, by
      rw [output, Option.getD_some, Val.isStr_str, beq_self_eq_true]⟩

/-! What a submission does to the session it names. -/

theorem RestsAt.submits (rests : RestsAt env deployment world sessionId session wf idx step)
    (stepNamed : step.id ≠ "") (uncalled : step.isCall = false)
    (fits : content.utf8ByteSize ≤ contentMax) :
    Submits env deployment world sessionId session.currentStep content session wf idx step := by
  have isStep : session.currentStep = step.id := Val.str.inj (findStep_spec rests.at_).2
  exact
    { named := rests.named
      stepNamed := isStep ▸ stepNamed
      resolves := rests.resolves
      accepts :=
        { unescalated := rests.unescalated
          unfinished := rests.unfinished
          inOrder := rfl
          fits := fits
          bare := rests.bare
          found := rests.at_
          uncalled := uncalled } }

theorem Submits.rests (submits : Submits env deployment world sessionId stepId content session wf idx step) :
    RestsAt env deployment world sessionId session wf idx step :=
  ⟨submits.named, submits.resolves, submits.accepts.unescalated, submits.accepts.unfinished,
    submits.accepts.bare, submits.accepts.inOrder ▸ submits.accepts.found⟩

/-- A submission to the session is refused, or it is one to the step that the session rests at. -/
theorem RestsAt.served {after : World}
    (rests : RestsAt env deployment world sessionId session wf idx step) (sound : world.Sound env)
    (serves : Serves env world ⟨deployment,
      .submitStep sessionId stepId content branch artifactId⟩ after) :
    (after.ledger = world.ledger ∧ ∀ session wf idx step,
        ¬Submits env deployment world sessionId stepId content session wf idx step) ∨
      Submitted env deployment world session wf idx step content branch artifactId after.ledger := by
  obtain ⟨outcome, ran, finite⟩ := serves
  obtain ⟨ledger, effect, reaches⟩ :=
    Wp.elim (settles_submitStep sound sessionId stepId content branch artifactId) ran finite
  rw [reaches.ledger_eq]
  cases effect with
  | refused closed => exact .inl ⟨rfl, closed⟩
  | marked stale => exact absurd stale rests.resolves.not_stale
  | submitted submits submitted =>
      obtain ⟨rfl, rfl⟩ := rests.resolves.unique submits.resolves
      have found := submits.accepts.found
      rw [submits.accepts.inOrder, rests.at_, Option.some.injEq, Prod.mk.injEq] at found
      obtain ⟨rfl, rfl⟩ := found
      exact .inr submitted

theorem RestsAt.row (rests : RestsAt env deployment world sessionId session wf idx step) :
    world.ledger.row session.sessionId = some session := by
  rw [rests.resolves.sessionId_eq]
  exact rests.resolves.row

theorem RestsAt.unmoved {after : World}
    (rests : RestsAt env deployment world sessionId session wf idx step)
    (sound : world.Sound env) (lists : step.flag "intermediate_artifacts" = true)
    (fails : artifactPasses env step content artifactId = false)
    (serves : Serves env world ⟨deployment,
      .submitStep sessionId stepId content branch artifactId⟩ after) :
    Unmoved session after := by
  have kept : verdictOf env deployment.registry world.outbound.length session wf idx step content branch artifactId = .kept := by
    simp [verdictOf, lists, fails]
  rcases rests.served sound serves with ⟨same, -⟩ | submitted
  · exact ⟨session, by rw [same, rests.row], rfl, rfl⟩
  unfold Unmoved
  generalize after.ledger = ledger at submitted ⊢
  cases submitted with
  | answered ends =>
      rw [kept] at ends
      cases ends with
      | settled calm changes => exact ⟨_, by simp, changes.currentStep_eq, changes.stepData_eq⟩
      | failed fails => exact nomatch fails
  | finished reached => exact nomatch kept.symm.trans reached

/-! The advance that a valid output starts. -/

section Advance

variable {pointer : Val} {data : StepData} {calls : Nat} {advance : Advance} {forced : Bool}

/-- With a way on that the server can compute, every advance on legible contents is decided. -/
theorem HasExit.decides {before : StepData} (exits : HasExit env wf step before)
    (validated : wf.Validated env registry) (legible : wf.Legible env data) :
    ∃ advance, skipAndRun env registry wf calls pointer data forced = .ok advance := by
  obtain ⟨rank, bound, falls⟩ := exists_rank exits.acyclic (Workflow.Moves.target validated.checked)
  have readable : ∀ data, wf.Legible env data → wf.Readable env data :=
    fun data legible => validated.readable exits.tools legible
  have patient := exits.patient
  have calm : ∀ place data forced, wf.Legible env data →
    Calm (applySkipLoop env place wf data forced) :=
    fun place data forced legible =>
      applySkipLoop_calm (readable data legible) (exits.acyclic.mono fun skips => .inl skips)
        (by omega) forced
  unfold skipAndRun
  cases skipped : applySkipLoop env pointer wf data forced with
  | error raised =>
      obtain ⟨sid, referencing, rfl⟩ := calm pointer data forced legible raised skipped
      exact ⟨_, rfl⟩
  | ok next =>
      have enough : rankOf rank next.1 < env.fuel := by
        cases next.1 with
        | str text =>
            have low := bound text
            simp only [rankOf]
            omega
        | _ => exact Nat.lt_of_le_of_lt (Nat.zero_le _) patient
      obtain ⟨advance, runs, -⟩ := autoRun_ends falls readable exits.fit
        (fun other member mcp => validated.executable member mcp)
          (fun place data => calm place data false) legible enough
      exact ⟨advance, runs⟩

theorem HasExit.textual {before : StepData} (exits : HasExit env wf step before)
    (ran : skipAndRun env registry wf calls pointer data forced = .ok advance)
    (start : ∃ text, pointer = .str text) : advance.Rests fun last _ => ∃ text,
      last = .str text := by
  refine skipAndRun_rule (fun last _ => ∃ text, last = .str text) ?_ ?_ ran start
  · intro last idx tool before skippedSet calls envelope after _ _ at_ mcp _
    unfold afterMcpStep
    split
    · cases declared : tool.get? "default_branch" with
      | none => exact ⟨complete, rfl⟩
      | some value => exact exits.defaults tool (findStep_mem at_) mcp value declared
    · exact ⟨_, rfl⟩
  · intro last before next skipped forced text skips
    exact applySkipLoop_rule (fun last => ∃ text, last = .str text)
      (fun _ _ _ _ => ⟨_, rfl⟩) skips text

end Advance

theorem nextStepOf_textual {target : Val} (checked : wf.Checked) (member : step ∈ wf.steps)
    (ordinary : step.isMcpToolCall = false)
    (goes : nextStepOf wf idx step none branch = .ok (.goTo target false)) :
    ∃ text, target = .str text := by
  obtain ⟨text, named⟩ : ∃ text,
    (if branch = "" then (step.get? "default_branch").getD (.str "") else .str branch) =
    .str text := by
    split
    · cases declared : step.get? "default_branch" with
      | none => exact ⟨"", rfl⟩
      | some value =>
          obtain ⟨name, rfl, -⟩ := checked.defaultTarget step member ordinary value declared
          exact ⟨name, rfl⟩
    · exact ⟨branch, rfl⟩
  unfold nextStepOf at goes
  simp only [pure, Except.pure, ok_bind, named] at goes
  split at goes
  · obtain ⟨branches, -, goes⟩ := except_bind_ok.mp goes
    obtain ⟨targets, -, goes⟩ := except_bind_ok.mp goes
    split at goes
    · rw [Except.ok.injEq, NextStep.goTo.injEq] at goes
      exact ⟨text, goes.1.symm⟩
    · exact nomatch goes
  · rw [Except.ok.injEq, NextStep.goTo.injEq] at goes
    exact ⟨_, goes.1.symm⟩

theorem Finished.child_row {sid : SessionId} {new : Session} {calls : Nat} {artifact : String}
    {frameType : FrameType} {ledger : Ledger}
    (finished : Finished env deployment (world.ledger.setRow sid new) calls sid artifact frameType ledger)
    (sound : world.Sound env) : ledger.row sid = some new ∨ ledger.row sid = none := by
  have here : (world.ledger.setRow sid new).row sid = some new :=
    by rw [Ledger.setRow_row, if_pos rfl]
  have above : ∀ {parent written}, (world.ledger.setRow sid new).Parent sid parent →
      ((world.ledger.setRow sid new).setRow parent written).row sid = some new := by
    intro parent written owner
    rw [Ledger.Parent.of_setRow] at owner
    rw [Ledger.setRow_row, if_neg (Ne.symm (sound.apart owner)), here]
  cases finished with
  | orphan => exact .inl here
  | retained => exact .inl here
  | unchecked => exact .inl here
  | marked owner => exact .inl (above owner)
  | drifted owner => exact .inl (above owner)
  | rejected owner => exact .inl (above owner)
  | popped => exact .inr (by rw [Ledger.drop_row, if_pos rfl])
  | delivered owner =>
      rw [Ledger.Parent.of_setRow] at owner
      refine .inr ?_
      rw [Ledger.setRow_row, if_neg (Ne.symm (sound.apart owner)), Ledger.dropAbove, Ledger.dropAt_row, Ledger.drop_row, if_pos rfl]

theorem RestsAt.advances {artifacts : List Val} {target : Val}
    (rests : RestsAt env deployment world sessionId session wf idx step)
    (sound : world.Sound env) (validated : wf.Validated env deployment.registry) (exits : HasExit env wf step session.stepData)
    (lists : step.flag "intermediate_artifacts" = true) (checked : ArtifactsChecked step artifacts)
    (fits : content.utf8ByteSize ≤ contentMax) (valid : OutputValid env step content artifactId)
    (undisturbed : Undisturbed env deployment world session wf idx step content branch target) :
    StoresAndAdvances env deployment world sessionId session wf step content branch artifactId target := by
  have member := findStep_mem rests.at_
  have ordinary := validated.ordinary member lists
  have named : artifactId ≠ "" := by
    obtain ⟨source, output, named⟩ := exits.output
    rw [valid.1, Option.some.injEq, Val.str.injEq] at output
    exact output ▸ named
  have passes : artifactPasses env step content artifactId = true := checked.passes_iff.mpr ⟨named, valid⟩
  have contained : Contained (env.loads content) := by
    obtain ⟨-, -, -, parsed, -, -, -, loads, -, -⟩ := valid
    rw [loads]
    exact contained_ok
  obtain ⟨advance, ran⟩ : ∃ advance, skipAndRun env deployment.registry wf world.outbound.length target
      (session.stepData.set step.id content) false = .ok advance :=
    exits.decides validated (exits.legible.set contained)
  obtain ⟨pointer, data, calls, rfl⟩ := undisturbed.uncascaded advance ran
  obtain ⟨text, rfl⟩ :=
    exits.textual ran (nextStepOf_textual validated.checked member ordinary undisturbed.goes) pointer data rfl
  have kept : data.get? step.id = some content := by
    rcases skipAndRun_entries ran _ data rfl step.id with same | ⟨⟨place, tool, found, mcp⟩, -⟩
    · rw [same, Dict.get?_set, if_pos rfl]
    · rw [← (findStep_spec rests.at_).2, rests.at_, Option.some.injEq, Prod.mk.injEq] at found
      rw [← found.2, ordinary] at mcp
      cases mcp
  refine ⟨text, data, calls, ran, kept, ?_⟩
  intro after serves
  have decided : verdictOf env deployment.registry world.outbound.length session wf idx step content branch artifactId =
      .advanced (.arrived (.str text) data calls) := by
    have acts : (Option.none : Option Val).mapM (fun guardrail => guardrail.item "action") =
      .ok none := rfl
    have warns : guardrailWarning none none = .ok none := rfl
    simp only [verdictOf, lists, if_true, passes, cond_true, committed, undisturbed.quiet, acts,
      Option.map_none, Option.getD_none, Bool.false_eq_true, if_false, warns, undisturbed.goes, ran, Verdict.ofAdvance]
  rcases rests.served sound serves with ⟨-, closed⟩ | submitted
  · exact absurd (rests.submits exits.stepNamed checked.uncalled fits) (closed session wf idx step)
  generalize after.ledger = ledger at submitted ⊢
  cases submitted with
  | answered ends =>
      rw [decided] at ends
      cases ends with
      | settled calm changes =>
          refine .inl ⟨_, by rw [Ledger.setRow_row, if_pos rfl], ?_⟩
          exact ⟨changes.currentStep_eq, changes.stepData_eq⟩
      | failed fails => cases fails
  | finished reached atEnd moved framed finished =>
      rw [decided, Verdict.advanced.injEq, Advance.arrived.injEq] at reached
      obtain ⟨rfl, rfl, rfl⟩ := reached
      have atEnd : text = complete := by simpa using atEnd
      rcases finished.child_row sound with here | gone
      · exact .inl ⟨_, here, moved.currentStep_eq.trans atEnd.symm, moved.stepData_eq⟩
      · exact .inr ⟨atEnd, gone⟩

/-- A step that works in an artifact and has no `output_from`. -/
def deadEndDocs : List Val := [
  workflowDoc "paper" [stepDoc "write" [("intermediate_artifacts",
    .list [artifactDoc "final" false])], stepDoc "send" []]]

def deadEnd : World :=
  serveAll lenientEnv (appOf lenientEnv deadEndDocs) World.empty [.startWorkflow "paper" ""]

end Megalos
