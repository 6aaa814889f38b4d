import Megalos.BackwardRefs
import Megalos.SkippedSteps

/-!
The steps that an advance passes over: without an entry afterwards, and reported as skipped, as long
as the session
never goes back in the list.
-/

namespace Megalos

open GuardedRuns KeyedTable

/-- The steps that the server passes by itself lead to later ones. -/
structure Workflow.LeadsOn (wf : Workflow) (env : Env) : Prop where
  runs : ∀ idx step, findStep wf (.str step.id) = some (idx, step) → step.isMcpToolCall = true →
    wf.From env (idx + 1) (afterMcpStep wf idx step)
  skips : ∀ idx step, findStep wf (.str step.id) = some (idx, step) →
    step.precondition.isSome = true →
    wf.From env (idx + 1) (.str (wf.following idx))

/-- The call moves the session to its own step or an earlier one, or lets the server pass steps that
may do so. -/
inductive Revisits (env : Env) (deployment : Deployment) (world : World) (sid : SessionId) : Call →
    Prop
  | jumped {call : Call} {row : Session} {wf : Workflow} {idx calls position : Nat} {step : Step}
      {content : String}
      {pointer : Val} {forced : Bool} (named : row.sessionId = sid)
      (advances : Advances env deployment world call row wf idx step content pointer forced calls)
      (lands : wf.Lands env pointer position) (back : position ≤ idx) :
        Revisits env deployment world sid call
  | passed {call : Call} {row : Session} {wf : Workflow} {idx calls : Nat} {step : Step}
      {content : String}
      {pointer : Val} {forced : Bool} (named : row.sessionId = sid)
      (advances : Advances env deployment world call row wf idx step content pointer forced calls)
      (loops : ¬wf.LeadsOn env) : Revisits env deployment world sid call
  | opened {workflowType context : String} {wf : Workflow} (fresh : sid = env.token world.minted)
      (loaded : deployment.workflows.get? workflowType = some wf) (loops : ¬wf.LeadsOn env) :
      Revisits env deployment world sid (.startWorkflow workflowType context)

/-- The preconditions of the server's own steps, which the validator does not look at, can be read
and ask for a step that is listed before. -/
def Workflow.ToolsAskBack (env : Env) (wf : Workflow) : Prop :=
  ∀ (idx : Nat) (step : Step) (pc : Val), wf.steps[idx]? = some step → step.isMcpToolCall = true →
    step.precondition = some pc → Evaluable env pc ∧ ∀ sid place target, Asks pc sid →
      findStep wf (.str sid) = some (place, target) → place < idx

def Workflow.AsksBack (wf : Workflow) : Prop :=
  ∀ (idx : Nat) (step : Step) (pc : Val), wf.steps[idx]? = some step → step.precondition = some pc →
    ∀ sid place target, Asks pc sid → findStep wf (.str sid) = some (place, target) → place < idx

/-- What an advance has passed over: no entry stands from the pointer on, and a step that was passed
over stands behind the pointer, has no entry, and has a precondition that is false whatever else is
skipped. -/
structure Workflow.PassedFree (wf : Workflow) (env : Env) (pointer : Val) (data : StepData)
    (passed : List String) : Prop where
  ahead : ∀ position, wf.Lands env pointer position → ∀ stepId later step,
    findStep wf (.str stepId) = some (later, step) → position ≤ later → data.get? stepId = none
  behind : ∀ stepId ∈ passed, ∃ idx step pc skipped, findStep wf (.str stepId) = some (idx, step) ∧
    step.precondition = some pc ∧ data.get? stepId = none ∧
    evaluatePrecondition env pc data skipped stepId = .ok false ∧
      ∀ position, wf.Lands env pointer position → idx < position

variable {env : Env} {deployment : Deployment} {registry : Option Registry} {world after : World}
  {wf : Workflow} {pointer last : Val} {data : StepData} {pc : Val} {idx calls : Nat} {step : Step}
  {sid : SessionId} {call : Call}
  {row new : Session} {passed : List String} {stepId : String}

theorem Asks.unique {other : String} (asks : Asks pc stepId) (again : Asks pc other) :
    stepId = other := by
  obtain ⟨ref, first, path, refers, parts⟩ := asks
  obtain ⟨ref', first', path', refers', parts'⟩ := again
  rw [refers, Option.some.injEq, Val.str.injEq] at refers'
  rw [← refers', parts] at parts'
  simp only [List.cons.injEq] at parts'
  exact parts'.2.1

theorem forall₂_getElem? {α β : Type} {related : α → β → Prop} {lefts : List α} {rights : List β}
    (all : List.Forall₂ related lefts rights) {place : Nat} {right : β}
    (there : rights[place]? = some right) :
    ∃ left, lefts[place]? = some left ∧ related left right := by
  induction all generalizing place with
  | nil => exact nomatch there
  | @cons left first lefts rights relates _ ih =>
      cases place with
      | zero =>
          rw [List.getElem?_cons_zero, Option.some.injEq] at there
          exact ⟨left, rfl, there ▸ relates⟩
      | succ place =>
          rw [List.getElem?_cons_succ] at there ⊢
          exact ih there

namespace Workflow

theorem Validated.places (validated : wf.Validated env registry) :
    ∃ steps, ∀ place step, wf.steps[place]? = some step → ∃ entries, LoadedFrom step entries ∧
      (place, entries) ∈ mappedSteps steps ∧ validateStep env place (.dict entries) = .ok [] ∧
      validateReference env (mappedSteps steps) place entries = [] := by
  obtain ⟨stem, raw, doc, loaded, loads⟩ := validated
  obtain ⟨entries, steps, rfl, found, -, -, passed, kept⟩ :=
    validateWorkflow_ok_nil.mp (loadWorkflow_ok.mp loaded)
  rw [Option.some.injEq] at kept
  obtain ⟨own, -, preconditions, -⟩ := validateSteps_ok_nil.mp passed
  obtain ⟨document, raws, isDoc, foundRaws, each, -⟩ := Workflow.load_some loads
  rw [kept, Val.dict.injEq] at isDoc
  subst isDoc
  rw [found, Option.some.injEq, Val.list.injEq] at foundRaws
  subst foundRaws
  refine ⟨steps, fun place step there => ?_⟩
  obtain ⟨rawStep, isRaw, loadedStep⟩ := forall₂_getElem? each there
  obtain ⟨fields, rfl, from_⟩ := loadStep_some loadedStep
  have mapped : (place, fields) ∈ mappedSteps steps :=
    List.mem_filterMap.mpr ⟨(.dict fields, place), List.mk_mem_zipIdx_iff_getElem?.mpr isRaw, rfl⟩
  exact ⟨fields, from_, mapped, own place _ (mappedSteps_at mapped),
    validateWorkflowPreconditions_nil.mp preconditions _ mapped⟩

/-- The ref of a checked precondition is the one that the evaluator reads. -/
theorem asks_of_refers {entries : Mapping} {label : String}
    (passes : validatePrecondition env entries label = .ok [])
    (found : entries.get? "precondition" = some pc) (refers : RefersTo entries stepId) :
    Asks pc stepId := by
  obtain ⟨ref, first, path, extracted, valid, parts⟩ := refers
  obtain ⟨key, value, rfl, ⟨rfl, checked⟩ | ⟨rfl, checked⟩⟩ :=
    validatePrecondition_shape passes found
  · obtain ⟨fields, ref', rfl, isRef, -⟩ := validateWhenEquals_nil checked
    have declared : Val.valueAt? [(Val.str "when_equals", Val.dict fields)] "when_equals" =
      some (.dict fields) := rfl
    simp only [preconditionRef, found, declared, Option.bind_some, Val.get?, isRef, Option.some_or,
      Option.some.injEq] at extracted
    subst extracted
    exact ⟨_, first, path, isRef, parts⟩
  · obtain ⟨ref', rfl, -⟩ := validateWhenPresent_nil checked
    have present : Val.valueAt? [(Val.str "when_present", Val.str ref')] "when_present" =
      some (.str ref') := rfl
    have absent : Val.valueAt? [(Val.str "when_present", Val.str ref')] "when_equals" = none := rfl
    simp only [preconditionRef, found, absent, present, Option.bind_none, Option.bind_some,
      Option.none_or, Option.some.injEq] at extracted
    subst extracted
    exact ⟨_, first, path, present, parts⟩

theorem Validated.asksBack (validated : wf.Validated env registry) (tools : wf.ToolsAskBack env) :
    wf.AsksBack := by
  intro idx step pc there guarded sid place target asks found
  cases mcp : step.isMcpToolCall with
  | true => exact (tools idx step pc there mcp guarded).2 sid place target asks found
  | false =>
      obtain ⟨steps, places⟩ := validated.places
      obtain ⟨entries, from_, -, passed, reference⟩ := places idx step there
      obtain ⟨label, optional⟩ := validateStep_optional from_ passed mcp
      have carried : entries.get? "precondition" = some pc := by
        rw [← from_.get_eq (by simp)]
        unfold Step.precondition at guarded
        split at guarded
        · exact nomatch guarded
        · exact guarded
      have checked := gather_ok_nil.mp optional (validatePrecondition env entries label) (by simp)
      obtain ⟨named, refers⟩ := validatePrecondition_refers checked carried
      rw [asks.unique (asks_of_refers checked carried refers)] at found
      obtain ⟨isThere, isNamed⟩ := findStep_spec found
      obtain ⟨fields, from', mapped, -, -⟩ := places place target isThere
      refine validateReference_before reference refers ⟨_, mapped, rfl, ?_⟩
      rw [from'.id_eq, ← Val.str.inj isNamed]

theorem LeadsOn.passesForward (leads : wf.LeadsOn env) : wf.PassesForward env where
  runs idx step found mcp := (leads.runs idx step found mcp).mono (Nat.le_succ idx)
  skips idx step found guarded := (leads.skips idx step found guarded).mono (Nat.le_succ idx)

theorem passedFree_tracked (leads : wf.LeadsOn env) (asksBack : wf.AsksBack) :
    Tracked env wf (fun _ => True) (wf.PassedFree env) where
  runs := by
    intro pointer idx step data passed text free _ at_ mcp _
    have own := findStep_own at_
    have onward := leads.runs idx step own mcp
    have here : wf.Lands env pointer idx := lands_of_found at_
    refine ⟨?_, ?_⟩
    · intro position lands id later other found ahead
      have beyond := onward position lands
      rw [get?_set_elsewhere at_ found (by omega)]
      exact free.ahead idx here id later other found (by omega)
    · intro id member
      obtain ⟨place, other, pc, skipped, found, guarded, absent, fails, before⟩ :=
        free.behind id member
      have earlier := before idx here
      obtain ⟨asked, asks, unskipped, -, depends⟩ := evaluatePrecondition_spec fails
      -- what the precondition asks for is listed before, so it is not what was stored
      have same : (data.set step.id text).get? asked = data.get? asked := by
        cases isStep : findStep wf (.str asked) with
        | none =>
            rw [Dict.get?_set, if_neg]
            rintro rfl
            rw [own] at isStep
            exact nomatch isStep
        | some entry =>
            have back := asksBack place other pc (findStep_spec found).1 guarded asked entry.1 entry.2 asks isStep
            exact get?_set_elsewhere at_ isStep (by omega)
      refine ⟨place, other, pc, skipped, found, guarded, ?_, ?_, ?_⟩
      · rw [get?_set_elsewhere at_ found (by omega)]
        exact absent
      · rw [depends same, if_neg unskipped]
      · intro position lands
        have beyond := onward position lands
        omega
  passes := by
    intro pointer idx step pc data skippedSet passed free _ at_ guarded fails
    have own := findStep_own at_
    have onward := leads.skips idx step own (by rw [guarded]; rfl)
    have here : wf.Lands env pointer idx := lands_of_found at_
    refine ⟨?_, ?_⟩
    · intro position lands id later other found ahead
      have beyond := onward position lands
      exact free.ahead idx here id later other found (by omega)
    · intro id member
      rcases List.mem_append.mp member with old | isStep
      · obtain ⟨place, other, otherPc, skipped, found, isGuarded, absent, fails, before⟩ :=
          free.behind id old
        have earlier := before idx here
        refine ⟨place, other, otherPc, skipped, found, isGuarded, absent, fails,
          fun position lands => ?_⟩
        have beyond := onward position lands
        omega
      · rw [List.mem_singleton.mp isStep]
        refine ⟨idx, step, pc, skippedSet, own, guarded, free.ahead idx here _ idx step own le_rfl,
          fails, ?_⟩
        intro position lands
        have beyond := onward position lands
        omega

/-- The steps that were passed over are found again from the data that the advance leaves. -/
theorem PassedFree.listed {skipped : List String} (free : wf.PassedFree env pointer data passed)
    (computed : computeSkippedSteps env wf data = .ok skipped) :
    ∀ stepId ∈ passed, data.get? stepId = none ∧ stepId ∈ skipped := by
  intro stepId member
  obtain ⟨place, step, pc, skippedSet, found, guarded, absent, fails, -⟩ :=
    free.behind stepId member
  obtain ⟨there, isStep⟩ := findStep_spec found
  obtain rfl := Val.str.inj isStep
  refine ⟨absent, skippedFrom_unmet computed (List.mem_of_getElem? there) ?_ ?_⟩
  · rw [Dict.contains_iff_get?, absent]
    rfl
  · intro before
    obtain ⟨asked, asks, unskipped, -, depends⟩ := evaluatePrecondition_spec fails
    refine ⟨pc, guarded, ?_⟩
    by_cases cascade : asked ∈ before
    · exact .inr ⟨asked, step.id, by rw [depends rfl, if_pos cascade]⟩
    · exact .inl (by rw [depends rfl, if_neg cascade])

end Workflow

theorem GoesBack.revisits (back : GoesBack env deployment world sid call) : Revisits env deployment world sid call := by
  cases back with
  | jumped named advances lands earlier => exact .jumped named advances lands earlier.le
  | passed named advances loops => exact .passed named advances fun leads => loops leads.passesForward
  | opened fresh loaded loops => exact .opened fresh loaded fun leads => loops leads.passesForward

/-- A call that goes on down the list starts from no entry ahead. -/
theorem Advances.passedFree {content : String} {forced : Bool}
    (advances : Advances env deployment world call row wf idx step content pointer forced calls)
    (behaves : ¬Revisits env deployment world row.sessionId call)
    (clear : wf.Clear env (.str row.currentStep) row.stepData) :
    wf.LeadsOn env ∧ wf.PassedFree env pointer (row.stepData.set step.id content) [] := by
  have at_ := advances.at_.2
  refine ⟨?_, ⟨?_, by simp⟩⟩
  · by_contra loops
    exact behaves (.passed rfl advances loops)
  · intro position lands stepId later other found ahead
    have onward : idx < position := by
      by_contra back
      exact behaves (.jumped rfl advances lands (by omega))
    rw [Workflow.get?_set_elsewhere at_ found (by omega)]
    exact clear idx (Workflow.lands_of_found at_) stepId later other found (by omega)

/-- The step has no entry in the session, its id is among the skipped steps of the session's data,
and every answer of `get_state` names it. -/
structure SkippedVisibly (env : Env) (served : Deployment → Prop) (after : World) (wf : Workflow)
    (new : Session) (stepId : String) : Prop where
  absent : new.stepData.get? stepId = none
  computed : ∃ skipped, computeSkippedSteps env wf new.stepData = .ok skipped ∧ stepId ∈ skipped
  listed : ∀ deployment sessionId response final, served deployment →
    env.normalizeSessionId sessionId = new.sessionId →
    (callTool env deployment (.getState sessionId)).run after = (.ok response, final) →
      response.isError = false →
    ListsSkipped response stepId

variable {served : Deployment → Prop} {request : Request}

theorem Workflow.PassedFree.visible (accepted : ∀ deployment, served deployment →
    deployment.Accepted env)
    (distinct : Distinguished served) (isServed : served deployment)
    (loaded : deployment.workflows.get? new.workflowType = some wf)
    (live : deployment.workflowFingerprints.get? new.workflowType = some new.workflowFingerprint)
    (readable : passed = [] ∨ ∃ skipped, computeSkippedSteps env wf new.stepData = .ok skipped)
    (found : after.sessions.lookup new.sessionId = some new)
    (free : wf.PassedFree env last new.stepData passed) : ∀ stepId ∈ passed,
      SkippedVisibly env served after wf new stepId := by
  intro stepId member
  obtain ⟨skipped, computed⟩ := readable.resolve_left (List.ne_nil_of_mem member)
  obtain ⟨absent, isSkipped⟩ := free.listed computed stepId member
  refine ⟨absent, ⟨skipped, computed, isSkipped⟩, ?_⟩
  intro reading sessionId response final reads named ran success
  obtain ⟨row, read, again, resolves, computedAgain, lists⟩ := getState_listsSkipped ran success
  rw [named] at resolves
  obtain rfl : new = row := Option.some.inj (found.symm.trans resolves.row)
  obtain rfl : wf = read := distinct _ _ isServed reads _ _ _ _ loaded resolves.loaded live
    (resolves.fingerprint (accepted _ reads))
  rw [computed, Except.ok.injEq] at computedAgain
  subst computedAgain
  exact (lists stepId).mpr isSkipped

/-- What the skip loop passes over in a session that never goes back is absent, and reported as
skipped. -/
theorem passed_visibly (accepted : ∀ deployment, served deployment → deployment.Accepted env)
    (distinct : Distinguished served)
    (tools : ∀ deployment, served deployment → ∀ name wf, deployment.workflows.get? name = some wf →
      wf.ToolsAskBack env)
    (reachable : Reachable env (fun world request => served request.deployment ∧
      ¬Revisits env request.deployment world sid request.call) world)
    (isServed : served request.deployment)
    (behaves : ¬Revisits env request.deployment world sid request.call)
    (serves : Serves env world request after) (found : after.sessions.lookup sid = some new)
    (passes : PassesOver env request.deployment world after sid request.call passed) :
    ∃ wf, request.deployment.workflows.get? new.workflowType = some wf ∧
      ∀ stepId ∈ passed, SkippedVisibly env served after wf new stepId := by
  have sound := reachable.sound
  obtain rfl : new.sessionId = sid := World.row_sessionId found
  rcases passes.cases with ⟨row, wf, idx, step, content, pointer, forced, calls, named, advances,
    stored, rfl⟩ |
    ⟨wf, opens, rfl⟩
  · have resolves := advances.at_.1
    have live := resolves.fingerprint (accepted _ isServed)
    rw [← named] at reachable behaves found
    have straight : Reachable env (fun world request => served request.deployment ∧
        ¬GoesBack env request.deployment world row.sessionId request.call) world :=
      reachable.weaken fun state request meets => ⟨meets.1, fun back => meets.2 back.revisits⟩
    obtain ⟨log, logged⟩ := straight.logged row.sessionId
    have clear := ((logged.inOrder accepted distinct).rows row request.deployment wf resolves.row isServed resolves.loaded
      live).clear resolves.unmarked
    obtain ⟨leads, start⟩ := advances.passedFree behaves clear
    have validated := (accepted _ isServed).validated resolves.loaded
    have toolsBack := tools _ isServed _ _ resolves.loaded
    obtain ⟨advance, last, text, data, ran, resting, -, moved⟩ :=
      advances.moves sound stored serves found
    have free := (Workflow.passedFree_tracked leads (validated.asksBack toolsBack)).skipAndRun ran (fun _ _ => trivial)
      resting start
    have readable := skipAndRun_computed ran resting
    rw [List.nil_append, ← moved.stepData_eq] at free
    rw [← moved.stepData_eq] at readable
    have loaded : request.deployment.workflows.get? new.workflowType = some wf := by
      rw [moved.workflowType_eq]
      exact resolves.loaded
    refine ⟨wf, loaded, free.visible accepted distinct isServed loaded ?_ readable (named ▸ found)⟩
    rw [moved.workflowType_eq, moved.workflowFingerprint_eq]
    exact live
  · obtain ⟨workflowType, context, isStart, loaded⟩ := opens.starts
    rcases serves.rowEffect sound found with ⟨row, there, -⟩ | ⟨-, birth⟩
    · exact absurd (opens.fresh ▸ sound.rowIssued there) Issued.not_next
    have live := birth.live (accepted _ isServed)
    rw [isStart] at birth behaves
    cases birth with
    | spawned above => cases above
    | @started _ _ loadedWf now _ again opened =>
        obtain rfl : wf = loadedWf := Option.some.inj (loaded.symm.trans again)
        have leads : wf.LeadsOn env := by
          by_contra loops
          exact behaves (.opened opens.fresh loaded loops)
        have validated := (accepted _ isServed).validated loaded
        have toolsBack := tools _ isServed _ _ loaded
        have tracked := Workflow.passedFree_tracked leads (validated.asksBack toolsBack)
        have start : wf.PassedFree env (.str wf.first.id) Table.empty [] :=
          ⟨fun _ _ _ _ _ _ _ => rfl, by simp⟩
        have isLoaded : request.deployment.workflows.get? new.workflowType = some wf := by
          rw [opened.same.workflowType_eq]
          exact loaded
        refine ⟨wf, isLoaded, ?_⟩
        rcases opened with applies | ⟨⟨data, calls, ran⟩, -⟩
        · rcases applies.cases with ⟨unstored, -⟩ | ⟨advance, last, text, data, ran, resting, -,
            moved⟩
          · have stored := opens.stored
            rw [unstored] at stored
            exact nomatch stored
          · have free := tracked.autoRun ran (fun _ _ => trivial) resting start
            have readable := (autoRun_computed ran resting).imp_left And.right
            rw [List.nil_append, ← moved.stepData_eq] at free
            rw [← moved.stepData_eq] at readable
            exact free.visible accepted distinct isServed isLoaded live readable found
        · -- the front came back to the first step, so it went nowhere
          have free := tracked.autoRun ran (fun _ _ => trivial) rfl start
          rw [List.nil_append] at free
          intro stepId member
          obtain ⟨idx, -, -, -, -, -, -, -, before⟩ := free.behind stepId member
          have first : wf.Lands env (.str wf.first.id) 0 :=
            Workflow.lands_of_found (findStep_first wf)
          exact absurd (before 0 first) (Nat.not_lt_zero _)

/-- Where only the list decides and no id stands twice in it, no session comes back. -/
theorem not_revisits (plain : ∀ name wf, deployment.workflows.get? name = some wf → wf.Listwise ∧
    wf.Distinct) :
    ¬Revisits env deployment world sid call := by
  have leads : ∀ {name wf}, deployment.workflows.get? name = some wf → wf.LeadsOn env := by
    intro name wf loaded
    obtain ⟨listwise, distinct⟩ := plain name wf loaded
    refine ⟨fun idx step found mcp => ?_, fun idx step found guarded => distinct.onward⟩
    rw [listwise.afterMcp_eq found]
    exact distinct.onward
  intro revisits
  cases revisits with
  | jumped named advances lands back =>
      obtain ⟨listwise, distinct⟩ := plain _ _ advances.at_.1.loaded
      rw [listwise.advances_eq advances] at lands
      have onward := distinct.onward _ lands
      omega
  | passed named advances loops => exact loops (leads advances.at_.1.loaded)
  | opened fresh loaded loops => exact loops (leads loaded)

theorem asked_visibly : ∃ new wf, (asked 2).sessions.lookup (sampleToken 0) = some new ∧
    SkippedVisibly sampleEnv (· = appOf sampleEnv askedDocs) (asked 2) wf new "b" := by
  have accepted : (appOf sampleEnv askedDocs).Accepted sampleEnv := appOf_accepted (by decide)
  have plain : ∀ name wf, (appOf sampleEnv askedDocs).workflows.get? name = some wf → wf.Listwise ∧
    wf.Distinct :=
    listwise_of_rows (by decide)
  have checks : ∀ entry ∈ (appOf sampleEnv askedDocs).workflows.rows,
      entry.2.steps.all (fun step => !step.isMcpToolCall) = true := by decide
  have first : Reachable sampleEnv (fun world request =>
    request.deployment = appOf sampleEnv askedDocs ∧
      ¬Revisits sampleEnv request.deployment world (sampleToken 0) request.call) (asked 1) :=
    serveAll_run (by rfl) ⟨⟨rfl, not_revisits plain⟩, trivial⟩
  have serves : Serves sampleEnv (asked 1) ⟨appOf sampleEnv askedDocs,
    .submitStep "s" "a" "stay" "" ""⟩ (asked 2) :=
    serves_of_ends (by rfl)
  obtain ⟨new, found⟩ := Option.isSome_iff_exists.mp
    (show ((asked 2).sessions.lookup (sampleToken 0)).isSome = true by rfl)
  have passes : PassesOver sampleEnv (appOf sampleEnv askedDocs) (asked 1) (asked 2) (sampleToken 0)
      (.submitStep "s" "a" "stay" "" "") ["b"] := .of_passed (by rfl)
  have noTools : ∀ deployment, deployment = appOf sampleEnv askedDocs → ∀ name wf,
      deployment.workflows.get? name = some wf → wf.ToolsAskBack sampleEnv := by
    rintro _ rfl name wf loaded idx step pc there mcp
    have ordinary := List.all_eq_true.mp (checks _ (Dict.mem_of_get? loaded)) step (List.mem_of_getElem? there)
    simp [mcp] at ordinary
  obtain ⟨wf, -, visible⟩ := passed_visibly (by rintro _ rfl; exact accepted)
    (.single _) noTools first rfl
    (not_revisits plain) serves found passes
  exact ⟨new, wf, found, visible "b" (by simp)⟩

/-- The second step runs when the first says "go", and the third may lead back to the first. -/
def circledDocs : List Val := [workflowDoc "circled" [stepDoc "a" [],
  stepDoc "b" [("precondition",
    .obj [("when_equals", .obj [("ref", .str "step_data.a"), ("value", .str "go")])])],
  stepDoc "c" [("branches", .list [.obj [("next", .str "a"), ("condition", .str "again")]]),
    ("default_branch", .str "a")]]]

def circled (calls : Nat) : World :=
  serveAll sampleEnv (appOf sampleEnv circledDocs) World.empty
    (([.startWorkflow "circled" "", .submitStep "s" "a" "go" "" "", .submitStep "s" "b" "one" "" "",
      .submitStep "s" "c" "back" "a" "", .submitStep "s" "a" "stay" "" ""] : List Call).take calls)

/-- The second time around the step is passed over with the entry of the first. -/
theorem not_always_visibly :
    ¬∀ (env : Env) (deployment : Deployment) (world after : World) (call : Call)
    (sid : SessionId) (new : Session) (passed : List String), deployment.Accepted env →
      ServedBy env deployment world →
    Serves env world ⟨deployment, call⟩ after → after.sessions.lookup sid = some new →
    PassesOver env deployment world after sid call passed →
    ∃ wf, deployment.workflows.get? new.workflowType = some wf ∧
      ∀ stepId ∈ passed, SkippedVisibly env (· = deployment) after wf new stepId := by
  intro always
  have serves : Serves sampleEnv (circled 4) ⟨appOf sampleEnv circledDocs,
    .submitStep "s" "a" "stay" "" ""⟩ (circled 5) :=
    serves_of_ends (by rfl)
  obtain ⟨new, found⟩ := Option.isSome_iff_exists.mp
    (show ((circled 5).sessions.lookup (sampleToken 0)).isSome = true by rfl)
  have entry : ((circled 5).sessions.lookup (sampleToken 0)).map (fun row =>
    row.stepData.get? "b") =
      some (some "one") := by rfl
  rw [found, Option.map_some, Option.some.injEq] at entry
  have passes : PassesOver sampleEnv (appOf sampleEnv circledDocs) (circled 4) (circled 5)
    (sampleToken 0)
      (.submitStep "s" "a" "stay" "" "") ["b"] := .of_passed (by rfl)
  obtain ⟨wf, -, visible⟩ := always _ _ _ _ _ _ new ["b"] (appOf_accepted (by decide))
    (serveAll_served (by rfl)) serves
    found passes
  have absent := (visible "b" (by simp)).absent
  rw [entry] at absent
  exact nomatch absent

end Megalos
