import Megalos.Schema

/-!
What `create_app` closes over: the documents that pass validation, as the server
reads them, and what validation promises about their steps.
-/

namespace Megalos

open KeyedTable

def Mapping.At (entries : Mapping) (key : String) (property : Val → Prop) : Prop :=
  ∀ value, entries.get? key = some value → property value

theorem whenHas_nil {entries : Mapping} {key : String} {check : Val → List String} :
    entries.whenHas key check = [] ↔ entries.At key fun value => check value = [] := by
  unfold Mapping.whenHas Mapping.At Mapping.get?
  cases Val.valueAt? entries key <;> simp

def loadFields (entries : Mapping) (without : String) : List (String × Val) :=
  entries.filterMap fun entry =>
    match entry.1 with
    | .str key => if key = without then none else some (key, entry.2)
    | _ => none

def loadStep : Val → Option Step
  | .dict entries =>
      match Val.valueAt? entries "id" with
      | some (.str id) => some ⟨id, loadFields entries "id"⟩
      | _ => none
  | _ => none

def Workflow.load : Val → Option Workflow
  | .dict entries =>
      match Val.valueAt? entries "steps" with
      | some (.list steps) =>
          match steps.mapM loadStep with
          | some (first :: rest) => some ⟨first, rest, loadFields entries "steps"⟩
          | _ => none
      | _ => none
  | _ => none

/-- `workflow_fingerprint` on a parsed document. -/
def workflowFingerprint (env : Env) (raw : Val) : String := env.sha256 (env.canonicalDumps raw)

/-- The loop of `create_app` over the files; `none` when a step id or a name is no string. -/
def loadFiles (env : Env) : List (String × Val) → Deployment → Except Exn (Option Deployment)
  | [], deployment => .ok (some deployment)
  | (stem, raw) :: rest, deployment =>
      match loadWorkflow env deployment.registry stem raw with
      | .error raised => .error raised
      | .ok doc =>
          match Workflow.load doc, doc.get? "name" with
          | some wf, some (.str name) =>
              loadFiles env rest
                { deployment with
                  workflows := deployment.workflows.set name wf
                  workflowFingerprints :=
                    deployment.workflowFingerprints.set name (workflowFingerprint env raw) }
          | _, _ => .ok none

/-- `create_app`: the stems and parsed documents of the workflow directory. -/
def createApp (env : Env) (registry : Option Registry) (caller : Identity)
    (files : List (String × Val)) : Except Exn (Option Deployment) :=
  match loadFiles env files ⟨Table.empty, Table.empty, registry, caller⟩ with
  | .ok (some deployment) =>
      match validateWorkflowCalls env (deployment.workflows.rows.map fun entry =>
        (entry.1, entry.2.doc)) with
      | error :: _ => .error (.valueError error)
      | [] =>
          if deployment.workflows.size = 0 then
            .error (.uncaught "RuntimeError" "No workflow YAML files found")
          else .ok (some deployment)
  | other => other

def Deployment.Accepted (env : Env) (deployment : Deployment) : Prop :=
  ∃ files, createApp env deployment.registry deployment.caller files = .ok (some deployment)

theorem loadFiles_closure {env : Env} {files : List (String × Val)} {start deployment : Deployment}
    (loaded : loadFiles env files start = .ok (some deployment)) :
    deployment.registry = start.registry ∧ deployment.caller = start.caller := by
  induction files generalizing start with
  | nil =>
      simp only [loadFiles, Except.ok.injEq, Option.some.injEq] at loaded
      simp [← loaded]
  | cons file rest ih =>
      simp only [loadFiles] at loaded
      split at loaded
      · simp at loaded
      · split at loaded
        · obtain ⟨sameRegistry, sameCaller⟩ := ih loaded
          exact ⟨sameRegistry, sameCaller⟩
        · simp at loaded

theorem createApp_closure {env : Env} {registry : Option Registry} {caller : Identity}
    {files : List (String × Val)} {deployment : Deployment}
    (created : createApp env registry caller files = .ok (some deployment)) :
    deployment.registry = registry ∧ deployment.caller = caller := by
  simp only [createApp] at created
  split at created
  · rename_i built loads
    split at created
    · simp at created
    · split at created
      · simp at created
      · simp only [Except.ok.injEq, Option.some.injEq] at created
        rw [← created]
        exact loadFiles_closure loads
  · rename_i other
    exact absurd created (other deployment)

theorem loadFields_get {entries : Mapping} {without key : String} (differs : key ≠ without) :
    field? (loadFields entries without) key = Val.valueAt? entries key := by
  induction entries with
  | nil => rfl
  | cons entry rest ih =>
      have skipped : ∀ {later : List (String × Val)}, field? later key = Val.valueAt? rest key →
          entry.1.isStr key = false → field? later key = Val.valueAt? (entry :: rest) key := by
        intro later same other
        rw [same]
        simp [Val.valueAt?, other]
      obtain ⟨name, value⟩ := entry
      cases name with
      | str text =>
          by_cases isWithout : text = without
          · have other : (Val.str text).isStr key = false := by
              simp [isWithout, Ne.symm differs]
            subst isWithout
            simp only [loadFields, List.filterMap_cons, if_true] at ih ⊢
            exact skipped ih other
          · simp only [loadFields, List.filterMap_cons, if_neg isWithout] at ih ⊢
            by_cases isKey : text = key
            · simp [field?, Val.valueAt?, isKey]
            · have later := skipped ih (by simp [isKey])
              rw [← later]
              simp [field?, isKey]
      | _ => exact skipped ih rfl

structure LoadedFrom (step : Step) (entries : Mapping) : Prop where
  id_eq : entries.get? "id" = some (.str step.id)
  get_eq : ∀ {key}, key ≠ "id" → step.get? key = entries.get? key

theorem loadStep_some {raw : Val} {step : Step} (loaded : loadStep raw = some step) :
    ∃ entries, raw = .dict entries ∧ LoadedFrom step entries := by
  cases raw with
  | dict entries =>
      simp only [loadStep] at loaded
      split at loaded
      · rename_i id found
        simp only [Option.some.injEq] at loaded
        subst loaded
        exact ⟨entries, rfl, found, fun differs => loadFields_get differs⟩
      · simp at loaded
  | _ => simp [loadStep] at loaded

theorem mapM_loadStep {raws : List Val} {steps : List Step}
    (loaded : raws.mapM loadStep = some steps) :
    List.Forall₂ (fun raw step => loadStep raw = some step) raws steps := by
  induction raws generalizing steps with
  | nil =>
      simp only [List.mapM_nil, Option.pure_def, Option.some.injEq] at loaded
      subst loaded
      exact .nil
  | cons raw rest ih =>
      simp only [List.mapM_cons, Option.pure_def, Option.bind_eq_bind, Option.bind_eq_some_iff,
        Option.some.injEq] at loaded
      obtain ⟨step, first, later, others, rfl⟩ := loaded
      exact .cons first (ih others)

section Validation

variable {env : Env} {registry : Option Registry} {stem : String} {raw doc : Val} {wf : Workflow}

theorem gather_naming_nil {α : Type} {items : List α} {step : α → Mapping}
    {errors : α → List String} :
    gather (items.map fun item => naming (step item) (errors item)) = .ok [] ↔
      ∀ item ∈ items, errors item = [] := by
  simp only [gather_ok_nil, List.forall_mem_map, naming_ok_nil]

theorem validateWorkflowPreconditions_nil {steps : List Val} :
    validateWorkflowPreconditions env steps = .ok [] ↔
    ∀ entry ∈ mappedSteps steps, validateReference env (mappedSteps steps) entry.1 entry.2 = [] :=
  gather_naming_nil

theorem validateSteps_ok_nil {document : Mapping} {steps : List Val} :
    validateSteps env registry stem document steps = .ok [] ↔
      (∀ position step, steps[position]? = some step → validateStep env position step = .ok []) ∧
      validateServers env registry ((document.get? "name").getD (.str stem)) steps = .ok [] ∧
      validateWorkflowPreconditions env steps = .ok [] ∧
      ∃ ids, allStepIds steps = .ok ids ∧ validateInjectSources env ids steps = .ok [] ∧
        (∀ entry ∈ mappedSteps steps, validateTargets env ids entry.2 = []) ∧
        validateGuardrails env ids document = .ok [] := by
  simp only [validateSteps, except_bind_ok, pure, Except.pure, Except.ok.injEq,
    List.append_eq_nil_iff]
  constructor
  · rintro ⟨own, gathered, servers, known, preconditions, referred, ids, idsEq, sources,
      fromSources, targets, aimed, guardrails, guarded, ⟨⟨⟨⟨rfl, rfl⟩, rfl⟩, rfl⟩, rfl⟩, rfl⟩
    refine ⟨?_, known, referred, ids, idsEq, fromSources, gather_naming_nil.mp aimed, guarded⟩
    intro position step there
    refine gather_ok_nil.mp gathered _ (List.mem_map.mpr ⟨(step, position), ?_, rfl⟩)
    rwa [List.mk_mem_zipIdx_iff_getElem?]
  · rintro ⟨own, known, referred, ids, idsEq, fromSources, aimed, guarded⟩
    refine ⟨[], gather_ok_nil.mpr ?_, [], known, [], referred, ids, idsEq, [], fromSources, [],
      gather_naming_nil.mpr aimed, [], guarded,
      ⟨⟨⟨⟨rfl, rfl⟩, rfl⟩, rfl⟩, rfl⟩, rfl⟩
    intro check member
    obtain ⟨⟨step, position⟩, indexed, rfl⟩ := List.mem_map.mp member
    exact own position step (List.mk_mem_zipIdx_iff_getElem?.mp indexed)

theorem validateHead_ok_nil {entries : Mapping} : validateHead env entries = .ok [] ↔
    (entries.At "schema_version" fun version => isString version = true) ∧
      validateRepair env entries = .ok [] ∧
      ∀ key ∈ ["name", "description", "category", "output_format"], entries.has key = true := by
  simp only [validateHead, gather_ok_nil, List.forall_mem_cons, Except.ok.injEq, whenHas_nil,
    List.flatMap_eq_nil_iff, errorIf_nil, Bool.not_eq_eq_eq_not, Bool.not_false, List.not_mem_nil, false_implies, implies_true, and_true]

theorem validateRepair_ok_nil {entries : Mapping} (passed : validateRepair env entries = .ok []) :
    entries.At "conversation_repair" fun value => ∃ fields, value = .dict fields ∧
      ∀ entry ∈ fields, (∃ name ∈ repairKeys, entry.1 = .str name) ∧ isString entry.2 = true := by
  intro value found
  simp only [validateRepair, found] at passed
  cases value with
  | dict fields =>
      refine ⟨fields, rfl, ?_⟩
      intro entry member
      have checked := printing_ok_nil.mp (gather_ok_nil.mp passed _ (List.mem_map.mpr ⟨entry,
        member, rfl⟩))
      split at checked
      · simp at checked
      · rename_i isKnown
        simp only [Bool.not_eq_eq_eq_not, Bool.not_true, Bool.not_eq_false, List.any_eq_true,
          Val.isStr_iff] at isKnown
        exact ⟨isKnown, by simpa using errorIf_nil.mp checked⟩
  | _ => simp at passed

theorem withSchemaVersion_get? {entries : Mapping} {key : String}
    (differs : key ≠ "schema_version") :
    (withSchemaVersion entries).get? key = entries.get? key := by
  unfold withSchemaVersion
  split
  · rfl
  · have other : ("schema_version" == key) = false := by simpa using Ne.symm differs
    simp [Mapping.get?, Val.valueAt?, other]

theorem validateWorkflow_ok_nil {kept : Option Val} :
    validateWorkflow env registry stem raw = .ok ([], kept) ↔
      ∃ (entries : Mapping) (steps : List Val), raw = .dict entries ∧
        (withSchemaVersion entries).get? "steps" = some (.list steps) ∧ steps ≠ [] ∧
          validateHead env entries = .ok [] ∧
        validateSteps env registry stem (withSchemaVersion entries) steps = .ok [] ∧
        kept = some (.dict (withSchemaVersion entries)) := by
  cases raw with
  | dict entries =>
      simp only [validateWorkflow, Val.dict.injEq, exists_and_left, exists_eq_left']
      cases validateHead env entries with
      | error raised => simp
      | ok head =>
      dsimp only
      split
      · rename_i found
        simp [found]
      · rename_i steps nonempty found
        simp only [found, Option.some.injEq, Val.list.injEq, exists_eq_left', except_bind_ok, pure,
          Except.pure, Except.ok.injEq, Prod.mk.injEq, List.append_eq_nil_iff]
        constructor
        · rintro ⟨errors, checked, ⟨rfl, rfl⟩, rfl⟩
          exact ⟨nonempty, rfl, checked, rfl⟩
        · rintro ⟨-, rfl, checked, rfl⟩
          exact ⟨[], checked, ⟨rfl, rfl⟩, rfl⟩
      · rename_i none empty
        simp only [Except.ok.injEq, Prod.mk.injEq, List.append_eq_nil_iff, List.cons_ne_self,
          and_false, false_and, false_iff, not_exists, not_and]
        rintro steps found
        exact absurd found (empty steps)
  | _ => simp [validateWorkflow]

theorem loadWorkflow_ok : loadWorkflow env registry stem raw = .ok doc ↔
    validateWorkflow env registry stem raw = .ok ([], some doc) := by
  simp only [loadWorkflow, except_bind_ok]
  constructor
  · rintro ⟨⟨errors, kept⟩, validated, kept_eq⟩
    cases errors with
    | cons error rest => cases kept_eq
    | nil =>
    cases kept with
    | none => cases kept_eq
    | some document =>
        simp only [pure, Except.pure, Except.ok.injEq] at kept_eq
        rw [validated, kept_eq]
  · intro validated
    exact ⟨_, validated, rfl⟩

theorem isOneOf_ok {names : List String} {value : Val} (known : isOneOf names value = .ok true) :
    ∃ name ∈ names, value = .str name := by
  cases value with
  | str text => simpa [isOneOf] using known
  | _ => simp [isOneOf, Val.isStr] at known

theorem oneOf_check {names : List String} {text : String} {value : Val}
    (passed : (do let known ← isOneOf names value; return errorIf (!known) text : Check) = .ok []) :
    ∃ name ∈ names, value = .str name := by
  obtain ⟨known, isKnown, none⟩ := except_bind_ok.mp passed
  change Except.ok _ = _ at none
  rw [Except.ok.injEq, errorIf_nil] at none
  exact isOneOf_ok (by simpa [show known = true by simpa using none] using isKnown)

structure StepsPass (env : Env) (doc : Mapping) (steps : List Val) (ids : List Val) : Prop where
  own : ∀ raw ∈ steps, ∃ position, validateStep env position raw = .ok []
  ids_eq : allStepIds steps = .ok ids
  targets : ∀ entry ∈ mappedSteps steps, validateTargets env ids entry.2 = []
  guardrails : validateGuardrails env ids doc = .ok []

theorem validateSteps_pass {document : Mapping} {steps : List Val}
    (passed : validateSteps env registry stem document steps = .ok []) :
    ∃ ids, StepsPass env document steps ids := by
  obtain ⟨own, -, -, ids, idsEq, -, targets, guarded⟩ := validateSteps_ok_nil.mp passed
  refine ⟨ids, ?_, idsEq, targets, guarded⟩
  intro raw member
  obtain ⟨position, bound, there⟩ := List.getElem_of_mem member
  refine ⟨position, own position raw ?_⟩
  rw [← there]
  exact List.getElem?_eq_getElem bound

theorem loadWorkflow_pass (loaded : loadWorkflow env registry stem raw = .ok doc) :
    ∃ (entries : Mapping) (steps ids : List Val), doc = .dict entries ∧
      entries.get? "steps" = some (.list steps) ∧
      StepsPass env entries steps ids := by
  obtain ⟨entries, steps, -, found, -, -, passed, kept⟩ :=
    validateWorkflow_ok_nil.mp (loadWorkflow_ok.mp loaded)
  obtain ⟨ids, pass⟩ := validateSteps_pass passed
  rw [Option.some.injEq] at kept
  exact ⟨_, steps, ids, kept, found, pass⟩

end Validation

def Workflow.Names (wf : Workflow) (sid : String) : Prop := ∃ step ∈ wf.steps, step.id = sid

theorem Workflow.Names.found {wf : Workflow} {sid : String} (names : wf.Names sid) :
    (findStep wf (.str sid)).isSome := by
  obtain ⟨step, member, rfl⟩ := names
  exact findStepFrom_isSome member rfl

/-- What validation promises about the places a pointer can be sent to. -/
structure Workflow.Checked (wf : Workflow) : Prop where
  mcpUncalled : ∀ step ∈ wf.steps, step.isMcpToolCall = true → step.isCall = false
  branchTargets : ∀ step ∈ wf.steps, step.isMcpToolCall = false →
    ∀ value, step.get? "branches" = some value →
    ∃ branches, value = .list branches ∧ ∀ branch ∈ branches, ∃ target,
      branch.item "next" = .ok (.str target) ∧ wf.Names target
  defaultTarget : ∀ step ∈ wf.steps, step.isMcpToolCall = false → ∀ value,
    step.get? "default_branch" = some value → ∃ target, value = .str target ∧ wf.Names target
  callDefault : ∀ step ∈ wf.steps, step.isCall = true → (step.get? "branches").isSome →
    (step.get? "default_branch").isSome
  mcpDefault : ∀ step ∈ wf.steps, ∀ target, step.get? "default_branch" = some (.str target) →
    wf.Names target
  forced : ∀ guardrails, wf.get? "guardrails" = some guardrails →
    ∃ items, guardrails = .list items ∧
    ∀ guardrail ∈ items, guardrail.get? "action" = some (.str "force_branch") → ∀ target,
      guardrail.get? "target_step" = some (.str target) → wf.Names target

section Loaded

variable {env : Env} {entries : Mapping} {steps ids : List Val} {wf : Workflow} {step : Step}

theorem Workflow.load_some {doc : Val} (loaded : Workflow.load doc = some wf) :
    ∃ (entries : Mapping) (steps : List Val), doc = .dict entries ∧
      entries.get? "steps" = some (.list steps) ∧
      List.Forall₂ (fun raw step => loadStep raw = some step) steps wf.steps ∧
      ∀ {key}, key ≠ "steps" → wf.get? key = entries.get? key := by
  cases doc with
  | dict entries =>
      simp only [Workflow.load] at loaded
      split at loaded
      · rename_i steps found
        split at loaded
        · rename_i first rest loads
          simp only [Option.some.injEq] at loaded
          subst loaded
          exact ⟨entries, steps, rfl, found, mapM_loadStep loads, fun differs =>
            loadFields_get differs⟩
        · simp at loaded
      · simp at loaded
  | _ => simp [Workflow.load] at loaded

theorem mapM_ok_forall₂ {α β : Type} {act : α → Except Exn β} {items : List α} {values : List β}
    (collected : items.mapM act = .ok values) :
    List.Forall₂ (fun item value => act item = .ok value) items values := by
  induction items generalizing values with
  | nil =>
      simp only [List.mapM_nil, pure, Except.pure, Except.ok.injEq] at collected
      subst collected
      exact .nil
  | cons item rest ih =>
      simp only [List.mapM_cons, except_bind_ok, pure, Except.pure, Except.ok.injEq] at collected
      obtain ⟨value, first, later, others, rfl⟩ := collected
      exact .cons first (ih others)

theorem forall₂_mem_right {α β : Type} {related : α → β → Prop} {lefts : List α} {rights : List β}
    (all : List.Forall₂ related lefts rights) {right : β} (member : right ∈ rights) :
    ∃ left ∈ lefts, related left right := by
  induction all with
  | nil => simp at member
  | cons holds _ ih =>
      rcases List.mem_cons.mp member with rfl | later
      · exact ⟨_, by simp, holds⟩
      · obtain ⟨left, isLeft, relates⟩ := ih later
        exact ⟨left, by simp [isLeft], relates⟩

theorem forall₂_mem_left {α β : Type} {related : α → β → Prop} {lefts : List α} {rights : List β}
    (all : List.Forall₂ related lefts rights) {left : α} (member : left ∈ lefts) :
    ∃ right ∈ rights, related left right := by
  obtain ⟨right, isRight, relates⟩ := forall₂_mem_right all.flip member
  exact ⟨right, isRight, relates⟩

theorem mem_mappedSteps {entry : Nat × Mapping} (member : entry ∈ mappedSteps steps) :
    Val.dict entry.2 ∈ steps := by
  obtain ⟨⟨raw, position⟩, indexed, isDict⟩ := List.mem_filterMap.mp member
  cases raw with
  | dict step =>
      simp only [Option.some.injEq] at isDict
      rw [← isDict]
      exact (List.mem_zipIdx' indexed).2 ▸ List.getElem_mem _
  | _ => simp at isDict

theorem mappedSteps_mem (member : Val.dict entries ∈ steps) :
    ∃ position, (position, entries) ∈ mappedSteps steps := by
  obtain ⟨position, bound, there⟩ := List.getElem_of_mem member
  refine ⟨position, List.mem_filterMap.mpr ⟨(.dict entries, position), ?_, rfl⟩⟩
  rw [List.mk_mem_zipIdx_iff_getElem?, ← there]
  exact List.getElem?_eq_getElem bound

theorem namesStep_names (idsEq : allStepIds steps = .ok ids)
    (loads : List.Forall₂ (fun raw step => loadStep raw = some step) steps wf.steps)
    {target : String}
    (named : namesStep ids target = true) : wf.Names target := by
  obtain ⟨id, isId, text⟩ := List.any_eq_true.mp named
  obtain ⟨entry, mapped, idEq⟩ := forall₂_mem_right (mapM_ok_forall₂ idsEq) isId
  rw [Val.isStr_iff] at text
  subst text
  obtain ⟨step, isStep, loaded⟩ := forall₂_mem_left loads (mem_mappedSteps mapped)
  obtain ⟨entries, same, from_⟩ := loadStep_some loaded
  rw [Val.dict.injEq] at same
  rw [same, from_.id_eq] at idEq
  exact ⟨step, isStep, by simpa using idEq⟩

theorem LoadedFrom.isMcp (from_ : LoadedFrom step entries) :
    isMcpMapping entries = step.isMcpToolCall := by
  rw [isMcpMapping, Step.isMcpToolCall, from_.get_eq (by simp)]

theorem LoadedFrom.has (from_ : LoadedFrom step entries) {key : String} (differs : key ≠ "id") :
    entries.has key = (step.get? key).isSome := by
  rw [from_.get_eq differs]
  rfl

theorem LoadedFrom.whenHas (from_ : LoadedFrom step entries) {key : String}
    {check : Val → List String} (differs : key ≠ "id") (passed : entries.whenHas key check = [])
    {value : Val}
    (found : step.get? key = some value) : check value = [] := by
  rw [from_.get_eq differs, Mapping.get?] at found
  simpa [Mapping.whenHas, found] using passed

/-- The checks of an `mcp_tool_call` step leave it without a call. -/
theorem validateStep_mcp {position : Nat} (from_ : LoadedFrom step entries)
    (passed : validateStep env position (.dict entries) = .ok [])
    (mcp : step.isMcpToolCall = true) :
    step.isCall = false := by
  simp only [validateStep, from_.isMcp, mcp, if_true, gather_ok_nil, List.forall_mem_cons] at passed
  have mutex : validateMutex entries (labelOf env entries (toString position)) = [] :=
    naming_ok_nil.mp (gather_ok_nil.mp passed.2.1 (naming entries _) (by simp))
  have uncalled := List.flatMap_eq_nil_iff.mp mutex ("call", "mcp_tool_call_with_call")
    (by simp [mcpMutexFields])
  rw [errorIf_nil, from_.has (by simp)] at uncalled
  exact uncalled

theorem validateStep_optional {position : Nat} (from_ : LoadedFrom step entries)
    (passed : validateStep env position (.dict entries) = .ok [])
    (plain : step.isMcpToolCall = false) :
    ∃ label, validateStepOptionalFields env entries label = .ok [] := by
  simp only [validateStep, from_.isMcp, plain, Bool.false_eq_true, if_false] at passed
  exact ⟨labelOf env entries (toString position), gather_ok_nil.mp passed _ (by simp)⟩

theorem eachItem_nil {items : List Val} {check : Nat → Val → List String}
    (passed : eachItem items check = []) {item : Val} (member : item ∈ items) :
    ∃ index, check index item = [] := by
  obtain ⟨index, bound, there⟩ := List.getElem_of_mem member
  refine ⟨index, List.flatMap_eq_nil_iff.mp passed (item, index) ?_⟩
  rw [List.mk_mem_zipIdx_iff_getElem?, ← there]
  exact List.getElem?_eq_getElem bound

theorem gather_zipIdx_nil {items : List Val} {check : Nat → Val → Check}
    (passed : gather (items.zipIdx.map fun entry => check entry.2 entry.1) = .ok []) {item : Val}
    (member : item ∈ items) :
    ∃ index, check index item = .ok [] := by
  obtain ⟨index, bound, there⟩ := List.getElem_of_mem member
  refine ⟨index, gather_ok_nil.mp passed _ (List.mem_map.mpr ⟨(item, index), ?_, rfl⟩)⟩
  rw [List.mk_mem_zipIdx_iff_getElem?, ← there]
  exact List.getElem?_eq_getElem bound

theorem validateBranch_nil {label : String} {index : Nat} {branch : Val}
    (passed : validateBranch label index branch = []) :
    ∃ target, branch.get? "next" = some (.str target) := by
  cases branch with
  | dict fields =>
      simp only [validateBranch, List.append_eq_nil_iff, errorIf_nil, Bool.not_eq_eq_eq_not,
        Bool.not_false]
        at passed
      cases found : Val.valueAt? fields "next" with
      | none => simp [Mapping.get?, found] at passed
      | some value =>
          cases value with
          | str target => exact ⟨target, found⟩
          | _ => simp [Mapping.get?, found, isString] at passed
  | _ => simp [validateBranch] at passed

theorem Val.item_of_get {value found : Val} {key : String} (there : value.get? key = some found) :
    value.item key = .ok found := by
  cases value with
  | dict entries =>
      have looked : Val.valueAt? entries key = some found := there
      simp [Val.item, looked]
  | _ => simp [Val.get?] at there

theorem Val.get?_of_item {value found : Val} {key : String} (there : value.item key = .ok found) :
    value.get? key = some found := by
  unfold Val.item at there
  split at there
  · rename_i entries
    split at there
    · rename_i entry looked
      rw [Except.ok.injEq] at there
      rw [Val.get?, looked, there]
    · simp at there
  · simp at there
  · simp at there
  · simp at there
  · simp at there

theorem StepsPass.checked {document : Mapping} (pass : StepsPass env document steps ids)
    (loads : List.Forall₂ (fun raw step => loadStep raw = some step) steps wf.steps)
    (fields : ∀ {key}, key ≠ "steps" → wf.get? key = document.get? key) : wf.Checked := by
  have source : ∀ step ∈ wf.steps, ∃ entries, LoadedFrom step entries ∧
    Val.dict entries ∈ steps := by
    intro step member
    obtain ⟨raw, isRaw, loaded⟩ := forall₂_mem_right loads member
    obtain ⟨entries, rfl, from_⟩ := loadStep_some loaded
    exact ⟨entries, from_, isRaw⟩
  have optional : ∀ step ∈ wf.steps, step.isMcpToolCall = false → ∃ entries label,
      LoadedFrom step entries ∧ Val.dict entries ∈ steps ∧
        validateStepOptionalFields env entries label = .ok [] := by
    intro step member plain
    obtain ⟨entries, from_, isRaw⟩ := source step member
    obtain ⟨position, passed⟩ := pass.own _ isRaw
    obtain ⟨label, checks⟩ := validateStep_optional from_ passed plain
    exact ⟨entries, label, from_, isRaw, checks⟩
  have targets : ∀ {entries : Mapping}, Val.dict entries ∈ steps →
    validateTargets env ids entries = [] := by
    intro entries member
    obtain ⟨position, mapped⟩ := mappedSteps_mem member
    exact pass.targets _ mapped
  have named : ∀ {target : String}, namesStep ids target = true → wf.Names target :=
    namesStep_names pass.ids_eq loads
  have mcpUncalled : ∀ step ∈ wf.steps, step.isMcpToolCall = true → step.isCall = false := by
    intro step member mcp
    obtain ⟨entries, from_, isRaw⟩ := source step member
    obtain ⟨position, passed⟩ := pass.own _ isRaw
    exact validateStep_mcp from_ passed mcp
  have defaulted : ∀ step ∈ wf.steps, ∀ target, step.get? "default_branch" = some (.str target) →
      wf.Names target := by
    intro step member target found
    obtain ⟨entries, from_, isRaw⟩ := source step member
    have passed := targets isRaw
    rw [from_.get_eq (by simp)] at found
    simp only [validateTargets, found, List.append_eq_nil_iff, errorIf_nil, Bool.not_eq_eq_eq_not,
      Bool.not_false] at passed
    exact named passed.2
  refine ⟨mcpUncalled, ?_, ?_, ?_, defaulted, ?_⟩
  · intro step member plain value found
    obtain ⟨entries, label, from_, isRaw, checks⟩ := optional step member plain
    have passed := targets isRaw
    have shaped := from_.whenHas (by simp)
      (naming_ok_nil.mp (gather_ok_nil.mp checks (naming entries (validateBranches entries label)) (by simp))) found
    rw [from_.get_eq (by simp)] at found
    cases value with
    | list branches =>
        simp only at shaped
        simp only [validateTargets, found, List.append_eq_nil_iff] at passed
        refine ⟨branches, rfl, ?_⟩
        intro branch isBranch
        obtain ⟨index, holds⟩ := eachItem_nil shaped isBranch
        obtain ⟨target, next⟩ := validateBranch_nil holds
        have exists_ := List.flatMap_eq_nil_iff.mp passed.1 branch isBranch
        simp only [next, errorIf_nil, Bool.not_eq_eq_eq_not, Bool.not_false] at exists_
        exact ⟨target, Val.item_of_get next, named exists_⟩
    | _ => simp at shaped
  · intro step member plain value found
    obtain ⟨entries, label, from_, isRaw, checks⟩ := optional step member plain
    have shaped := from_.whenHas (by simp)
      (naming_ok_nil.mp (gather_ok_nil.mp checks (naming entries (stringField entries label "default_branch")) (by simp))) found
    rw [errorIf_nil] at shaped
    cases value with
    | str target => exact ⟨target, rfl, defaulted step member target found⟩
    | _ => simp [isString] at shaped
  · intro step member call branches
    have plain : step.isMcpToolCall = false := by
      by_contra mcp
      simp [mcpUncalled step member (by simpa using mcp)] at call
    obtain ⟨entries, label, from_, isRaw, checks⟩ := optional step member plain
    obtain ⟨target, found⟩ := Option.isSome_iff_exists.mp call
    have shaped := from_.whenHas (by simp)
      (naming_ok_nil.mp (gather_ok_nil.mp checks (naming entries (validateCall entries label)) (by simp))) found
    have hasBranches : entries.has "branches" = true := (from_.has (by simp)).trans branches
    have hasDefault : entries.has "default_branch" = (step.get? "default_branch").isSome :=
      from_.has (by simp)
    simp only [List.append_eq_nil_iff, errorIf_nil, hasBranches, hasDefault, Bool.true_and,
      Bool.not_eq_eq_eq_not, Bool.not_false] at shaped
    exact shaped.2
  · intro guardrails found
    rw [fields (by simp)] at found
    have passed := pass.guardrails
    simp only [validateGuardrails, found] at passed
    cases guardrails with
    | list items =>
        refine ⟨items, rfl, ?_⟩
        intro guardrail member forces target aims
        obtain ⟨index, bound, there⟩ := List.getElem_of_mem member
        have holds : validateGuardrail env ids index guardrail = .ok [] := by
          refine gather_ok_nil.mp passed _ (List.mem_map.mpr ⟨(guardrail, index), ?_, rfl⟩)
          rw [List.mk_mem_zipIdx_iff_getElem?, ← there]
          exact List.getElem?_eq_getElem bound
        cases guardrail with
        | dict fields =>
            simp only [Val.get?] at forces aims
            simp only [validateGuardrail, gather_ok_nil, List.forall_mem_cons, Mapping.get?, forces,
              aims] at holds
            have aimed := Except.ok.inj holds.2.2.2.1
            simp only [Option.map_some, Val.isStr_str, beq_self_eq_true, Option.getD_some, if_true,
              errorIf_nil, Bool.not_eq_eq_eq_not, Bool.not_false] at aimed
            exact named aimed
        | _ => simp [Val.get?] at forces
    | _ => simp at passed

end Loaded

theorem loadWorkflow_checked {env : Env} {registry : Option Registry} {stem : String}
    {raw doc : Val} {wf : Workflow} (passed : loadWorkflow env registry stem raw = .ok doc)
    (loads : Workflow.load doc = some wf) : wf.Checked := by
  obtain ⟨entries, steps, ids, rfl, stepsOf, pass⟩ := loadWorkflow_pass passed
  obtain ⟨entries', steps', same, stepsOf', loadsSteps, fields⟩ := Workflow.load_some loads
  rw [Val.dict.injEq] at same
  subst same
  rw [stepsOf, Option.some.injEq, Val.list.injEq] at stepsOf'
  subst stepsOf'
  exact pass.checked loadsSteps fields

/-- What holds of every workflow that validates holds of those the loop collects. -/
theorem loadFiles_each {env : Env} {property : Workflow → Prop} {files : List (String × Val)}
    {start deployment : Deployment} (loaded : loadFiles env files start = .ok (some deployment))
    (each : ∀ stem raw doc wf, loadWorkflow env start.registry stem raw = .ok doc →
      Workflow.load doc = some wf →
      property wf)
    (before : ∀ name wf, start.workflows.get? name = some wf → property wf) :
    ∀ name wf, deployment.workflows.get? name = some wf → property wf := by
  induction files generalizing start with
  | nil =>
      simp only [loadFiles, Except.ok.injEq, Option.some.injEq] at loaded
      subst loaded
      exact before
  | cons file rest ih =>
      obtain ⟨stem, raw⟩ := file
      simp only [loadFiles] at loaded
      split at loaded
      · simp at loaded
      rename_i doc passed
      split at loaded
      · rename_i wf name loads _
        refine ih loaded each ?_
        intro other otherWf found
        rw [Dict.get?_set] at found
        split at found
        · rw [Option.some.injEq] at found
          subst found
          exact each stem raw doc wf passed loads
        · exact before other otherWf found
      · simp at loaded

/-- What `create_app` accepts came out of its loop over the files. -/
theorem Deployment.Accepted.loads {env : Env} {deployment : Deployment}
    (accepted : deployment.Accepted env) :
    ∃ files, loadFiles env files ⟨Table.empty, Table.empty, deployment.registry,
      deployment.caller⟩ =
      .ok (some deployment) := by
  obtain ⟨files, created⟩ := accepted
  refine ⟨files, ?_⟩
  simp only [createApp] at created
  split at created
  · rename_i built loads
    split at created
    · simp at created
    · split at created
      · simp at created
      · simp only [Except.ok.injEq, Option.some.injEq] at created
        subst created
        exact loads
  · rename_i other
    rw [created] at other
    simp at other

theorem Deployment.Accepted.each {env : Env} {deployment : Deployment} {property : Workflow → Prop}
    (accepted : deployment.Accepted env)
    (each : ∀ stem raw doc wf, loadWorkflow env deployment.registry stem raw = .ok doc →
      Workflow.load doc = some wf → property wf)
    {name : String} {wf : Workflow} (loaded : deployment.workflows.get? name = some wf) :
    property wf := by
  obtain ⟨files, loads⟩ := accepted.loads
  exact loadFiles_each loads each (fun other otherWf found => by simp at found) name wf loaded

theorem Deployment.Accepted.checked {env : Env} {deployment : Deployment}
    (accepted : deployment.Accepted env) {name : String} {wf : Workflow}
    (loaded : deployment.workflows.get? name = some wf) : wf.Checked :=
  accepted.each (fun _ _ _ _ passed loads => loadWorkflow_checked passed loads) loaded

theorem loadFiles_fingerprinted {env : Env} {files : List (String × Val)}
    {start deployment : Deployment} (loaded : loadFiles env files start = .ok (some deployment))
    (before : ∀ name, (start.workflows.get? name).isSome →
      (start.workflowFingerprints.get? name).isSome) :
    ∀ name, (deployment.workflows.get? name).isSome →
      (deployment.workflowFingerprints.get? name).isSome := by
  induction files generalizing start with
  | nil =>
      simp only [loadFiles, Except.ok.injEq, Option.some.injEq] at loaded
      subst loaded
      exact before
  | cons file rest ih =>
      obtain ⟨stem, raw⟩ := file
      simp only [loadFiles] at loaded
      split at loaded
      · simp at loaded
      split at loaded
      · refine ih loaded ?_
        intro other
        rw [Dict.get?_set, Dict.get?_set]
        split
        · simp
        · exact before other
      · simp at loaded

theorem Deployment.Accepted.fingerprinted {env : Env} {deployment : Deployment}
    (accepted : deployment.Accepted env) {name : String}
    (loaded : (deployment.workflows.get? name).isSome) :
    (deployment.workflowFingerprints.get? name).isSome := by
  obtain ⟨files, loads⟩ := accepted.loads
  exact loadFiles_fingerprinted loads (fun other found => by simp at found) name loaded

end Megalos
