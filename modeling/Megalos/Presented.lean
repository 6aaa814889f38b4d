import Megalos.Keys
import Megalos.Reshaping
import Megalos.Validated

/-!
What a validated step gives a response to show.  Every step but an `mcp_tool_call` has
its prompt; the injected context can still name a field by a value that is no key.
-/

namespace Megalos

variable {env : Env} {registry : Option Registry} {wf : Workflow} {step : Step} {data : StepData}

/-- What validation promises about the fields that responses read. -/
structure Workflow.Presentable (wf : Workflow) : Prop where
  named : (wf.get? "name").isSome
  repair : ∀ value, wf.get? "conversation_repair" = some value → ∃ entries, value = .dict entries
  titled : ∀ step ∈ wf.steps, (step.get? "title").isSome
  prompted : ∀ step ∈ wf.steps, step.isMcpToolCall = false →
    (step.get? "directive_template").isSome ∧ (step.get? "gates").isSome
  silent : ∀ step ∈ wf.steps, step.isMcpToolCall = true → step.get? "directive_template" = none
  injects : ∀ step ∈ wf.steps, step.isMcpToolCall = false →
    ∀ value, step.get? "inject_context" = some value →
    ∃ entries, value = .list entries ∧ ∀ entry ∈ entries, ∃ source,
      entry.item "from" = .ok (.str source) ∧
        ∀ names, entry.get? "fields" = some names → ∃ items, names = .list items

/-- The content can be injected: it is JSON or refused as no JSON, and the fields of an object are
named by keys. -/
def EntryInjectable (env : Env) (entry : Val) (raw : String) : Prop :=
  Contained (env.loads raw) ∧ ∀ parsed names, env.loads raw = .ok (.dict parsed) →
    entry.get? "fields" = some (.list names) → ∀ name ∈ names, name.Hashable

def Step.Injectable (env : Env) (step : Step) (data : StepData) : Prop :=
  ∀ entries, step.get? "inject_context" = some (.list entries) → ∀ entry ∈ entries,
    ∀ source raw, entry.item "from" = .ok (.str source) → data.get? source = some raw →
      EntryInjectable env entry raw

theorem missingKeys_has {entries : Mapping} {position : Nat} {kind key : String}
    {required : List String} (passed : missingKeys env entries position kind required = [])
    (member : key ∈ required) :
    entries.has key = true := by
  unfold missingKeys at passed
  rw [errorIf_nil, Bool.not_eq_false', List.isEmpty_iff, List.filter_eq_nil_iff] at passed
  simpa using passed key member

theorem validateInjectEntry_nil {label : String} {index : Nat} {entry : Val}
    (passed : validateInjectEntry label index entry = []) :
    ∃ source, entry.item "from" = .ok (.str source) ∧
      ∀ names, entry.get? "fields" = some names → ∃ items, names = .list items := by
  cases entry with
  | dict mapping =>
      simp only [validateInjectEntry, List.append_eq_nil_iff] at passed
      obtain ⟨⟨source, names⟩, -⟩ := passed
      cases from? : Mapping.get? mapping "from" with
      | none => simp [from?] at source
      | some origin =>
      rw [from?] at source
      dsimp only at source
      rw [errorIf_nil] at source
      cases origin with
      | str text =>
          refine ⟨text, Val.item_of_get from?, ?_⟩
          intro value found
          have isList := whenHas_nil.mp names value found
          dsimp only at isList
          rw [errorIf_nil] at isList
          cases value with
          | list items => exact ⟨items, rfl⟩
          | _ => simp [Megalos.isList] at isList
      | _ => simp [isString] at source
  | _ => simp [validateInjectEntry] at passed

theorem Workflow.Validated.presentable (validated : wf.Validated env registry) :
    wf.Presentable := by
  have own : ∀ step ∈ wf.steps, ∃ entries position, LoadedFrom step entries ∧
      validateStep env position (.dict entries) = .ok [] := by
    intro step member
    obtain ⟨entries, position, -, -, from_, passed, -, -⟩ := validated.source member
    exact ⟨entries, position, from_, passed⟩
  obtain ⟨stem, raw, doc, loaded, loads⟩ := validated
  obtain ⟨entries, steps, -, found, -, head, -, kept⟩ :=
    validateWorkflow_ok_nil.mp (loadWorkflow_ok.mp loaded)
  rw [Option.some.injEq] at kept
  obtain ⟨document, raws, isDoc, foundRaws, each, fields⟩ := Workflow.load_some loads
  rw [kept, Val.dict.injEq] at isDoc
  subst isDoc
  obtain ⟨-, repair, keys⟩ := validateHead_ok_nil.mp head
  refine ⟨?_, ?_, ?_, ?_, ?_, ?_⟩
  · rw [fields (by simp), withSchemaVersion_get? (by simp)]
    exact keys "name" (by simp)
  · intro value there
    rw [fields (by simp), withSchemaVersion_get? (by simp)] at there
    obtain ⟨entries, isDict, -⟩ := validateRepair_ok_nil repair value there
    exact ⟨entries, isDict⟩
  · intro step member
    obtain ⟨entries, position, from_, passed⟩ := own step member
    rw [← from_.has (by simp)]
    unfold validateStep at passed
    dsimp only at passed
    split at passed
    · have missing := gather_ok_nil.mp passed (naming entries _) (List.mem_cons_self ..)
      exact missingKeys_has (naming_ok_nil.mp missing) (by simp [requiredStepKeysMcp])
    · have missing := gather_ok_nil.mp passed (naming entries _) (List.mem_cons_self ..)
      exact missingKeys_has (naming_ok_nil.mp missing) (by simp [requiredStepKeys])
  · intro step member plain
    obtain ⟨entries, position, from_, passed⟩ := own step member
    simp only [validateStep, from_.isMcp, plain, Bool.false_eq_true, if_false] at passed
    have missing := gather_ok_nil.mp passed (naming entries _) (List.mem_cons_self ..)
    rw [← from_.has (by simp), ← from_.has (by simp)]
    exact ⟨missingKeys_has (naming_ok_nil.mp missing) (by simp [requiredStepKeys]),
      missingKeys_has (naming_ok_nil.mp missing) (by simp [requiredStepKeys])⟩
  · intro step member mcp
    obtain ⟨entries, position, from_, passed⟩ := own step member
    simp only [validateStep, from_.isMcp, mcp, if_true, gather_ok_nil,
      List.forall_mem_cons] at passed
    have mutex : validateMutex entries (labelOf env entries (toString position)) = [] :=
      naming_ok_nil.mp (gather_ok_nil.mp passed.2.1 (naming entries _) (by simp))
    have absent := List.flatMap_eq_nil_iff.mp mutex
      ("directive_template", "mcp_tool_call_with_directive_template") (by simp [mcpMutexFields])
    rw [errorIf_nil, from_.has (by simp)] at absent
    simpa using absent
  · intro step member plain value there
    obtain ⟨entries, position, from_, passed⟩ := own step member
    obtain ⟨label, optional⟩ := validateStep_optional from_ passed plain
    have checked : validateInjectContext entries label = [] :=
      naming_ok_nil.mp (gather_ok_nil.mp optional (naming entries _) (by simp))
    have injected := from_.whenHas (by simp) checked there
    cases value with
    | list items =>
        refine ⟨items, rfl, ?_⟩
        intro entry isEntry
        obtain ⟨index, one⟩ := eachItem_nil injected isEntry
        exact validateInjectEntry_nil one
    | _ => simp at injected

theorem Deployment.Accepted.presentable {deployment : Deployment}
    (accepted : deployment.Accepted env) {name : String}
    (loaded : deployment.workflows.get? name = some wf) : wf.Presentable :=
  (accepted.validated loaded).presentable

theorem isOk_iff {α : Type} {result : Except Exn α} :
    result.isOk = true ↔ ∃ value, result = .ok value := by
  cases result <;> simp [Except.isOk, Except.toBool]

theorem isOk_bind {α β : Type} {first : Except Exn α} {next : α → Except Exn β} :
    (first >>= next).isOk = true ↔ ∃ value, first = .ok value ∧ (next value).isOk = true := by
  cases first <;> simp [Except.isOk, Except.toBool]

theorem fieldItem_isOk {fields : List (String × Val)} {key : String} :
    (fieldItem fields key).isOk = (field? fields key).isSome := by
  unfold fieldItem
  cases field? fields key <;> rfl

namespace Workflow.Presentable

theorem stepRef (presentable : wf.Presentable) (member : step ∈ wf.steps) (withTarget : Bool) :
    (Megalos.stepRef step withTarget).isOk = true := by
  obtain ⟨title, titled⟩ := Option.isSome_iff_exists.mp (presentable.titled step member)
  unfold Megalos.stepRef Step.item
  rw [isOk_bind]
  exact ⟨title, by rw [fieldItem, show field? step.fields "title" = some title from titled], rfl⟩

theorem repairFor (presentable : wf.Presentable) : (Megalos.repairFor wf).isOk = true := by
  unfold Megalos.repairFor
  cases given : wf.get? "conversation_repair" with
  | none => rfl
  | some value =>
      obtain ⟨entries, rfl⟩ := presentable.repair value given
      dsimp only
      split <;> rfl

theorem promptFields (presentable : wf.Presentable) (member : step ∈ wf.steps) :
    (Megalos.promptFields wf step).isOk = !step.isMcpToolCall := by
  unfold Megalos.promptFields
  cases mcp : step.isMcpToolCall with
  | true =>
      have unprompted : step.item "directive_template" =
        .error (.uncaught "KeyError" "'directive_template'") := by
        have absent : field? step.fields "directive_template" = none :=
          presentable.silent step member mcp
        rw [Step.item, fieldItem, absent]
        rfl
      rw [unprompted]
      rfl
  | false =>
      obtain ⟨directive, gates⟩ := presentable.prompted step member mcp
      rw [Bool.not_false, isOk_bind]
      obtain ⟨text, isText⟩ := isOk_iff.mp (fieldItem_isOk.trans directive)
      refine ⟨text, isText, ?_⟩
      rw [isOk_bind]
      obtain ⟨repair, isRepair⟩ := isOk_iff.mp presentable.repairFor
      refine ⟨repair, isRepair, ?_⟩
      rw [isOk_bind]
      obtain ⟨gated, isGated⟩ := isOk_iff.mp (fieldItem_isOk.trans gates)
      exact ⟨gated, isGated, rfl⟩

/-- A validated step can be handed out unless it is an `mcp_tool_call`. -/
theorem presents (presentable : wf.Presentable) (member : step ∈ wf.steps) :
    Megalos.presents wf step = !step.isMcpToolCall := by
  rw [Megalos.presents, presentable.stepRef member, presentable.promptFields member, Bool.true_and]

end Workflow.Presentable

theorem mapM_isOk {α β : Type} {act : α → Except Exn β} {items : List α} :
    (items.mapM act).isOk = true ↔ ∀ item ∈ items, (act item).isOk = true := by
  constructor
  · intro all item member
    obtain ⟨values, collected⟩ := isOk_iff.mp all
    obtain ⟨value, -, done⟩ := forall₂_mem_left (mapM_ok_forall₂ collected) member
    exact isOk_iff.mpr ⟨value, done⟩
  · intro each
    exact isOk_iff.mpr (mapM_ok fun item member => isOk_iff.mp (each item member))

theorem hashed_isOk {value : Val} : (hashed value).isOk = true ↔ value.Hashable := by
  cases value <;> simp [hashed, Val.Hashable, Except.isOk, Except.toBool]

/-- An entry is refused only for content that `json.loads` chokes on and for the names it looks up
in a JSON object. -/
theorem contextEntry_isOk {entry : Val} {source : String}
    (origin : entry.item "from" = .ok (.str source))
    (listed : ∀ names, entry.get? "fields" = some names → ∃ items, names = .list items) :
    (contextEntry env data entry).isOk = true ↔ ∀ raw, data.get? source = some raw →
      EntryInjectable env entry raw := by
  unfold contextEntry
  rw [origin, StatefulProgram.ok_bind]
  dsimp only
  cases stored : data.get? source with
  | none => exact iff_of_true rfl fun _ found => nomatch found
  | some raw =>
  simp only [Option.some.injEq, forall_eq', EntryInjectable, contained_iff]
  cases read : env.tryLoads raw with
  | error raised => simp [StatefulProgram.error_bind, Except.isOk, Except.toBool]
  | ok content =>
  simp only [StatefulProgram.ok_bind, Except.ok.injEq, exists_eq', true_and]
  -- nothing is looked up unless the content is an object
  have plain : ∀ {result : Except Exn Val}, result.isOk = true →
    (∀ parsed, content ≠ .ok (.dict parsed)) →
      (result.isOk = true ↔ ∀ parsed names, env.loads raw = .ok (.dict parsed) →
        entry.get? "fields" = some (.list names) → ∀ name ∈ names, name.Hashable) := by
    intro result answers no
    refine iff_of_true answers ?_
    intro parsed names isObject
    rw [tryLoads_parsed.mpr isObject, Except.ok.injEq] at read
    exact absurd read.symm (no parsed)
  cases given : entry.get? "fields" with
  | none => exact iff_of_true rfl fun _ _ _ found => nomatch found
  | some names =>
  obtain ⟨items, rfl⟩ := listed names given
  rw [given] at plain
  cases content with
  | error message =>
      refine plain ?_ fun parsed => by simp
      split
      · contradiction
      · rfl
  | ok value =>
  cases value with
  | dict parsed =>
      have names : (∀ entries names, env.loads raw = .ok (.dict entries) →
          some (Val.list items) = some (.list names) → ∀ name ∈ names, name.Hashable) ↔
          ∀ name ∈ items, name.Hashable := by
        constructor
        · exact fun all => all parsed items (tryLoads_parsed.mp read) rfl
        · rintro all entries names - given
          rw [Option.some.injEq, Val.list.injEq] at given
          exact given ▸ all
      rw [names]
      cases items with
      | nil => exact iff_of_true rfl fun name member => nomatch member
      | cons first rest =>
          have truthy : (Val.list (first :: rest)).truthy = true := rfl
          simp only [Option.getD_some, truthy, Val.iter, StatefulProgram.ok_bind]
          rw [isOk_bind]
          simp only [← hashed_isOk]
          rw [← mapM_isOk, isOk_iff]
          refine exists_congr fun keys => ?_
          exact ⟨fun found => found.1, fun found => ⟨found, rfl⟩⟩
  | _ =>
      refine plain ?_ fun parsed => by simp
      split
      · rename_i isObject
        cases isObject
      · rfl

namespace Workflow.Presentable

theorem injectedFields_iff (presentable : wf.Presentable) (member : step ∈ wf.steps)
    (plain : step.isMcpToolCall = false) :
    (injectedFields env step data).isOk = true ↔ step.Injectable env data := by
  unfold injectedFields Step.Injectable
  cases given : step.get? "inject_context" with
  | none =>
      have unflagged : step.flag "inject_context" = false := by simp [Step.flag, given]
      rw [unflagged]
      exact iff_of_true rfl fun _ found => nomatch found
  | some value =>
      obtain ⟨entries, rfl, reads⟩ := presentable.injects step member plain value given
      have single : (∀ others, some (Val.list entries) = some (.list others) → ∀ entry ∈ others,
          ∀ source raw, entry.item "from" = .ok (.str source) → data.get? source = some raw →
            EntryInjectable env entry raw) ↔ ∀ entry ∈ entries,
              (contextEntry env data entry).isOk = true := by
        constructor
        · intro all entry isEntry
          obtain ⟨source, origin, listed⟩ := reads entry isEntry
          exact (contextEntry_isOk origin listed).mpr fun raw =>
            all entries rfl entry isEntry source raw origin
        · intro all others same entry isEntry source raw origin
          rw [Option.some.injEq, Val.list.injEq] at same
          obtain ⟨_, -, listed⟩ := reads entry (same ▸ isEntry)
          exact (contextEntry_isOk origin listed).mp (all entry (same ▸ isEntry)) raw
      rw [single, ← mapM_isOk]
      have flagged : step.flag "inject_context" = !entries.isEmpty :=
        by simp [Step.flag, given, Val.truthy]
      rw [flagged]
      cases entries with
      | nil => exact iff_of_true rfl rfl
      | cons first rest =>
          simp only [List.isEmpty_cons, Bool.not_false, if_true, optionVal, Option.getD_some,
            assembleContext, Val.iter, StatefulProgram.ok_bind]
          rw [isOk_bind, isOk_iff]
          constructor
          · rintro ⟨_, assembled, -⟩
            obtain ⟨shown, all, -⟩ := except_bind_ok.mp assembled
            exact ⟨shown, all⟩
          · rintro ⟨shown, all⟩
            exact ⟨.list shown, except_bind_ok.mpr ⟨shown, all, rfl⟩, rfl⟩

theorem guided_iff (presentable : wf.Presentable) (member : step ∈ wf.steps) :
    (guidanceFields env wf step data).isOk = true ↔ step.isMcpToolCall = false ∧
      step.Injectable env data := by
  unfold guidanceFields
  rw [isOk_bind]
  cases mcp : step.isMcpToolCall with
  | true =>
      have unprompted := presentable.promptFields member
      rw [mcp] at unprompted
      refine iff_of_false ?_ (by simp)
      rintro ⟨prompt, prompted, -⟩
      rw [prompted] at unprompted
      cases unprompted
  | false =>
      have prompted := presentable.promptFields member
      rw [mcp] at prompted
      obtain ⟨prompt, isPrompt⟩ := isOk_iff.mp prompted
      rw [← presentable.injectedFields_iff member mcp, isOk_iff]
      constructor
      · rintro ⟨_, -, answers⟩
        obtain ⟨injected, there, -⟩ := isOk_bind.mp answers
        exact ⟨rfl, injected, there⟩
      · rintro ⟨-, injected, there⟩
        exact ⟨prompt, isPrompt, isOk_bind.mpr ⟨injected, there, rfl⟩⟩

end Workflow.Presentable

/-- `pop_flow` has its response unless the session below stands at a step without guidance. -/
theorem Workflow.Presentable.resumes_iff {session : Session} (presentable : wf.Presentable) :
    resumes env wf session = true ↔ (session.currentStep ≠ complete → ∀ idx step,
      findStep wf (.str session.currentStep) = some (idx, step) →
        step.isMcpToolCall = false ∧ step.Injectable env session.stepData) := by
  unfold resumes
  by_cases done : session.currentStep = complete
  · simp [done]
  rw [if_neg done]
  cases at_ : findStep wf (.str session.currentStep) with
  | none => simp
  | some entry =>
      obtain ⟨idx, step⟩ := entry
      have member := findStep_mem at_
      dsimp only
      rw [presentable.stepRef member, Bool.true_and, presentable.guided_iff member]
      constructor
      · rintro guided - otherIdx other same
        simp only [Option.some.injEq, Prod.mk.injEq] at same
        obtain ⟨rfl, rfl⟩ := same
        exact guided
      · exact fun guided => guided done idx step rfl

end Megalos
