import Megalos.Accepted
import Megalos.AutoRun

/-!
What validation promises about running a workflow: which preconditions can be evaluated,
and that the steps of the server can be executed.
-/

namespace Megalos

open KeyedTable

/-- Either a value, or the cascade that the callers of the evaluator expect. -/
def Calm {α : Type} (result : Except Exn α) : Prop :=
  ∀ raised, result = .error raised → ∃ sid referencing, raised = .skippedPredecessor sid referencing

theorem Calm.ok {α : Type} {value : α} : Calm (.ok value : Except Exn α) := by
  intro raised same
  simp at same

theorem Calm.cascade {α : Type} {sid referencing : String} :
    Calm (.error (.skippedPredecessor sid referencing) : Except Exn α) := by
  intro raised same
  rw [Except.error.injEq] at same
  exact ⟨sid, referencing, same.symm⟩

theorem Calm.bind {α β : Type} {first : Except Exn α} {next : α → Except Exn β} (calm : Calm first)
    (rest : ∀ value, first = .ok value → Calm (next value)) : Calm (first >>= next) := by
  cases first with
  | error raised =>
      obtain ⟨sid, referencing, rfl⟩ := calm raised rfl
      exact .cascade
  | ok value => exact rest value rfl

/-- The single workflow, as `load_workflow` accepts it. -/
def Workflow.Validated (env : Env) (registry : Option Registry) (wf : Workflow) : Prop :=
  ∃ stem raw doc, loadWorkflow env registry stem raw = .ok doc ∧ Workflow.load doc = some wf

theorem Deployment.Accepted.validated {env : Env} {deployment : Deployment}
    (accepted : deployment.Accepted env) {name : String} {wf : Workflow}
    (loaded : deployment.workflows.get? name = some wf) :
    wf.Validated env deployment.registry :=
  accepted.each (fun stem raw doc _ passed loads => ⟨stem, raw, doc, passed, loads⟩) loaded

def HasSegment (ref : String) : Prop := ∃ first sid path, splitPath ref = first :: sid :: path

/-- Content under which the ref resolves, to which `value` would be compared. -/
def Resolvable (env : Env) (ref : String) : Prop :=
  ∃ first sid path, splitPath ref = first :: sid :: path ∧
    (path = [] ∨ ∃ raw value, env.loads raw = .ok value ∧ (descend path value).isSome)

inductive Evaluable (env : Env) : Val → Prop
  | equals {entries we : Mapping} {ref : String}
      (equals : Val.valueAt? entries "when_equals" = some (.dict we))
      (refers : Val.valueAt? we "ref" = some (.str ref)) (segment : HasSegment ref)
      (compared : Resolvable env ref → (Val.valueAt? we "value").isSome) :
        Evaluable env (.dict entries)
  | present {entries : Mapping} {ref : String} (other : Val.valueAt? entries "when_equals" = none)
      (refers : Val.valueAt? entries "when_present" = some (.str ref)) (segment : HasSegment ref) :
      Evaluable env (.dict entries)

def refStep (ref : String) : String := (splitPath ref).getD 1 ""

/-- What a ref resolves to; `none` is absent. -/
def refValue (env : Env) (data : StepData) (ref : String) : Option Val :=
  match data.get? (refStep ref), (splitPath ref).drop 2 with
  | none, _ => none
  | some raw, [] => some (.str raw)
  | some raw, path =>
      match env.loads raw with
      | .error _ => none
      | .ok value => descend path value

def GoesBelow (ref sid : String) : Prop := refStep ref = sid ∧ (splitPath ref).drop 2 ≠ []

/-- The content that the ref goes below, if any, is JSON or refused as no JSON. -/
def LegibleAt (env : Env) (data : StepData) (ref : String) : Prop :=
  ∀ sid raw, GoesBelow ref sid → data.get? sid = some raw → Contained (env.loads raw)

/-- A precondition that the evaluator can read on this step data. -/
inductive Readable (env : Env) (data : StepData) : Val → Prop
  | equals {entries we : Mapping} {ref : String}
      (equals : Val.valueAt? entries "when_equals" = some (.dict we))
      (refers : Val.valueAt? we "ref" = some (.str ref)) (segment : HasSegment ref)
      (legible : LegibleAt env data ref)
      (compared : (refValue env data ref).isSome → (Val.valueAt? we "value").isSome) :
        Readable env data (.dict entries)
  | present {entries : Mapping} {ref : String} (other : Val.valueAt? entries "when_equals" = none)
      (refers : Val.valueAt? entries "when_present" = some (.str ref)) (segment : HasSegment ref) :
      Readable env data (.dict entries)

/-- The precondition compares a value below the content of the step. -/
def ComparesBelow (pc : Val) (sid : String) : Prop :=
  ∃ we ref, pc.get? "when_equals" = some we ∧ we.get? "ref" = some (.str ref) ∧ GoesBelow ref sid

inductive Val.HasLeaf (text : String) : Val → Prop
  | here : HasLeaf text (.str text)
  | item {items : List Val} {item : Val} (member : item ∈ items) (leaf : HasLeaf text item) :
      HasLeaf text (.list items)
  | entry {entries : List (Val × Val)} {entry : Val × Val} (member : entry ∈ entries)
      (leaf : HasLeaf text entry.2) : HasLeaf text (.dict entries)

/-- The step reads below the content of the other one: in its precondition, or in the arguments of
its tool. -/
inductive Step.ReadsBelow (step : Step) (sid : String) : Prop
  | compares {pc : Val} (guarded : step.precondition = some pc) (below : ComparesBelow pc sid) :
      ReadsBelow step sid
  | passes {args : Val} {text ref : String} (mcp : step.isMcpToolCall = true)
      (isArgs : step.get? "args" = some args)
      (leaf : args.HasLeaf text) (isRef : refInner text = some ref) (below : GoesBelow ref sid) :
        ReadsBelow step sid

/-- Every content that a step of the workflow reads below is JSON or refused as no JSON. -/
def Workflow.Legible (env : Env) (wf : Workflow) (data : StepData) : Prop :=
  ∀ step ∈ wf.steps, ∀ sid raw, step.ReadsBelow sid → data.get? sid = some raw →
    Contained (env.loads raw)

/-- The timeout of the step, if it is an integer, is not too large for a float. -/
def Step.TimeoutFits (step : Step) : Prop :=
  ∀ value, step.get? "timeout" = some (.int value) → |value| < Binary64.overflow

variable {env : Env} {registry : Option Registry} {wf : Workflow} {step : Step} {data : StepData}
  {skipped : List String} {referencing : String}

theorem refStep_eq {ref first sid : String} {path : List String}
    (parts : splitPath ref = first :: sid :: path) :
    refStep ref = sid := by
  rw [refStep, parts]
  rfl

/-- A ref with a segment to name a step by: a cascade, or its value, unless the content below it
cannot be read. -/
theorem resolveRef_eq {ref : String} (segment : HasSegment ref) (legible : LegibleAt env data ref) :
    resolveRef env (.str ref) data skipped referencing =
      if refStep ref ∈ skipped then .error (.skippedPredecessor (refStep ref) referencing)
      else .ok (refValue env data ref) := by
  obtain ⟨first, sid, path, parts⟩ := segment
  have isStep := refStep_eq parts
  unfold resolveRef refValue
  simp only [refParts, parts, StatefulProgram.ok_bind, isStep, List.drop_succ_cons, List.drop_zero]
  by_cases isSkipped : sid ∈ skipped
  · rw [if_pos isSkipped, if_pos isSkipped]
    rfl
  · rw [if_neg isSkipped, if_neg isSkipped]
    simp only [pure, Except.pure]
    cases found : data.get? sid with
    | none => rfl
    | some raw =>
        cases path with
        | nil => rfl
        | cons segment path =>
            have below : GoesBelow ref sid := ⟨isStep, by simp [parts]⟩
            obtain ⟨read, isRead⟩ := contained_iff.mp (legible sid raw below found)
            simp only [List.isEmpty_cons, Bool.false_eq_true, if_false, isRead,
              StatefulProgram.ok_bind]
            cases read with
            | ok value => rw [tryLoads_parsed.mp isRead]
            | error message =>
                cases loaded : env.loads raw with
                | ok value => rw [tryLoads_parsed.mpr loaded] at isRead; cases isRead
                | error refused => rfl

/-- A ref to a skipped step is a cascade, whatever its content. -/
theorem resolveRef_skipped {ref : String} (segment : HasSegment ref)
    (isSkipped : refStep ref ∈ skipped) :
    resolveRef env (.str ref) data skipped referencing =
      .error (.skippedPredecessor (refStep ref) referencing) := by
  obtain ⟨first, sid, path, parts⟩ := segment
  rw [refStep_eq parts] at isSkipped ⊢
  unfold resolveRef
  simp only [refParts, parts, StatefulProgram.ok_bind, isSkipped, if_true]
  rfl

theorem resolveRef_calm {ref : String} (segment : HasSegment ref)
    (legible : LegibleAt env data ref) :
    Calm (resolveRef env (.str ref) data skipped referencing) := by
  rw [resolveRef_eq segment legible]
  split
  · exact .cascade
  · exact .ok

theorem resolvable_of_value {ref : String} (segment : HasSegment ref)
    (valued : (refValue env data ref).isSome) :
    Resolvable env ref := by
  obtain ⟨first, sid, path, parts⟩ := segment
  refine ⟨first, sid, path, parts, ?_⟩
  cases path with
  | nil => exact .inl rfl
  | cons segment path =>
      simp only [refValue, parts, List.drop_succ_cons, List.drop_zero] at valued
      split at valued
      · simp at valued
      · rename_i none
        cases none
      · rename_i raw _ _
        split at valued
        · simp at valued
        · rename_i value loads
          exact .inr ⟨raw, value, loads, valued⟩

theorem ComparesBelow.of_equals {entries we : Mapping} {ref sid : String}
    (equals : Val.valueAt? entries "when_equals" = some (.dict we))
    (refers : Val.valueAt? we "ref" = some (.str ref))
    (below : GoesBelow ref sid) : ComparesBelow (.dict entries) sid :=
      ⟨.dict we, ref, equals, refers, below⟩

/-- What can be read on some step data can be read on all that has legible contents. -/
theorem Evaluable.readable {pc : Val} (evaluable : Evaluable env pc)
    (legible : ∀ sid raw, ComparesBelow pc sid → data.get? sid = some raw →
      Contained (env.loads raw)) :
    Readable env data pc := by
  cases evaluable with
  | equals equals refers segment compared =>
      refine .equals equals refers segment ?_ fun valued =>
        compared (resolvable_of_value segment valued)
      exact fun sid raw below found => legible sid raw (.of_equals equals refers below) found
  | present other refers segment => exact .present other refers segment

theorem Readable.legible {pc : Val} {sid raw : String} (readable : Readable env data pc)
    (below : ComparesBelow pc sid) (found : data.get? sid = some raw) :
    Contained (env.loads raw) := by
  obtain ⟨we, ref, equals, refers, goes⟩ := below
  cases readable with
  | equals isWe isRef segment legible compared =>
      rw [show Val.valueAt? _ "when_equals" = some we from equals, Option.some.injEq] at isWe
      subst isWe
      rw [show Val.valueAt? _ "ref" = some (.str ref) from refers, Option.some.injEq,
        Val.str.injEq] at isRef
      exact legible sid raw (isRef ▸ goes) found
  | present other =>
      rw [show Val.valueAt? _ "when_equals" = some we from equals] at other
      cases other

theorem Readable.calm {pc : Val} (readable : Readable env data pc) :
    Calm (evaluatePrecondition env pc data skipped referencing) := by
  cases readable with
  | @equals entries we ref equals refers segment legible compared =>
      unfold evaluatePrecondition
      simp only [Val.contains, equals, Option.isSome_some, StatefulProgram.ok_bind, if_true,
        Val.item, refers, resolveRef_eq segment legible]
      split
      · exact .cascade
      · cases valued : refValue env data ref with
        | none => exact .ok
        | some value =>
            obtain ⟨expected, there⟩ := Option.isSome_iff_exists.mp (compared (by simp [valued]))
            simp only [there, StatefulProgram.ok_bind]
            exact .ok
  | @present entries ref other refers segment =>
      obtain ⟨first, sid, path, parts⟩ := segment
      unfold evaluatePrecondition
      simp only [Val.contains, other, Option.isSome_none, StatefulProgram.ok_bind,
        Bool.false_eq_true, if_false, Val.item, refers, refParts, parts]
      split
      · exact .cascade
      · exact .ok

/-! The checks of a precondition. -/

theorem HasSegment.of_valid {ref : String} (valid : isValidRefPath ref = true) :
    HasSegment ref := by
  unfold isValidRefPath at valid
  rw [Bool.and_eq_true] at valid
  have shape := valid.2
  split at shape
  · rename_i first segment rest parts
    exact ⟨first, segment, rest, parts⟩
  · simp at shape

theorem valueAt?_isSome_iff {entries : Mapping} {key : String} :
    (Val.valueAt? entries key).isSome ↔ Val.str key ∈ entries.map Prod.fst := by
  simp only [Val.valueAt?, Option.isSome_map, List.find?_isSome, List.mem_map, Val.isStr_iff]

theorem listing_ne_nil {entries : Mapping} {keys : List Val} {text : String → String} :
    listing env entries keys text ≠ .ok [] := by
  unfold listing
  cases naming entries [text ""] with
  | error raised => simp
  | ok named =>
      cases sortedKeys keys with
      | error raised => simp [StatefulProgram.ok_bind]
      | ok ordered =>
          rw [StatefulProgram.ok_bind, StatefulProgram.ok_bind]
          cases printed env (.list ordered) <;> simp [StatefulProgram.ok_bind, pure, Except.pure]

theorem validateMcpUnknown_nil {entries : Mapping} {label : String}
    (passed : validateMcpUnknown env entries label = .ok []) :
    unknownMcpFields entries = [] := by
  unfold validateMcpUnknown at passed
  split at passed
  · rename_i isEmpty
    simpa using isEmpty
  · exact absurd passed listing_ne_nil

theorem validateWhenEquals_nil {label : String} {we : Val}
    (passed : validateWhenEquals label we = []) :
    ∃ entries ref, we = .dict entries ∧ Val.valueAt? entries "ref" = some (.str ref) ∧
      isValidRefPath ref = true ∧
      (Val.valueAt? entries "value").isSome := by
  unfold validateWhenEquals at passed
  cases we with
  | dict entries =>
      simp only [List.append_eq_nil_iff, errorIf_nil, Mapping.has, Bool.not_eq_eq_eq_not,
        Bool.not_false] at passed
      obtain ⟨refPassed, valued⟩ := passed
      split at refPassed
      · simp at refPassed
      · rename_i ref refers
        rw [errorIf_nil] at refPassed
        exact ⟨entries, ref, rfl, refers, by simpa using refPassed, valued⟩
      · simp at refPassed
  | _ => simp at passed

theorem validateWhenPresent_nil {label : String} {wp : Val}
    (passed : validateWhenPresent label wp = []) :
    ∃ ref, wp = .str ref ∧ isValidRefPath ref = true := by
  unfold validateWhenPresent at passed
  cases wp with
  | str ref =>
      rw [errorIf_nil] at passed
      exact ⟨ref, rfl, by simpa using passed⟩
  | _ => simp at passed

theorem validatePrecondition_shape {entries : Mapping} {label : String} {pc : Val}
    (passed : validatePrecondition env entries label = .ok [])
    (found : entries.get? "precondition" = some pc) :
    ∃ key value, pc = .dict [(.str key, value)] ∧
      (key = "when_equals" ∧ validateWhenEquals label value = [] ∨
        key = "when_present" ∧ validateWhenPresent label value = []) := by
  simp only [validatePrecondition, found] at passed
  cases pc with
  | dict keys =>
      simp only [gather_ok_nil, List.forall_mem_cons] at passed
      obtain ⟨allKnown, one, -⟩ := passed
      have known : ∀ key ∈ keys.map Prod.fst,
        (knownPredicates.any fun name => key.isStr name) = true := by
        split at allKnown
        · rename_i none
          simpa [List.filter_eq_nil_iff] using none
        · exact absurd allKnown listing_ne_nil
      rw [List.filter_eq_self.mpr known] at one
      split at one
      · simp at one
      · rename_i key only
        obtain ⟨⟨first, value⟩, rfl, rfl⟩ := List.map_eq_singleton_iff.mp only
        have isKnown := known first (by simp)
        simp only [knownPredicates, List.any_cons, List.any_nil, Bool.or_false, Bool.or_eq_true,
          Val.isStr_iff] at isKnown
        rw [naming_ok_nil] at one
        rcases isKnown with rfl | rfl
        · exact ⟨_, value, rfl, .inl ⟨rfl, by simpa [Val.valueAt?] using one⟩⟩
        · exact ⟨_, value, rfl, .inr ⟨rfl, by simpa [Val.valueAt?] using one⟩⟩
      · exact absurd one listing_ne_nil
  | _ => simp at passed

theorem validatePrecondition_evaluable {entries : Mapping} {label : String} {pc : Val}
    (passed : validatePrecondition env entries label = .ok [])
    (found : entries.get? "precondition" = some pc) :
    Evaluable env pc := by
  obtain ⟨key, value, rfl, ⟨rfl, checked⟩ | ⟨rfl, checked⟩⟩ :=
    validatePrecondition_shape passed found
  · obtain ⟨fields, ref, rfl, refers, valid, valued⟩ := validateWhenEquals_nil checked
    exact .equals rfl refers (.of_valid valid) fun _ => valued
  · obtain ⟨ref, rfl, valid⟩ := validateWhenPresent_nil checked
    exact .present rfl rfl (.of_valid valid)

/-! The steps of a validated workflow. -/

theorem mappedSteps_at {steps : List Val} {position : Nat} {entries : Mapping}
    (mapped : (position, entries) ∈ mappedSteps steps) :
    steps[position]? = some (.dict entries) := by
  obtain ⟨⟨raw, index⟩, indexed, isDict⟩ := List.mem_filterMap.mp mapped
  cases raw with
  | dict fields =>
      simp only [Option.some.injEq, Prod.mk.injEq] at isDict
      rw [← isDict.1, ← isDict.2]
      exact List.mk_mem_zipIdx_iff_getElem?.mp indexed
  | _ => simp at isDict

theorem Workflow.Validated.source (validated : wf.Validated env registry)
    (member : step ∈ wf.steps) :
    ∃ entries position name steps, LoadedFrom step entries ∧
      validateStep env position (.dict entries) = .ok [] ∧
      (position, entries) ∈ mappedSteps steps ∧
        validateServers env registry name steps = .ok [] := by
  obtain ⟨stem, raw, doc, loaded, loads⟩ := validated
  obtain ⟨entries, steps, rfl, found, -, -, passed, kept⟩ :=
    validateWorkflow_ok_nil.mp (loadWorkflow_ok.mp loaded)
  rw [Option.some.injEq] at kept
  obtain ⟨own, servers, -⟩ := validateSteps_ok_nil.mp passed
  obtain ⟨document, raws, isDoc, foundRaws, each, -⟩ := Workflow.load_some loads
  rw [kept, Val.dict.injEq] at isDoc
  subst isDoc
  rw [found, Option.some.injEq, Val.list.injEq] at foundRaws
  subst foundRaws
  obtain ⟨rawStep, isRaw, loadedStep⟩ := forall₂_mem_right each member
  obtain ⟨fields, rfl, from_⟩ := loadStep_some loadedStep
  obtain ⟨position, mapped⟩ := mappedSteps_mem isRaw
  exact ⟨fields, position, _, steps, from_, own position _ (mappedSteps_at mapped), mapped, servers⟩

theorem Workflow.Validated.evaluable (validated : wf.Validated env registry)
    (member : step ∈ wf.steps) (plain : step.isMcpToolCall = false) {pc : Val}
    (guarded : step.precondition = some pc) : Evaluable env pc := by
  obtain ⟨entries, position, -, -, from_, passed, -, -⟩ := validated.source member
  obtain ⟨label, optional⟩ := validateStep_optional from_ passed plain
  have found : entries.get? "precondition" = some pc := by
    rw [← from_.get_eq (by simp)]
    unfold Step.precondition at guarded
    split at guarded
    · simp at guarded
    · exact guarded
  exact validatePrecondition_evaluable
    (gather_ok_nil.mp optional (validatePrecondition env entries label) (by simp)) found

structure Step.Executable (env : Env) (registry : Option Registry) (step : Step) : Prop where
  server : ∃ servers name config, registry = some servers ∧ step.get? "server" = some (.str name) ∧
    servers.servers.get? name = some config
  tool : (step.get? "tool").isSome
  args : ∃ entries, step.get? "args" = some (.dict entries) ∧ ∀ entry ∈ entries, ∃ label path,
    validateMcpArgValue env label path entry.2 = []

theorem literalField_nil {entries : Mapping} {label key : String}
    (passed : literalField env entries label key = []) :
    ∃ text, entries.get? key = some (.str text) ∧ text ≠ "" ∧
      hasInterpolation (.str text) = false := by
  unfold literalField at passed
  split at passed
  · simp at passed
  · rename_i value found
    split at passed
    · simp at passed
    · rename_i named
      split at passed
      · simp at passed
      · rename_i literal
        cases value with
        | str text =>
            simp only [isName, isString, Val.truthy, Bool.true_and, bne_iff_ne,
              Bool.not_eq_eq_eq_not, Bool.not_true, Bool.not_eq_false, ne_eq] at named
            exact ⟨text, found, by simpa using named, by simpa using literal⟩
        | _ => simp [isName, isString] at named

theorem Workflow.Validated.executable (validated : wf.Validated env registry)
    (member : step ∈ wf.steps) (mcp : step.isMcpToolCall = true) :
    step.Executable env registry := by
  obtain ⟨entries, position, name, steps, from_, passed, mapped, servers⟩ := validated.source member
  have isMcp : isMcpMapping entries = true := from_.isMcp.trans mcp
  simp only [validateStep, isMcp, if_true, gather_ok_nil, List.forall_mem_cons,
    validateMcpToolCallStep, naming_ok_nil] at passed
  obtain ⟨-, ⟨server, tool, args, -⟩, -⟩ := passed
  obtain ⟨serverName, isServer, named, literal⟩ := literalField_nil server
  obtain ⟨toolName, isTool, -⟩ := literalField_nil tool
  refine ⟨?_, ?_, ?_⟩
  · have among : (position, entries) ∈ (mappedSteps steps).filter fun entry =>
      isMcpMapping entry.2 :=
      List.mem_filter.mpr ⟨mapped, isMcp⟩
    unfold validateServers at servers
    dsimp only at servers
    rw [if_neg (by simpa using ⟨_, _, mapped, isMcp⟩)] at servers
    cases registry with
    | none => simp at servers
    | some registry =>
        have known := printing_naming_nil.mp (gather_ok_nil.mp servers _ (List.mem_map.mpr ⟨_,
          among, rfl⟩))
        have differs : (serverName != "") = true := by simpa using named
        simp only [unknownServer, isServer, errorIf_nil, literal, differs, Bool.not_false,
          Bool.true_and, Bool.not_eq_eq_eq_not, Dict.contains_iff_get?] at known
        obtain ⟨config, there⟩ := Option.isSome_iff_exists.mp known
        exact ⟨registry, serverName, config, rfl, by rw [from_.get_eq (by simp), isServer], there⟩
  · rw [from_.get_eq (by simp), isTool]
    rfl
  · rw [from_.get_eq (by simp)]
    unfold validateArgs at args
    split at args
    · simp at args
    · rename_i fields found
      refine ⟨fields, found, ?_⟩
      intro entry isEntry
      have each := List.flatMap_eq_nil_iff.mp args entry isEntry
      split at each
      · exact ⟨_, _, each⟩
      · simp at each
    · simp at args

/-! Arguments that pass their check resolve, or name a skipped step. -/

theorem refInner_segment {label path text inner : String}
    (passed : validateMcpArgValue env label path (.str text) = [])
    (isRef : refInner text = some inner) : HasSegment inner := by
  unfold refInner at isRef
  split at isRef
  · rename_i rest letters
    split at isRef
    · rename_i shape
      rw [Option.some.injEq] at isRef
      have interpolates : hasInterpolation (.str text) = true := by
        simp only [hasInterpolation, decide_eq_true_eq, letters]
        exact ⟨[], rest, rfl⟩
      simp only [validateMcpArgValue, interpolates, Bool.not_true, Bool.false_eq_true,
        if_false] at passed
      split at passed
      · simp at passed
      · split at passed
        · simp at passed
        · rename_i valid
          have body : refBody text = inner := by
            rw [refBody, letters, ← isRef]
            rfl
          rw [body] at valid
          exact .of_valid (by simpa using valid)
    · simp at isRef
  · simp at isRef

theorem validateMcpArgEntries_nil {label path : String} {entries : List (Val × Val)}
    (passed : validateMcpArgValue env label path (.dict entries) = []) :
    ∀ entry ∈ entries, ∃ label path, validateMcpArgValue env label path entry.2 = [] := by
  rw [validateMcpArgValue] at passed
  induction entries with
  | nil => simp
  | cons first rest ih =>
      obtain ⟨key, value⟩ := first
      cases key with
      | str name =>
          simp only [validateMcpArgEntries, List.append_eq_nil_iff] at passed
          rw [List.forall_mem_cons]
          exact ⟨⟨_, _, passed.1⟩, ih passed.2⟩
      | _ => simp [validateMcpArgEntries] at passed

mutual

theorem resolveArgs_calm {label path : String} :
    (value : Val) → validateMcpArgValue env label path value = [] →
    (∀ text ref, value.HasLeaf text → refInner text = some ref → LegibleAt env data ref) →
    Calm (resolveArgs env data skipped referencing value)
  | .dict entries, passed, legible => by
      unfold resolveArgs
      refine (resolveEntries_calm entries (validateMcpArgEntries_nil passed) ?_).bind fun _ _ => .ok
      exact fun entry member text ref leaf => legible text ref (.entry member leaf)
  | .list items, passed, legible => by
      unfold resolveArgs
      refine (resolveItems_calm 0 items (by simpa [validateMcpArgValue] using passed) ?_).bind fun _ _ => .ok
      exact fun item member text ref leaf => legible text ref (.item member leaf)
  | .str text, passed, legible => by
      unfold resolveArgs
      split
      · rename_i inner isRef
        have calm : Calm (resolveRef env (.str inner) data skipped referencing) :=
          resolveRef_calm (refInner_segment passed isRef) (legible text inner .here isRef)
        split
        · exact .ok
        · rename_i raised resolved
          obtain ⟨sid, other, rfl⟩ := calm raised resolved
          exact .cascade
      · exact .ok
  | .none, _, _ => .ok
  | .bool _, _, _ => .ok
  | .int _, _, _ => .ok
  | .float _, _, _ => .ok
  | .native _, _, _ => .ok
  | .absent, _, _ => .ok

theorem resolveItems_calm {label path : String} : (index : Nat) → (items : List Val) →
    validateMcpArgItems env label path index items = [] →
    (∀ item ∈ items, ∀ text ref, item.HasLeaf text → refInner text = some ref →
      LegibleAt env data ref) →
    Calm (resolveItems env data skipped referencing items)
  | _, [], _, _ => .ok
  | index, item :: rest, passed, legible => by
      simp only [validateMcpArgItems, List.append_eq_nil_iff] at passed
      rw [List.forall_mem_cons] at legible
      unfold resolveItems
      exact (resolveArgs_calm item passed.1 legible.1).bind fun _ _ =>
        (resolveItems_calm (index + 1) rest passed.2 legible.2).bind fun _ _ => .ok

theorem resolveEntries_calm : (entries : List (Val × Val)) →
    (∀ entry ∈ entries, ∃ label path, validateMcpArgValue env label path entry.2 = []) →
    (∀ entry ∈ entries, ∀ text ref, entry.2.HasLeaf text → refInner text = some ref →
      LegibleAt env data ref) →
    Calm (resolveEntries env data skipped referencing entries)
  | [], _, _ => .ok
  | (key, value) :: rest, passed, legible => by
      rw [List.forall_mem_cons] at passed legible
      obtain ⟨label, path, first⟩ := passed.1
      unfold resolveEntries
      exact (resolveArgs_calm value first legible.1).bind fun _ _ =>
        (resolveEntries_calm rest passed.2 legible.2).bind fun _ _ => .ok

end

theorem Step.TimeoutFits.effectiveTimeout {servers : Registry} {name : String}
    {config : ServerConfig} (fits : step.TimeoutFits)
    (isServer : step.get? "server" = some (.str name))
    (known : servers.servers.get? name = some config) :
    ∃ value, effectiveTimeout step servers = .ok value := by
  have serverItem : step.item "server" = .ok (.str name) := by
    simp [Step.item, fieldItem, show field? step.fields "server" = _ from isServer]
  unfold Megalos.effectiveTimeout
  split
  · rename_i value declared
    exact ⟨.float (.finite (Binary64.nearest value)),
      by rw [floatOfInt, Binary64.ofInt?, if_pos (fits value declared)]⟩
  · exact ⟨_, rfl⟩
  · simp only [serverItem, Registry.get, known]
    exact ⟨_, rfl⟩

theorem effectiveTimeout_overflow {servers : Registry} (large : ¬step.TimeoutFits) :
    effectiveTimeout step servers =
      .error (.uncaught "OverflowError" "int too large to convert to float") := by
  simp only [Step.TimeoutFits, not_forall] at large
  obtain ⟨value, declared, beyond⟩ := large
  unfold effectiveTimeout
  rw [declared]
  dsimp only
  rw [floatOfInt, Binary64.ofInt?, if_neg beyond]

/-- An executable step gives an envelope, unless its arguments name a skipped step. -/
theorem Step.Executable.calm {calls : Nat} (executable : step.Executable env registry)
    (mcp : step.isMcpToolCall = true) (fits : step.TimeoutFits)
    (legible : ∀ sid raw, step.ReadsBelow sid → data.get? sid = some raw →
      Contained (env.loads raw)) :
    Calm (executed env registry step data skipped calls) := by
  obtain ⟨⟨servers, name, config, rfl, isServer, known⟩, hasTool, entries, isArgs, checked⟩ :=
    executable
  obtain ⟨tool, isTool⟩ := Option.isSome_iff_exists.mp hasTool
  have serverItem : step.item "server" = .ok (.str name) := by
    simp [Step.item, fieldItem, show field? step.fields "server" = _ from isServer]
  have toolItem : step.item "tool" = .ok tool := by
    simp [Step.item, fieldItem, show field? step.fields "tool" = _ from isTool]
  have argsItem : step.item "args" = .ok (.dict entries) := by
    simp [Step.item, fieldItem, show field? step.fields "args" = _ from isArgs]
  have config_ : servers.get (.str name) = .ok config := by simp [Registry.get, known]
  unfold executed
  simp only [argsItem, StatefulProgram.ok_bind]
  refine Calm.bind ?_ ?_
  · unfold resolveArgs
    refine (resolveEntries_calm entries checked ?_).bind fun _ _ => .ok
    exact fun entry member text ref leaf isRef sid raw below =>
      legible sid raw (.passes mcp isArgs (.entry member leaf) isRef below)
  · intro resolved _
    split
    · exact .ok
    · obtain ⟨value, isTimeout⟩ := fits.effectiveTimeout isServer known
      simp only [isTimeout, serverItem, toolItem, config_, StatefulProgram.ok_bind]
      exact .ok

/-- What an executed step gives is an envelope, which can be read back. -/
theorem executed_contained {skipped : List String} {calls after : Nat} {envelope : Val}
    (ran : executed env registry step data skipped calls = .ok (envelope, after)) :
    Contained (env.loads (env.dumps envelope)) := by
  unfold executed at ran
  split at ran
  · cases ran
  · simp only [except_bind_ok] at ran
    obtain ⟨args, -, resolved, -, ran⟩ := ran
    split at ran
    · rename_i path absent
      simp only [pure, Except.pure, Except.ok.injEq, Prod.mk.injEq] at ran
      rw [← ran.1]
      exact env.envelopeContained (.toolExecutionError _)
    · simp only [except_bind_ok, pure, Except.pure, Except.ok.injEq, Prod.mk.injEq] at ran
      obtain ⟨-, -, -, -, -, -, -, -, rfl, -⟩ := ran
      exact env.envelopeContained _

theorem Workflow.Legible.set {key text : String} (legible : wf.Legible env data)
    (contained : Contained (env.loads text)) :
    wf.Legible env (data.set key text) := by
  intro step member sid raw reads found
  rw [Dict.get?_set] at found
  split at found
  · exact Option.some.inj found ▸ contained
  · exact legible step member sid raw reads found

end Megalos
