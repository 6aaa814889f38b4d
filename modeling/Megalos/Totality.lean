import Megalos.Exported
import Megalos.Keys

/-!
When the validator answers: it raises on a handful of values that it iterates, hashes,
sorts or prints without a look at them, and on no others.
-/

namespace Megalos

variable {env : Env} {registry : Option Registry} {stem label : String} {entries : Mapping}
  {value : Val} {steps : List Val} {step : Mapping} {errors : List String}

/-- The check gives its errors, whatever they are. -/
def Answers {α : Type} (result : Except Exn α) : Prop := ∃ value, result = .ok value

@[simp] theorem answers_ok {α : Type} {value : α} :
    Answers (.ok value : Except Exn α) ↔ True := by simp [Answers]

@[simp] theorem answers_error {α : Type} {raised : Exn} :
    Answers (.error raised : Except Exn α) ↔ False := by
  simp [Answers]

theorem answers_bind {α β : Type} {first : Except Exn α} {next : α → Except Exn β} :
    Answers (first >>= next) ↔ ∃ value, first = .ok value ∧ Answers (next value) := by
  cases first <;> simp [StatefulProgram.ok_bind]

theorem answers_map {α β : Type} {first : Except Exn α} {next : α → β} :
    Answers (do let value ← first; return next value) ↔ Answers first := by
  cases first <;> simp [StatefulProgram.ok_bind, pure, Except.pure]

theorem gather_answers {parts : List Check} :
    Answers (gather parts) ↔ ∀ part ∈ parts, Answers part := by
  induction parts with
  | nil => simp [gather]
  | cons part rest ih =>
      rw [List.forall_mem_cons, ← ih]
      cases part with
      | error raised => simp [gather]
      | ok errors => cases others : gather rest <;> simp [gather, others]

theorem mapM_answers {α β : Type} {act : α → Except Exn β} {items : List α} :
    Answers (items.mapM act) ↔ ∀ item ∈ items, Answers (act item) := by
  constructor
  · rintro ⟨values, collected⟩ item member
    obtain ⟨value, -, done⟩ := forall₂_mem_left (mapM_ok_forall₂ collected) member
    exact ⟨value, done⟩
  · exact mapM_ok

/-! What the validator iterates, hashes, sorts or prints. -/

/-- Keys that `sorted` can compare: no two, or all of one kind. -/
def Comparable (keys : List Val) : Prop :=
    keys.length ≤ 1 ∨ ∃ kind, ∀ key ∈ keys, key.keyKind? = some kind

def Reportable (keys : List Val) : Prop := Comparable keys ∧ ∀ key ∈ keys, key.printable = true

def Iterable (value : Val) : Prop :=
  IsText value ∨ (∃ items, value = .list items) ∨ (∃ entries, value = .dict entries) ∨
    ∃ octets, value = .native (.bytes octets)

def unknownPredicates (precondition : Mapping) : List Val :=
  (precondition.map Prod.fst).filter fun key => !knownPredicates.any fun name => key.isStr name

def Checkable (env : Env) (schema : Val) : Prop :=
  isDict schema = true → ∀ raised, env.checkSchema schema ≠ .error (.raises raised)

def PrintsId (step : Mapping) : Prop := ((step.get? "id").getD .none).printable = true

structure DigestibleFields (env : Env) (step : Mapping) : Prop where
  fields : isMcpMapping step = true → Reportable (unknownMcpFields step)
  predicates : isMcpMapping step = false → step.At "precondition" fun value =>
    ∀ precondition : Mapping,
    value = .dict precondition → Reportable (unknownPredicates precondition)
  outputSchema : isMcpMapping step = false → step.At "output_schema" (Checkable env)
  artifacts : isMcpMapping step = false → step.At "intermediate_artifacts" fun value => ∀ items,
    value = .list items →
    ∀ artifact : Mapping, Val.dict artifact ∈ items → artifact.At "schema" (Checkable env)

def Unserved (servers : Registry) (step : Mapping) : Prop :=
  isMcpMapping step = true ∧ ∃ server, step.get? "server" = some (.str server) ∧ server ≠ "" ∧
    hasInterpolation (.str server) = false ∧ servers.servers.contains server = false

def stepIds (steps : List Val) : List Val :=
    (mappedSteps steps).map fun entry => (entry.2.get? "id").getD .none

structure Faultless (env : Env) (registry : Option Registry) (steps : List Val) (position : Nat)
    (step : Mapping) : Prop where
  own : validateStep env position (.dict step) = .ok []
  server : ∀ servers, registry = some servers → ¬Unserved servers step
  reference : validateReference env (mappedSteps steps) position step = []
  sources : step.At "inject_context" fun value => ∀ sources, value.iter = .ok sources →
    validateSources env (stepIds steps) step sources = []
  targets : validateTargets env (stepIds steps) step = []

structure DigestibleStep (env : Env) (registry : Option Registry) (steps : List Val)
    (position : Nat) (step : Mapping) : Prop where
  id : step.At "id" Val.Hashable
  injectContext : step.At "inject_context" Iterable
  fields : DigestibleFields env step
  named : PrintsId step ∨ Faultless env registry steps position step

structure DigestibleGuardrail (guardrail : Mapping) : Prop where
  action : guardrail.At "action" Val.Hashable
  trigger : guardrail.At "trigger" fun value => ∀ trigger : Mapping, value = .dict trigger →
    trigger.At "type" Val.Hashable

/-- No step and no guardrail of the document holds a value that the validator chokes on. -/
structure Digestible (env : Env) (registry : Option Registry) (stem : String) (document : Mapping)
    (steps : List Val) : Prop where
  name : ((document.get? "name").getD (.str stem)).printable = true ∨ ∀ entry ∈ mappedSteps steps,
    isMcpMapping entry.2 = true → ∃ servers, registry = some servers ∧ ¬Unserved servers entry.2
  steps : ∀ entry ∈ mappedSteps steps, DigestibleStep env registry steps entry.1 entry.2
  guardrails : document.At "guardrails" fun value => ∀ items, value = .list items →
    ∀ guardrail : Mapping, Val.dict guardrail ∈ items → DigestibleGuardrail guardrail

/-- The keys of `conversation_repair` can be printed. -/
def DigestibleRepair (document : Mapping) : Prop :=
  document.At "conversation_repair" fun value => ∀ repair : Mapping, value = .dict repair →
    ∀ entry ∈ repair, entry.1.printable = true

/-! The primitives. -/

theorem sameKind_iff {keys : List Val} (several : ¬keys.length ≤ 1) :
    sameKind keys = true ↔ ∃ kind, ∀ key ∈ keys, key.keyKind? = some kind := by
  cases keys with
  | nil => simp at several
  | cons first rest =>
      simp only [sameKind, List.head?_cons, Option.bind_some]
      cases isKind : first.keyKind? with
      | none =>
          refine iff_of_false (by simp) ?_
          rintro ⟨kind, each⟩
          rw [each first List.mem_cons_self] at isKind
          cases isKind
      | some kind =>
          simp only [List.all_eq_true, beq_iff_eq]
          constructor
          · intro each
            exact ⟨kind, each⟩
          · rintro ⟨other, each⟩
            rw [each first List.mem_cons_self, Option.some.injEq] at isKind
            exact isKind ▸ each

theorem sortedKeys_answers {keys : List Val} : Answers (sortedKeys keys) ↔ Comparable keys := by
  unfold sortedKeys Comparable
  by_cases few : keys.length ≤ 1
  · simp [few]
  · rw [← sameKind_iff few]
    cases same : sameKind keys <;> simp [few]

theorem sortedKeys_mem {keys ordered : List Val} (sorted : sortedKeys keys = .ok ordered)
    {key : Val} :
    key ∈ ordered ↔ key ∈ keys := by
  unfold sortedKeys at sorted
  split at sorted
  · rw [Except.ok.injEq] at sorted
    exact sorted ▸ (List.perm_insertionSort _ keys).mem_iff
  · cases sorted

theorem printableItems_iff {items : List Val} :
    Val.printableItems items = true ↔ ∀ item ∈ items, item.printable = true := by
  induction items with
  | nil => simp [Val.printableItems]
  | cons item rest ih => simp [Val.printableItems, ih]

theorem ordered_printable {keys ordered : List Val} (sorted : sortedKeys keys = .ok ordered) :
    (Val.list ordered).printable = true ↔ ∀ key ∈ keys, key.printable = true := by
  simp only [Val.printable, printableItems_iff, sortedKeys_mem sorted]

theorem printing_answers :
    Answers (printing value errors) ↔ errors = [] ∨ value.printable = true := by
  unfold printing
  cases errors <;> cases value.printable <;> simp

theorem naming_answers :
    Answers (naming step errors) ↔ errors = [] ∨ PrintsId step := printing_answers

theorem listing_answers {keys : List Val} {text : String → String} :
    Answers (listing env step keys text) ↔ PrintsId step ∧ Reportable keys := by
  have named : Answers (naming step [text ""]) ↔ PrintsId step := by simp [naming_answers]
  rw [listing, answers_bind]
  constructor
  · rintro ⟨_, isNamed, listed⟩
    obtain ⟨ordered, sorted, listed⟩ := answers_bind.mp listed
    refine ⟨named.mp ⟨_, isNamed⟩, sortedKeys_answers.mp ⟨ordered, sorted⟩, ?_⟩
    have shown := answers_map.mp listed
    unfold printed at shown
    split at shown
    · rename_i prints
      exact (ordered_printable sorted).mp prints
    · simp at shown
  · rintro ⟨isNamed, comparable, prints⟩
    obtain ⟨_, done⟩ := named.mpr isNamed
    obtain ⟨ordered, sorted⟩ := sortedKeys_answers.mpr comparable
    refine ⟨_, done, answers_bind.mpr ⟨ordered, sorted, answers_map.mpr ?_⟩⟩
    rw [printed, if_pos ((ordered_printable sorted).mpr prints)]
    exact ⟨_, rfl⟩

theorem isOneOf_answers {names : List String} : Answers (isOneOf names value) ↔ value.Hashable := by
  cases value <;> simp [isOneOf, Val.Hashable]

theorem iter_answers : Answers value.iter ↔ Iterable value := by
  cases value with
  | native scalar => cases scalar <;> simp [Val.iter, Iterable, IsText]
  | _ => simp [Val.iter, Iterable, IsText]

/-! One check at a time.  A check that finds no fault prints nothing. -/

/-- The check raises unless `clean`, and on a fault unless `named`. -/
def Told (named clean : Prop) (check : Check) : Prop :=
    Answers check ↔ clean ∧ (named ∨ check = .ok [])

namespace Told

variable {named clean others : Prop} {check : Check} {checks : List Check}

theorem nil : Told named True (gather []) := by simp [Told, gather]

theorem cons (first : Told named clean check) (rest : Told named others (gather checks)) :
    Told named (clean ∧ others) (gather (check :: checks)) := by
  unfold Told at *
  rw [gather_answers, List.forall_mem_cons, ← gather_answers, first, rest, gather_ok_nil,
    gather_ok_nil, List.forall_mem_cons]
  tauto

theorem map {α : Type} {items : List α} {clean : α → Prop} {check : α → Check}
    (each : ∀ item, Told named (clean item) (check item)) :
    Told named (∀ item ∈ items, clean item) (gather (items.map check)) := by
  induction items with
  | nil => simp [Told, gather]
  | cons item rest ih => simpa using (each item).cons ih

theorem congr (told : Told named clean check) (same : clean ↔ others) :
    Told named others check := by
  unfold Told at *
  rw [told, same]

end Told

theorem told_naming : Told (PrintsId step) True (naming step errors) := by
  rw [Told, naming_answers, naming_ok_nil, true_and, or_comm]

theorem told_passed : Told (PrintsId step) True (.ok []) := by simp [Told]

theorem told_listing {keys : List Val} {text : String → String} :
    Told (PrintsId step) (Reportable keys)
    (if keys.isEmpty then .ok [] else listing env step keys text) := by
  unfold Told
  split
  · rename_i none
    rw [List.isEmpty_iff] at none
    simp [none, Reportable, Comparable]
  · simp only [listing_answers, listing_ne_nil, or_false]
    exact and_comm

theorem told_schemaCheck {schema : Mapping} {text : String → String} :
    Told (PrintsId step) (Checkable env (.dict schema))
    (schemaCheck env step (.dict schema) text) := by
  unfold schemaCheck Checkable
  cases checked : env.checkSchema (.dict schema) with
  | ok done => exact told_passed.congr (by simp)
  | error failure =>
      cases failure with
      | schemaError message => exact told_naming.congr (by simp)
      | raises raised => simp [Told, isDict]

theorem told_schemaField {holder : Mapping} {key untyped : String} {invalid : String → String} :
    Told (PrintsId step) (holder.At key (Checkable env))
    (schemaField env step holder key untyped invalid) := by
  unfold schemaField
  cases found : holder.get? key with
  | none => exact told_passed.congr (by simp [Mapping.At, found])
  | some schema =>
      cases schema with
      | dict schema => exact told_schemaCheck.congr (by simp [Mapping.At, found])
      | _ => exact told_naming.congr (by simp [Mapping.At, found, Checkable, isDict])

theorem told_artifact {index : Nat} {artifact : Val} :
    Told (PrintsId entries)
    (∀ fields : Mapping, artifact = .dict fields → fields.At "schema" (Checkable env))
    (validateArtifact env entries label index artifact) := by
  cases artifact with
  | dict fields =>
      exact (told_naming.cons (told_naming.cons (told_naming.cons (told_schemaField.cons
        (told_naming.cons .nil))))).congr (by simp)
  | _ => exact told_naming.congr (by simp)

theorem told_artifacts : Told (PrintsId entries)
    (entries.At "intermediate_artifacts" fun value => ∀ items, value = .list items →
      ∀ artifact : Mapping, Val.dict artifact ∈ items → artifact.At "schema" (Checkable env))
    (validateIntermediateArtifacts env entries label) := by
  unfold validateIntermediateArtifacts
  cases found : entries.get? "intermediate_artifacts" with
  | none => exact told_naming.congr (by simp [Mapping.At, found])
  | some value =>
      cases value with
      | list artifacts =>
          refine ((Told.map fun entry => told_artifact).cons (told_naming.cons .nil)).congr ?_
          simp only [Mapping.At, found, Option.some.injEq, forall_eq', Val.list.injEq, and_true]
          constructor
          · intro each artifact member
            obtain ⟨index, bound, there⟩ := List.getElem_of_mem member
            exact each (.dict artifact, index)
              (List.mk_mem_zipIdx_iff_getElem?.mpr (List.getElem?_eq_some_iff.mpr ⟨bound,
                there⟩)) artifact rfl
          · rintro each ⟨artifact, index⟩ member fields rfl
            exact each fields (List.mem_of_getElem? (List.mk_mem_zipIdx_iff_getElem?.mp member))
      | _ => exact told_naming.congr (by simp [Mapping.At, found])

theorem told_precondition : Told (PrintsId entries)
    (entries.At "precondition" fun value => ∀ precondition : Mapping, value = .dict precondition →
      Reportable (unknownPredicates precondition)) (validatePrecondition env entries label) := by
  unfold validatePrecondition
  cases found : entries.get? "precondition" with
  | none => exact told_passed.congr (by simp [Mapping.At, found])
  | some value =>
      cases value with
      | dict precondition =>
          have known : Reportable ((precondition.map Prod.fst).filter fun key =>
              knownPredicates.any fun name => key.isStr name) := by
            have texts : ∀ key ∈ (precondition.map Prod.fst).filter fun key =>
                knownPredicates.any fun name => key.isStr name, ∃ name, key = .str name := by
              intro key member
              obtain ⟨name, -, same⟩ := List.any_eq_true.mp (List.mem_filter.mp member).2
              exact ⟨name, Val.isStr_iff.mp same⟩
            refine ⟨.inr ⟨.text, fun key member => ?_⟩, fun key member => ?_⟩
            · obtain ⟨name, rfl⟩ := texts key member
              rfl
            · obtain ⟨name, rfl⟩ := texts key member
              rfl
          refine (told_listing.cons (@Told.cons _ True _ _ _ ?_ .nil)).congr
            (by simp [Mapping.At, found, unknownPredicates])
          split
          · exact told_naming
          · exact told_naming
          · rename_i several
            unfold Told
            rw [listing_answers]
            simp only [listing_ne_nil, or_false, true_and]
            exact and_iff_left known
      | _ => exact told_naming.congr (by simp [Mapping.At, found])

theorem told_step {position : Nat} :
    Told (PrintsId entries) (DigestibleFields env entries)
    (validateStep env position (.dict entries)) := by
  unfold validateStep
  cases mcp : isMcpMapping entries with
  | true =>
      simp only [mcp, if_true]
      refine (told_naming.cons (Told.cons (told_naming.cons (told_naming.cons (told_naming.cons (told_naming.cons
        (told_naming.cons (told_listing.cons .nil)))))) .nil)).congr ?_
      simp only [true_and, and_true]
      constructor
      · intro reportable
        exact ⟨fun _ => reportable, by simp [mcp], by simp [mcp], by simp [mcp]⟩
      · intro digestible
        exact digestible.fields mcp
  | false =>
      simp only [mcp, Bool.false_eq_true, if_false]
      refine (told_naming.cons (told_naming.cons (told_naming.cons (Told.cons (told_schemaField.cons (told_naming.cons
        (told_naming.cons (told_naming.cons (told_naming.cons (told_naming.cons (told_naming.cons (told_naming.cons
        (told_precondition.cons (told_naming.cons (told_naming.cons (told_naming.cons
        (told_artifacts.cons .nil))))))))))))) .nil)))).congr ?_
      simp only [true_and, and_true]
      constructor
      · rintro ⟨outputSchema, predicates, artifacts⟩
        exact ⟨by simp [mcp], fun _ => predicates, fun _ => outputSchema, fun _ => artifacts⟩
      · intro digestible
        exact ⟨digestible.outputSchema mcp, digestible.predicates mcp, digestible.artifacts mcp⟩

theorem membership_answers {names : List String} {text : String} :
    Answers (do let known ← isOneOf names value; return errorIf (!known) text : Check) ↔
      value.Hashable := by
  rw [answers_map, isOneOf_answers]

theorem guardrail_answers {ids : List Val} {index : Nat} {guardrail : Mapping} :
    Answers (validateGuardrail env ids index (.dict guardrail)) ↔
      DigestibleGuardrail guardrail := by
  simp only [validateGuardrail, gather_answers, List.forall_mem_cons, answers_ok, true_and,
    List.not_mem_nil, false_implies, implies_true, and_true]
  constructor
  · rintro ⟨action, trigger⟩
    refine ⟨?_, ?_⟩
    · intro value found
      rw [found] at action
      exact membership_answers.mp action
    · rintro value found fields rfl kind declared
      rw [found] at trigger
      dsimp only at trigger
      rw [show Val.valueAt? fields "type" = some kind from declared] at trigger
      exact membership_answers.mp trigger
  · rintro ⟨action, trigger⟩
    refine ⟨?_, ?_⟩
    · split
      · exact ⟨_, rfl⟩
      · rename_i value found
        exact membership_answers.mpr (action value found)
    · split
      · exact ⟨_, rfl⟩
      · rename_i fields found
        split
        · exact ⟨_, rfl⟩
        · rename_i kind declared
          exact membership_answers.mpr (trigger _ found fields rfl kind declared)
      · exact ⟨_, rfl⟩

theorem guardrails_answers {ids : List Val} : Answers (validateGuardrails env ids entries) ↔
    entries.At "guardrails" fun value => ∀ items, value = .list items →
      ∀ guardrail : Mapping, Val.dict guardrail ∈ items → DigestibleGuardrail guardrail := by
  unfold validateGuardrails
  cases found : entries.get? "guardrails" with
  | none => simp [Mapping.At, found]
  | some value =>
      cases value with
      | list guardrails =>
          simp only [gather_answers, List.forall_mem_map, Mapping.At, found, Option.some.injEq,
            forall_eq', Val.list.injEq]
          constructor
          · intro each guardrail member
            obtain ⟨index, bound, there⟩ := List.getElem_of_mem member
            exact guardrail_answers.mp (each (.dict guardrail, index)
              (List.mk_mem_zipIdx_iff_getElem?.mpr (List.getElem?_eq_some_iff.mpr ⟨bound, there⟩)))
          · rintro digestible ⟨guardrail, index⟩ member
            cases guardrail with
            | dict fields =>
                exact guardrail_answers.mpr
                  (digestible fields (List.mem_of_getElem? (List.mk_mem_zipIdx_iff_getElem?.mp member)))
            | _ => exact ⟨_, rfl⟩
      | _ => simp [Mapping.At, found]

/-! The steps against each other. -/

theorem hashId_answers {step : Mapping} : Answers (match (Mapping.get? step "id").getD .none with
      | .list _ => .error (.typeError "unhashable type: 'list'")
      | .dict _ => .error (.typeError "unhashable type: 'dict'")
      | id => .ok id : Except Exn Val) ↔ step.At "id" Val.Hashable := by
  cases found : Mapping.get? step "id" with
  | none => simp [Mapping.At, found]
  | some id => cases id <;> simp [Mapping.At, found, Val.Hashable]

theorem allStepIds_answers :
    Answers (allStepIds steps) ↔ ∀ entry ∈ mappedSteps steps, entry.2.At "id" Val.Hashable := by
  rw [allStepIds, mapM_answers]
  exact forall₂_congr fun entry _ => hashId_answers

theorem allStepIds_ok {ids : List Val} (collected : allStepIds steps = .ok ids) :
    ids = stepIds steps := by
  have each := mapM_ok_forall₂ collected
  rw [stepIds, ← List.forall₂_eq_eq_eq, List.forall₂_map_right_iff]
  refine List.Forall₂.flip (each.imp fun entry id hashed => ?_)
  split at hashed
  · cases hashed
  · cases hashed
  · exact (Except.ok.inj hashed).symm

theorem injectSources_answers {ids : List Val} : Answers (validateInjectSources env ids steps) ↔
    ∀ entry ∈ mappedSteps steps, entry.2.At "inject_context" fun value => Iterable value ∧
      ∀ sources, value.iter = .ok sources → validateSources env ids entry.2 sources = [] ∨
        PrintsId entry.2 := by
  rw [validateInjectSources, gather_answers, List.forall_mem_map]
  refine forall₂_congr fun entry _ => ?_
  cases found : entry.2.get? "inject_context" with
  | none => simp [Mapping.At, found]
  | some value =>
      simp only [answers_bind, naming_answers, Mapping.At, found, Option.some.injEq, forall_eq',
        ← iter_answers]
      constructor
      · rintro ⟨sources, isIter, told⟩
        refine ⟨⟨sources, isIter⟩, fun others again => ?_⟩
        rw [isIter, Except.ok.injEq] at again
        exact again ▸ told
      · rintro ⟨⟨sources, isIter⟩, told⟩
        exact ⟨sources, isIter, told sources isIter⟩

theorem unknownServer_nil {servers : Registry} {available : List String} {name : String}
    {position : Nat} (mcp : isMcpMapping step = true) :
    unknownServer env servers available name position step = [] ↔ ¬Unserved servers step := by
  unfold unknownServer Unserved
  split
  · rename_i server found
    simp only [errorIf_nil, mcp, found, Option.some.injEq, Val.str.injEq, true_and, exists_eq_left']
    cases hasInterpolation (.str server) <;> cases servers.servers.contains server <;> simp
  · rename_i unnamed
    simp only [true_iff]
    rintro ⟨-, server, found, -⟩
    exact unnamed server found

theorem servers_answers {name : Val} : Answers (validateServers env registry name steps) ↔
    (name.printable = true ∨ ∀ entry ∈ mappedSteps steps, isMcpMapping entry.2 = true →
      ∃ servers, registry = some servers ∧ ¬Unserved servers entry.2) ∧
    ∀ entry ∈ mappedSteps steps, ∀ servers, registry = some servers → ¬Unserved servers entry.2 ∨
      PrintsId entry.2 := by
  unfold validateServers
  dsimp only
  split
  · rename_i none
    have plain : ∀ entry ∈ mappedSteps steps, isMcpMapping entry.2 = false := by
      simpa [List.filter_eq_nil_iff] using none
    refine iff_of_true ⟨_, rfl⟩ ⟨.inr fun entry member mcp => ?_, fun entry member servers _ =>
      .inl ?_⟩
    · rw [plain entry member] at mcp
      cases mcp
    · rintro ⟨mcp, -⟩
      rw [plain entry member] at mcp
      cases mcp
  · rename_i some
    cases registry with
    | none =>
        rw [printing_answers]
        simp only [List.cons_ne_self, false_or, reduceCtorEq, false_and, exists_false,
          false_implies, implies_true, and_true]
        refine (or_iff_left ?_).symm
        intro plain
        rw [List.isEmpty_iff, List.filter_eq_nil_iff] at some
        exact some fun entry member mcp => plain entry member mcp
    | some servers =>
        rw [gather_answers]
        simp only [List.forall_mem_map, List.mem_filter, Option.some.injEq, exists_eq_left',
          forall_eq']
        constructor
        · intro each
          refine ⟨?_, fun entry member => ?_⟩
          · by_cases prints : name.printable = true
            · exact .inl prints
            · refine .inr fun entry member mcp => ?_
              obtain ⟨errors, told, -⟩ := answers_bind.mp (each entry ⟨member, mcp⟩)
              exact (unknownServer_nil mcp).mp ((printing_answers.mp ⟨errors,
                told⟩).resolve_right prints)
          · by_cases unserved : Unserved servers entry.2
            · obtain ⟨errors, told, named⟩ := answers_bind.mp (each entry ⟨member, unserved.1⟩)
              refine .inr ((naming_answers.mp named).resolve_left fun empty => ?_)
              rw [empty, printing_ok_nil, unknownServer_nil unserved.1] at told
              exact told unserved
            · exact .inl unserved
        · rintro ⟨prints, named⟩ entry ⟨member, mcp⟩
          by_cases unserved : Unserved servers entry.2
          · have shown : name.printable = true :=
              prints.resolve_right fun all => all entry member mcp unserved
            obtain ⟨errors, told⟩ := printing_answers.mpr (.inr shown)
            exact answers_bind.mpr ⟨errors, told,
              naming_answers.mpr (.inr ((named entry member).resolve_left (not_not_intro unserved)))⟩
          · rw [(unknownServer_nil mcp).mpr unserved]
            exact ⟨[], printing_naming_nil.mpr rfl⟩

theorem ownChecks_answers :
    Answers (gather (steps.zipIdx.map fun entry => validateStep env entry.2 entry.1)) ↔
    ∀ entry ∈ mappedSteps steps, DigestibleFields env entry.2 ∧
      (PrintsId entry.2 ∨ validateStep env entry.1 (.dict entry.2) = .ok []) := by
  rw [gather_answers, List.forall_mem_map]
  constructor
  · intro each entry mapped
    have there := mappedSteps_at mapped
    exact told_step.mp (each (.dict entry.2, entry.1) (List.mk_mem_zipIdx_iff_getElem?.mpr there))
  · rintro each ⟨step, position⟩ member
    cases step with
    | dict fields =>
        refine told_step.mpr (each (position, fields) ?_)
        exact List.mem_filterMap.mpr ⟨(.dict fields, position), member, rfl⟩
    | _ => exact ⟨_, rfl⟩

theorem validateSteps_answers {document : Mapping} :
    Answers (validateSteps env registry stem document steps) ↔
    Digestible env registry stem document steps := by
  simp only [validateSteps, answers_bind, pure, Except.pure, answers_ok, and_true]
  constructor
  · rintro ⟨own, ownOk, servers, serversOk, references, referencesOk, ids, idsOk, sources,
      sourcesOk, targets, targetsOk, guardrails, guardrailsOk⟩
    have each := ownChecks_answers.mp ⟨own, ownOk⟩
    obtain ⟨name, unserved⟩ := servers_answers.mp ⟨servers, serversOk⟩
    have referred := gather_answers.mp ⟨references, referencesOk⟩
    have hashable := allStepIds_answers.mp ⟨ids, idsOk⟩
    have injected := injectSources_answers.mp ⟨sources, sourcesOk⟩
    have aimed := gather_answers.mp ⟨targets, targetsOk⟩
    rw [List.forall_mem_map] at referred aimed
    obtain rfl := allStepIds_ok idsOk
    refine ⟨name, fun entry member => ?_, guardrails_answers.mp ⟨guardrails, guardrailsOk⟩⟩
    refine ⟨hashable entry member, fun value found => (injected entry member value found).1,
      (each entry member).1, ?_⟩
    by_cases named : PrintsId entry.2
    · exact .inl named
    · refine .inr ⟨(each entry member).2.resolve_left named, fun servers known => ?_, ?_, ?_, ?_⟩
      · exact (unserved entry member servers known).resolve_right named
      · exact (naming_answers.mp (referred entry member)).resolve_right named
      · exact fun value found sources isIter =>
          ((injected entry member value found).2 sources isIter).resolve_right named
      · exact (naming_answers.mp (aimed entry member)).resolve_right named
  · intro digestible
    have spared : ∀ entry ∈ mappedSteps steps, ∀ {errors : List String},
        (Faultless env registry steps entry.1 entry.2 → errors = []) → errors = [] ∨
          PrintsId entry.2 :=
      fun entry member errors faultless =>
        (digestible.steps entry member).named.symm.imp_left faultless
    obtain ⟨own, ownOk⟩ := ownChecks_answers.mpr fun entry member =>
      ⟨(digestible.steps entry member).fields,
        (digestible.steps entry member).named.imp_right Faultless.own⟩
    obtain ⟨servers, serversOk⟩ :=
      servers_answers.mpr ⟨digestible.name, fun entry member servers known =>
      (digestible.steps entry member).named.symm.imp_left fun faultless =>
        faultless.server servers known⟩
    obtain ⟨references, referencesOk⟩ : Answers (validateWorkflowPreconditions env steps) := by
      refine gather_answers.mpr (List.forall_mem_map.mpr fun entry member => naming_answers.mpr ?_)
      exact spared entry member Faultless.reference
    obtain ⟨ids, idsOk⟩ := allStepIds_answers.mpr fun entry member =>
      (digestible.steps entry member).id
    obtain rfl := allStepIds_ok idsOk
    obtain ⟨sources, sourcesOk⟩ := injectSources_answers.mpr fun entry member value found =>
      ⟨(digestible.steps entry member).injectContext value found, fun sources isIter =>
        spared entry member fun faultless => faultless.sources value found sources isIter⟩
    obtain ⟨targets, targetsOk⟩ : Answers (gather ((mappedSteps steps).map fun entry =>
        naming entry.2 (validateTargets env (stepIds steps) entry.2))) := by
      refine gather_answers.mpr (List.forall_mem_map.mpr fun entry member => naming_answers.mpr ?_)
      exact spared entry member Faultless.targets
    obtain ⟨guardrails, guardrailsOk⟩ := guardrails_answers.mpr digestible.guardrails
    exact ⟨own, ownOk, servers, serversOk, references, referencesOk, _, idsOk, sources, sourcesOk,
      targets, targetsOk, guardrails, guardrailsOk⟩

theorem digestible_withSchemaVersion :
    Digestible env registry stem (withSchemaVersion entries) steps ↔
    Digestible env registry stem entries steps := by
  have sameName : (withSchemaVersion entries).get? "name" = entries.get? "name" :=
    withSchemaVersion_get? (by simp)
  have same : (withSchemaVersion entries).get? "guardrails" = entries.get? "guardrails" :=
    withSchemaVersion_get? (by simp)
  constructor
  · rintro ⟨name, own, guardrails⟩
    rw [sameName] at name
    rw [Mapping.At, same] at guardrails
    exact ⟨name, own, guardrails⟩
  · rintro ⟨name, own, guardrails⟩
    rw [← sameName] at name
    rw [Mapping.At, ← same] at guardrails
    exact ⟨name, own, guardrails⟩

/-- A key that cannot be printed is no key of the repair policy, so it is reported. -/
theorem head_answers : Answers (validateHead env entries) ↔ DigestibleRepair entries := by
  simp only [validateHead, gather_answers, List.forall_mem_cons, answers_ok, true_and,
    List.not_mem_nil, false_implies, implies_true, and_true]
  unfold validateRepair DigestibleRepair
  cases found : entries.get? "conversation_repair" with
  | none => simp [Mapping.At, found]
  | some value =>
      cases value with
      | dict repair =>
          simp only [gather_answers, List.forall_mem_map, printing_answers, Mapping.At, found,
            Option.some.injEq, forall_eq', Val.dict.injEq]
          refine forall₂_congr fun entry _ => or_iff_right_of_imp ?_
          intro passed
          split at passed
          · simp at passed
          · rename_i known
            simp only [Bool.not_eq_eq_eq_not, Bool.not_true, Bool.not_eq_false, List.any_eq_true,
              Val.isStr_iff] at known
            obtain ⟨name, -, same⟩ := known
            rw [same]
            rfl
      | _ => simp [Mapping.At, found]

end Megalos
