import Megalos.Sample
import Megalos.Validated
import Megalos.WorkflowSchema

/-!
The exported schema against the validator: an accepted document is valid under the schema
unless a place that the validator does not look at holds something else.
-/

namespace Megalos

open JsonSchema RegularExpression

variable {env : Env} {registry : Option Registry} {stem label : String} {raw doc value : Val}
    {entries : Mapping}

/-! Refs. -/

theorem splitDots_join {text first : List Char} {rest : List (List Char)}
    (parts : splitDots text = first :: rest) :
    text = first ++ (rest.map fun part => '.' :: part).flatten := by
  induction text generalizing first rest with
  | nil =>
      simp only [splitDots, List.cons.injEq, List.nil_eq] at parts
      simp [parts.1, parts.2]
  | cons letter later ih =>
      simp only [splitDots] at parts
      split at parts
      · rename_i isDot
        simp only [List.cons.injEq] at parts
        obtain ⟨rfl, same⟩ := parts
        cases rest with
        | nil => exact absurd same (splitDots_ne_nil later)
        | cons second others =>
            rw [ih same, isDot]
            simp
      · split at parts
        · rename_i empty
          exact absurd empty (splitDots_ne_nil later)
        · rename_i head others same
          simp only [List.cons.injEq] at parts
          obtain ⟨rfl, rfl⟩ := parts
          rw [ih same]
          simp

theorem splitDots_dot {first later : List Char} (plain : '.' ∉ first) :
    splitDots (first ++ '.' :: later) = first :: splitDots later := by
  induction first with
  | nil => simp [splitDots]
  | cons letter rest ih =>
      simp only [List.mem_cons, not_or] at plain
      rw [List.cons_append, splitDots, if_neg (Ne.symm plain.1), ih plain.2]

theorem upper_iff {letter : Char} : letter ∈ range 'A' 'Z' ↔ letter.isUpper = true := by
  rw [mem_range (by decide)]
  delta Char.isUpper
  simp [UInt32.le_iff_toNat_le]

theorem lower_iff {letter : Char} : letter ∈ range 'a' 'z' ↔ letter.isLower = true := by
  rw [mem_range (by decide)]
  delta Char.isLower
  simp [UInt32.le_iff_toNat_le]

theorem digit_iff {letter : Char} : letter ∈ range '0' '9' ↔ letter.isDigit = true := by
  rw [mem_range (by decide)]
  simp [Char.isDigit, UInt32.le_iff_toNat_le]

theorem isSegmentStart_iff {letter : Char} :
    isSegmentStart letter = true ↔ letter ∈ range 'A' 'Z' ++ range 'a' 'z' ++ ['_'] := by
  rw [isSegmentStart]
  delta Char.isAlpha
  simp [upper_iff, lower_iff, or_assoc]

theorem isSegmentLetter_iff {letter : Char} : isSegmentLetter letter = true ↔
    letter ∈ range 'A' 'Z' ++ range 'a' 'z' ++ range '0' '9' ++ ['_', '-'] := by
  rw [isSegmentLetter, Char.isAlphanum]
  delta Char.isAlpha
  simp [upper_iff, lower_iff, digit_iff, or_assoc]

theorem segment_rmatch {text : List Char} : segmentExpression.rmatch text = true ↔
    ∃ first rest, text = first :: rest ∧ isSegmentStart first = true ∧
      rest.all isSegmentLetter = true := by
  simp only [segmentExpression, mul_rmatch_iff, letters_rmatch, letters_star_rmatch,
    ← isSegmentStart_iff, ← isSegmentLetter_iff, List.all_eq_true]
  constructor
  · rintro ⟨front, rest, rfl, ⟨first, starts, rfl⟩, each⟩
    exact ⟨first, rest, rfl, starts, each⟩
  · rintro ⟨first, rest, rfl, starts, each⟩
    exact ⟨[first], rest, rfl, ⟨first, starts, rfl⟩, each⟩

theorem segment_letters {text : List Char} (segment : segmentExpression.rmatch text = true) :
    ∀ letter ∈ text, isSegmentLetter letter = true := by
  obtain ⟨first, rest, rfl, starts, each⟩ := segment_rmatch.mp segment
  rw [List.forall_mem_cons]
  refine ⟨?_, List.all_eq_true.mp each⟩
  simp only [isSegmentStart, Bool.or_eq_true] at starts
  rcases starts with alpha | underscore
  · simp [isSegmentLetter, Char.isAlphanum, alpha]
  · simp [isSegmentLetter, underscore]

theorem isRefSegment_rmatch {part : List Char} (plain : '\n' ∉ part) :
    isRefSegment (String.ofList part) = true ↔ segmentExpression.rmatch part = true := by
  have whole : beforeFinalNewline part = part := by
    unfold beforeFinalNewline
    rw [if_neg]
    intro last
    exact plain (List.mem_of_getLast? last)
  rw [segment_rmatch, isRefSegment, String.toList_ofList, whole]
  cases part with
  | nil => simp
  | cons first rest => simp

/-- A valid ref matches the pattern of the export if it is one line: Python's `$` lets a line feed
pass. -/
theorem refPath_rmatch {ref : String} (valid : isValidRefPath ref = true) :
    refPathExpression.rmatch ref.toList = true ↔ '\n' ∉ ref.toList := by
  simp only [refPathExpression, mul_rmatch_iff, exactly_rmatch, star_rmatch_iff]
  constructor
  · rintro ⟨front, back, same, ⟨start, segment, rfl, rfl, isSegment⟩, parts, rfl, each⟩ member
    have noLine : isSegmentLetter '\n' = false := by decide
    rw [same, List.mem_append, List.mem_append] at member
    rcases member with (inStart | inSegment) | inParts
    · exact absurd inStart (by decide)
    · exact absurd (segment_letters isSegment _ inSegment) (by simp [noLine])
    · obtain ⟨part, isPart, inPart⟩ := List.mem_flatten.mp inParts
      obtain ⟨-, dot, rest, rfl, rfl, later⟩ := each part isPart
      rcases List.mem_append.mp inPart with inDot | inLater
      · exact absurd inDot (by decide)
      · exact absurd (segment_letters later _ inLater) (by simp [noLine])
  · intro oneLine
    simp only [isValidRefPath, Bool.and_eq_true, List.isPrefixOf_iff_prefix] at valid
    obtain ⟨⟨later, same⟩, segments⟩ := valid
    have parts : splitDots ref.toList = "step_data".toList :: splitDots later := by
      rw [← same]
      exact splitDots_dot (show '.' ∉ "step_data".toList by decide)
    cases split : splitDots later with
    | nil => exact absurd split (splitDots_ne_nil later)
    | cons segment rest =>
        rw [splitPath, parts, split] at segments
        simp only [List.map_cons, List.all_eq_true, List.forall_mem_cons,
          List.forall_mem_map] at segments
        have joined := splitDots_join split
        rw [← same, joined, List.mem_append, List.mem_append, not_or, not_or] at oneLine
        refine ⟨"step_data.".toList ++ segment, (rest.map fun part => '.' :: part).flatten, ?_, ?_,
          ?_⟩
        · rw [← same, joined, List.append_assoc]
        · exact ⟨_, segment, rfl, rfl, (isRefSegment_rmatch oneLine.2.1).mp segments.1⟩
        · refine ⟨_, rfl, ?_⟩
          intro part member
          obtain ⟨inner, isInner, rfl⟩ := List.mem_map.mp member
          refine ⟨by simp, ['.'], inner, rfl, rfl,
            (isRefSegment_rmatch ?_).mp (segments.2 inner isInner)⟩
          intro line
          exact oneLine.2.2 (List.mem_flatten.mpr ⟨_, member, List.mem_cons_of_mem _ line⟩)

/-! What the validator does not look at. -/

def IsText (value : Val) : Prop := ∃ text, value = .str text

def IsName (value : Val) : Prop := ∃ text, value = .str text ∧ text ≠ ""

def ItemsAreTexts (value : Val) : Prop := ∀ items, value = .list items → ∀ item ∈ items, IsText item

def OneLine (value : Val) : Prop := ∀ text, value = .str text → '\n' ∉ text.toList

def Mapping.KeysAmong (entries : Mapping) (names : List String) : Prop :=
  ∀ key ∈ entries.map Prod.fst, ∃ name ∈ names, key = .str name

def TidyPrecondition (value : Val) : Prop :=
  ∀ entries : Mapping, value = .dict entries →
    entries.At "when_present" OneLine ∧
      entries.At "when_equals" fun we => ∀ fields : Mapping, we = .dict fields →
        fields.KeysAmong ["ref", "value"] ∧ fields.At "ref" OneLine

structure TidyLlmStep (step : Mapping) : Prop where
  id : step.At "id" IsName
  title : step.At "title" IsName
  directiveTemplate : step.At "directive_template" IsName
  gates : step.At "gates" ItemsAreTexts
  antiPatterns : step.At "anti_patterns" ItemsAreTexts
  maxRetries : step.At "max_retries" fun value => ∀ flag, value ≠ .bool flag
  injectContext : step.At "inject_context" fun value => ∀ items, value = .list items →
    ∀ fields : Mapping, Val.dict fields ∈ items → fields.At "fields" ItemsAreTexts
  precondition : step.At "precondition" TidyPrecondition
  callContextFrom : step.At "call_context_from" OneLine
  directives : step.At "directives" fun value => ∀ entries : Mapping, value = .dict entries →
    entries.KeysAmong ["tone", "strategy", "persona", "constraints"]

structure TidyMcpStep (step : Mapping) : Prop where
  id : step.At "id" IsName
  title : step.At "title" IsName
  timeout : step.At "timeout" fun value => value ≠ .float .nan
  stepDescription : step.At "step_description" IsText
  precondition : step.At "precondition" fun value => preconditionSchema value = true
  branches : step.At "branches" fun value => branchesSchema value = true
  defaultBranch : step.At "default_branch" IsText

def TidyStep (step : Mapping) : Prop :=
    if isMcpMapping step then TidyMcpStep step else TidyLlmStep step

structure TidyGuardrail (guardrail : Mapping) : Prop where
  id : guardrail.At "id" IsText
  message : guardrail.At "message" IsText
  targetStep : guardrail.At "target_step" IsText

/-- Every place that the validator passes over holds what the export asks for. -/
structure Tidy (document : Mapping) : Prop where
  head : ∀ key ∈ ["name", "description", "category", "output_format"], document.At key IsText
  steps : document.At "steps" fun value => ∀ items, value = .list items →
    ∀ step, Val.dict step ∈ items → TidyStep step
  guardrails : document.At "guardrails" fun value => ∀ items, value = .list items →
    ∀ guardrail, Val.dict guardrail ∈ items → TidyGuardrail guardrail

/-! One place at a time. -/

theorem isText_iff : stringSchema value = true ↔ IsText value := string_iff

theorem isName_iff : nonEmptyStringSchema value = true ↔ IsName value := by
  simp only [nonEmptyStringSchema, allOf_iff, List.forall_mem_cons, List.not_mem_nil, false_implies,
    implies_true, and_true]
  constructor
  · rintro ⟨isString, long⟩
    obtain ⟨text, rfl⟩ := string_iff.mp isString
    refine ⟨text, rfl, ?_⟩
    rintro rfl
    simp [minLength, Viewed.view] at long
  · rintro ⟨text, rfl, nonempty⟩
    refine ⟨string_iff.mpr ⟨text, rfl⟩, ?_⟩
    simp only [minLength, Viewed.view, decide_eq_true_eq]
    have : text.length ≠ 0 := by simpa using nonempty
    omega

theorem texts_iff {items_ : List Val} (isList : value = .list items_) :
    stringsSchema value = true ↔ ItemsAreTexts value := by
  subst isList
  simp [stringsSchema, allOf_iff, array_iff, items_list, ItemsAreTexts, isText_iff]

theorem refPath_iff {ref : String} (valid : isValidRefPath ref = true) :
    refPathSchema (.str ref) = true ↔ OneLine (.str ref) := by
  simp only [refPathSchema, allOf_iff, List.forall_mem_cons, List.not_mem_nil, false_implies,
    implies_true, and_true]
  simp [hasType, pattern, Viewed.view, Pattern.occurs, refPath_rmatch valid, OneLine]

theorem Mapping.At.congr {key : String} {first second : Val → Prop}
    (same : ∀ value, entries.get? key = some value → (first value ↔ second value)) :
    entries.At key first ↔ entries.At key second :=
  forall₂_congr same

theorem properties_at {schemas : List (String × Schema Val)} :
    properties schemas (.dict entries) = true ↔
    ∀ entry ∈ schemas, entries.At entry.1 fun value => entry.2 value = true := properties_dict

theorem string_of_isString (isText : isString value = true) : stringSchema value = true := by
  cases value with
  | str text => exact string_iff.mpr ⟨text, rfl⟩
  | _ => simp [isString] at isText

theorem stringField_nil {key : String} :
    stringField entries label key = [] ↔ entries.At key IsText := by
  rw [stringField, whenHas_nil]
  refine Mapping.At.congr fun value _ => ?_
  rw [errorIf_nil]
  cases value <;> simp [isString, IsText]

theorem listField_nil {key : String} :
    listField entries label key = [] ↔ entries.At key fun value => ∃ items,
      value = .list items := by
  rw [listField, whenHas_nil]
  refine Mapping.At.congr fun value _ => ?_
  rw [errorIf_nil]
  cases value <;> simp [isList]

theorem missingKeys_nil {position : Nat} {kind : String} {required_ : List String} :
    missingKeys env entries position kind required_ = [] ↔ ∀ key ∈ required_,
      (Val.valueAt? entries key).isSome := by
  simp [missingKeys, errorIf_nil, Mapping.has, List.filter_eq_nil_iff, Option.isSome_iff_ne_none]

theorem schemaField_nil {holder : Mapping} {key untyped : String} {invalid : String → String}
    (passed : schemaField env entries holder key untyped invalid = .ok []) :
    holder.At key fun value => ∃ schema, value = .dict schema := by
  intro value found
  rw [schemaField, found] at passed
  cases value with
  | dict schema => exact ⟨schema, rfl⟩
  | _ => simp at passed

theorem collect_facts (passed : validateCollect entries label = []) :
    entries.At "collect" fun value =>
    ∃ flag, value = .bool flag ∧ (flag = true → entries.has "output_schema" = true) := by
  intro value found
  have checked := whenHas_nil.mp passed value found
  cases value with
  | bool flag =>
      refine ⟨flag, rfl, ?_⟩
      rintro rfl
      simpa [isBool, errorIf_nil, Val.truthy] using checked
  | _ => simp [isBool] at checked

theorem maxRetries_iff (passed : validateMaxRetries entries label = []) :
    (entries.At "max_retries" fun value => allOf [hasType .integer, minimum 1] value = true) ↔
      entries.At "max_retries" fun value => ∀ flag, value ≠ .bool flag := by
  refine Mapping.At.congr fun value found => ?_
  have checked := errorIf_nil.mp (whenHas_nil.mp passed value found)
  cases value with
  | int limit =>
      simp only [decide_eq_false_iff_not, not_lt] at checked
      have above : (1 : ℚ) ≤ limit := by exact_mod_cast checked
      simp [allOf, hasType, minimum, Viewed.view, Number.isInteger, Number.atLeast, above]
  | bool flag => simp [allOf, hasType, Viewed.view]
  | _ => simp at checked

theorem branches_valid (passed : validateBranches entries label = []) :
    entries.At "branches" fun value => branchesSchema value = true := by
  intro value found
  have checked := whenHas_nil.mp passed value found
  cases value with
  | list members =>
      simp only [branchesSchema, allOf_iff, List.forall_mem_cons, List.not_mem_nil, false_implies,
        implies_true, and_true, array_iff, items_list]
      refine ⟨⟨members, rfl⟩, ?_⟩
      intro member isMember
      obtain ⟨position, one⟩ := eachItem_nil checked isMember
      cases member with
      | dict fields =>
          simp only [validateBranch, List.append_eq_nil_iff, errorIf_nil, Bool.not_eq_eq_eq_not,
            Bool.not_false] at one
          have text : ∀ {key : String}, ((Mapping.get? fields key).map isString).getD false = true →
              ∃ text, Val.valueAt? fields key = some (.str text) := by
            intro key isText
            cases there : Val.valueAt? fields key with
            | none => simp [Mapping.get?, there] at isText
            | some value => cases value <;> simp [Mapping.get?, there, isString] at isText ⊢
          obtain ⟨next, isNext⟩ := text one.1
          obtain ⟨condition, isCondition⟩ := text one.2
          simp [branchSchema, allOf_iff, object_iff, required_dict, properties_dict, isNext,
            isCondition, string_iff]
      | _ => simp [validateBranch] at one
  | _ => simp at checked

theorem injectEntry_iff {index : Nat} {fields : Mapping}
    (passed : validateInjectEntry label index (.dict fields) = []) :
    allOf [hasType .object, required ["from"],
      properties [("from", stringSchema), ("fields", stringsSchema),
      ("summary", hasType .boolean)]] (Val.dict fields) = true ↔
        fields.At "fields" ItemsAreTexts := by
  simp only [validateInjectEntry, List.append_eq_nil_iff, whenHas_nil, errorIf_nil,
    Bool.not_eq_eq_eq_not, Bool.not_false] at passed
  obtain ⟨⟨source, isListed⟩, isFlag⟩ := passed
  have isSource : ∃ text, Val.valueAt? fields "from" = some (.str text) := by
    split at source
    · simp at source
    · rename_i value found
      rw [errorIf_nil] at source
      cases value with
      | str text => exact ⟨text, found⟩
      | _ => simp [isString] at source
  obtain ⟨text, isSource⟩ := isSource
  have summarized : fields.At "summary" fun value =>
    (hasType .boolean : Schema Val) value = true := by
    intro value found
    have isBoolean := isFlag value found
    cases value with
    | bool flag => exact boolean_iff.mpr ⟨flag, rfl⟩
    | _ => simp [isBool] at isBoolean
  have listed : (fields.At "fields" fun value => stringsSchema value = true) ↔
    fields.At "fields" ItemsAreTexts := by
    refine Mapping.At.congr fun value found => ?_
    have isList_ := isListed value found
    cases value with
    | list items => exact texts_iff rfl
    | _ => simp [isList] at isList_
  rw [← listed]
  simp only [allOf_iff, List.forall_mem_cons, List.not_mem_nil, false_implies, implies_true,
    and_true, object_iff, Val.dict.injEq, exists_eq', true_and, required_dict, isSource, Option.isSome_some, properties_at]
  constructor
  · rintro ⟨-, each, -⟩
    exact each
  · intro each
    refine ⟨?_, each, summarized⟩
    intro value found
    rw [Mapping.get?, isSource, Option.some.injEq] at found
    exact string_iff.mpr ⟨text, found.symm⟩

theorem injectContext_iff (passed : validateInjectContext entries label = []) :
    (entries.At "inject_context" fun value => injectContextSchema value = true) ↔
      entries.At "inject_context" fun value => ∀ items, value = .list items →
        ∀ fields : Mapping, Val.dict fields ∈ items → fields.At "fields" ItemsAreTexts := by
  refine Mapping.At.congr fun value found => ?_
  have checked := whenHas_nil.mp passed value found
  cases value with
  | list members =>
      dsimp only at checked
      rw [injectContextSchema, allOf_iff]
      simp only [List.forall_mem_cons, array_iff, items_list,
        List.not_mem_nil, false_implies, implies_true, and_true, Val.list.injEq, exists_eq', true_and, forall_eq']
      constructor
      · intro each fields member
        obtain ⟨index, one⟩ := eachItem_nil checked member
        exact (injectEntry_iff one).mp (each _ member)
      · intro each member isMember
        obtain ⟨index, one⟩ := eachItem_nil checked isMember
        cases member with
        | dict fields => exact (injectEntry_iff one).mpr (each fields isMember)
        | _ => simp [validateInjectEntry] at one
  | _ => simp at checked

theorem presentSchema_eq (ref : Val) :
    preconditionSchema (.dict [(.str "when_present", ref)]) = refPathSchema ref := by
  rw [preconditionSchema, allOf, List.all_cons, List.all_cons, oneOf_second]
  · simp [allOf, hasType, required, JsonSchema.not, properties, closed, Viewed.view, Val.valueAt?]
  · simp [allOf, required, Viewed.view, Val.valueAt?]

theorem equalsSchema_eq (we : Val) : preconditionSchema (.dict [(.str "when_equals", we)]) =
    allOf [hasType .object, required ["ref", "value"], closed ["ref", "value"],
      properties [("ref", refPathSchema), ("value", allOf [])]] we := by
  rw [preconditionSchema, allOf, List.all_cons, List.all_cons, oneOf_first]
  · simp [allOf, hasType, required, JsonSchema.not, properties, closed, Viewed.view, Val.valueAt?]
  · simp [allOf, required, Viewed.view, Val.valueAt?]

theorem tidyPrecondition_equals {fields : Mapping} :
    TidyPrecondition (.dict [(.str "when_equals", .dict fields)]) ↔
      fields.KeysAmong ["ref", "value"] ∧ fields.At "ref" OneLine := by
  constructor
  · intro tidy
    exact (tidy _ rfl).2 _ rfl fields rfl
  · rintro tidy entries same
    rw [Val.dict.injEq] at same
    subst same
    refine ⟨fun value found => by simp [Mapping.get?, Val.valueAt?] at found, ?_⟩
    intro we found inner isDict
    change some (Val.dict fields) = some we at found
    rw [Option.some.injEq] at found
    rw [← found, Val.dict.injEq] at isDict
    exact isDict ▸ tidy

theorem tidyPrecondition_present {ref : Val} :
    TidyPrecondition (.dict [(.str "when_present", ref)]) ↔ OneLine ref := by
  simp [TidyPrecondition, Mapping.At, Mapping.get?, Val.valueAt?]

theorem precondition_iff (passed : validatePrecondition env entries label = .ok []) :
    (entries.At "precondition" fun value => preconditionSchema value = true) ↔
      entries.At "precondition" TidyPrecondition := by
  refine Mapping.At.congr fun pc found => ?_
  obtain ⟨key, value, rfl, ⟨rfl, checked⟩ | ⟨rfl, checked⟩⟩ :=
    validatePrecondition_shape passed found
  · obtain ⟨fields, ref, rfl, refers, valid, valued⟩ := validateWhenEquals_nil checked
    have isRef : Mapping.At fields "ref" (fun value => refPathSchema value = true) ↔
      Mapping.At fields "ref" OneLine := by
      refine Mapping.At.congr fun value found => ?_
      rw [Mapping.get?, refers, Option.some.injEq] at found
      exact found ▸ refPath_iff valid
    rw [equalsSchema_eq, allOf_iff, tidyPrecondition_equals, ← isRef]
    simp only [List.forall_mem_cons, object_iff, required_dict, closed_dict, properties_at, refers,
      valued]
    simp [Mapping.KeysAmong, Mapping.At, allOf]
  · obtain ⟨ref, rfl, valid⟩ := validateWhenPresent_nil checked
    rw [presentSchema_eq, refPath_iff valid, tidyPrecondition_present]

theorem isName_of_isName (checked : isName value = true) : IsName value := by
  cases value with
  | str text => exact ⟨text, rfl, by simpa [isName, isString, Val.truthy] using checked⟩
  | _ => simp [isName, isString] at checked

structure CallFacts (entries : Mapping) : Prop where
  named : entries.At "call" IsName
  uncollected : entries.has "call" = true → isTrue entries "collect" = false
  unproductive : entries.has "call" = true → entries.has "intermediate_artifacts" = false
  defaulted : entries.has "call" = true → entries.has "branches" = true →
    entries.has "default_branch" = true

theorem call_facts (passed : validateCall entries label = []) : CallFacts entries := by
  have each : ∀ value, entries.get? "call" = some value → isName value = true ∧
    isTrue entries "collect" = false ∧
      entries.has "intermediate_artifacts" = false ∧
      (entries.has "branches" = true → entries.has "default_branch" = true) := by
    intro value found
    have checked := whenHas_nil.mp passed value found
    simp only [List.append_eq_nil_iff, errorIf_nil] at checked
    obtain ⟨⟨⟨named, uncollected⟩, unproductive⟩, defaulted⟩ := checked
    exact ⟨by simpa using named, uncollected, unproductive, by simpa using defaulted⟩
  have known : entries.has "call" = true → ∃ value, entries.get? "call" = some value :=
    fun there => Option.isSome_iff_exists.mp there
  refine ⟨fun value found => isName_of_isName (each value found).1, ?_, ?_, ?_⟩
  · intro there
    obtain ⟨value, found⟩ := known there
    exact (each value found).2.1
  · intro there
    obtain ⟨value, found⟩ := known there
    exact (each value found).2.2.1
  · intro there
    obtain ⟨value, found⟩ := known there
    exact (each value found).2.2.2

theorem callContextFrom_iff (passed : validateCallContextFrom entries label = []) :
    ((entries.At "call_context_from" fun value => refPathSchema value = true) ↔
      entries.At "call_context_from" OneLine) ∧
    (entries.has "call_context_from" = true → entries.has "call" = true) := by
  have each : ∀ value, entries.get? "call_context_from" = some value →
      ∃ ref, value = .str ref ∧ isValidRefPath ref = true ∧ entries.has "call" = true := by
    intro value found
    have checked := whenHas_nil.mp passed value found
    cases value with
    | str ref =>
        simp only [List.append_eq_nil_iff, errorIf_nil, Bool.not_eq_eq_eq_not,
          Bool.not_false] at checked
        exact ⟨ref, rfl, checked.2, checked.1⟩
    | _ => simp at checked
  refine ⟨Mapping.At.congr fun value found => ?_, ?_⟩
  · obtain ⟨ref, rfl, valid, -⟩ := each value found
    exact refPath_iff valid
  · intro there
    obtain ⟨value, found⟩ := Option.isSome_iff_exists.mp there
    obtain ⟨-, -, -, called⟩ := each value found
    exact called

theorem directives_iff (passed : validateDirectives entries label = []) :
    (entries.At "directives" fun value => directivesSchema value = true) ↔
      entries.At "directives" fun value => ∀ fields : Mapping, value = .dict fields →
        fields.KeysAmong ["tone", "strategy", "persona", "constraints"] := by
  refine Mapping.At.congr fun value found => ?_
  have checked := whenHas_nil.mp passed value found
  cases value with
  | dict fields =>
      simp only [List.append_eq_nil_iff, List.flatMap_eq_nil_iff, whenHas_nil] at checked
      obtain ⟨texts, constrained⟩ := checked
      have isText : ∀ key ∈ ["tone", "strategy", "persona"], Mapping.At fields key fun value =>
        stringSchema value = true := by
        intro key member value found
        exact string_of_isString (by simpa using errorIf_nil.mp (texts key member value found))
      have areTexts : Mapping.At fields "constraints" fun value => stringsSchema value = true := by
        intro value found
        have one := constrained value found
        cases value with
        | list items =>
            refine (texts_iff rfl).mpr ?_
            intro others same item member
            rw [Val.list.injEq] at same
            subst same
            have each : items.all isString = true := by simpa using errorIf_nil.mp one
            exact string_iff.mp (string_of_isString (List.all_eq_true.mp each item member))
        | _ => simp at one
      rw [directivesSchema, allOf_iff]
      simp only [List.forall_mem_cons, object_iff, closed_dict, properties_at]
      simp only [List.forall_mem_cons] at isText
      simp [Mapping.KeysAmong, isText, areTexts]
  | _ => simp at checked

theorem artifact_valid {index : Nat} {artifact : Val}
    (passed : validateArtifact env entries label index artifact = .ok []) :
    intermediateArtifactSchema artifact = true := by
  cases artifact with
  | dict fields =>
      simp only [validateArtifact, gather_ok_nil, List.forall_mem_cons, naming_ok_nil,
        List.flatMap_eq_nil_iff, whenHas_nil, errorIf_nil, Bool.not_eq_eq_eq_not, Bool.not_false] at passed
      obtain ⟨there, id, description, schema, checkpoint, -⟩ := passed
      have isObject : Mapping.At fields "schema" fun value => ∃ inner, value = .dict inner :=
        schemaField_nil schema
      have isFlag : Mapping.At fields "checkpoint" fun value =>
        (hasType .boolean : Schema Val) value = true := by
        intro value found
        have one := checkpoint value found
        cases value with
        | bool flag => exact boolean_iff.mpr ⟨flag, rfl⟩
        | _ => simp [isBool] at one
      rw [intermediateArtifactSchema, allOf_iff]
      simp only [List.forall_mem_cons, object_iff, required_dict, properties_at, List.not_mem_nil,
        false_implies, implies_true, and_true]
      simp only [List.not_mem_nil, false_implies, implies_true, and_true] at there
      exact ⟨⟨fields, rfl⟩, there, fun value found => string_of_isString (id value found),
        fun value found => string_of_isString (description value found), isObject, isFlag⟩
  | _ => simp [validateArtifact] at passed

theorem artifacts_facts (passed : validateIntermediateArtifacts env entries label = .ok []) :
    (entries.At "intermediate_artifacts" fun value =>
      allOf [hasType .array, items intermediateArtifactSchema] value = true) ∧
    (entries.At "output_from" fun value => stringSchema value = true) ∧
    (entries.has "output_from" = true → entries.has "intermediate_artifacts" = true) := by
  unfold validateIntermediateArtifacts at passed
  split at passed
  · rename_i artifacts found
    rw [gather_ok_nil] at passed
    simp only [List.forall_mem_cons, naming_ok_nil] at passed
    obtain ⟨each, source, -⟩ := passed
    refine ⟨?_, ?_, ?_⟩
    · intro value isValue
      rw [found, Option.some.injEq] at isValue
      subst isValue
      rw [allOf_iff]
      simp only [List.forall_mem_cons, array_iff, items_list, List.not_mem_nil, false_implies,
        implies_true, and_true]
      refine ⟨⟨artifacts, rfl⟩, ?_⟩
      intro artifact member
      obtain ⟨index, one⟩ := gather_zipIdx_nil each member
      exact artifact_valid one
    · intro value isValue
      have one := whenHas_nil.mp source value isValue
      cases value with
      | str text => exact string_iff.mpr ⟨text, rfl⟩
      | _ => simp at one
    · intro _
      exact Option.isSome_iff_exists.mpr ⟨_, found⟩
  · simp at passed
  · rename_i absent
    rw [naming_ok_nil, errorIf_nil] at passed
    refine ⟨?_, ?_, ?_⟩
    · intro value found
      rw [absent] at found
      cases found
    · intro value found
      have there : entries.has "output_from" = true := Option.isSome_iff_exists.mpr ⟨value, found⟩
      rw [there] at passed
      cases passed
    · intro there
      rw [there] at passed
      cases passed

/-! Steps. -/

theorem isTrue_iff {key : String} :
    isTrue entries key = true ↔ entries.get? key = some (.bool true) := by
  unfold isTrue
  split <;> simp_all

theorem has_iff {key : String} : entries.has key = true ↔ ∃ value, entries.get? key = some value :=
  Option.isSome_iff_exists

theorem isMcpMapping_iff :
    isMcpMapping entries = true ↔ entries.get? "action" = some (.str "mcp_tool_call") := by
  unfold isMcpMapping
  cases entries.get? "action" with
  | none => simp
  | some value => simp [Val.isStr_iff]

theorem actionSchema_iff :
    allOf [properties [("action", const (.string "mcp_tool_call"))], required ["action"]]
    (Val.dict entries) = true ↔ isMcpMapping entries = true := by
  rw [isMcpMapping_iff, allOf_iff]
  simp only [List.forall_mem_cons, properties_at, required_dict, List.not_mem_nil, false_implies,
    implies_true, and_true, const_iff, Mapping.At, Mapping.get?, Option.isSome_iff_exists]
  constructor
  · rintro ⟨same, value, found⟩
    rw [found, same value found]
  · intro found
    refine ⟨fun value other => ?_, _, found⟩
    rw [found, Option.some.injEq] at other
    exact other.symm

theorem collectSchema_iff :
    allOf [properties [("collect", const (.boolean true))], required ["collect"]]
    (Val.dict entries) = true ↔ isTrue entries "collect" = true := by
  rw [isTrue_iff, allOf_iff]
  simp only [List.forall_mem_cons, properties_at, required_dict, List.not_mem_nil, false_implies,
    implies_true, and_true, const_true_iff, Mapping.At, Mapping.get?, Option.isSome_iff_exists]
  constructor
  · rintro ⟨same, value, found⟩
    rw [found, same value found]
  · intro found
    refine ⟨fun value other => ?_, _, found⟩
    rw [found, Option.some.injEq] at other
    exact other.symm

theorem required_one {key : String} :
    required [key] (Val.dict entries) = true ↔ entries.has key = true := by
  simp [required_dict, Mapping.has]

theorem llmStep_conditions (collected : entries.At "collect" fun value =>
      ∃ flag, value = .bool flag ∧ (flag = true → entries.has "output_schema" = true))
    (called : CallFacts entries)
    (context : entries.has "call_context_from" = true → entries.has "call" = true)
    (produces : entries.has "output_from" = true → entries.has "intermediate_artifacts" = true) :
    allOf [
      ifThen (allOf [properties [("collect", const (.boolean true))], required ["collect"]])
        (required ["output_schema"]),
      ifThen (required ["call_context_from"]) (required ["call"]),
      ifThen (allOf [required ["call"], properties [("collect", const (.boolean true))]])
        (JsonSchema.not (required ["collect"])),
      ifThen (required ["call"]) (JsonSchema.not (required ["intermediate_artifacts"])),
      ifThen (required ["call", "branches"]) (required ["default_branch"]),
      ifThen (required ["output_from"]) (required ["intermediate_artifacts"])] (Val.dict entries) =
        true := by
  rw [allOf_iff]
  simp only [List.forall_mem_cons, ifThen_iff, collectSchema_iff, required_one, not_iff,
    Bool.eq_false_iff, ne_eq, List.not_mem_nil, false_implies, implies_true, and_true]
  refine ⟨?_, context, ?_, ?_, ?_, produces⟩
  · intro isTrue_
    obtain ⟨flag, same, needs⟩ := collected _ (isTrue_iff.mp isTrue_)
    rw [Val.bool.injEq] at same
    exact needs same.symm
  · intro both there
    simp only [allOf_iff, List.forall_mem_cons, required_one, List.not_mem_nil, false_implies,
      implies_true, and_true] at both
    have isTrue_ := collectSchema_iff.mp (allOf_iff.mpr (by
      simpa [List.forall_mem_cons, required_one] using And.intro both.2 there))
    rw [called.uncollected both.1] at isTrue_
    cases isTrue_
  · intro there
    rw [called.unproductive there]
    simp
  · intro both
    simp only [required_dict, List.forall_mem_cons] at both
    exact called.defaulted both.1 both.2.1

theorem llmStep_iff {position : Nat} (passed : validateStep env position (.dict entries) = .ok [])
    (plain : isMcpMapping entries = false) : llmStepSchema (.dict entries) = true ↔
      TidyLlmStep entries := by
  simp only [validateStep, plain, Bool.false_eq_true, if_false, gather_ok_nil, List.forall_mem_cons,
    naming_ok_nil, missingKeys_nil, listField_nil, validateStepOptionalFields, stringField_nil, List.not_mem_nil, false_implies,
    implies_true, and_true] at passed
  obtain ⟨there, gates, antiPatterns, outputSchema, collect, stepDescription, maxRetries,
    validationHint, injectContext, branches, defaultBranch, precondition, call, callContextFrom, directives, artifacts⟩ := passed
  have called := call_facts call
  have context := callContextFrom_iff callContextFrom
  have produced := artifacts_facts artifacts
  have listed : ∀ {key : String}, entries.At key (fun value => ∃ items, value = .list items) →
      ((entries.At key fun value => stringsSchema value = true) ↔ entries.At key ItemsAreTexts) :=
        by
    intro key lists
    refine Mapping.At.congr fun value found => ?_
    obtain ⟨items, isList⟩ := lists value found
    exact texts_iff isList
  have collects : entries.At "collect" fun value => ∃ flag, value = .bool flag := by
    intro value found
    obtain ⟨flag, same, -⟩ := collect_facts collect value found
    exact ⟨flag, same⟩
  have others : JsonSchema.not (allOf [properties [("action", const (.string "mcp_tool_call"))],
    required ["action"]])
      (Val.dict entries) = true := by
    rw [not_iff, Bool.eq_false_iff, ne_eq, actionSchema_iff, plain]
    simp
  have conditions := llmStep_conditions (collect_facts collect) called context.2 produced.2.2
  rw [llmStepSchema, allOf_iff]
  simp only [List.forall_mem_cons, List.not_mem_nil, false_implies, implies_true, and_true,
    object_iff, others, conditions, properties_at, isName_iff, isText_iff, boolean_iff, listed gates, listed antiPatterns, maxRetries_iff maxRetries,
    injectContext_iff injectContext, precondition_iff precondition, context.1, directives_iff directives]
  constructor
  · rintro ⟨-, -, -, id, title, template, gates, antiPatterns, -, -, -, maxRetries, -,
      injectContext, -, -, precondition, -, callContextFrom, directives, -, -⟩
    exact ⟨id, title, template, gates, antiPatterns, maxRetries, injectContext, precondition,
      callContextFrom, directives⟩
  · intro tidy
    have keys : ∀ name ∈ ["id", "title", "directive_template", "gates", "anti_patterns"],
        (Val.valueAt? entries name).isSome = true := by
      simp only [requiredStepKeys, List.forall_mem_cons] at there
      simp [there]
    refine ⟨⟨entries, rfl⟩, required_dict.mpr keys, trivial, tidy.id, tidy.title,
      tidy.directiveTemplate, tidy.gates, tidy.antiPatterns, stepDescription, collects, ?_, tidy.maxRetries, validationHint, tidy.injectContext,
      branches_valid branches, defaultBranch, tidy.precondition, called.named, tidy.callContextFrom, tidy.directives,
      produced.1, ?_⟩
    · intro value found
      exact schemaField_nil outputSchema value found
    · intro value found
      exact string_iff.mp (produced.2.1 value found)

theorem literalField_valid {key : String} (passed : literalField env entries label key = []) :
    entries.At key fun value => literalNoInterpSchema value = true := by
  intro value found
  obtain ⟨text, isText, nonempty, literal⟩ := literalField_nil passed
  rw [isText, Option.some.injEq] at found
  subst found
  have long : nonEmptyStringSchema (.str text) = true := isName_iff.mpr ⟨text, rfl, nonempty⟩
  simp only [nonEmptyStringSchema, allOf_iff, List.forall_mem_cons, List.not_mem_nil, false_implies,
    implies_true, and_true] at long
  have plain : pattern (.somewhere (exactly "$\x7b")) (Val.str text) = false := by
    rw [Bool.eq_false_iff, ne_eq]
    intro occurs
    simp only [hasInterpolation, decide_eq_false_iff_not] at literal
    exact literal (somewhere_exactly.mp occurs)
  simp [literalNoInterpSchema, allOf_iff, long.1, long.2, not_iff, plain]

theorem timeout_iff (passed : validateTimeout entries label = []) :
    (entries.At "timeout" fun value => allOf [hasType .number, exclusiveMinimum 0] value = true) ↔
      entries.At "timeout" fun value => value ≠ .float .nan := by
  refine Mapping.At.congr fun value found => ?_
  have checked := whenHas_nil.mp passed value found
  have positive : ∀ {limit : ℚ},
    (Val.lessThan (.finite limit) (.finite 0) || PyFloat.finite limit == .finite 0) = false →
      0 < limit := by
    intro limit notBelow
    simp only [Val.lessThan, Bool.or_eq_false_iff, decide_eq_false_iff_not, not_lt,
      beq_eq_false_iff_ne, ne_eq, PyFloat.finite.injEq] at notBelow
    exact lt_of_le_of_ne notBelow.1 (Ne.symm notBelow.2)
  cases value with
  | int limit =>
      have above : (0 : ℚ) < limit := positive (errorIf_nil.mp checked)
      simp [allOf, hasType, exclusiveMinimum, Viewed.view, Number.above, above]
  | float limit =>
      cases limit with
      | finite limit =>
          have above : 0 < limit := positive (errorIf_nil.mp checked)
          simp [allOf, hasType, exclusiveMinimum, Viewed.view, Number.above, above]
      | infinite negative =>
          have upward : negative = false := by simpa [Val.lessThan] using errorIf_nil.mp checked
          simp [allOf, hasType, exclusiveMinimum, Viewed.view, Number.above, upward]
      | nan => simp [allOf, hasType, exclusiveMinimum, Viewed.view, Number.above]
  | _ => simp [isBool, Val.number?] at checked

theorem mcpUnknown_closed (unknown : validateMcpUnknown env entries label = .ok [])
    (mutex : validateMutex entries label = []) : entries.KeysAmong mcpAllowedStepKeys := by
  have none : unknownMcpFields entries = [] := validateMcpUnknown_nil unknown
  intro key member
  have known := List.filter_eq_nil_iff.mp none key member
  simp only [Bool.not_eq_true', Bool.not_eq_false, List.any_append, Bool.or_eq_true,
    List.any_eq_true, Val.isStr_iff] at known
  rcases known with ⟨name, allowed, same⟩ | ⟨name, forbidden, rfl⟩
  · exact ⟨name, allowed, same⟩
  · obtain ⟨entry, isEntry, rfl⟩ := List.mem_map.mp forbidden
    have absent := errorIf_nil.mp (List.flatMap_eq_nil_iff.mp mutex entry isEntry)
    rw [Mapping.has, valueAt?_isSome_iff.mpr member] at absent
    cases absent

theorem mcpStep_iff {position : Nat} (passed : validateStep env position (.dict entries) = .ok [])
    (mcp : isMcpMapping entries = true) : mcpToolCallStepSchema (.dict entries) = true ↔
      TidyMcpStep entries := by
  simp only [validateStep, mcp, if_true, gather_ok_nil, List.forall_mem_cons, naming_ok_nil,
    missingKeys_nil, validateMcpToolCallStep, List.not_mem_nil, false_implies, implies_true, and_true] at passed
  obtain ⟨there, server, tool, args, timeout, mutex, unknown⟩ := passed
  have action : entries.At "action" fun value => value = .str "mcp_tool_call" := by
    intro value found
    rw [isMcpMapping_iff.mp mcp, Option.some.injEq] at found
    exact found.symm
  have mapped : ∃ fields, entries.get? "args" = some (.dict fields) := by
    unfold validateArgs at args
    split at args
    · simp at args
    · rename_i fields found
      exact ⟨fields, found⟩
    · simp at args
  obtain ⟨fields, isArgs⟩ := mapped
  have argsMapped : entries.At "args" fun value => ∃ fields, value = .dict fields := by
    intro value found
    rw [isArgs, Option.some.injEq] at found
    exact ⟨fields, found.symm⟩
  have keys : ∀ name ∈ ["id", "title", "action", "server", "tool",
    "args"], (Val.valueAt? entries name).isSome = true := by
    obtain ⟨serverName, isServer, -⟩ := literalField_nil server
    obtain ⟨toolName, isTool, -⟩ := literalField_nil tool
    have isAction := isMcpMapping_iff.mp mcp
    simp only [requiredStepKeysMcp, List.forall_mem_cons, List.not_mem_nil, false_implies,
      implies_true, and_true] at there
    simp only [Mapping.get?] at isServer isTool isAction isArgs
    simp [there, isServer, isTool, isAction, isArgs]
  have closes := mcpUnknown_closed unknown mutex
  rw [mcpToolCallStepSchema, allOf_iff]
  simp only [List.forall_mem_cons, List.not_mem_nil, false_implies, implies_true, and_true,
    object_iff, properties_at, isName_iff, isText_iff, const_iff, timeout_iff timeout]
  constructor
  · rintro ⟨-, -, -, id, title, -, -, -, -, timed, described, precondition, branches, branched⟩
    exact ⟨id, title, timed, described, precondition, branches, branched⟩
  · intro tidy
    exact ⟨⟨entries, rfl⟩, required_dict.mpr keys, closed_dict.mpr closes, tidy.id, tidy.title,
      action, literalField_valid server, literalField_valid tool, argsMapped, tidy.timeout, tidy.stepDescription,
      tidy.precondition, tidy.branches, tidy.defaultBranch⟩

theorem step_iff {position : Nat} (passed : validateStep env position (.dict entries) = .ok []) :
    stepSchema (.dict entries) = true ↔ TidyStep entries := by
  have outer : stepSchema (.dict entries) = oneOf [llmStepSchema, mcpToolCallStepSchema]
    (.dict entries) := by
    simp [stepSchema, allOf, hasType, Viewed.view]
  rw [outer, TidyStep]
  cases mcp : isMcpMapping entries with
  | true =>
      have notLlm : llmStepSchema (.dict entries) = false := by
        have isAction := actionSchema_iff.mpr mcp
        rw [llmStepSchema, Bool.eq_false_iff, ne_eq, allOf_iff]
        simp only [List.forall_mem_cons]
        rintro ⟨-, -, refused, -⟩
        rw [not_iff, isAction] at refused
        cases refused
      rw [oneOf_second notLlm, if_pos rfl]
      exact mcpStep_iff passed mcp
  | false =>
      have notMcp : mcpToolCallStepSchema (.dict entries) = false := by
        rw [mcpToolCallStepSchema, Bool.eq_false_iff, ne_eq, allOf_iff]
        simp only [List.forall_mem_cons, properties_at, required_dict, const_iff]
        rintro ⟨-, keys, -, each, -⟩
        obtain ⟨value, found⟩ := Option.isSome_iff_exists.mp keys.2.2.1
        have same := each.2.2.1 value found
        rw [same] at found
        rw [isMcpMapping_iff.mpr found] at mcp
        cases mcp
      rw [oneOf_first notMcp, if_neg (by simp)]
      exact llmStep_iff passed mcp

/-! Documents. -/

theorem guardrail_iff {ids : List Val} {index : Nat} {guardrail : Mapping}
    (passed : validateGuardrail env ids index (.dict guardrail) = .ok []) :
    guardrailSchema (.dict guardrail) = true ↔ TidyGuardrail guardrail := by
  simp only [validateGuardrail, gather_ok_nil, List.forall_mem_cons, Except.ok.injEq,
    List.flatMap_eq_nil_iff, errorIf_nil, Bool.not_eq_eq_eq_not, Bool.not_false, List.not_mem_nil, false_implies, implies_true, and_true] at passed
  obtain ⟨there, action, trigger, target⟩ := passed
  have actions : guardrail.At "action" fun value =>
      enum [.string "warn", .string "force_branch", .string "escalate"] value = true := by
    intro value found
    rw [found] at action
    obtain ⟨name, known, rfl⟩ := oneOf_check action
    refine enum_string.mpr ?_
    simp only [guardrailActions, List.mem_cons, List.not_mem_nil, or_false,
      Literal.string.injEq] at known ⊢
    tauto
  have triggers : guardrail.At "trigger" fun value => allOf [hasType .object, required ["type"],
      properties [("type",
        enum [.string "keyword_match", .string "step_count", .string "step_revisit",
        .string "output_length"])]] value = true := by
    intro value found
    rw [found] at trigger
    cases value with
    | dict fields =>
        dsimp only at trigger
        cases kind : Val.valueAt? fields "type" with
        | none => simp [kind] at trigger
        | some value =>
            rw [kind] at trigger
            obtain ⟨name, known, rfl⟩ := oneOf_check trigger
            rw [allOf_iff]
            simp only [List.forall_mem_cons, object_iff, required_dict, properties_dict, kind,
              Option.isSome_some, Option.some.injEq, forall_eq', List.not_mem_nil, false_implies, implies_true, and_true]
            refine ⟨⟨fields, rfl⟩, trivial, enum_string.mpr ?_⟩
            simp only [triggerTypes, List.mem_cons, List.not_mem_nil, or_false,
              Literal.string.injEq] at known ⊢
            tauto
    | _ => simp at trigger
  have forced : allOf [ifThen (allOf [properties [("action", const (.string "force_branch"))],
    required ["action"]])
      (required ["target_step"])] (Val.dict guardrail) = true := by
    rw [allOf_iff]
    simp only [List.forall_mem_cons, ifThen_iff, properties_at, required_one, const_iff, allOf_iff,
      List.not_mem_nil, false_implies, implies_true, and_true]
    rintro ⟨same, declared⟩
    obtain ⟨value, found⟩ := has_iff.mp declared
    rw [found, same value found] at target
    rw [has_iff]
    cases isTarget : guardrail.get? "target_step" with
    | none => simp [isTarget] at target
    | some value => exact ⟨value, rfl⟩
  have keys : ∀ name ∈ ["id", "trigger", "action",
    "message"], (Val.valueAt? guardrail name).isSome = true := by
    simpa [Mapping.has] using there
  rw [guardrailSchema, allOf_iff]
  simp only [List.forall_mem_cons, List.not_mem_nil, false_implies, implies_true, and_true,
    object_iff, properties_at, isText_iff, forced]
  constructor
  · rintro ⟨-, -, id, -, -, message, target⟩
    exact ⟨id, message, target⟩
  · intro tidy
    exact ⟨⟨guardrail, rfl⟩, required_dict.mpr keys, tidy.id, triggers, actions, tidy.message,
      tidy.targetStep⟩

theorem repair_valid {fields : Mapping}
    (known : ∀ entry ∈ fields, (∃ name ∈ repairKeys, entry.1 = .str name) ∧
      isString entry.2 = true) :
    allOf [hasType .object, closed ["on_go_back", "on_cancel", "on_digression", "on_clarification"],
      properties [("on_go_back", stringSchema), ("on_cancel", stringSchema),
        ("on_digression", stringSchema), ("on_clarification", stringSchema)]] (Val.dict fields) =
          true := by
  have texts : ∀ key, Mapping.At fields key fun value => stringSchema value = true := by
    intro key value found
    obtain ⟨entry, isEntry, rfl⟩ := Option.map_eq_some_iff.mp found
    exact string_of_isString (known entry (List.mem_of_find?_eq_some isEntry)).2
  rw [allOf_iff]
  simp only [List.forall_mem_cons, object_iff, closed_dict, properties_at, List.not_mem_nil,
    false_implies, implies_true, and_true]
  refine ⟨⟨fields, rfl⟩, ?_, texts _, texts _, texts _, texts _⟩
  intro key member
  obtain ⟨entry, isEntry, rfl⟩ := List.mem_map.mp member
  obtain ⟨⟨name, isName, same⟩, -⟩ := known entry isEntry
  refine ⟨name, ?_, same⟩
  simp only [repairKeys, List.mem_cons, List.not_mem_nil, or_false] at isName ⊢
  tauto

theorem steps_iff {steps : List Val} (nonempty : steps ≠ [])
    (own : ∀ position step, steps[position]? = some step →
      validateStep env position step = .ok []) :
    allOf [hasType .array, minItems 1, items stepSchema] (Val.list steps) = true ↔
      ∀ step, Val.dict step ∈ steps → TidyStep step := by
  have checked : ∀ step ∈ steps, ∃ position, validateStep env position step = .ok [] := by
    intro step member
    obtain ⟨position, bound, there⟩ := List.getElem_of_mem member
    exact ⟨position, own position step (List.getElem?_eq_some_iff.mpr ⟨bound, there⟩)⟩
  have long : minItems 1 (Val.list steps) = true := by
    simp only [minItems, Viewed.view, decide_eq_true_eq]
    exact List.length_pos_iff.mpr nonempty
  rw [allOf_iff]
  simp only [List.forall_mem_cons, array_iff, long, items_list, List.not_mem_nil, false_implies,
    implies_true, and_true, true_and]
  constructor
  · rintro ⟨-, each⟩ step member
    obtain ⟨position, one⟩ := checked _ member
    exact (step_iff one).mp (each _ member)
  · intro tidy
    refine ⟨⟨steps, rfl⟩, ?_⟩
    intro step member
    obtain ⟨position, one⟩ := checked step member
    cases step with
    | dict fields => exact (step_iff one).mpr (tidy fields member)
    | _ => simp [validateStep] at one

theorem guardrails_iff {ids : List Val} (passed : validateGuardrails env ids entries = .ok []) :
    (entries.At "guardrails" fun value =>
      allOf [hasType .array, items guardrailSchema] value = true) ↔
      entries.At "guardrails" fun value => ∀ items, value = .list items →
        ∀ guardrail, Val.dict guardrail ∈ items → TidyGuardrail guardrail := by
  refine Mapping.At.congr fun value found => ?_
  rw [validateGuardrails, found] at passed
  cases value with
  | list guardrails =>
      have checked : ∀ guardrail ∈ guardrails, ∃ index,
        validateGuardrail env ids index guardrail = .ok [] :=
        fun guardrail member => gather_zipIdx_nil passed member
      rw [allOf_iff]
      simp only [List.forall_mem_cons, array_iff, items_list, Val.list.injEq, exists_eq', true_and,
        forall_eq', List.not_mem_nil, false_implies, implies_true, and_true]
      constructor
      · intro each guardrail member
        obtain ⟨index, one⟩ := checked _ member
        exact (guardrail_iff one).mp (each _ member)
      · intro tidy guardrail member
        obtain ⟨index, one⟩ := checked guardrail member
        cases guardrail with
        | dict fields => exact (guardrail_iff one).mpr (tidy fields member)
        | _ => simp [validateGuardrail] at one
  | _ => simp at passed

/-- An accepted document is valid under the exported schema exactly if it is tidy. -/
theorem validateWorkflow_exported (accepted : validateWorkflow env registry stem raw = .ok ([],
    some doc)) :
    workflowSchema raw = true ↔ ∃ entries, raw = .dict entries ∧ Tidy entries := by
  obtain ⟨entries, steps, rfl, found, nonempty, head, passed, -⟩ :=
    validateWorkflow_ok_nil.mp accepted
  obtain ⟨own, -, -, ids, -, -, -, guarded⟩ := validateSteps_ok_nil.mp passed
  rw [withSchemaVersion_get? (by simp)] at found
  rw [validateGuardrails, withSchemaVersion_get? (by simp), ← validateGuardrails] at guarded
  obtain ⟨version, repair, there⟩ := validateHead_ok_nil.mp head
  have versioned : Mapping.At entries "schema_version" IsText := by
    intro value isValue
    exact string_iff.mp (string_of_isString (version value isValue))
  have repaired : Mapping.At entries "conversation_repair" fun value => allOf [hasType .object,
      closed ["on_go_back", "on_cancel", "on_digression",
        "on_clarification"], properties [("on_go_back", stringSchema),
        ("on_cancel", stringSchema), ("on_digression", stringSchema), ("on_clarification",
          stringSchema)]] value = true := by
    intro value isValue
    obtain ⟨fields, rfl, known⟩ := validateRepair_ok_nil repair value isValue
    exact repair_valid known
  have keys : required ["name", "description", "category", "output_format", "steps"]
    (Val.dict entries) = true := by
    simp only [Mapping.has, List.forall_mem_cons] at there
    simp only [Mapping.get?] at found
    rw [required_dict]
    simp [there, found]
  have stepped : (Mapping.At entries "steps" fun value =>
      allOf [hasType .array, minItems 1, items stepSchema] value = true) ↔
      Mapping.At entries "steps" fun value => ∀ items, value = .list items →
        ∀ step, Val.dict step ∈ items → TidyStep step := by
    refine Mapping.At.congr fun value isValue => ?_
    rw [found, Option.some.injEq] at isValue
    subst isValue
    rw [steps_iff nonempty own]
    simp
  rw [workflowSchema, allOf_iff]
  simp only [List.forall_mem_cons, List.not_mem_nil, false_implies, implies_true, and_true,
    object_iff, keys, properties_at, isText_iff, stepped, guardrails_iff guarded]
  constructor
  · rintro ⟨-, -, -, name, description, category, format, tidySteps, -, tidyGuardrails⟩
    exact ⟨entries, rfl, by simp [name, description, category, format], tidySteps, tidyGuardrails⟩
  · rintro ⟨others, same, tidy⟩
    rw [Val.dict.injEq] at same
    subst same
    have texts := tidy.head
    simp only [List.forall_mem_cons] at texts
    exact ⟨⟨entries, rfl⟩, trivial, versioned, texts.1, texts.2.1, texts.2.2.1, texts.2.2.2.1,
      tidy.steps, repaired, tidy.guardrails⟩

def waitingDoc : Val := workflowDoc "waiting" [
  stepDoc "a" [], stepDoc "b" [("precondition", .obj [("when_present", .str "step_data.a")])]]

theorem exported_waiting : ∃ entries, waitingDoc = .dict entries ∧ Tidy entries := by
  obtain ⟨doc, accepted⟩ : ∃ doc,
    validateWorkflow sampleEnv none "waiting" waitingDoc = .ok ([], some doc) := ⟨_, by rfl⟩
  have valid : workflowSchema waitingDoc = true := by rfl
  exact (validateWorkflow_exported accepted).mp valid

def moodDoc : Val :=
  workflowDoc "mood" [stepDoc "a" [("directives",
    .obj [("tone", .str "calm"), ("mood", .str "warm")])]]

/-- The validator lets unknown directives pass, the export does not. -/
theorem not_always_exported : ¬∀ env registry stem raw doc,
    validateWorkflow env registry stem raw = .ok ([], some doc) → workflowSchema raw = true := by
  intro always
  obtain ⟨doc, accepted⟩ : ∃ doc,
    validateWorkflow sampleEnv none "mood" moodDoc = .ok ([], some doc) := ⟨_, by rfl⟩
  have refused : workflowSchema moodDoc = false := by rfl
  rw [always _ _ _ _ _ accepted] at refused
  cases refused

end Megalos
