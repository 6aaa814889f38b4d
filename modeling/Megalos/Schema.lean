import Mathlib.Algebra.GroupWithZero.Nat
import Mathlib.Data.List.Sort
import Megalos.Workflow

/-!
`validate_workflow` from the parsed document on: every check with its text, in the
order of the source.  A check yields its errors or raises what the source raises.
-/

namespace Megalos

open KeyedTable

abbrev Check := Except Exn (List String)

def gather : List Check → Check
  | [] => .ok []
  | part :: rest =>
      match part with
      | .error raised => .error raised
      | .ok errors =>
          match gather rest with
          | .error raised => .error raised
          | .ok others => .ok (errors ++ others)

theorem gather_ok_nil {parts : List Check} :
    gather parts = .ok [] ↔ ∀ part ∈ parts, part = .ok [] := by
  induction parts with
  | nil => simp [gather]
  | cons part rest ih =>
      rw [List.forall_mem_cons, ← ih]
      cases part with
      | error raised => simp [gather]
      | ok errors =>
          cases others : gather rest with
          | error raised => simp [gather, others]
          | ok later => simp [gather, others]

def errorIf (wrong : Bool) (text : String) : List String := if wrong then [text] else []

theorem errorIf_nil {wrong : Bool} {text : String} : errorIf wrong text = [] ↔ wrong = false := by
  cases wrong <;> simp [errorIf]

inductive KeyKind where
  | text
  | number
  | date
  | naive
  | aware
  | bytes
  deriving DecidableEq

def Val.keyKind? : Val → Option KeyKind
  | .str _ => some .text
  | .native (.date _) => some .date
  | .native (.datetime _ offset) => some (if offset.isSome then .aware else .naive)
  | .native (.bytes _) => some .bytes
  | value => value.number?.map fun _ => .number

/-- `left < right` for keys of one kind. -/
def Val.precedes : Val → Val → Bool
  | .str left, .str right => decide (left < right)
  | .native (.date left), .native (.date right) => decide (left < right)
  | .native (.datetime left _), .native (.datetime right _) => decide (left < right)
  | .native (.bytes left), .native (.bytes right) => decide (left < right)
  | left, right =>
      match left.number?, right.number? with
      | some less, some more => Val.lessThan less more
      | _, _ => false

def sameKind (keys : List Val) : Bool :=
  match keys.head?.bind Val.keyKind? with
  | some kind => keys.all fun key => key.keyKind? == some kind
  | none => false

/-- `sorted(keys)`. -/
def sortedKeys (keys : List Val) : Except Exn (List Val) :=
  if keys.length ≤ 1 || sameKind keys then
    .ok (keys.insertionSort fun left right => !right.precedes left)
  else .error (.typeError "'<' not supported between instances of keys of different types")

def digitsError : Exn := .valueError
  "Exceeds the limit (4300 digits) for integer string conversion; use sys.set_int_max_str_digits() to increase the limit"

section Text

variable (env : Env)

/-- `str(value)`, of a value that can be printed. -/
def pyStr : Val → String
  | .str text => text
  | other => env.pyRepr other

/-- `str(value)`. -/
def shown (value : Val) : Except Exn String :=
  if value.printable then .ok (pyStr env value) else .error digitsError

/-- `repr(value)`. -/
def printed (value : Val) : Except Exn String :=
  if value.printable then .ok (env.pyRepr value) else .error digitsError

end Text

def printing (value : Val) (errors : List String) : Check :=
  if errors.isEmpty || value.printable then .ok errors else .error digitsError

@[simp] theorem printing_ok_nil {value : Val} {errors : List String} :
    printing value errors = .ok [] ↔ errors = [] := by
  unfold printing
  split
  · simp
  · rename_i silent
    cases errors <;> simp_all

def isDict : Val → Bool
  | .dict _ => true
  | _ => false

def isList : Val → Bool
  | .list _ => true
  | _ => false

def isString : Val → Bool
  | .str _ => true
  | _ => false

def isBool : Val → Bool
  | .bool _ => true
  | _ => false

/-- `isinstance(value, str) and value`. -/
def isName (value : Val) : Bool := isString value && value.truthy

/-- `"${" in text`. -/
def hasInterpolation : Val → Bool
  | .str text => decide ("$\x7b".toList <:+: text.toList)
  | _ => false

/-! The grammar of refs.  `$` at the end of a Python pattern also matches before a last newline. -/

def beforeFinalNewline (letters : List Char) : List Char :=
  if letters.getLast? = some '\n' then letters.dropLast else letters

def isSegmentStart (letter : Char) : Bool := letter.isAlpha || letter == '_'

def isSegmentLetter (letter : Char) : Bool := letter.isAlphanum || letter == '_' || letter == '-'

/-- `_REF_SEGMENT_RE`. -/
def isRefSegment (segment : String) : Bool :=
  match beforeFinalNewline segment.toList with
  | [] => false
  | first :: rest => isSegmentStart first && rest.all isSegmentLetter

def isValidRefPath (ref : String) : Bool :=
  "step_data.".toList.isPrefixOf ref.toList &&
    match splitPath ref with
    | _ :: segment :: rest => (segment :: rest).all isRefSegment
    | _ => false

/-- `_REF_STRING_RE`. -/
def isRefString (text : String) : Bool :=
  let letters := beforeFinalNewline text.toList
  let body := (letters.drop 12).dropLast
  "$\x7bstep_data.".toList.isPrefixOf letters && letters.getLast? == some '\x7d' &&
    decide (12 < letters.length) && !body.isEmpty && !body.contains '\x7d'

/-- `value[2:-1]`. -/
def refBody (text : String) : String := String.ofList (text.toList.drop 2).dropLast

mutual

def validateMcpArgValue (env : Env) (label path : String) : Val → List String
  | .dict entries => validateMcpArgEntries env label path entries
  | .list items => validateMcpArgItems env label path 0 items
  | .str text =>
      if !hasInterpolation (.str text) then []
      else if !isRefString text then
        ["Step '" ++ label ++ "' args" ++ path ++
          ": mixed interpolation not supported (value must be " ++
          "either a literal or a whole-string '$\x7bstep_data.<ref>\x7d' — got " ++
            env.pyRepr (.str text) ++
          ") (code: mcp_tool_call_mixed_interpolation_not_supported)"]
      else if !isValidRefPath (refBody text) then
        ["Step '" ++ label ++ "' args" ++ path ++ ": ref-path is malformed (value " ++
          env.pyRepr (.str text) ++ "); refs must match '$\x7bstep_data.<sid>[.<field>...]\x7d' " ++
          "(code: mcp_tool_call_invalid_ref_path)"]
      else []
  | .none => []
  | .bool _ => []
  | .int _ => []
  | .float _ => []
  | other =>
      ["Step '" ++ label ++ "' args" ++ path ++ ": unsupported value type " ++ other.typeName ++
        " (expected scalar, string, list, or mapping)"]

def validateMcpArgItems (env : Env) (label path : String) : Nat → List Val → List String
  | _, [] => []
  | index, item :: rest =>
      validateMcpArgValue env label (path ++ "[" ++ toString index ++ "]") item ++
        validateMcpArgItems env label path (index + 1) rest

def validateMcpArgEntries (env : Env) (label path : String) : List (Val × Val) → List String
  | [] => []
  | (key, value) :: rest =>
      (match key with
        | .str name => validateMcpArgValue env label (path ++ "." ++ name) value
        | other => ["Step '" ++ label ++ "' args" ++ path ++ ": keys must be strings, got " ++
          other.typeName]) ++
        validateMcpArgEntries env label path rest

end

abbrev Mapping := List (Val × Val)

namespace Mapping

def get? (step : Mapping) (key : String) : Option Val := Val.valueAt? step key

def has (step : Mapping) (key : String) : Bool := (Val.valueAt? step key).isSome

def whenHas (step : Mapping) (key : String) (check : Val → List String) : List String :=
  match Val.valueAt? step key with
  | some value => check value
  | none => []

end Mapping

def naming (step : Mapping) (errors : List String) : Check :=
    printing ((step.get? "id").getD .none) errors

@[simp] theorem naming_ok_nil {step : Mapping} {errors : List String} :
    naming step errors = .ok [] ↔ errors = [] :=
  printing_ok_nil

@[simp] theorem printing_naming_nil {value : Val} {step : Mapping} {errors : List String} :
    (do let shown ← printing value errors; naming step shown : Check) = .ok [] ↔ errors = [] := by
  unfold printing
  split
  · exact naming_ok_nil
  · rename_i silent
    cases errors with
    | nil => simp at silent
    | cons error rest => exact iff_of_false (by simp [bind, Except.bind]) (List.cons_ne_nil _ _)

def listing (env : Env) (step : Mapping) (keys : List Val) (text : String → String) : Check := do
  let _ ← naming step [text ""]
  let ordered ← sortedKeys keys
  let listed ← printed env (.list ordered)
  return [text listed]

def mcpMutexFields : List (String × String) := [
  ("directive_template", "mcp_tool_call_with_directive_template"),
  ("gates", "mcp_tool_call_with_gates"),
  ("anti_patterns", "mcp_tool_call_with_anti_patterns"),
  ("call", "mcp_tool_call_with_call"),
  ("collect", "mcp_tool_call_with_collect"),
  ("output_schema", "mcp_tool_call_with_output_schema")]

def mcpAllowedStepKeys : List String :=
  ["id", "title", "action", "server", "tool", "args", "timeout", "step_description", "precondition",
   "branches", "default_branch"]

def literalField (env : Env) (step : Mapping) (label key : String) : List String :=
  match step.get? key with
  | none => ["Step '" ++ label ++ "' (mcp_tool_call) missing required key '" ++ key ++ "'"]
  | some value =>
      if !isName value then
        ["Step '" ++ label ++ "' (mcp_tool_call) " ++ key ++ " must be a non-empty string"]
      else if hasInterpolation value then
        ["Step '" ++ label ++ "' (mcp_tool_call) " ++ key ++ " must be a literal string, not an " ++
          "interpolation (got " ++ env.pyRepr value ++ ") (code: mcp_tool_call_" ++ key ++
            "_not_literal)"]
      else []

def validateArgs (env : Env) (step : Mapping) (label : String) : List String :=
  match step.get? "args" with
  | none => ["Step '" ++ label ++ "' (mcp_tool_call) missing required key 'args'"]
  | some (.dict entries) =>
      entries.flatMap fun entry =>
        match entry.1 with
        | .str name => validateMcpArgValue env label ("." ++ name) entry.2
        | _ => ["Step '" ++ label ++ "' (mcp_tool_call) args keys must be strings"]
  | some other =>
      ["Step '" ++ label ++ "' (mcp_tool_call) args must be a mapping, got " ++ other.typeName]

def validateTimeout (step : Mapping) (label : String) : List String :=
  step.whenHas "timeout" fun value =>
    match isBool value, value.number? with
    | false, some limit =>
        errorIf (Val.lessThan limit (.finite 0) || limit == .finite 0)
          ("Step '" ++ label ++ "' (mcp_tool_call) timeout must be positive")
    | _, _ => ["Step '" ++ label ++ "' (mcp_tool_call) timeout must be a number"]

def validateMutex (step : Mapping) (label : String) : List String :=
  mcpMutexFields.flatMap fun entry =>
    errorIf (step.has entry.1)
      ("Step '" ++ label ++ "' has both 'action: mcp_tool_call' and '" ++ entry.1 ++
        "'; mcp_tool_call " ++
        "steps are non-LLM and cannot declare this field (code: " ++ entry.2 ++ ")")

def unknownMcpFields (step : Mapping) : List Val :=
  (step.map Prod.fst).filter fun key =>
    !(mcpAllowedStepKeys ++ mcpMutexFields.map Prod.fst).any fun name => key.isStr name

def validateMcpUnknown (env : Env) (step : Mapping) (label : String) : Check :=
  if (unknownMcpFields step).isEmpty then .ok []
  else listing env step (unknownMcpFields step) fun unknown =>
    "Step '" ++ label ++ "' (mcp_tool_call) has unknown field(s) " ++ unknown

def validateMcpToolCallStep (env : Env) (step : Mapping) (label : String) : Check :=
  gather [
    naming step (literalField env step label "server"),
    naming step (literalField env step label "tool"),
    naming step (validateArgs env step label),
    naming step (validateTimeout step label),
    naming step (validateMutex step label),
    validateMcpUnknown env step label]

/-! The optional fields of the other steps. -/

def schemaCheck (env : Env) (step : Mapping) (schema : Val) (text : String → String) : Check :=
  match env.checkSchema schema with
  | .ok () => .ok []
  | .error (.schemaError message) => naming step [text message]
  | .error (.raises raised) => .error raised

def schemaField (env : Env) (step holder : Mapping) (key untyped : String)
    (invalid : String → String) : Check :=
  match holder.get? key with
  | none => .ok []
  | some (.dict schema) => schemaCheck env step (.dict schema) invalid
  | some _ => naming step [untyped]

def validateOutputSchema (env : Env) (step : Mapping) (label : String) : Check :=
  schemaField env step step "output_schema"
    ("Step '" ++ label ++ "' output_schema must be a JSON Schema object (dict)")
    fun message => "Step '" ++ label ++ "' output_schema is not valid JSON Schema: " ++ message

def validateCollect (step : Mapping) (label : String) : List String :=
  step.whenHas "collect" fun value =>
    if !isBool value then ["Step '" ++ label ++ "' collect must be a boolean"]
    else errorIf (value.truthy && !step.has "output_schema")
      ("Step '" ++ label ++ "' has collect: true but is missing required 'output_schema'")

def stringField (step : Mapping) (label key : String) : List String :=
  step.whenHas key fun value =>
    errorIf (!isString value) ("Step '" ++ label ++ "' " ++ key ++ " must be a string")

def validateMaxRetries (step : Mapping) (label : String) : List String :=
  step.whenHas "max_retries" fun value =>
    errorIf (match value with
      | .int limit => decide (limit < 1)
      | .bool limit => !limit
      | _ => true) ("Step '" ++ label ++ "' max_retries must be a positive integer")

def eachItem (items : List Val) (check : Nat → Val → List String) : List String :=
  items.zipIdx.flatMap fun entry => check entry.2 entry.1

def validateInjectEntry (label : String) (index : Nat) (entry : Val) : List String :=
  let place := "Step '" ++ label ++ "' inject_context[" ++ toString index ++ "]"
  match entry with
  | .dict entries =>
      let entry : Mapping := entries
      (match entry.get? "from" with
        | none => [place ++ " missing required key 'from'"]
        | some source => errorIf (!isString source) (place ++ " 'from' must be a string")) ++
      entry.whenHas "fields" (fun value =>
        errorIf (!isList value) (place ++ " 'fields' must be a list")) ++
      entry.whenHas "summary" (fun value =>
        errorIf (!isBool value) (place ++ " 'summary' must be a boolean"))
  | _ => [place ++ " must be a mapping"]

def validateInjectContext (step : Mapping) (label : String) : List String :=
  step.whenHas "inject_context" fun value =>
    match value with
    | .list items => eachItem items (validateInjectEntry label)
    | _ => ["Step '" ++ label ++ "' inject_context must be a list"]

def validateBranch (label : String) (index : Nat) (branch : Val) : List String :=
  let place := "Step '" ++ label ++ "' branches[" ++ toString index ++ "]"
  match branch with
  | .dict entries =>
      let text := fun key => ((Mapping.get? entries key).map isString).getD false
      errorIf (!text "next") (place ++ " must have a 'next' string") ++
        errorIf (!text "condition") (place ++ " must have a 'condition' string")
  | _ => [place ++ " must be a mapping"]

def validateBranches (step : Mapping) (label : String) : List String :=
  step.whenHas "branches" fun value =>
    match value with
    | .list items => eachItem items (validateBranch label)
    | _ => ["Step '" ++ label ++ "' branches must be a list"]

def knownPredicates : List String := ["when_equals", "when_present"]

def validateWhenEquals (label : String) (we : Val) : List String :=
  let place := "Step '" ++ label ++ "' precondition.when_equals"
  match we with
  | .dict entries =>
      let we : Mapping := entries
      (match we.get? "ref" with
        | none => [place ++ " missing required key 'ref'"]
        | some (.str ref) =>
            errorIf (!isValidRefPath ref) (place ++ ".ref is not a valid ref-path: " ++ ref)
        | some _ => [place ++ ".ref must be a string"]) ++
      errorIf (!we.has "value") (place ++ " missing required key 'value'")
  | _ => [place ++ " must be a mapping"]

def validateWhenPresent (label : String) (wp : Val) : List String :=
  let place := "Step '" ++ label ++ "' precondition.when_present"
  match wp with
  | .str ref => errorIf (!isValidRefPath ref) (place ++ ".ref is not a valid ref-path: " ++ ref)
  | _ => [place ++ " must be a string"]

def validatePrecondition (env : Env) (step : Mapping) (label : String) : Check :=
  match step.get? "precondition" with
  | none => .ok []
  | some (.dict entries) =>
      let keys := entries.map Prod.fst
      let unknown := keys.filter fun key => !knownPredicates.any fun name => key.isStr name
      let present := keys.filter fun key => knownPredicates.any fun name => key.isStr name
      gather [
        if unknown.isEmpty then .ok []
        else listing env step unknown fun unknown =>
          "Step '" ++ label ++ "' precondition has unknown predicate key(s): " ++ unknown ++
            "; valid: " ++
            env.pyRepr (.strs knownPredicates),
        match present with
        | [] => naming step
            ["Step '" ++ label ++
              "' precondition must have exactly one of 'when_equals' or 'when_present'"]
        | [key] => naming step
            (if key.isStr "when_equals" then
              validateWhenEquals label ((Val.valueAt? entries "when_equals").getD .none)
            else validateWhenPresent label ((Val.valueAt? entries "when_present").getD .none))
        | _ => listing env step present fun present =>
            "Step '" ++ label ++ "' precondition must have exactly one predicate, got: " ++ present]
  | some _ => naming step ["Step '" ++ label ++ "' precondition must be a mapping"]

/-- `step.get(key) is True`. -/
def isTrue (step : Mapping) (key : String) : Bool :=
  match step.get? key with
  | some (.bool true) => true
  | _ => false

def validateCall (step : Mapping) (label : String) : List String :=
  step.whenHas "call" fun target =>
    errorIf (!isName target) ("Step '" ++ label ++ "' call must be a non-empty string") ++
    errorIf (isTrue step "collect")
      ("Step '" ++ label ++
        "' has both 'call' and 'collect: true'; sub-workflow steps cannot also " ++
        "collect (code: call_with_collect)") ++
    errorIf (step.has "intermediate_artifacts")
      ("Step '" ++ label ++
        "' has both 'call' and 'intermediate_artifacts'; sub-workflow steps cannot " ++
        "also produce intermediate artifacts (code: call_with_intermediate_artifacts)") ++
    errorIf (step.has "branches" && !step.has "default_branch")
      ("Step '" ++ label ++
        "' has both 'call' and 'branches' but no 'default_branch'; post-hoc branch " ++
        "selection on sub-workflow return is not supported — call-steps with branches must declare a " ++
        "default_branch (code: call_branches_without_default)")

def validateCallContextFrom (step : Mapping) (label : String) : List String :=
  step.whenHas "call_context_from" fun value =>
    match value with
    | .str ref =>
        errorIf (!step.has "call")
          ("Step '" ++ label ++ "' has 'call_context_from' without 'call' " ++
            "(code: call_context_from_without_call)") ++
        errorIf (!isValidRefPath ref)
          ("Step '" ++ label ++ "' call_context_from is not a valid ref-path: " ++ ref ++
            " (code: call_invalid_context_ref)")
    | _ => ["Step '" ++ label ++ "' call_context_from must be a string"]

def validateDirectives (step : Mapping) (label : String) : List String :=
  step.whenHas "directives" fun value =>
    match value with
    | .dict entries =>
        let directives : Mapping := entries
        (["tone", "strategy", "persona"].flatMap fun key =>
          directives.whenHas key fun text =>
            errorIf (!isString text)
              ("Step '" ++ label ++ "' directives." ++ key ++ " must be a string")) ++
        directives.whenHas "constraints" fun constraints =>
          match constraints with
          | .list items =>
              errorIf (!items.all isString)
                ("Step '" ++ label ++ "' directives.constraints entries must be strings")
          | _ => ["Step '" ++ label ++ "' directives.constraints must be a list"]
    | _ => ["Step '" ++ label ++ "' directives must be a mapping"]

def validateArtifact (env : Env) (step : Mapping) (label : String) (index : Nat) (artifact : Val) :
    Check :=
  let place := "Step '" ++ label ++ "' intermediate_artifacts[" ++ toString index ++ "]"
  match artifact with
  | .dict entries =>
      let artifact : Mapping := entries
      gather [
        naming step (["id", "description", "schema"].flatMap fun key =>
          errorIf (!artifact.has key) (place ++ " missing '" ++ key ++ "'")),
        naming step (artifact.whenHas "id" fun value =>
          errorIf (!isString value) (place ++ " 'id' must be a string")),
        naming step (artifact.whenHas "description" fun value =>
          errorIf (!isString value) (place ++ " 'description' must be a string")),
        schemaField env step artifact "schema" (place ++ " 'schema' must be a dict")
          fun message => place ++ " schema invalid: " ++ message,
        naming step (artifact.whenHas "checkpoint" fun value =>
          errorIf (!isBool value) (place ++ " 'checkpoint' must be a boolean"))]
  | _ => naming step [place ++ " must be a mapping"]

def artifactIds (artifacts : List Val) : List String :=
  artifacts.filterMap fun artifact =>
    match artifact.get? "id" with
    | some (.str id) => some id
    | _ => none

def validateOutputFrom (step : Mapping) (label : String) (artifacts : List Val) : List String :=
  step.whenHas "output_from" fun value =>
    match value with
    | .str source =>
        errorIf (!(artifactIds artifacts).isEmpty && !(artifactIds artifacts).contains source)
          ("Step '" ++ label ++ "' output_from '" ++ source ++
            "' not found in intermediate_artifacts")
    | _ => ["Step '" ++ label ++ "' output_from must be a string"]

def validateIntermediateArtifacts (env : Env) (step : Mapping) (label : String) : Check :=
  match step.get? "intermediate_artifacts" with
  | some (.list artifacts) =>
      gather [
        gather (artifacts.zipIdx.map fun entry => validateArtifact env step label entry.2 entry.1),
        naming step (validateOutputFrom step label artifacts)]
  | some _ => naming step ["Step '" ++ label ++ "' intermediate_artifacts must be a list"]
  | none => naming step
      (errorIf (step.has "output_from") ("Step '" ++ label ++
        "' has output_from without intermediate_artifacts"))

def validateStepOptionalFields (env : Env) (step : Mapping) (label : String) : Check :=
  gather [
    validateOutputSchema env step label,
    naming step (validateCollect step label),
    naming step (stringField step label "step_description"),
    naming step (validateMaxRetries step label),
    naming step (stringField step label "validation_hint"),
    naming step (validateInjectContext step label),
    naming step (validateBranches step label),
    naming step (stringField step label "default_branch"),
    validatePrecondition env step label,
    naming step (validateCall step label),
    naming step (validateCallContextFrom step label),
    naming step (validateDirectives step label),
    validateIntermediateArtifacts env step label]

/-! The steps of a workflow against each other. -/

/-- The mappings among the steps, with their positions. -/
def mappedSteps (steps : List Val) : List (Nat × Mapping) :=
  steps.zipIdx.filterMap fun entry =>
    match entry.1 with
    | .dict step => some (entry.2, step)
    | _ => none

def labelOf (env : Env) (step : Mapping) (default : String) : String :=
  ((step.get? "id").map (pyStr env)).getD default

def preconditionRef (step : Mapping) : Option String :=
  match step.get? "precondition" with
  | some (.dict entries) =>
      let equals := ((Val.valueAt? entries "when_equals").bind (·.get? "ref")).bind fun ref =>
        match ref with | .str text => some text | _ => none
      equals.or ((Val.valueAt? entries "when_present").bind fun ref =>
        match ref with | .str text => some text | _ => none)
  | _ => none

/-- The last step with a string id, as `sid_to_index` and `sid_to_step` keep it. -/
def lastWithId (steps : List (Nat × Mapping)) (sid : String) : Option (Nat × Mapping) :=
  (steps.filter fun entry => ((entry.2.get? "id").map (·.isStr sid)).getD false).getLast?

def isMcpMapping (step : Mapping) : Bool :=
    ((step.get? "action").map (·.isStr "mcp_tool_call")).getD false

def validateReference (env : Env) (steps : List (Nat × Mapping)) (position : Nat) (step : Mapping) :
    List String :=
  match step.has "precondition", preconditionRef step with
  | true, some ref =>
      let label := labelOf env step (toString position)
      if !isValidRefPath ref then []
      else if position = 0 then
        ["Step '" ++ label ++ "' precondition is on the first step (index 0); " ++
          "no prior step exists to reference"]
      else
        match splitPath ref with
        | _ :: sid :: path =>
            match lastWithId steps sid with
            | none => []
            | some (index, target) =>
                if position ≤ index then
                  ["Step '" ++ label ++ "' precondition is a forward ref: references step '" ++
                    sid ++
                    "' (index " ++ toString index ++ ") which does not precede step '" ++ label ++
                    "' (index " ++ toString position ++ ")"]
                else
                  errorIf (!path.isEmpty && !target.has "output_schema" && !isTrue target "collect" &&
                      !isMcpMapping target)
                    ("Step '" ++ label ++ "' precondition sub-path references step '" ++ sid ++
                      "' which " ++
                      "lacks both 'output_schema' and 'collect: true'; sub-path refs require one of these")
        | _ => []
  | _, _ => []

def validateWorkflowPreconditions (env : Env) (steps : List Val) : Check :=
  gather ((mappedSteps steps).map fun entry =>
    naming entry.2 (validateReference env (mappedSteps steps) entry.1 entry.2))

def requiredStepKeys : List String :=
    ["anti_patterns", "directive_template", "gates", "id", "title"]

def requiredStepKeysMcp : List String := ["id", "title"]

def missingKeys (env : Env) (step : Mapping) (position : Nat) (kind : String)
    (required : List String) : List String :=
  let missing := required.filter fun key => !step.has key
  errorIf (!missing.isEmpty) ("Step " ++ toString position ++ " ('" ++ labelOf env step "?" ++
    "')" ++ kind ++
    " missing keys: " ++ env.pyRepr (.strs missing))

def listField (step : Mapping) (label key : String) : List String :=
  step.whenHas key fun value =>
    errorIf (!isList value) ("Step '" ++ label ++ "' " ++ key ++ " must be a list")

def validateStep (env : Env) (position : Nat) (step : Val) : Check :=
  match step with
  | .dict entries =>
      let step : Mapping := entries
      let label := labelOf env step (toString position)
      if isMcpMapping step then
        gather [naming step (missingKeys env step position " (mcp_tool_call)" requiredStepKeysMcp),
          validateMcpToolCallStep env step label]
      else
        gather [naming step (missingKeys env step position "" requiredStepKeys),
          naming step (listField step label "gates"), naming step (listField step label "anti_patterns"),
          validateStepOptionalFields env step label]
  | _ => .ok ["Step " ++ toString position ++ " must be a mapping"]

def unknownServer (env : Env) (registry : Registry) (available : List String) (name : String)
    (position : Nat) (step : Mapping) : List String :=
  match step.get? "server" with
  | some (.str server) =>
      errorIf (server != "" && !hasInterpolation (.str server) && !registry.servers.contains server)
        ("Workflow '" ++ name ++ "' step '" ++ labelOf env step (toString position) ++
          "' references unknown MCP server " ++ env.pyRepr (.str server) ++ "; available names: " ++
          env.pyRepr (.strs available) ++ " (code: mcp_tool_call_unknown_server)")
  | _ => []

def validateServers (env : Env) (registry : Option Registry) (name : Val) (steps : List Val) :
    Check :=
  let mcpSteps := (mappedSteps steps).filter fun entry => isMcpMapping entry.2
  if mcpSteps.isEmpty then .ok []
  else
    match registry with
    | none => printing name
        ["Workflow '" ++ pyStr env name ++ "' has " ++ toString mcpSteps.length ++
          " mcp_tool_call step(s) but no " ++
          "registry was provided; pass --registry <path> or place mcp_servers.yaml alongside the workflow " ++
          "(code: mcp_tool_call_registry_required)"]
    | some registry =>
        let available := (registry.servers.rows.map Prod.fst).insertionSort (· ≤ ·)
        gather (mcpSteps.map fun entry => do
          let errors ← printing name (unknownServer env registry available (pyStr env name) entry.1 entry.2)
          naming entry.2 errors)

/-- `{s.get("id") for s in steps}`; an id that cannot be hashed raises. -/
def allStepIds (steps : List Val) : Except Exn (List Val) :=
  (mappedSteps steps).mapM fun entry =>
    match (Mapping.get? entry.2 "id").getD .none with
    | .list _ => .error (.typeError "unhashable type: 'list'")
    | .dict _ => .error (.typeError "unhashable type: 'dict'")
    | id => .ok id

def namesStep (ids : List Val) (sid : String) : Bool := ids.any fun id => id.isStr sid

/-- The steps that the entries of `inject_context` name. -/
def validateSources (env : Env) (ids : List Val) (step : Mapping) (sources : List Val) :
    List String :=
  sources.flatMap fun source =>
    match source.get? "from" with
    | some (.str sid) =>
        errorIf (!namesStep ids sid)
          ("Step '" ++ labelOf env step "?" ++ "' inject_context references nonexistent step '" ++
            sid ++ "'")
    | _ => []

def validateInjectSources (env : Env) (ids : List Val) (steps : List Val) : Check :=
  gather ((mappedSteps steps).map fun entry =>
    match entry.2.get? "inject_context" with
    | none => .ok []
    | some value => do
        let sources ← value.iter
        naming entry.2 (validateSources env ids entry.2 sources))

def validateTargets (env : Env) (ids : List Val) (step : Mapping) : List String :=
  let label := labelOf env step "?"
  (match step.get? "branches" with
    | some (.list branches) =>
        branches.flatMap fun branch =>
          match branch.get? "next" with
          | some (.str target) =>
              errorIf (!namesStep ids target)
                ("Step '" ++ label ++ "' branch references nonexistent step '" ++ target ++ "'")
          | _ => []
    | _ => []) ++
  match step.get? "default_branch" with
  | some (.str target) =>
      errorIf (!namesStep ids target)
        ("Step '" ++ label ++ "' default_branch references nonexistent step '" ++ target ++ "'")
  | _ => []

def guardrailActions : List String := ["escalate", "force_branch", "warn"]

def triggerTypes : List String := ["keyword_match", "output_length", "step_count", "step_revisit"]

/-- `value in {…}` for a set of strings; a value that cannot be hashed raises. -/
def isOneOf (names : List String) : Val → Except Exn Bool
  | .list _ => .error (.typeError "unhashable type: 'list'")
  | .dict _ => .error (.typeError "unhashable type: 'dict'")
  | value => .ok (names.any fun name => value.isStr name)

def validateGuardrail (env : Env) (ids : List Val) (index : Nat) (guardrail : Val) : Check :=
  let place := "guardrails[" ++ toString index ++ "]"
  match guardrail with
  | .dict entries =>
      let guardrail : Mapping := entries
      gather [
        .ok (["id", "trigger", "action", "message"].flatMap fun key =>
          errorIf (!guardrail.has key) (place ++ " missing required key '" ++ key ++ "'")),
        match guardrail.get? "action" with
        | none => .ok []
        | some action => do
            let known ← isOneOf guardrailActions action
            return errorIf (!known)
              (place ++ " action must be one of " ++ env.pyRepr (.strs guardrailActions)),
        match guardrail.get? "trigger" with
        | none => .ok []
        | some (.dict trigger) =>
            match Val.valueAt? trigger "type" with
            | none => .ok [place ++ " trigger missing 'type'"]
            | some kind => do
                let known ← isOneOf triggerTypes kind
                return errorIf (!known)
                  (place ++ " trigger type must be one of " ++ env.pyRepr (.strs triggerTypes))
        | some _ => .ok [place ++ " trigger must be a mapping"],
        .ok (if ((guardrail.get? "action").map (·.isStr "force_branch")).getD false then
          match guardrail.get? "target_step" with
          | none => [place ++ " force_branch action requires 'target_step'"]
          | some (.str target) =>
              errorIf (!namesStep ids target)
                (place ++ " target_step references nonexistent step '" ++ target ++ "'")
          | some _ => []
        else [])]
  | _ => .ok [place ++ " must be a mapping"]

def validateGuardrails (env : Env) (ids : List Val) (doc : Mapping) : Check :=
  match doc.get? "guardrails" with
  | none => .ok []
  | some (.list guardrails) =>
      gather (guardrails.zipIdx.map fun entry => validateGuardrail env ids entry.2 entry.1)
  | some _ => .ok ["Workflow 'guardrails' must be a list"]

def repairKeys : List String := ["on_cancel", "on_clarification", "on_digression", "on_go_back"]

def validateRepair (env : Env) (doc : Mapping) : Check :=
  match doc.get? "conversation_repair" with
  | none => .ok []
  | some (.dict repair) =>
      gather (repair.map fun entry =>
        printing entry.1 (if !repairKeys.any fun name => entry.1.isStr name then
          ["conversation_repair has unknown key '" ++ pyStr env entry.1 ++ "'; valid keys: " ++
            env.pyRepr (.strs repairKeys)]
        else errorIf (!isString entry.2)
          ("conversation_repair['" ++ pyStr env entry.1 ++ "'] must be a string")))
  | some _ => .ok ["conversation_repair must be a mapping"]

def validateHead (env : Env) (doc : Mapping) : Check :=
  gather [
    .ok (doc.whenHas "schema_version" fun version =>
      errorIf (!isString version) "schema_version must be a string"),
    validateRepair env doc,
    .ok (["name", "description", "category", "output_format"].flatMap fun key =>
      errorIf (!doc.has key) ("Workflow missing required key: '" ++ key ++ "'"))]

def validateSteps (env : Env) (registry : Option Registry) (stem : String) (doc : Mapping)
    (steps : List Val) : Check := do
  let own ← gather (steps.zipIdx.map fun entry => validateStep env entry.2 entry.1)
  let servers ← validateServers env registry ((doc.get? "name").getD (.str stem)) steps
  let preconditions ← validateWorkflowPreconditions env steps
  let ids ← allStepIds steps
  let sources ← validateInjectSources env ids steps
  let targets ← gather ((mappedSteps steps).map fun entry =>
    naming entry.2 (validateTargets env ids entry.2))
  let guardrails ← validateGuardrails env ids doc
  return own ++ servers ++ preconditions ++ sources ++ targets ++ guardrails

/-- The document with the default `schema_version`. -/
def withSchemaVersion (doc : Mapping) : Mapping :=
  if doc.has "schema_version" then doc else doc ++ [(.str "schema_version", .str "0.4")]

/-- `validate_workflow` from the parsed document on: the errors, and the document when it has steps.
`stem` is the name of the file. -/
def validateWorkflow (env : Env) (registry : Option Registry) (stem : String) (doc : Val) :
    Except Exn (List String × Option Val) :=
  match doc with
  | .dict entries =>
      match validateHead env entries with
      | .error raised => .error raised
      | .ok head =>
          let doc := withSchemaVersion entries
          match doc.get? "steps" with
          | some (.list []) => .ok (head ++ ["Workflow must have at least one step"], none)
          | some (.list steps) => do
              let errors ← validateSteps env registry stem doc steps
              return (head ++ errors, some (.dict doc))
          | _ => .ok (head ++ ["Workflow missing required key: 'steps' (must be a list)"], none)
  | other => .ok (["Workflow YAML must be a mapping, got " ++ other.typeName], none)

/-- `load_workflow` on a parsed document. -/
def loadWorkflow (env : Env) (registry : Option Registry) (stem : String) (doc : Val) :
    Except Exn Val := do
  match ← validateWorkflow env registry stem doc with
  | (error :: _, _) => throw (.valueError error)
  | ([], some doc) => return doc
  | ([], none) => throw (.uncaught "AssertionError" "")

/-! The calls between workflows. -/

def callEdges (env : Env) (doc : Val) : List (String × String) :=
  match doc.get? "steps" with
  | some (.list steps) =>
      (mappedSteps steps).filterMap fun entry =>
        match entry.2.get? "call" with
        | some (.str target) => some (labelOf env entry.2 "?", target)
        | _ => none
  | _ => []

def unknownTargets (env : Env) (workflows : List (String × Val)) : List String :=
  workflows.flatMap fun entry =>
    (callEdges env entry.2).flatMap fun edge =>
      errorIf (!workflows.any fun other => other.1 == edge.2)
        ("Workflow '" ++ entry.1 ++ "' step '" ++ edge.1 ++ "' calls unknown workflow '" ++
          edge.2 ++
          "' (code: unknown_call_target)")

/-- The workflows that a workflow calls, each once, in order. -/
def outgoing (env : Env) (workflows : List (String × Val)) (name : String) : List String :=
  let targets := (workflows.filter fun entry => entry.1 == name).flatMap fun entry =>
    (callEdges env entry.2).map Prod.snd
  ((targets.filter fun target => workflows.any fun other =>
    other.1 == target).dedup).insertionSort (· ≤ ·)

inductive Color where
  | white
  | gray
  | black
  deriving DecidableEq, Repr

/-- The depth-first search: the stack holds a node, its neighbours still to see, and the path to it.
-/
structure Search where
  color : String → Color
  stack : List (String × List String × List String)
  errors : List String

def Search.turn (successors : String → List String) (search : Search) : Search :=
  match search.stack with
  | [] => search
  | (node, [], _) :: below =>
      { search with color := Function.update search.color node .black, stack := below }
  | (node, next :: remaining, path) :: below =>
      let rest := (node, remaining, path) :: below
      match search.color next with
      | .gray =>
          let cycle := path.dropWhile (· != next) ++ [next]
          { search with
            stack := rest
            errors := search.errors ++
              ["call cycle detected: " ++ " -> ".intercalate cycle ++
                " (code: call_cycle_detected)"] }
      | .white =>
          { search with
            color := Function.update search.color next .gray
            stack := (next, successors next, path ++ [next]) :: rest }
      | .black => { search with stack := rest }

/-- The turns of the `while stack` loop; each sees a neighbour or leaves a node. -/
def Search.run (successors : String → List String) : Nat → Search → Search
  | 0, search => search
  | fuel + 1, search =>
      if search.stack.isEmpty then search else Search.run successors fuel (search.turn successors)

def Search.visitAll (successors : String → List String) (fuel : Nat) : List String → Search → Search
  | [], search => search
  | name :: rest, search =>
      let visited := match search.color name with
        | .white => Search.run successors fuel
            { search with
              color := Function.update search.color name .gray
              stack := [(name, successors name, [name])] }
        | _ => search
      Search.visitAll successors fuel rest visited

/-- `validate_workflow_calls`: call targets exist, and the call graph is acyclic. -/
def validateWorkflowCalls (env : Env) (workflows : List (String × Val)) : List String :=
  let successors := outgoing env workflows
  let names := (workflows.map Prod.fst).insertionSort (· ≤ ·)
  let turns := (names.map fun name => (successors name).length + 1).sum
  unknownTargets env workflows ++
    (Search.visitAll successors turns names ⟨fun _ => .white, [], []⟩).errors

end Megalos
