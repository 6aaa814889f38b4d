import Megalos.Library.JsonSchema
import Megalos.Value

/-!
`schemas/megalos-workflow.schema.json`: each subschema of `$defs` under its own name, with
a `$ref` as a use of that name.
-/

namespace Megalos

open JsonSchema

instance : Viewed Val where
  view
    | .none => .null
    | .bool value => .boolean value
    | .int value => .number (.finite value)
    | .float (.finite value) => .number (.finite value)
    | .float (.infinite negative) => .number (.infinite negative)
    | .float .nan => .number .nan
    | .str text => .string text
    | .list items => .array items
    | .dict entries => .object (Val.valueAt? entries) (entries.map fun entry =>
        match entry.1 with
        | .str name => some name
        | _ => none)
    | .native _ => .other
    | .absent => .other

def stringSchema : Schema Val := hasType .string

def nonEmptyStringSchema : Schema Val := allOf [hasType .string, minLength 1]

def stringsSchema : Schema Val := allOf [hasType .array, items stringSchema]

/-- `[A-Za-z_][A-Za-z0-9_-]*`. -/
def segmentExpression : RegularExpression Char :=
  letters (range 'A' 'Z' ++ range 'a' 'z' ++ ['_']) *
    .star (letters (range 'A' 'Z' ++ range 'a' 'z' ++ range '0' '9' ++ ['_', '-']))

def refPathExpression : RegularExpression Char :=
  exactly "step_data." * segmentExpression * .star (exactly "." * segmentExpression)

def refPathSchema : Schema Val := allOf [hasType .string, pattern (.whole refPathExpression)]

def literalNoInterpSchema : Schema Val :=
  allOf [hasType .string, minLength 1, JsonSchema.not (pattern (.somewhere (exactly "$\x7b")))]

def preconditionSchema : Schema Val := allOf [
  hasType .object,
  oneOf [
    allOf [
      required ["when_equals"],
      JsonSchema.not (required ["when_present"]),
      properties [("when_equals", allOf [
        hasType .object,
        required ["ref", "value"],
        closed ["ref", "value"],
        properties [("ref", refPathSchema), ("value", allOf [])]])],
      closed ["when_equals"]],
    allOf [
      required ["when_present"],
      JsonSchema.not (required ["when_equals"]),
      properties [("when_present", refPathSchema)],
      closed ["when_present"]]]]

def branchSchema : Schema Val := allOf [
  hasType .object,
  required ["next", "condition"],
  properties [("next", stringSchema), ("condition", stringSchema)]]

def branchesSchema : Schema Val := allOf [hasType .array, items branchSchema]

def intermediateArtifactSchema : Schema Val := allOf [
  hasType .object,
  required ["id", "description", "schema"],
  properties [
    ("id", stringSchema),
    ("description", stringSchema),
    ("schema", hasType .object),
    ("checkpoint", hasType .boolean)]]

def injectContextSchema : Schema Val := allOf [
  hasType .array,
  items (allOf [
    hasType .object,
    required ["from"],
    properties [("from", stringSchema), ("fields", stringsSchema), ("summary", hasType .boolean)]])]

def directivesSchema : Schema Val := allOf [
  hasType .object,
  closed ["tone", "strategy", "persona", "constraints"],
  properties [
    ("tone", stringSchema),
    ("strategy", stringSchema),
    ("persona", stringSchema),
    ("constraints", stringsSchema)]]

def llmStepSchema : Schema Val := allOf [
  hasType .object,
  required ["id", "title", "directive_template", "gates", "anti_patterns"],
  JsonSchema.not (allOf [properties [("action", const (.string "mcp_tool_call"))],
    required ["action"]]),
  properties [
    ("id", nonEmptyStringSchema),
    ("title", nonEmptyStringSchema),
    ("directive_template", nonEmptyStringSchema),
    ("gates", stringsSchema),
    ("anti_patterns", stringsSchema),
    ("step_description", stringSchema),
    ("collect", hasType .boolean),
    ("output_schema", hasType .object),
    ("max_retries", allOf [hasType .integer, minimum 1]),
    ("validation_hint", stringSchema),
    ("inject_context", injectContextSchema),
    ("branches", branchesSchema),
    ("default_branch", stringSchema),
    ("precondition", preconditionSchema),
    ("call", nonEmptyStringSchema),
    ("call_context_from", refPathSchema),
    ("directives", directivesSchema),
    ("intermediate_artifacts", allOf [hasType .array, items intermediateArtifactSchema]),
    ("output_from", stringSchema)],
  allOf [
    ifThen (allOf [properties [("collect", const (.boolean true))], required ["collect"]])
      (required ["output_schema"]),
    ifThen (required ["call_context_from"]) (required ["call"]),
    ifThen (allOf [required ["call"], properties [("collect", const (.boolean true))]])
      (JsonSchema.not (required ["collect"])),
    ifThen (required ["call"]) (JsonSchema.not (required ["intermediate_artifacts"])),
    ifThen (required ["call", "branches"]) (required ["default_branch"]),
    ifThen (required ["output_from"]) (required ["intermediate_artifacts"])]]

def mcpToolCallStepSchema : Schema Val := allOf [
  hasType .object,
  required ["id", "title", "action", "server", "tool", "args"],
  closed ["id", "title", "action", "server", "tool", "args", "timeout", "step_description",
    "precondition", "branches", "default_branch"],
  properties [
    ("id", nonEmptyStringSchema),
    ("title", nonEmptyStringSchema),
    ("action", const (.string "mcp_tool_call")),
    ("server", literalNoInterpSchema),
    ("tool", literalNoInterpSchema),
    ("args", hasType .object),
    ("timeout", allOf [hasType .number, exclusiveMinimum 0]),
    ("step_description", stringSchema),
    ("precondition", preconditionSchema),
    ("branches", branchesSchema),
    ("default_branch", stringSchema)]]

def stepSchema : Schema Val := allOf [hasType .object, oneOf [llmStepSchema, mcpToolCallStepSchema]]

def guardrailSchema : Schema Val := allOf [
  hasType .object,
  required ["id", "trigger", "action", "message"],
  properties [
    ("id", stringSchema),
    ("trigger", allOf [
      hasType .object,
      required ["type"],
      properties [("type",
        enum [.string "keyword_match", .string "step_count", .string "step_revisit",
        .string "output_length"])]]),
    ("action", enum [.string "warn", .string "force_branch", .string "escalate"]),
    ("message", stringSchema),
    ("target_step", stringSchema)],
  allOf [
    ifThen (allOf [properties [("action", const (.string "force_branch"))], required ["action"]])
      (required ["target_step"])]]

def workflowSchema : Schema Val := allOf [
  hasType .object,
  required ["name", "description", "category", "output_format", "steps"],
  properties [
    ("schema_version", stringSchema),
    ("name", stringSchema),
    ("description", stringSchema),
    ("category", stringSchema),
    ("output_format", stringSchema),
    ("steps", allOf [hasType .array, minItems 1, items stepSchema]),
    ("conversation_repair", allOf [
      hasType .object,
      closed ["on_go_back", "on_cancel", "on_digression", "on_clarification"],
      properties [
        ("on_go_back", stringSchema),
        ("on_cancel", stringSchema),
        ("on_digression", stringSchema),
        ("on_clarification", stringSchema)]]),
    ("guardrails", allOf [hasType .array, items guardrailSchema])]]

/-! What the keywords ask of Python values. -/

section Keywords

variable {value : Val} {entries : List (Val × Val)} {names : List String}

theorem allOf_iff {schemas : List (Schema Val)} :
    allOf schemas value = true ↔ ∀ schema ∈ schemas, schema value = true := by simp [allOf]

theorem ifThen_iff {condition consequence : Schema Val} :
    ifThen condition consequence value = true ↔
      (condition value = true → consequence value = true) := by
  cases asked : condition value <;> simp [ifThen, asked]

theorem not_iff {schema : Schema Val} :
    JsonSchema.not schema value = true ↔ schema value = false := by
  simp [JsonSchema.not]

theorem oneOf_first {first second : Schema Val} (other : second value = false) :
    oneOf [first, second] value = first value := by
  cases holds : first value <;> simp [oneOf, holds, other]

theorem oneOf_second {first second : Schema Val} (other : first value = false) :
    oneOf [first, second] value = second value := by
  cases holds : second value <;> simp [oneOf, holds, other]

theorem object_iff :
    (hasType .object : Schema Val) value = true ↔ ∃ entries, value = .dict entries := by
  cases value with
  | float number => cases number <;> simp [hasType, Viewed.view]
  | _ => simp [hasType, Viewed.view]

theorem array_iff : (hasType .array : Schema Val) value = true ↔ ∃ items, value = .list items := by
  cases value with
  | float number => cases number <;> simp [hasType, Viewed.view]
  | _ => simp [hasType, Viewed.view]

theorem boolean_iff :
    (hasType .boolean : Schema Val) value = true ↔ ∃ flag, value = .bool flag := by
  cases value with
  | float number => cases number <;> simp [hasType, Viewed.view]
  | _ => simp [hasType, Viewed.view]

theorem string_iff : stringSchema value = true ↔ ∃ text, value = .str text := by
  cases value with
  | float number => cases number <;> simp [stringSchema, hasType, Viewed.view]
  | _ => simp [stringSchema, hasType, Viewed.view]

theorem items_list {schema : Schema Val} {members : List Val} :
    items schema (.list members) = true ↔ ∀ member ∈ members, schema member = true := by
  simp [items, Viewed.view]

theorem const_iff {text : String} :
    (const (.string text) : Schema Val) value = true ↔ value = .str text := by
  cases value with
  | float number => cases number <;> simp [const, literal?, Viewed.view]
  | _ => simp [const, literal?, Viewed.view]

theorem const_true_iff :
    (const (.boolean true) : Schema Val) value = true ↔ value = .bool true := by
  cases value with
  | float number => cases number <;> simp [const, literal?, Viewed.view]
  | _ => simp [const, literal?, Viewed.view]

theorem enum_string {expected : List Literal} {text : String} :
    enum expected (Val.str text) = true ↔ .string text ∈ expected := by
  simp [enum, literal?, Viewed.view]

theorem required_dict : required names (Val.dict entries) = true ↔
    ∀ name ∈ names, (Val.valueAt? entries name).isSome := by
  simp [required, Viewed.view]

theorem properties_dict {schemas : List (String × Schema Val)} :
    properties schemas (.dict entries) = true ↔
      ∀ entry ∈ schemas, ∀ value, Val.valueAt? entries entry.1 = some value →
        entry.2 value = true := by
  simp only [properties, Viewed.view, List.all_eq_true, Option.all_eq_true]

theorem closed_dict : closed names (Val.dict entries) = true ↔
    ∀ key ∈ entries.map Prod.fst, ∃ name ∈ names, key = .str name := by
  simp only [closed, Viewed.view, List.all_eq_true, List.forall_mem_map]
  refine forall₂_congr fun entry _ => ?_
  cases entry.1 <;> simp

end Keywords

end Megalos
