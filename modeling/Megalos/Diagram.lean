import Megalos.Accepted
import Megalos.Response

/-!
The renderer of `diagram.py`: a workflow as the lines of a Mermaid flowchart.
-/

namespace Megalos

open KeyedTable

/-- An edge; a dotted one is drawn `-. … .->`. -/
structure Arrow where
  source : String
  target : String
  label : Option String
  dotted : Bool

inductive DiagramLine where
  | header
  | blank
  | node (id label : String) (subroutine : Bool)
  | subgraph (target : String)
  | endSubgraph
  | arrow (edge : Arrow)

def quoted (text : String) : String := "\x22" ++ text ++ "\x22"

def Arrow.text (arrow : Arrow) : String :=
  let tip := if arrow.dotted then " .-> " else "| "
  let tail := if arrow.dotted then " -. " else " -->|"
  match arrow.label with
  | some label => "    " ++ arrow.source ++ tail ++ quoted label ++ tip ++ arrow.target
  | none => "    " ++ arrow.source ++ " --> " ++ arrow.target

def DiagramLine.text : DiagramLine → String
  | .header => "flowchart TD"
  | .blank => ""
  | .node id label subroutine =>
      "    " ++ id ++ (if subroutine then "[[" ++ quoted label ++ "]]" else "[" ++ quoted label ++
        "]")
  | .subgraph target => "subgraph " ++ target
  | .endSubgraph => "end"
  | .arrow edge => edge.text

def escapeText (text : String) : String :=
  String.ofList (text.toList.flatMap fun letter =>
    if letter = '\x22' then "&quot;".toList else [letter])

def escapeLabel : Val → Except Exn String
  | .str text => .ok (escapeText text)
  | other => .error (.uncaught "AttributeError" ("'" ++ other.typeName ++
    "' object has no attribute 'replace'"))

section Render

variable (env : Env)

def nodeLine (step : Step) : Except Exn DiagramLine := do
  let label ← escapeLabel (← step.item "title")
  return .node step.id label step.isMcpToolCall

/-- `_edge_lines`: the branches of a step take the place of the edge to the next one. -/
def edgeLines (step : Step) (nextStep : Option Step) : Except Exn (List Arrow) := do
  if step.flag "branches" then
    let lines ← (← (optionVal (step.get? "branches")).iter).mapM fun branch => do
      let label ← escapeLabel (← branch.item "condition")
      let next ← shown env (← branch.item "next")
      return (⟨step.id, next, some label, false⟩ : Arrow)
    let defaults ← ((step.get? "default_branch").filter Val.truthy).toList.mapM (shown env)
    return lines ++ defaults.map fun target => (⟨step.id, target, none, false⟩ : Arrow)
  else return (nextStep.map fun next => (⟨step.id, next.id, none, false⟩ : Arrow)).toList

def formatConditionValue : Val → Except Exn String
  | .none => .ok "null"
  | .bool value => .ok (if value then "true" else "false")
  | .int value => shown env (.int value)
  | .float value => shown env (.float value)
  | other => do return "&quot;" ++ escapeText (← shown env other) ++ "&quot;"

def preconditionEdge (step : Step) : Except Exn (Option Arrow) := do
  match (step.get? "precondition").filter Val.truthy with
  | none => return none
  | some pre =>
      let (ref, tail) ← if ← pre.contains "when_equals" then do
          let ref ← (← pre.item "when_equals").item "ref"
          let value ← (← pre.item "when_equals").item "value"
          pure (ref, "== " ++ (← formatConditionValue env value))
        else do
          let ref ← pre.item "when_present"
          pure (ref, "present")
      match ← refParts ref with
      | first :: source :: path =>
          let last := (first :: source :: path).getLast (List.cons_ne_nil _ _)
          return some ⟨source, step.id, some ("when " ++ last ++ " " ++ tail), true⟩
      | _ => throw (.uncaught "IndexError" "list index out of range")

def callReferences : List Step → List Val → Except Exn (List Val)
  | [], seen => .ok seen
  | step :: rest, seen =>
      match (step.get? "call").filter Val.truthy with
      | none => callReferences rest seen
      | some (.list _) => .error (.typeError "unhashable type: 'list'")
      | some (.dict _) => .error (.typeError "unhashable type: 'dict'")
      | some target => callReferences rest (if seen.any target.pyEq then seen else seen ++ [target])

def callEdge (step : Step) : Except Exn (List Arrow) := do
  let targets ← ((step.get? "call").filter Val.truthy).toList.mapM (shown env)
  return targets.map fun target => (⟨step.id, target, some "calls", false⟩ : Arrow)

def stepArrows : List Step → Except Exn (List Arrow)
  | [] => .ok []
  | step :: rest => do
      let edges ← edgeLines env step rest.head?
      let dotted ← preconditionEdge env step
      let calls ← callEdge env step
      let later ← stepArrows rest
      return edges ++ dotted.toList ++ calls ++ later

/-- The lines of `render`, from the loaded document on. -/
def Workflow.diagram (wf : Workflow) : Except Exn (List DiagramLine) := do
  let nodes ← wf.steps.mapM nodeLine
  let references ← (← callReferences wf.steps []).mapM (shown env)
  let arrows ← stepArrows env wf.steps
  return [.header, .blank] ++ nodes ++
    (references.flatMap fun target => [.subgraph target, .endSubgraph]) ++ arrows.map .arrow

def registryRequiredCode : String := "mcp_tool_call_registry_required"

/-- `_load_doc`: the error about a missing registry is let pass. -/
def loadDoc (stem : String) (raw : Val) : Except Exn Val := do
  match ← validateWorkflow env none stem raw with
  | (errors, some doc) =>
      match errors.filter fun error => !decide (registryRequiredCode.toList <:+: error.toList) with
      | [] => return doc
      | error :: _ => throw (.valueError error)
  | (error :: _, none) => throw (.valueError error)
  | ([], none) => throw (.uncaught "AssertionError" "")

/-- `render` on a parsed document; `none` when a step id is no string. -/
def render (stem : String) (raw : Val) : Except Exn (Option (List DiagramLine)) := do
  let doc ← loadDoc env stem raw
  match Workflow.load doc with
  | none => return none
  | some wf => return some (← wf.diagram env)

end Render

def diagramText (lines : List DiagramLine) : String :=
    String.intercalate "\n" (lines.map DiagramLine.text)

def solidEdges (lines : List DiagramLine) : List (String × String) :=
  lines.filterMap fun line =>
    match line with
    | .arrow edge => if edge.dotted then none else some (edge.source, edge.target)
    | _ => none

variable {env : Env} {registry : Option Registry} {wf : Workflow} {lines : List DiagramLine}
    {idx : Nat} {step : Step}

/-! A document that the server loads is rendered. -/

theorem validateServers_unregistered {name : Val} {steps : List Val} :
    validateServers env none name steps = .error digitsError ∧ name.printable = false ∨
      ∃ errors, validateServers env none name steps = .ok errors ∧
        ∀ error ∈ errors, registryRequiredCode.toList <:+: error.toList := by
  unfold validateServers
  dsimp only
  split
  · exact .inr ⟨[], rfl, by simp⟩
  · unfold printing
    split
    · refine .inr ⟨_, rfl, fun error member => ?_⟩
      have ending : "(code: mcp_tool_call_registry_required)".toList =
          "(code: ".toList ++ registryRequiredCode.toList ++ ")".toList := by decide
      rw [List.mem_singleton.mp member, String.toList_append, ending]
      exact (List.infix_append _ _ _).trans (List.suffix_append _ _).isInfix
    · rename_i silent
      exact .inl ⟨rfl, by simpa using silent⟩

theorem validateSteps_unregistered {stem : String} {document : Mapping} {steps : List Val}
    (passed : validateSteps env registry stem document steps = .ok []) :
    validateSteps env none stem document steps =
      validateServers env none ((document.get? "name").getD (.str stem)) steps := by
  obtain ⟨own, -, preconditions, ids, isIds, sources, targets, guardrails⟩ :=
    validateSteps_ok_nil.mp passed
  have gathered : gather (steps.zipIdx.map fun entry => validateStep env entry.2 entry.1) =
    .ok [] := by
    refine gather_ok_nil.mpr fun check member => ?_
    obtain ⟨⟨step, position⟩, indexed, rfl⟩ := List.mem_map.mp member
    exact own position step (List.mk_mem_zipIdx_iff_getElem?.mp indexed)
  have noTargets : gather ((mappedSteps steps).map fun entry =>
      naming entry.2 (validateTargets env ids entry.2)) = .ok [] := gather_naming_nil.mpr targets
  unfold validateSteps
  rw [gathered]
  cases validateServers env none ((document.get? "name").getD (.str stem)) steps with
  | error raised => rfl
  | ok servers =>
      simp only [StatefulProgram.ok_bind, isIds, sources, guardrails, preconditions, noTargets,
        List.nil_append, List.append_nil]
      rfl

/-- A loaded document is loaded for its diagram, unless its name cannot be printed. -/
theorem loadDoc_loaded {stem : String} {raw doc : Val}
    (loaded : loadWorkflow env registry stem raw = .ok doc) :
    loadDoc env stem raw = .ok doc ∨
      loadDoc env stem raw = .error digitsError ∧
        ((raw.get? "name").getD .none).printable = false := by
  obtain ⟨entries, steps, rfl, found, nonempty, head, passed, kept⟩ :=
    validateWorkflow_ok_nil.mp (loadWorkflow_ok.mp loaded)
  have named : (withSchemaVersion entries).get? "name" = Mapping.get? entries "name" :=
    withSchemaVersion_get? (by simp)
  have validated : validateWorkflow env none stem (.dict entries) =
      (validateServers env none ((Mapping.get? entries "name").getD (.str stem)) steps >>=
        fun servers =>
        .ok (servers, some doc)) := by
    unfold validateWorkflow
    cases steps with
    | nil => exact absurd rfl nonempty
    | cons first rest =>
        rw [← named, ← validateSteps_unregistered passed]
        simp only [head, found, List.nil_append, kept]
        rfl
  unfold loadDoc
  rw [validated]
  rcases @validateServers_unregistered env ((Mapping.get? entries "name").getD (.str stem)) steps with
    ⟨raises, silent⟩ | ⟨errors, answers, tolerated⟩
  · refine .inr ⟨by rw [raises]; rfl, ?_⟩
    cases isName : Mapping.get? entries "name" with
    | none =>
        rw [isName] at silent
        cases silent
    | some name =>
        rw [isName] at silent
        have same : (Val.dict entries).get? "name" = some name := isName
        rw [same]
        exact silent
  · left
    have filtered : (errors.filter fun error =>
      !decide (registryRequiredCode.toList <:+: error.toList)) = [] := by
      refine List.filter_eq_nil_iff.mpr fun error member => ?_
      simp [tolerated error member]
    rw [answers, StatefulProgram.ok_bind, StatefulProgram.ok_bind]
    dsimp only
    rw [filtered]
    rfl

theorem render_loaded {stem : String} {raw doc : Val}
    (loaded : loadWorkflow env registry stem raw = .ok doc) (loads : Workflow.load doc = some wf)
    (renders : render env stem raw = .ok (some lines)) :
    wf.diagram env = .ok lines := by
  unfold render at renders
  rcases loadDoc_loaded loaded with loadsDoc | ⟨raises, -⟩
  · rw [loadsDoc, StatefulProgram.ok_bind, loads] at renders
    obtain ⟨found, rendered, same⟩ := except_bind_ok.mp renders
    cases same
    exact rendered
  · rw [raises] at renders
    cases renders

theorem render_of_diagram {stem : String} {raw doc : Val}
    (loaded : loadWorkflow env registry stem raw = .ok doc) (loads : Workflow.load doc = some wf)
    (named : ((raw.get? "name").getD .none).printable = true)
    (drawn : wf.diagram env = .ok lines) : render env stem raw = .ok (some lines) := by
  rcases loadDoc_loaded loaded with loadsDoc | ⟨-, silent⟩
  · unfold render
    rw [loadsDoc, StatefulProgram.ok_bind, loads]
    exact except_bind_ok.mpr ⟨lines, drawn, rfl⟩
  · rw [named] at silent
    cases silent

/-! Which edges are drawn. -/

theorem mem_solidEdges {source target : String} :
    (source, target) ∈ solidEdges lines ↔
      ∃ label, .arrow ⟨source, target, label, false⟩ ∈ lines := by
  unfold solidEdges
  rw [List.mem_filterMap]
  constructor
  · rintro ⟨line, member, isEdge⟩
    split at isEdge
    · rename_i edge
      split at isEdge
      · cases isEdge
      · rename_i solid
        obtain ⟨source, target, label, dotted⟩ := edge
        cases isEdge
        rw [Bool.not_eq_true] at solid
        exact ⟨label, solid ▸ member⟩
    · cases isEdge
  · rintro ⟨label, member⟩
    exact ⟨_, member, rfl⟩

theorem stepArrows_at {steps : List Step} {arrows : List Arrow}
    (drawn : stepArrows env steps = .ok arrows) (there : steps[idx]? = some step) :
    ∃ edges, edgeLines env step steps[idx + 1]? = .ok edges ∧ ∀ edge ∈ edges, edge ∈ arrows := by
  induction steps generalizing idx arrows with
  | nil => cases there
  | cons first rest ih =>
      obtain ⟨edges, isEdges, drawn⟩ := except_bind_ok.mp drawn
      obtain ⟨dotted, isDotted, drawn⟩ := except_bind_ok.mp drawn
      obtain ⟨calls, isCalls, drawn⟩ := except_bind_ok.mp drawn
      obtain ⟨later, isLater, drawn⟩ := except_bind_ok.mp drawn
      obtain rfl := Except.ok.inj drawn
      cases idx with
      | zero =>
          cases there
          rw [List.head?_eq_getElem?] at isEdges
          refine ⟨edges, isEdges, fun edge member => ?_⟩
          simp [member]
      | succ idx =>
          obtain ⟨own, isOwn, each⟩ := ih isLater there
          refine ⟨own, isOwn, fun edge member => ?_⟩
          simp [each edge member]

/-- Whatever `_edge_lines` returns for a step is in the diagram. -/
theorem Workflow.diagram_at (renders : wf.diagram env = .ok lines)
    (there : wf.steps[idx]? = some step) :
    ∃ edges, edgeLines env step wf.steps[idx + 1]? = .ok edges ∧
      ∀ edge ∈ edges, edge.dotted = false → (edge.source, edge.target) ∈ solidEdges lines := by
  obtain ⟨nodes, -, renders⟩ := except_bind_ok.mp renders
  obtain ⟨targets, -, renders⟩ := except_bind_ok.mp renders
  obtain ⟨references, -, renders⟩ := except_bind_ok.mp renders
  obtain ⟨arrows, isArrows, renders⟩ := except_bind_ok.mp renders
  obtain rfl := Except.ok.inj renders
  obtain ⟨edges, isEdges, each⟩ := stepArrows_at isArrows there
  refine ⟨edges, isEdges, fun edge member solid => mem_solidEdges.mpr ⟨edge.label, ?_⟩⟩
  obtain ⟨source, target, label, dotted⟩ := edge
  cases solid
  exact List.mem_append_right _ (List.mem_map_of_mem (each _ member))

theorem infix_intercalate {α : Type} {separator part : List α} {parts : List (List α)}
    (member : part ∈ parts) :
    part <:+: separator.intercalate parts := by
  induction parts with
  | nil => cases member
  | cons first rest ih =>
      by_cases last : rest = []
      · rw [last, List.mem_singleton] at member
        rw [last, List.intercalate_singleton, member]
      · rw [List.intercalate_cons_of_ne_nil last, List.append_assoc]
        rcases List.mem_cons.mp member with rfl | later
        · exact (List.prefix_append _ _).isInfix
        · exact (ih later).trans ((List.suffix_append _ _).trans (List.suffix_append _ _)).isInfix

theorem solidEdges_written {source target : String} (member : (source, target) ∈ solidEdges lines) :
    ∃ label, (Arrow.text ⟨source, target, label,
      false⟩).toList <:+: (diagramText lines).toList := by
  obtain ⟨label, drawn⟩ := mem_solidEdges.mp member
  refine ⟨label, ?_⟩
  rw [diagramText, String.toList_intercalate]
  exact infix_intercalate (List.mem_map_of_mem (List.mem_map_of_mem drawn))

theorem Workflow.linear_drawn {next : Step} (renders : wf.diagram env = .ok lines)
    (there : wf.steps[idx]? = some step) (unbranched : step.flag "branches" = false)
    (follows : wf.steps[idx + 1]? = some next) :
    (step.id, next.id) ∈ solidEdges lines := by
  obtain ⟨edges, isEdges, each⟩ := diagram_at renders there
  unfold edgeLines at isEdges
  rw [if_neg (by simp [unbranched]), follows] at isEdges
  obtain rfl := Except.ok.inj isEdges
  exact each ⟨step.id, next.id, none, false⟩ (List.mem_singleton.mpr rfl) rfl

theorem Workflow.branches_drawn (renders : wf.diagram env = .ok lines)
    (there : wf.steps[idx]? = some step) (branched : step.flag "branches" = true) :
    (∀ items, (optionVal (step.get? "branches")).iter = .ok items → ∀ branch ∈ items, ∀ text,
      branch.item "next" = .ok (.str text) → (step.id, text) ∈ solidEdges lines) ∧
    ∀ text, step.get? "default_branch" = some (.str text) → text ≠ "" →
      (step.id, text) ∈ solidEdges lines := by
  obtain ⟨edges, isEdges, each⟩ := diagram_at renders there
  unfold edgeLines at isEdges
  rw [if_pos branched] at isEdges
  obtain ⟨items, iterates, isEdges⟩ := except_bind_ok.mp isEdges
  obtain ⟨labelled, collected, isEdges⟩ := except_bind_ok.mp isEdges
  obtain ⟨defaults, areDefaults, isEdges⟩ := except_bind_ok.mp isEdges
  obtain rfl := Except.ok.inj isEdges
  constructor
  · intro others again branch member text next
    rw [iterates] at again
    cases again
    obtain ⟨edge, isEdge, draws⟩ := forall₂_mem_left (mapM_ok_forall₂ collected) member
    obtain ⟨condition, -, draws⟩ := except_bind_ok.mp draws
    obtain ⟨label, -, draws⟩ := except_bind_ok.mp draws
    rw [next] at draws
    cases draws
    exact each _ (List.mem_append_left _ isEdge) rfl
  · intro text default nonempty
    refine each ⟨step.id, text, none, false⟩ (List.mem_append_right _ ?_) rfl
    have only : ((step.get? "default_branch").filter Val.truthy).toList = [.str text] := by
      simp [default, Val.truthy, nonempty]
    rw [only] at areDefaults
    obtain rfl : [text] = defaults := Except.ok.inj areDefaults
    exact List.mem_singleton.mpr rfl

end Megalos
