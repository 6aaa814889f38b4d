import Megalos.Store

/-!
Loaded workflows.  A step is the parsed mapping with its id taken out; every other
key keeps the value the author wrote, well typed or not, and is read where the
source reads it.
-/

namespace Megalos

open KeyedTable

structure Step where
  id : String
  fields : List (String × Val)

/-- `wf["steps"]` is not empty: `validate_workflow` refuses an empty list. -/
structure Workflow where
  first : Step
  rest : List Step
  fields : List (String × Val)

structure ServerConfig where
  timeoutDefault : Option Val

structure Registry where
  servers : Dict ServerConfig

/-- What `create_app` loads and `register_tools` closes over, and the caller the middleware tags the
request with. -/
structure Deployment where
  workflows : Dict Workflow
  workflowFingerprints : Dict String
  registry : Option Registry
  caller : Identity

def field? (fields : List (String × Val)) (key : String) : Option Val :=
  (fields.find? fun entry => entry.1 == key).map Prod.snd

def fieldItem (fields : List (String × Val)) (key : String) : Except Exn Val :=
  match field? fields key with
  | some value => .ok value
  | none => .error (.uncaught "KeyError" ("'" ++ key ++ "'"))

theorem except_bind_ok {α β : Type} {first : Except Exn α} {next : α → Except Exn β} {value : β} :
    (first >>= next) = .ok value ↔ ∃ middle, first = .ok middle ∧ next middle = .ok value := by
  cases first <;> simp [StatefulProgram.ok_bind, StatefulProgram.error_bind]

namespace Step

/-- `step.get(key)`; `key in step` is `(step.get? key).isSome`. -/
def get? (step : Step) (key : String) : Option Val := field? step.fields key

/-- `step[key]`. -/
def item (step : Step) (key : String) : Except Exn Val := fieldItem step.fields key

/-- The truth value of `step.get(key)`. -/
def flag (step : Step) (key : String) : Bool := ((step.get? key).map Val.truthy).getD false

def isCall (step : Step) : Bool := (step.get? "call").isSome

def isMcpToolCall (step : Step) : Bool :=
    ((step.get? "action").map (·.isStr "mcp_tool_call")).getD false

/-- `step.get("precondition")`, with an explicit null as absent. -/
def precondition (step : Step) : Option Val :=
  match step.get? "precondition" with
  | some .none => none
  | other => other

def doc (step : Step) : Val := .obj (("id", .str step.id) :: step.fields)

end Step

namespace Workflow

def steps (wf : Workflow) : List Step := wf.first :: wf.rest

/-- `wf["steps"][-1]`. -/
def last (wf : Workflow) : Step := wf.steps.getLast (List.cons_ne_nil _ _)

def get? (wf : Workflow) (key : String) : Option Val := field? wf.fields key

def item (wf : Workflow) (key : String) : Except Exn Val := fieldItem wf.fields key

def doc (wf : Workflow) : Val := .obj (("steps", .list (wf.steps.map Step.doc)) :: wf.fields)

/-- The id after position `idx`, or the completion sentinel after the last step. -/
def following (wf : Workflow) (idx : Nat) : String :=
  match wf.steps[idx + 1]? with
  | some step => step.id
  | none => complete

end Workflow

def findStepFrom (stepId : Val) : Nat → List Step → Option (Nat × Step)
  | _, [] => none
  | idx, step :: rest =>
    if stepId.isStr step.id then some (idx, step) else findStepFrom stepId (idx + 1) rest

def findStep (wf : Workflow) (stepId : Val) : Option (Nat × Step) := findStepFrom stepId 0 wf.steps

theorem findStepFrom_spec {stepId : Val} {start idx : Nat} {steps : List Step} {step : Step}
    (found : findStepFrom stepId start steps = some (idx, step)) :
    start ≤ idx ∧ steps[idx - start]? = some step ∧ stepId = .str step.id := by
  induction steps generalizing start with
  | nil => simp [findStepFrom] at found
  | cons first rest ih =>
      simp only [findStepFrom] at found
      split at found
      · rename_i isFirst
        simp only [Option.some.injEq, Prod.mk.injEq] at found
        obtain ⟨rfl, rfl⟩ := found
        simp [Val.isStr_iff.mp isFirst]
      · obtain ⟨above, there, same⟩ := ih found
        refine ⟨by omega, ?_, same⟩
        have shift : idx - start = (idx - (start + 1)) + 1 := by omega
        rw [shift]
        exact there

/-- `_find_step` returns the position of a step with the wanted id. -/
theorem findStep_spec {wf : Workflow} {stepId : Val} {idx : Nat} {step : Step}
    (found : findStep wf stepId = some (idx, step)) :
    wf.steps[idx]? = some step ∧ stepId = .str step.id := by
  obtain ⟨-, there, same⟩ := findStepFrom_spec found
  exact ⟨by simpa using there, same⟩

theorem findStep_own {wf : Workflow} {stepId : Val} {idx : Nat} {step : Step}
    (found : findStep wf stepId = some (idx, step)) :
    findStep wf (.str step.id) = some (idx, step) := by
  rw [← (findStep_spec found).2]
  exact found

theorem findStep_first (wf : Workflow) : findStep wf (.str wf.first.id) = some (0, wf.first) := by
  simp [findStep, Workflow.steps, findStepFrom]

theorem findStep_mem {wf : Workflow} {stepId : Val} {idx : Nat} {step : Step}
    (found : findStep wf stepId = some (idx, step)) : step ∈ wf.steps :=
  List.mem_of_getElem? (findStep_spec found).1

theorem findStepFrom_isSome {stepId : Val} {start : Nat} {steps : List Step} {step : Step}
    (member : step ∈ steps) (same : stepId = .str step.id) :
    (findStepFrom stepId start steps).isSome := by
  induction steps generalizing start with
  | nil => simp at member
  | cons first rest ih =>
      simp only [findStepFrom]
      split
      · rfl
      · rename_i notFirst
        rcases List.mem_cons.mp member with isFirst | later
        · subst same isFirst
          simp at notFirst
        · exact ih later

/-- `_fingerprint_for`: the map's entry, or the digest of the loaded document. -/
def fingerprintFor (env : Env) (deployment : Deployment) (workflowName : String) : String :=
  match deployment.workflowFingerprints.get? workflowName with
  | some fp => fp
  | none =>
      match deployment.workflows.get? workflowName with
      | none => "pre-versioning"
      | some wf => env.sha256 (env.canonicalDumps wf.doc)

end Megalos
