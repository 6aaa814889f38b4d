import Megalos.Workflow

/-!
Precondition evaluation and the skip loop of `tools.py`.
-/

namespace Megalos

open KeyedTable

/-- `ref.split(".")`. -/
def refParts : Val → Except Exn (List String)
  | .str text => .ok (splitPath text)
  | other => .error (.uncaught "AttributeError"
      ("'" ++ other.typeName ++ "' object has no attribute 'split'"))

def descend : List String → Val → Option Val
  | [], value => some value
  | segment :: rest, .dict entries => (Val.valueAt? entries segment).bind (descend rest)
  | _, _ => none

/-- `_resolve_ref`; `none` is `_REF_ABSENT`. -/
def resolveRef (env : Env) (ref : Val) (stepData : StepData) (skippedSet : List String)
    (referencingStepId : String) : Except Exn (Option Val) := do
  match ← refParts ref with
  | _ :: sid :: path =>
      if sid ∈ skippedSet then throw (.skippedPredecessor sid referencingStepId)
      match stepData.get? sid with
      | none => return none
      | some raw =>
          if path.isEmpty then return some (.str raw)
          match ← env.tryLoads raw with
          | .error _ => return none
          | .ok value => return descend path value
  | _ => throw (.uncaught "IndexError" "list index out of range")

/-- `_evaluate_precondition`: true runs the step, false skips it. -/
def evaluatePrecondition (env : Env) (precondition : Val) (stepData : StepData)
    (skippedSet : List String) (referencingStepId : String) : Except Exn Bool := do
  if ← precondition.contains "when_equals" then
    let we ← precondition.item "when_equals"
    match ← resolveRef env (← we.item "ref") stepData skippedSet referencingStepId with
    | none => return false
    | some resolved => return resolved.pyEq (← we.item "value")
  else
    match ← refParts (← precondition.item "when_present") with
    | _ :: sid :: _ =>
        if sid ∈ skippedSet then throw (.skippedPredecessor sid referencingStepId)
        return stepData.contains sid
    | _ => throw (.uncaught "IndexError" "list index out of range")

def skippedFrom (env : Env) (stepData : StepData) : List Step → List String →
    Except Exn (List String)
  | [], skipped => .ok skipped
  | step :: rest, skipped =>
      if stepData.contains step.id then skippedFrom env stepData rest skipped
      else
        match step.precondition with
        | none => skippedFrom env stepData rest skipped
        | some pc =>
            match evaluatePrecondition env pc stepData skipped step.id with
            | .ok true => skippedFrom env stepData rest skipped
            | .ok false => skippedFrom env stepData rest (skipped ++ [step.id])
            | .error (.skippedPredecessor _ _) =>
              skippedFrom env stepData rest (skipped ++ [step.id])
            | .error raised => .error raised

def computeSkippedSteps (env : Env) (wf : Workflow) (stepData : StepData) :
    Except Exn (List String) :=
  skippedFrom env stepData wf.steps []

/-- The `while` loop of `_apply_skip_loop`; the fuel bounds its turns. -/
def skipLoop (env : Env) (wf : Workflow) (stepData : StepData) :
    Nat → Val → List String → List String → Except Exn (Val × List String)
  | 0, _, _, _ => .error .diverges
  | fuel + 1, nextStepId, skippedSet, skipped =>
      if nextStepId.isStr complete then .ok (nextStepId, skipped)
      else
        match findStep wf nextStepId with
        | none => .ok (nextStepId, skipped)
        | some (idx, step) =>
            match step.precondition with
            | none => .ok (nextStepId, skipped)
            | some pc =>
                match evaluatePrecondition env pc stepData skippedSet step.id with
                | .error raised => .error raised
                | .ok true => .ok (nextStepId, skipped)
                | .ok false =>
                    skipLoop env wf stepData fuel (.str (wf.following idx))
                      (skippedSet ++ [step.id]) (skipped ++ [step.id])

def applySkipLoop (env : Env) (nextStepId : Val) (wf : Workflow) (stepData : StepData)
    (forceBranched : Bool) : Except Exn (Val × List String) :=
  if forceBranched then .ok (nextStepId, [])
  else
    match computeSkippedSteps env wf stepData with
    | .error raised => .error raised
    | .ok skippedSet => skipLoop env wf stepData env.fuel nextStepId skippedSet []

end Megalos
