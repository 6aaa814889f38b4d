import Megalos.Library.GuardedRuns
import Megalos.Tools

/-!
The loop of `megalos-dryrun` (`dryrun.py`): an operator in the place of the client.  The
loop knows the server by its responses only.  What it prints is left out; the lookups it
makes for a line are kept where they can raise.
-/

namespace Megalos

open GuardedRuns KeyedTable StatefulProgram StatefulProgram.Program

/-! What the operator types. -/

/-- What `str.strip` and `int` know about a character. -/
structure Terminal where
  isSpace : Char → Bool
  digit : Char → Option Nat

inductive ScriptReply where
  | response (text : String)
  | branch (text : String)

structure ScriptEntry where
  stepId : String
  reply : ScriptReply

/-- `_read_response` and `_prompt_branch`: the lines still to be typed, or the entries still to be
read. -/
inductive Reader where
  | typed (lines : List String)
  | scripted (entries : List ScriptEntry)

namespace Terminal

variable (terminal : Terminal)

def strip (text : String) : String :=
  String.ofList ((text.toList.dropWhile terminal.isSpace).reverse.dropWhile terminal.isSpace).reverse

def digitsFrom (value : Nat) : List Char → Option Nat
  | [] => some value
  | '_' :: letter :: rest => (terminal.digit letter).bind fun digit =>
    digitsFrom (10 * value + digit) rest
  | letter :: rest => (terminal.digit letter).bind fun digit => digitsFrom (10 * value + digit) rest

def decimal : List Char → Option Nat
  | [] => none
  | letter :: rest => (terminal.digit letter).bind fun digit => terminal.digitsFrom digit rest

/-- `int(text)` on a stripped text; `none` is a `ValueError`. -/
def int? (text : String) : Option Int :=
  match text.toList with
  | '-' :: rest => (terminal.decimal rest).map fun value => -(value : Int)
  | '+' :: rest => (terminal.decimal rest).map Int.ofNat
  | letters => (terminal.decimal letters).map Int.ofNat

/-- The input loop of `_prompt_branch`; `none` is the end of the input. -/
def chooseBranch (targets : List Val) (default : Val) : List String → Option (Val × List String)
  | [] => none
  | line :: rest =>
      let raw := terminal.strip line
      if raw = "" then some (default, rest)
      else
        match terminal.int? raw with
        | some idx =>
            if 1 ≤ idx then
              match targets[(idx - 1).toNat]? with
              | some target => some (target, rest)
              | none => chooseBranch targets default rest
            else chooseBranch targets default rest
        | none => chooseBranch targets default rest

end Terminal

/-- `_scripted_consume`: entries of other steps are passed over below the root only. -/
def scriptedConsume (stepId : String) (depth : Nat) : List ScriptEntry →
    Option (ScriptReply × List ScriptEntry)
  | [] => none
  | entry :: rest =>
      if entry.stepId = stepId then some (entry.reply, rest)
      else if 0 < depth then scriptedConsume stepId depth rest
      else none

namespace Reader

def readResponse (stepId : String) (depth : Nat) : Reader → Option (String × Reader)
  | .typed [] => none
  | .typed (line :: rest) => some (line, .typed rest)
  | .scripted entries =>
      match scriptedConsume stepId depth entries with
      | some (.response text, rest) => some (text, .scripted rest)
      | _ => none

def promptBranch (terminal : Terminal) (stepId : String) (depth : Nat) (branches default : Val) :
    Reader → Except Exn (Option (Val × Reader))
  | .typed lines => do
      let targets ← (← branches.iter).mapM fun branch => do
        let target ← branch.item "next"
        let _ ← branch.item "condition"
        return target
      return (terminal.chooseBranch targets default lines).map fun (target, rest) =>
        (target, .typed rest)
  | .scripted entries =>
      match scriptedConsume stepId depth entries with
      | some (.branch text, rest) => .ok (some (.str text, .scripted rest))
      | _ => .ok none

/-- `_scripted_check_unused_on_complete` lets the run end with code 0. -/
def usedUp : Reader → Bool
  | .typed _ => true
  | .scripted entries => entries.isEmpty

end Reader

/-! The loop. -/

structure ReplFrame where
  sessionId : String
  workflow : Workflow
  prevStepIdx : Int

/-- The variables of the loop; the innermost frame comes first. -/
structure Repl where
  stack : List ReplFrame
  stepId : String
  envelope : Val
  reader : Reader

/-- What a turn has decided to do; `branch` is an argument of a submission only where there is a
choice. -/
inductive Plan where
  | exit (code : Nat)
  | submit (repl : Repl) (sessionId stepId content : String) (branch : Option String)
  | descend (repl : Repl) (sessionId stepId : String)

def terminalStatuses : List String :=
    ["workflow_complete", "error", "session_escalated", "workflow_changed"]

def textItem (value : Val) (key : String) : Except Exn String := do
  match ← value.item key with
  | .str text => return text
  | other => throw (.typeError ("expected str, got " ++ other.typeName))

def stepIndex (wf : Workflow) (stepId : String) : Option Nat :=
  (wf.steps.zipIdx.reverse.find? fun entry => entry.1.id == stepId).map Prod.snd

def stepAt (wf : Workflow) (idx : Int) : Option Step :=
    if 0 ≤ idx then wf.steps[idx.toNat]? else none

def detectCallTarget (envelope : Val) (wf : Workflow) (stepId : String) : Option Val :=
  let named := fun key =>
    ((envelope.get? key).bind fun step => step.get? "call_target").filter Val.truthy
  match named "next_step", named "current_step" with
  | some target, _ => some target
  | none, some target => some target
  | none, none =>
      match (wf.steps.find? fun step => step.id == stepId).bind fun step => step.get? "call" with
      | some .none => none
      | other => other

def offeredBranches (envelope : Val) (upcoming : Option Step) : Val × Val :=
  let offered := optionVal (envelope.get? "branches")
  match upcoming with
  | some step =>
      if !offered.truthy && step.flag "branches" then
        (optionVal (step.get? "branches"), (step.get? "default_branch").getD (.str ""))
      else (offered, (envelope.get? "default_branch").getD (.str ""))
  | none => (offered, (envelope.get? "default_branch").getD (.str ""))

namespace Repl

def marks (repl : Repl) (key : String) : Bool :=
    ((repl.envelope.get? key).map Val.truthy).getD false

def returned (repl : Repl) : List ReplFrame :=
  if repl.marks "propagated_from_sub_workflow" then
    repl.stack.dropWhile fun frame =>
      !(optionVal (repl.envelope.get? "session_id")).isStr frame.sessionId
  else repl.stack

def retry (repl : Repl) (top : ReplFrame) (below : List ReplFrame) : Except Exn Plan := do
  let _ ← (← repl.envelope.item "errors").iter
  if repl.marks "retries_exhausted" then
    let _ ← repl.envelope.item "message"
    return .exit 1
  let _ ← repl.envelope.item "retries_remaining"
  match repl.reader.readResponse repl.stepId below.length with
  | none => return .exit 1
  | some (response, reader) =>
      return .submit ⟨top :: below, repl.stepId, repl.envelope,
        reader⟩ top.sessionId repl.stepId response none

def present (repl : Repl) (terminal : Terminal) (active : Val) (stepId : String) (top : ReplFrame)
    (below : List ReplFrame) : Except Exn Plan := do
  let idx := ((stepIndex top.workflow stepId).map Int.ofNat).getD (top.prevStepIdx + 1)
  let stack := ⟨top.sessionId, top.workflow, idx⟩ :: below
  let _ ← active.item "title"
  if (detectCallTarget repl.envelope top.workflow stepId).isSome then
    return .descend ⟨stack, stepId, repl.envelope, repl.reader⟩ top.sessionId stepId
  let upcoming := stepAt top.workflow idx
  let _ ← repl.envelope.item "directive"
  match repl.reader.readResponse stepId below.length with
  | none => return .exit 1
  | some (response, reader) =>
      let (branches, default) := offeredBranches repl.envelope upcoming
      if branches.truthy then
        match ← reader.promptBranch terminal stepId below.length branches default with
        | none => return .exit 1
        | some (.str branch, reader) =>
            return .submit ⟨stack, stepId, repl.envelope,
              reader⟩ top.sessionId stepId response (some branch)
        | some (other, _) => throw (.typeError ("expected str, got " ++ other.typeName))
      else return .submit ⟨stack, stepId, repl.envelope, reader⟩ top.sessionId stepId response none

/-- `envelope.get("current_step") or envelope["next_step"]`. -/
def active (repl : Repl) : Except Exn Val :=
  if repl.marks "current_step" then repl.envelope.item "current_step" else repl.envelope.item "next_step"

/-- One pass through the loop, up to the call it makes. -/
def plan (terminal : Terminal) (repl : Repl) : Except Exn Plan :=
  match repl.returned with
  | [] => .error (.uncaught "IndexError" "list index out of range")
  | top :: below =>
      let status := optionVal (repl.envelope.get? "status")
      if status.isStr "validation_error" then repl.retry top below
      else if terminalStatuses.any status.isStr then
        .ok (.exit (if status.isStr "workflow_complete" && repl.reader.usedUp then 0 else 1))
      else do
        let active ← repl.active
        repl.present terminal active (← textItem active "id") top below

end Repl

inductive Turn where
  | exit (code : Nat)
  | goOn (repl : Repl)

/-- The loop variables with the response of a call. -/
def Repl.answered (repl : Repl) (envelope : Val) : Repl :=
    ⟨repl.stack, repl.stepId, envelope, repl.reader⟩

def Repl.descended (deployment : Deployment) (repl : Repl) (envelope : Val) : Except Exn Turn := do
  if (optionVal (envelope.get? "status")).isStr "error" then return .exit 1
  let childSid ← textItem envelope "session_id"
  let name ← textItem envelope "workflow_type"
  match deployment.workflows.get? name with
  | none => throw (.uncaught "KeyError" ("'" ++ name ++ "'"))
  | some childWf => return .goOn ⟨⟨childSid, childWf, -1⟩ :: repl.stack, repl.stepId, envelope,
    repl.reader⟩

def Repl.turn (env : Env) (deployment : Deployment) (terminal : Terminal) (repl : Repl) :
    Server Turn := do
  match ← ofExcept (repl.plan terminal) with
  | .exit code => return .exit code
  | .submit repl sessionId stepId content branch =>
      let envelope ← callTool env deployment (.submitStep sessionId stepId content (branch.getD "") "")
      return .goOn (repl.answered envelope)
  | .descend repl sessionId stepId =>
      let envelope ← callTool env deployment (.enterSubWorkflow sessionId stepId)
      ofExcept (repl.descended deployment envelope)

/-- `while True`, for so many turns; the exit code. -/
def replLoop (env : Env) (deployment : Deployment) (terminal : Terminal) : Nat → Repl →
    Server (Option Nat)
  | 0, _ => return none
  | fuel + 1, repl => do
      match ← repl.turn env deployment terminal with
      | .exit code => return some code
      | .goOn repl => replLoop env deployment terminal fuel repl

/-- `start_workflow`, and the root frame. -/
def openRepl (env : Env) (deployment : Deployment) (wf : Workflow) (targetName context : String)
    (reader : Reader) : Server Repl := do
  let envelope ← callTool env deployment (.startWorkflow targetName context)
  let sessionId ← ofExcept (textItem envelope "session_id")
  return ⟨[⟨sessionId, wf, -1⟩], "", envelope, reader⟩

/-- `main` from the loaded app on. -/
def dryRun (env : Env) (deployment : Deployment) (terminal : Terminal) (fuel : Nat)
    (targetName context : String) (reader : Reader) : Server (Option Nat) := do
  match deployment.workflows.get? targetName with
  | none => return some 1
  | some wf =>
      let repl ← openRepl env deployment wf targetName context reader
      replLoop env deployment terminal fuel repl

/-! Turns as steps of a run. -/

/-- A turn that makes the call and goes on. -/
inductive Turns (env : Env) (deployment : Deployment) (terminal : Terminal) : Repl × World → Call →
    Repl × World → Prop
  | submitted {before repl : Repl} {world after : World} {sessionId stepId content : String}
      {branch : Option String} {envelope : Val}
      (plans : before.plan terminal = .ok (.submit repl sessionId stepId content branch))
      (ran : (callTool env deployment (.submitStep sessionId stepId content (branch.getD "") "")).run world =
        (.ok envelope, after)) :
      Turns env deployment terminal (before, world)
        (.submitStep sessionId stepId content (branch.getD "") "")
        (repl.answered envelope, after)
  | descended {before repl next : Repl} {world after : World} {sessionId stepId : String}
      {envelope : Val}
      (plans : before.plan terminal = .ok (.descend repl sessionId stepId))
      (ran : (callTool env deployment (.enterSubWorkflow sessionId stepId)).run world =
        (.ok envelope, after))
      (enters : repl.descended deployment envelope = .ok (.goOn next)) :
      Turns env deployment terminal (before, world) (.enterSubWorkflow sessionId stepId)
        (next, after)

variable {env : Env} {deployment : Deployment} {terminal : Terminal} {repl : Repl} {envelope : Val}

theorem Repl.descended_open {code : Nat}
    (exits : repl.descended deployment envelope = .ok (.exit code)) : code = 1 := by
  unfold descended at exits
  split at exits
  · cases exits
    rfl
  · obtain ⟨childSid, -, exits⟩ := except_bind_ok.mp exits
    obtain ⟨name, -, exits⟩ := except_bind_ok.mp exits
    split at exits <;> cases exits

theorem Repl.wp_turn (repl : Repl) (world : World) :
    Wp (repl.turn env deployment terminal) (fun outcome after =>
      (outcome = .ok (.exit 0) → repl.plan terminal = .ok (.exit 0) ∧ after = world) ∧
        ∀ next, outcome = .ok (.goOn next) →
          ∃ call, Turns env deployment terminal (repl, world) call (next, after))
      world := by
  rw [turn, wp_bind, wp_ofExcept]
  cases plans : repl.plan terminal with
  | error raised => exact ⟨nofun, nofun⟩
  | ok plan =>
      cases plan with
      | exit code =>
          refine ⟨fun same => ?_, nofun⟩
          cases same
          exact ⟨rfl, rfl⟩
      | submit stepping sessionId stepId content branch =>
          dsimp only
          rw [wp_bind]
          unfold Wp
          cases ran : (callTool env deployment (.submitStep sessionId stepId content (branch.getD "") "")).run world with
          | mk outcome after =>
              cases outcome with
              | error raised => exact ⟨nofun, nofun⟩
              | ok envelope =>
                  refine ⟨nofun, fun next same => ?_⟩
                  cases same
                  exact ⟨_, .submitted plans ran⟩
      | descend stepping sessionId stepId =>
          dsimp only
          rw [wp_bind]
          unfold Wp
          cases ran : (callTool env deployment (.enterSubWorkflow sessionId stepId)).run world with
          | mk outcome after =>
              cases outcome with
              | error raised => exact ⟨nofun, nofun⟩
              | ok envelope =>
                  refine ⟨fun same => absurd (descended_open same) (by decide), fun next enters =>
                    ?_⟩
                  exact ⟨_, .descended plans ran enters⟩

theorem wp_replLoop (fuel : Nat) (repl : Repl) (world : World) :
    Wp (replLoop env deployment terminal fuel repl) (fun outcome after => outcome = .ok (some 0) →
      ∃ final, Run (Turns env deployment terminal) (fun _ _ => True) (repl, world) (final, after) ∧
        final.plan terminal = .ok (.exit 0)) world := by
  induction fuel generalizing repl world with
  | zero => exact nofun
  | succ fuel ih =>
      rw [replLoop]
      refine wp_bind_of (repl.wp_turn world) ?_ ?_
      · rintro (code | next) after ⟨exits, goesOn⟩
        · rw [wp_pure]
          intro same
          cases same
          obtain ⟨plans, same⟩ := exits rfl
          subst same
          exact ⟨repl, .refl _, plans⟩
        · obtain ⟨call, turns⟩ := goesOn next rfl
          refine (ih next after).mono ?_
          intro outcome final ended same
          obtain ⟨last, run, plans⟩ := ended same
          exact ⟨last, Run.trans (Run.snoc (Run.refl _) trivial turns) run, plans⟩
      · rintro raised after - same
        cases same

end Megalos
