import Megalos.DryRunSuccess

/-!
The branch that the operator of a dry run selects, and the branch that the submission
carries which the server accepts in the end.
-/

namespace Megalos

open GuardedRuns KeyedTable StatefulProgram StatefulProgram.Program

variable {env : Env} {deployment : Deployment} {terminal : Terminal} {repl next : Repl}

/-- The operator is asked for the branch of the step, and selects it. -/
def Selects (terminal : Terminal) (repl : Repl) (sessionId stepId choice : String) : Prop :=
  ∃ next content, repl.plan terminal = .ok (.submit next sessionId stepId content (some choice))

/-- The loop after so many submissions of a step that were all refused as invalid. -/
inductive Refused (env : Env) (deployment : Deployment) (terminal : Terminal)
    (first : Repl × World) :
    Nat → Repl × World → Prop
  | unsubmitted : Refused env deployment terminal first 0 first
  | again {count : Nat} {before after : Repl × World} {call : Call}
      (refused : Refused env deployment terminal first count before)
      (turns : Turns env deployment terminal before call after)
      (invalid : after.1.envelope.saysInvalid = true) :
        Refused env deployment terminal first (count + 1) after

/-- After a refusal the loop asks for the content only, and submits it to the frame on top. -/
theorem Repl.plan_retry {plan : Plan} (invalid : repl.envelope.saysInvalid = true)
    (plans : repl.plan terminal = .ok plan) :
    plan = .exit 1 ∨ ∃ next top below content, repl.returned = top :: below ∧
      plan = .submit next top.sessionId repl.stepId content none := by
  unfold Repl.plan at plans
  split at plans
  · cases plans
  rename_i top below stack
  dsimp only at plans
  rw [if_pos (show (optionVal (repl.envelope.get? "status")).isStr "validation_error" = true from invalid)] at plans
  obtain ⟨errors, -, plans⟩ := except_bind_ok.mp plans
  obtain ⟨items, -, plans⟩ := except_bind_ok.mp plans
  split at plans
  · obtain ⟨message, -, plans⟩ := except_bind_ok.mp plans
    exact .inl (Except.ok.inj plans).symm
  · obtain ⟨remaining, -, plans⟩ := except_bind_ok.mp plans
    split at plans
    · exact .inl (Except.ok.inj plans).symm
    · exact .inr ⟨_, top, below, _, stack, (Except.ok.inj plans).symm⟩

def Submitting (terminal : Terminal) (repl : Repl) (sessionId stepId : String)
    (branch : Option String) : Prop :=
  ∀ plan, repl.plan terminal = .ok plan →
    plan = .exit 1 ∨ ∃ next content, plan = .submit next sessionId stepId content branch

theorem Submitting.retried {before after : Repl × World} {call : Call} {sessionId stepId : String}
    {branch : Option String} (sound : before.2.Sound env)
    (submitting : Submitting terminal before.1 sessionId stepId branch)
    (turns : Turns env deployment terminal before call after)
    (invalid : after.1.envelope.saysInvalid = true) :
    after.2.Sound env ∧ Submitting terminal after.1 sessionId stepId none := by
  cases turns with
  | descended plans ran enters =>
      rcases submitting _ plans with same | ⟨next, content, same⟩
      · cases same
      · cases same
  | submitted plans ran =>
      have serves : Serves env _ ⟨deployment, _⟩ _ := ⟨_, ran, nofun⟩
      refine ⟨serves.sound sound, fun plan again => ?_⟩
      have replied := (replies_submitStep sound _ _ _ _).elim ran _ rfl (Val.isError_of_status invalid)
      rcases Repl.plan_acts plans with ⟨same, -⟩ | same | ⟨-, top, below, -, acts⟩
      · cases same
      · cases same
      rcases submitting _ plans with same | ⟨middle, text, same⟩
      · cases same
      cases same
      rcases Repl.plan_retry invalid again with exits | ⟨later, first, rest, content, stack,
        isRetry⟩
      · exact .inl exits
      rw [Repl.returned_unmarked (replied.unmarked invalid)] at stack
      cases acts with
      | submit same named =>
          have heads := same.symm.trans (congrArg (List.map ReplFrame.sessionId) stack)
          rw [List.map_cons, List.map_cons, List.cons.injEq] at heads
          refine .inr ⟨later, content, ?_⟩
          rw [isRetry, heads.1, ← named]
          rfl

theorem Selects.submitting {sessionId stepId choice : String}
    (selects : Selects terminal repl sessionId stepId choice) :
    Submitting terminal repl sessionId stepId (some choice) := by
  obtain ⟨next, content, selected⟩ := selects
  intro plan plans
  rw [selected] at plans
  cases plans
  exact .inr ⟨next, content, rfl⟩

theorem Refused.submitting {first last : Repl × World} {count : Nat}
    {sessionId stepId choice : String} (sound : first.2.Sound env)
    (selects : Selects terminal first.1 sessionId stepId choice)
    (refused : Refused env deployment terminal first count last) :
    last.2.Sound env ∧ Submitting terminal last.1 sessionId stepId (if count =
      0 then some choice else none) := by
  induction refused with
  | unsubmitted => exact ⟨sound, selects.submitting⟩
  | again refused turns invalid ih => exact ih.2.retried ih.1 turns invalid

/-- Every submission of the step up to the accepted one carries the selected branch where it is the
first one, or where the selection is empty as the default of the call is. -/
theorem selection_carried_iff {allowed : World → Request → Prop} {first last after : Repl × World}
    {count : Nat} {call : Call} {sessionId stepId choice : String}
    (reachable : Reachable env allowed first.2)
    (selects : Selects terminal first.1 sessionId stepId choice)
    (refused : Refused env deployment terminal first count last)
    (turns : Turns env deployment terminal last call after) :
    ∃ content branch, call = .submitStep sessionId stepId content branch "" ∧
      (branch = choice ↔ count = 0 ∨ choice = "") := by
  obtain ⟨-, submitting⟩ := refused.submitting reachable.sound selects
  cases turns with
  | descended plans ran enters =>
      rcases submitting _ plans with same | ⟨next, content, same⟩
      · cases same
      · cases same
  | submitted plans ran =>
      rcases submitting _ plans with same | ⟨next, content, same⟩
      · cases same
      cases same
      refine ⟨_, _, rfl, ?_⟩
      by_cases isFirst : count = 0
      · rw [if_pos isFirst]
        exact ⟨fun _ => .inl isFirst, fun _ => rfl⟩
      · rw [if_neg isFirst]
        exact ⟨fun same => .inr same.symm, fun holds => (holds.resolve_left isFirst).symm⟩

theorem openRepl_serves {targetName context : String} {reader : Reader} {wf : Workflow}
    {start world : World}
    (opens : (openRepl env deployment wf targetName context reader).run start = (.ok repl,
      world)) :
    Serves env start ⟨deployment, .startWorkflow targetName context⟩ world := by
  have opening : Wp (openRepl env deployment wf targetName context reader) (fun outcome after =>
      ∀ repl, outcome = .ok repl →
        Serves env start ⟨deployment, .startWorkflow targetName context⟩ after) start := by
    unfold openRepl
    refine wp_bind_of (show Wp _ (fun outcome after =>
      (callTool env deployment (.startWorkflow targetName context)).run
      start = (outcome, after)) start from rfl) ?_ fun _ _ _ => nofun
    intro envelope after ran
    have serves : Serves env start ⟨deployment, .startWorkflow targetName context⟩ after :=
      ⟨_, ran, nofun⟩
    rw [wp_bind, wp_ofExcept]
    cases textItem envelope "session_id" with
    | error raised => exact nofun
    | ok text => exact fun _ _ => serves
  exact opening.elim opens repl rfl

def turned (env : Env) (deployment : Deployment) (terminal : Terminal) (state : Repl × World) :
    Option (Repl × World) :=
  match (state.1.turn env deployment terminal).run state.2 with
  | (.ok (.goOn next), after) => some (next, after)
  | _ => none

theorem turns_of_turned {state after : Repl × World}
    (goesOn : turned env deployment terminal state = some after) :
    ∃ call, Turns env deployment terminal state call after := by
  unfold turned at goesOn
  split at goesOn
  · rename_i next reached ran
    cases goesOn
    exact ((state.1.wp_turn state.2).elim ran).2 next rfl
  · cases goesOn

/-! A dry run of a step with two branches, where one content is valid. -/

def digitEnv : Env := sampleReading [("7", .int 7)]

def branchDoc (target : String) : Val := .obj [("next", .str target), ("condition", .str target)]

def twoWayDocs : List Val := [
  workflowDoc "two-way" [stepDoc "a" [("output_schema", .obj [("type", .str "integer")]),
    ("branches", .list [branchDoc "b", branchDoc "c"]), ("default_branch",
      .str "b")], stepDoc "b" [], stepDoc "c" []]]

def twoWayApp : Deployment := appOf digitEnv twoWayDocs

def twoWay : Workflow := (twoWayApp.workflows.get? "two-way").getD ⟨⟨"", []⟩, [], []⟩

/-- The operator types an invalid content, selects the second branch, and types a valid content. -/
def twoWayOpened : Except Exn Repl × World :=
  (openRepl digitEnv twoWayApp twoWay "two-way" "" (.typed ["seven", "2", "7"])).run World.empty

def selected (terminal : Terminal) (repl : Repl) : Option (String × String × String) :=
  match repl.plan terminal with
  | .ok (.submit _ sessionId stepId _ (some choice)) => some (sessionId, stepId, choice)
  | _ => none

theorem selects_of_selected {sessionId stepId choice : String}
    (selection : selected terminal repl = some (sessionId, stepId, choice)) :
    Selects terminal repl sessionId stepId choice := by
  unfold selected at selection
  split at selection
  · rename_i next session step content branch plans
    cases selection
    exact ⟨next, content, plans⟩
  · cases selection

structure Resubmitted (first last after : Repl × World) (call : Call) : Prop where
  reachable : Reachable digitEnv (fun _ _ => True) first.2
  selects : Selects asciiTerminal first.1 "s" "a" "c"
  refused : Refused digitEnv twoWayApp asciiTerminal first 1 last
  turns : Turns digitEnv twoWayApp asciiTerminal last call after
  accepted : after.1.envelope.isError = false ∧ after.1.envelope.saysInvalid = false
  arrives : (after.2.sessions.lookup (sampleToken 0)).map Session.currentStep = some "b"

theorem resubmitted : ∃ first last after call, Resubmitted first last after call := by
  have ended : (twoWayOpened.1.toOption.bind fun repl => (turned digitEnv twoWayApp asciiTerminal
      (repl, twoWayOpened.2)).bind fun last =>
        (turned digitEnv twoWayApp asciiTerminal last).map fun after =>
        (selected asciiTerminal repl, last.1.envelope.saysInvalid, after.1.envelope.isError,
          after.1.envelope.saysInvalid, (after.2.sessions.lookup (sampleToken 0)).map Session.currentStep)) =
      some (some ("s", "a", "c"), true, false, false, some "b") := by rfl
  rw [Option.bind_eq_some_iff] at ended
  obtain ⟨repl, opened, ended⟩ := ended
  rw [Option.bind_eq_some_iff] at ended
  obtain ⟨last, once, ended⟩ := ended
  rw [Option.map_eq_some_iff] at ended
  obtain ⟨after, twice, facts⟩ := ended
  simp only [Prod.mk.injEq] at facts
  obtain ⟨selection, invalid, plain, valid, arrives⟩ := facts
  obtain ⟨opening, first⟩ := turns_of_turned once
  obtain ⟨call, second⟩ := turns_of_turned twice
  refine ⟨(repl, twoWayOpened.2), last, after, call, ?_⟩
  exact {
    reachable := (Run.refl World.empty).snoc trivial (openRepl_serves (run_of_toOption opened))
    selects := selects_of_selected selection
    refused := .again .unsubmitted first invalid
    turns := second
    accepted := ⟨plain, valid⟩
    arrives := arrives }

theorem selection_carried_once : ∃ first last after call, Resubmitted first last after call ∧
    ∃ content branch, call = .submitStep "s" "a" content branch "" ∧
      (branch = "c" ↔ 1 = 0 ∨ "c" = "") := by
  obtain ⟨first, last, after, call, again⟩ := resubmitted
  exact ⟨first, last, after, call, again,
    selection_carried_iff again.reachable again.selects again.refused again.turns⟩

theorem selection_not_always_carried :
    ¬∀ (env : Env) (deployment : Deployment) (terminal : Terminal)
    (first last after : Repl × World) (count : Nat) (call : Call)
    (sessionId stepId choice : String),
    deployment.Accepted env → Reachable env (fun _ _ => True) first.2 →
      Selects terminal first.1 sessionId stepId choice →
    Refused env deployment terminal first count last →
      Turns env deployment terminal last call after →
    after.1.envelope.isError = false ∧ after.1.envelope.saysInvalid = false →
    ∃ content, call = .submitStep sessionId stepId content choice "" := by
  intro always
  obtain ⟨first, last, after, call, again⟩ := resubmitted
  obtain ⟨content, carried⟩ :=
    always digitEnv twoWayApp asciiTerminal first last after 1 call "s" "a" "c"
    (appOf_accepted (by decide)) again.reachable again.selects again.refused again.turns again.accepted
  obtain ⟨-, submitting⟩ := again.refused.submitting again.reachable.sound again.selects
  have turns := again.turns
  rw [carried] at turns
  generalize isBranch : "c" = branch at turns
  cases turns with
  | submitted plans ran =>
      rcases submitting _ plans with same | ⟨next, content, same⟩
      · cases same
      · cases same
        exact absurd isBranch (by decide)

end Megalos
