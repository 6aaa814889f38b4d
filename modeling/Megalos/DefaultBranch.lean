import Megalos.SubmitPaths

/-!
The default branch of an ordinary step: when a submission that names no branch is sent there.
-/

namespace Megalos

open GuardedRuns KeyedTable StatefulProgram StatefulProgram.Program

/-- A submission without a branch is decided for `target`: once the content is in, it runs on as the
advance to `target`. -/
structure SentTo (env : Env) (deployment : Deployment) (world : World)
    (sessionId stepId content artifactId : String) (session : Session) (wf : Workflow) (idx : Nat)
    (step : Step) (target : Val) : Prop where
  decides : nextStepOf wf idx step none "" = .ok (.goTo target false)
  runs : (submitResolved env deployment sessionId stepId content "" artifactId session wf).run world =
    (advanceSession env deployment sessionId { session with stepData := session.stepData.set step.id content } wf idx step
      (shownArtifact step artifactId) none (session.stepData.set step.id content) target false).run
      (checkpointed env world session step content artifactId)

def DefaultIsBranch (wf : Workflow) (idx : Nat) (step : Step) (default : Val) : Prop :=
  ∃ branches, step.get? "branches" = some (.list branches) ∧
    ((∃ branch ∈ branches, branch.item "next" = .ok default) ∨ branches = [] ∧
      default = .str (wf.following idx))

variable {env : Env} {deployment : Deployment} {world : World} {session : Session} {wf : Workflow}
  {idx : Nat} {step : Step} {sessionId stepId content artifactId : String} {default : Val}

/-- A submission that trips no guardrail and is decided runs on as an advance. -/
theorem commitSubmission_goes {branch : String} {artifact : Option String} {target : Val} {forced : Bool}
    (quiet : firedGuardrail env wf content { session with stepData := session.stepData.set step.id content } step.id =
      .ok none) (goes : nextStepOf wf idx step none branch = .ok (.goTo target forced)) :
    (commitSubmission env deployment sessionId session wf idx step content branch artifact).run world =
      (advanceSession env deployment sessionId { session with stepData := session.stepData.set step.id content } wf idx
        step artifact none (session.stepData.set step.id content) target forced).run world := by
  unfold commitSubmission
  dsimp only
  rw [run_ofExcept_bind quiet]
  rw [run_ofExcept_bind (show (Option.none : Option Val).mapM (fun guardrail =>
    guardrail.item "action") = .ok none from rfl)]
  rw [if_neg (by simp)]
  rw [run_ofExcept_bind (show guardrailWarning none none = .ok none from rfl),
    run_ofExcept_bind goes]

theorem nextStepOf_default {branches targets : List Val}
    (declares : step.get? "branches" = some (.list branches)) (nonempty : branches ≠ [])
    (defaults : step.get? "default_branch" = some default)
    (reads : branches.mapM (·.item "next") = .ok targets) : nextStepOf wf idx step none "" =
      if targets.any default.pyEq then .ok (.goTo default false) else .ok (.invalidBranch default targets) := by
  have branching : step.flag "branches" = true := by
    cases branches with
    | nil => exact absurd rfl nonempty
    | cons first rest => simp [Step.flag, declares, Val.truthy]
  unfold nextStepOf
  simp only [pure, Except.pure, StatefulProgram.ok_bind, branching, if_true, declares, optionVal,
    Option.getD_some, Val.iter, reads, defaults]

theorem nextStepOf_listed (unbranched : step.flag "branches" = false) {branch : String} :
    nextStepOf wf idx step none branch = .ok (.goTo (.str (wf.following idx)) false) := by
  unfold nextStepOf
  simp [pure, Except.pure, unbranched]

theorem targets_of_checked {branches : List Val} (checked : ∀ branch ∈ branches, ∃ target,
    branch.item "next" = .ok (.str target)) : ∃ targets,
      branches.mapM (·.item "next") = .ok targets ∧
      ∀ name, targets.any (Val.str name).pyEq = true ↔ ∃ branch ∈ branches,
        branch.item "next" = .ok (.str name) := by
  induction branches with
  | nil => exact ⟨[], rfl, by simp⟩
  | cons branch rest ih =>
      rw [List.forall_mem_cons] at checked
      obtain ⟨⟨target, next⟩, later⟩ := checked
      obtain ⟨targets, reads, named⟩ := ih later
      refine ⟨.str target :: targets, ?_, ?_⟩
      · simp [List.mapM_cons, next, reads, pure, Except.pure]
      · intro name
        have head : (Val.str name).pyEq (.str target) = true ↔ target = name := by
          rw [Val.pyEq, beq_iff_eq]
          exact eq_comm
        simp only [List.any_cons, Bool.or_eq_true, head, named, List.mem_cons, exists_eq_or_imp,
          next, Except.ok.injEq, Val.str.injEq]

/-- The default branch of a step can be taken exactly when it is one of the branches. -/
theorem default_taken_iff (accepted : deployment.Accepted env)
    (submits : Submits env deployment world sessionId stepId content session wf idx step)
    (ordinary : step.isMcpToolCall = false) (branching : (step.get? "branches").isSome = true)
    (defaults : step.get? "default_branch" = some default) (passes : ContentPasses env step content artifactId)
    (quiet : firedGuardrail env wf content { session with stepData := session.stepData.set step.id content } step.id =
      .ok none) :
    SentTo env deployment world sessionId stepId content artifactId session wf idx step default ↔
      DefaultIsBranch wf idx step default := by
  have checked := accepted.checked submits.resolves.loaded
  have member := findStep_mem submits.accepts.found
  obtain ⟨value, declares⟩ := Option.isSome_iff_exists.mp branching
  obtain ⟨branches, rfl, each⟩ := checked.branchTargets step member ordinary value declares
  obtain ⟨name, rfl, -⟩ := checked.defaultTarget step member ordinary default defaults
  have row : world.ledger.row session.sessionId = some session := by
    rw [submits.resolves.sessionId_eq]
    exact submits.resolves.row
  have sent : nextStepOf wf idx step none "" = .ok (.goTo (.str name) false) →
      SentTo env deployment world sessionId stepId content artifactId session wf idx step (.str name) := by
    intro decides
    refine ⟨decides, ?_⟩
    rw [submitResolved_commits submits.accepts row passes, commitSubmission_goes quiet decides]
  by_cases empty : branches = []
  · subst empty
    have listed : nextStepOf wf idx step none "" = .ok (.goTo (.str (wf.following idx)) false) :=
      nextStepOf_listed (by simp [Step.flag, declares, Val.truthy])
    constructor
    · rintro ⟨decides, -⟩
      rw [listed] at decides
      simp only [Except.ok.injEq, NextStep.goTo.injEq, and_true] at decides
      exact ⟨[], declares, .inr ⟨rfl, decides.symm⟩⟩
    · rintro ⟨others, same, ⟨branch, inBranches, -⟩ | ⟨-, isNext⟩⟩
      · rw [declares, Option.some.injEq, Val.list.injEq] at same
        rw [← same] at inBranches
        exact nomatch inBranches
      · exact sent (listed.trans (by rw [isNext]))
  · obtain ⟨targets, reads, named⟩ := targets_of_checked fun branch inBranches =>
      (each branch inBranches).imp fun _ found => found.1
    have decision : nextStepOf wf idx step none "" = _ :=
      nextStepOf_default declares empty defaults reads
    constructor
    · rintro ⟨decides, -⟩
      rw [decision] at decides
      split at decides
      · rename_i isTarget
        exact ⟨branches, declares, .inl ((named name).mp isTarget)⟩
      · exact nomatch decides
    · rintro ⟨others, same, isBranch | ⟨none, -⟩⟩
      · rw [declares, Option.some.injEq, Val.list.injEq] at same
        rw [← same] at isBranch
        exact sent (decision.trans (if_pos ((named name).mpr isBranch)))
      · rw [declares, Option.some.injEq, Val.list.injEq] at same
        exact absurd (same.trans none) empty

/-- A step with one branch, to `b`, and the given default. -/
def forkDocs (default : String) : List Val := [workflowDoc "fork" [
  stepDoc "a" [("branches", .list [.obj [("next", .str "b"), ("condition", .str "fine")]]),
    ("default_branch", .str default)],
  stepDoc "b" [], stepDoc "c" []]]

def forked (default : String) : World :=
  serveAll sampleEnv (appOf sampleEnv (forkDocs default)) World.empty [.startWorkflow "fork" ""]

theorem fork_taken : ∃ session wf idx step,
    SentTo sampleEnv (appOf sampleEnv (forkDocs "b")) (forked "b") "s" "a" "one" "" session wf idx step (.str "b") := by
  obtain ⟨⟨session, wf, idx, step⟩, found⟩ := Option.isSome_iff_exists.mp
    (show (submission? sampleEnv (appOf sampleEnv (forkDocs "b")) (forked "b") "s" "a" "one").isSome = true by rfl)
  have facts : (submission? sampleEnv (appOf sampleEnv (forkDocs "b")) (forked "b") "s" "a" "one").map (fun found =>
      (found.2.2.2.isMcpToolCall, found.2.2.2.get? "branches", found.2.2.2.get? "default_branch",
        found.2.2.2.flag "intermediate_artifacts", found.2.2.2.flag "output_schema", found.2.1.get? "guardrails")) =
      some (false, some (.list [.obj [("next", .str "b"), ("condition", .str "fine")]]),
        some (.str "b"), false, false, none) := by
    rfl
  rw [found, Option.map_some, Option.some.injEq] at facts
  simp only [Prod.mk.injEq] at facts
  obtain ⟨ordinary, branches, defaults, plain, unchecked, bare⟩ := facts
  refine ⟨session, wf, idx, step,
    (default_taken_iff (appOf_accepted (by decide)) (Submits.of_submission found) ordinary
    (by rw [branches]; rfl) defaults ?_ ?_).mpr ⟨_, branches, .inl ⟨_, List.mem_cons_self, rfl⟩⟩⟩
  · simp [ContentPasses, plain, validateOutput, unchecked]
  · simp [firedGuardrail, bare, Val.truthy, pure, Except.pure]

/-- The step's own default is refused as an invalid branch. -/
theorem not_always_default : ¬∀ (env : Env) (deployment : Deployment) (world : World)
    (sessionId stepId content artifactId : String) (session : Session) (wf : Workflow) (idx : Nat)
    (step : Step) (default : Val),
    deployment.Accepted env → ServedBy env deployment world →
    Submits env deployment world sessionId stepId content session wf idx step →
      step.isMcpToolCall = false →
    (step.get? "branches").isSome = true → step.get? "default_branch" = some default →
    ContentPasses env step content artifactId →
    firedGuardrail env wf content { session with stepData := session.stepData.set step.id content } step.id = .ok none →
    SentTo env deployment world sessionId stepId content artifactId session wf idx step default := by
  intro always
  obtain ⟨⟨session, wf, idx, step⟩, found⟩ := Option.isSome_iff_exists.mp
    (show (submission? sampleEnv (appOf sampleEnv (forkDocs "c")) (forked "c") "s" "a" "one").isSome = true by rfl)
  have facts : (submission? sampleEnv (appOf sampleEnv (forkDocs "c")) (forked "c") "s" "a" "one").map (fun found =>
      (found.2.2.2.isMcpToolCall, found.2.2.2.get? "branches", found.2.2.2.get? "default_branch",
        found.2.2.2.flag "intermediate_artifacts", found.2.2.2.flag "output_schema", found.2.1.get? "guardrails")) =
      some (false, some (.list [.obj [("next", .str "b"), ("condition", .str "fine")]]),
        some (.str "c"), false, false, none) := by
    rfl
  rw [found, Option.map_some, Option.some.injEq] at facts
  simp only [Prod.mk.injEq] at facts
  obtain ⟨ordinary, branches, defaults, plain, unchecked, bare⟩ := facts
  have sent := always sampleEnv _ _ "s" "a" "one" "" session wf idx step _ (appOf_accepted (by decide))
    (serveAll_served (by rfl))
      (Submits.of_submission found) ordinary (by rw [branches]; rfl) defaults
    (by simp [ContentPasses, plain, validateOutput, unchecked])
    (by simp [firedGuardrail, bare, Val.truthy, pure, Except.pure])
  have reads : [Val.obj [("next", .str "b"), ("condition", .str "fine")]].mapM (·.item "next") =
    .ok [.str "b"] := by rfl
  have decision : nextStepOf wf idx step none "" = _ :=
    nextStepOf_default branches (by simp) defaults reads
  rw [sent.decides] at decision
  exact nomatch decision

end Megalos
