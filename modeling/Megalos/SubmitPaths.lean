import Megalos.RowChange
import Megalos.Sample

/-!
The two paths of `submit_step` up to the place where they meet: content that passes its
check is committed, on the artifact path after a checkpoint.  From there on the default
branch of a step is followed.
-/

namespace Megalos

open KeyedTable StatefulProgram StatefulProgram.Program

/-- The content passes the check of the path that the step is submitted on. -/
def ContentPasses (env : Env) (step : Step) (content artifactId : String) : Prop :=
  if step.flag "intermediate_artifacts" then artifactPasses env step content artifactId = true
  else validateOutput env content step = .ok none

def keepsCheckpoint (step : Step) (artifactId : String) : Bool :=
  step.flag "intermediate_artifacts" &&
    match (optionVal (step.get? "intermediate_artifacts")).iter with
    | .ok artifacts =>
        match findArtifact artifactId artifacts with
        | .ok (some artifact) => (optionVal (artifact.get? "checkpoint")).truthy
        | _ => false
    | .error _ => false

def checkpointed (env : Env) (world : World) (session : Session) (step : Step)
    (content artifactId : String) : World :=
  if keepsCheckpoint step artifactId then ((storeArtifact env session.sessionId step.id artifactId content).run world).2
  else world

def shownArtifact (step : Step) (artifactId : String) : Option String :=
  if step.flag "intermediate_artifacts" then some artifactId else none

variable {env : Env} {deployment : Deployment} {world : World} {session : Session} {wf : Workflow}
  {idx : Nat} {step : Step} {sessionId stepId content branch artifactId : String}

theorem run_bind_ok {α β : Type} {first : Server α} {next : α → Server β} {state reached : World}
    {value : α} (ran : first.run state = (.ok value, reached)) :
    (first >>= next).run state = (next value).run reached := by
  change (Program.bind first next).run state = _
  simp only [Program.bind, ran]

theorem run_ofExcept_bind {α β : Type} {result : Except Exn α} {next : α → Server β} {state : World}
    {value : α} (is : result = .ok value) :
    (ofExcept result >>= next).run state = (next value).run state :=
  run_bind_ok (by rw [is]; rfl)

theorem run_bind_congr {α β : Type} {first second : Server α} {next : α → Server β}
    {start middle : World} (same : first.run start = second.run middle) :
    (first >>= next).run start = (second >>= next).run middle := by
  change (Program.bind first next).run start = (Program.bind second next).run middle
  simp only [Program.bind, same]

theorem run_rescue_congr {α : Type} {first second : Server α} {handler : Exn → Server α}
    {start middle : World} (same : first.run start = second.run middle) :
    (rescue first handler).run start = (rescue second handler).run middle := by
  simp only [rescue, same]

theorem storeArtifact_ok (found : world.ledger.row session.sessionId = some session) :
    ((storeArtifact env session.sessionId stepId artifactId content).run world).1 = .ok () := by
  have holds : Wp (storeArtifact env session.sessionId stepId artifactId content)
    (fun outcome _ => outcome = .ok ()) world :=
    wp_changeRow_of found fun _ _ _ => rfl
  exact holds

structure OutputPasses (env : Env) (step : Step) (content artifactId : String)
    (artifacts : List Val) (artifact : Val) : Prop where
  listed : (optionVal (step.get? "intermediate_artifacts")).iter = .ok artifacts
  named : artifactId ≠ ""
  chosen : findArtifact artifactId artifacts = .ok (some artifact)
  conforms : ∃ parsed schema, env.loads content = .ok parsed ∧ artifact.item "schema" = .ok schema ∧
    env.iterErrors schema parsed = .ok []
  moves : ((step.get? "output_from").getD (.str "")).isStr artifactId = true

theorem artifactPasses_iff : artifactPasses env step content artifactId = true ↔
    ∃ artifacts artifact, OutputPasses env step content artifactId artifacts artifact := by
  constructor
  · intro passes
    unfold artifactPasses at passes
    split at passes
    · exact nomatch passes
    rename_i artifacts listed
    split at passes
    · exact nomatch passes
    rename_i named
    split at passes
    · rename_i artifact chosen
      split at passes
      · exact nomatch passes
      rename_i parsed loads
      split at passes
      · exact nomatch passes
      rename_i schema declared
      split at passes
      · rename_i clean
        exact ⟨artifacts, artifact, listed, named, chosen, ⟨parsed, schema, loads, declared, clean⟩,
          passes⟩
      · exact nomatch passes
    · exact nomatch passes
  · rintro ⟨artifacts, artifact, passes⟩
    obtain ⟨parsed, schema, loads, declared, clean⟩ := passes.conforms
    simp [artifactPasses, passes.listed, passes.named, passes.chosen, loads, declared, clean,
      passes.moves]

theorem submitArtifact_commits (found : world.ledger.row session.sessionId = some session)
    (declares : step.flag "intermediate_artifacts" = true)
    (passes : artifactPasses env step content artifactId = true) :
    (submitArtifact env deployment sessionId session wf idx step content branch artifactId).run world =
      (commitSubmission env deployment sessionId session wf idx step content branch (some artifactId)).run
        (checkpointed env world session step content artifactId) := by
  obtain ⟨artifacts, artifact, passes⟩ := artifactPasses_iff.mp passes
  obtain ⟨parsed, schema, loads, declared, clean⟩ := passes.conforms
  have keeps : keepsCheckpoint step artifactId =
    (optionVal (artifact.get? "checkpoint")).truthy := by
    simp [keepsCheckpoint, declares, passes.listed, passes.chosen]
  unfold submitArtifact checkpointed
  rw [keeps]
  dsimp only
  rw [run_ofExcept_bind passes.listed]
  rw [if_neg passes.named, run_ofExcept_bind passes.chosen]
  dsimp only
  rw [run_ofExcept_bind (tryLoads_parsed.mpr loads)]
  dsimp only
  rw [run_ofExcept_bind declared, run_ofExcept_bind clean]
  simp only [List.isEmpty_nil, Bool.not_true, Bool.false_eq_true, if_false, passes.moves]
  by_cases asked : (optionVal (artifact.get? "checkpoint")).truthy = true
  · rw [if_pos asked, if_pos asked]
    exact run_bind_ok (Prod.ext (storeArtifact_ok found) rfl)
  · rw [if_neg asked, if_neg asked]

theorem submitPlain_commits (passes : validateOutput env content step = .ok none) :
    (submitPlain env deployment sessionId session wf idx step content branch).run world =
      (commitSubmission env deployment sessionId session wf idx step content branch none).run world := by
  unfold submitPlain
  rw [run_ofExcept_bind passes]

theorem submitResolved_commits (accepts : Accepts world session wf stepId content idx step)
    (found : world.ledger.row session.sessionId = some session)
    (passes : ContentPasses env step content artifactId) :
    (submitResolved env deployment sessionId stepId content branch artifactId session wf).run world =
      (commitSubmission env deployment sessionId session wf idx step content branch (shownArtifact step artifactId)).run
        (checkpointed env world session step content artifactId) := by
  unfold submitResolved
  dsimp only
  rw [accepts.unescalated]
  dsimp only
  rw [if_neg accepts.unfinished, if_neg (not_not.mpr accepts.inOrder),
    if_neg (Nat.not_lt.mpr accepts.fits)]
  rw [run_bind_ok (show (read fun world =>
    world.topFrameFor session.sessionId : Server (Option Frame)).run world =
    (.ok (world.topFrameFor session.sessionId), world) from rfl)]
  rw [accepts.bare]
  dsimp only
  rw [accepts.found]
  dsimp only
  have uncalled : step.get? "call" = none := by simpa [Step.isCall] using accepts.uncalled
  rw [uncalled]
  dsimp only
  unfold ContentPasses at passes
  by_cases declares : step.flag "intermediate_artifacts" = true
  · rw [if_pos declares] at passes ⊢
    rw [submitArtifact_commits found declares passes, shownArtifact, if_pos declares]
  · rw [if_neg declares] at passes ⊢
    rw [submitPlain_commits passes, shownArtifact, if_neg declares, checkpointed, keepsCheckpoint]
    simp [declares]

end Megalos
