import Megalos.Diagram
import Megalos.Sample
import Megalos.Storing
import Megalos.Waiting

/-!
The diagram of a workflow against the moves of its sessions: every move follows the solid
edges, but for a step with branches that is skipped and falls through to the next step.
-/

namespace Megalos

open GuardedRuns KeyedTable Relation

def Workflow.Unguarded (wf : Workflow) : Prop :=
  ∀ guardrails items, wf.get? "guardrails" = some guardrails → guardrails.iter = .ok items →
    items = []

/-- Validation does not look at the default branch of an `mcp_tool_call` step, and an empty one is
not drawn. -/
def Workflow.TextDefaults (wf : Workflow) : Prop :=
  ∀ step ∈ wf.steps, ∀ value, step.get? "default_branch" = some value → ∃ text, value = .str text ∧
    text ≠ ""

/-- The edge that the renderer leaves out: from a step with branches and a precondition to the next
one. -/
def Workflow.FallsThrough (wf : Workflow) (source target : String) : Prop :=
  ∃ idx step next, wf.steps[idx]? = some step ∧ step.flag "branches" = true ∧
    step.precondition.isSome = true ∧
    wf.steps[idx + 1]? = some next ∧ step.id = source ∧ next.id = target

/-- A session moves by a submission, its own or that of its child, or it is created and advances by
itself. -/
inductive PointerMove (env : Env) (deployment : Deployment) (wf : Workflow) (before after : World) :
    Call → String → String → Prop
  | submitted {sessionId stepId content branch artifactId : String} {sid : SessionId}
      {row new : Session}
      (resolves : Resolves deployment before.ledger sid row wf)
      (found : after.sessions.lookup sid = some new) :
      PointerMove env deployment wf before after (.submitStep sessionId stepId content branch artifactId)
        row.currentStep new.currentStep
  | started {workflowType context : String} {new : Session}
      (loaded : deployment.workflows.get? workflowType = some wf)
      (found : after.sessions.lookup (env.token before.minted) = some new) :
      PointerMove env deployment wf before after (.startWorkflow workflowType context) wf.first.id new.currentStep

variable {env : Env} {deployment : Deployment} {registry : Option Registry} {world after : World}
  {wf : Workflow} {lines : List DiagramLine} {idx calls : Nat} {step : Step} {pointer next : Val}
  {source target : String} {data : StepData}

section Path

def Drawn (edges : String → String → Prop) (source : String) (pointer : Val) : Prop :=
  ∃ text, pointer = .str text ∧ (text = complete ∨ ReflTransGen edges source text)

variable {edges : String → String → Prop}

theorem Drawn.follows (path : ReflTransGen edges source step.id)
    (leads : ∀ next, wf.steps[idx + 1]? = some next → edges step.id next.id) :
    Drawn edges source (.str (wf.following idx)) := by
  refine ⟨_, rfl, ?_⟩
  unfold Workflow.following
  split
  · rename_i next isNext
    exact .inr (path.tail (leads next isNext))
  · exact .inl rfl

theorem Drawn.path (drawn : Drawn edges source pointer)
    (unfinished : pointer.isStr complete = false) (at_ : findStep wf pointer = some (idx, step)) :
    ReflTransGen edges source step.id := by
  obtain ⟨text, rfl, atEnd | path⟩ := drawn
  · simp [atEnd] at unfinished
  · rw [← Val.str.inj (findStep_spec at_).2]
    exact path

end Path

def Workflow.Edges (wf : Workflow) (lines : List DiagramLine) (source target : String) : Prop :=
  (source, target) ∈ solidEdges lines ∨ wf.FallsThrough source target

/-! One move of the pointer at a time. -/

theorem Drawn.unbranched (renders : wf.diagram env = .ok lines) (there : wf.steps[idx]? = some step)
    (plain : step.flag "branches" = false) (path : ReflTransGen (wf.Edges lines) source step.id) :
    Drawn (wf.Edges lines) source (.str (wf.following idx)) :=
  Drawn.follows path fun _ isNext => .inl (Workflow.linear_drawn renders there plain isNext)

theorem Drawn.default (renders : wf.diagram env = .ok lines) (texts : wf.TextDefaults)
    (there : wf.steps[idx]? = some step) (branched : step.flag "branches" = true)
    (path : ReflTransGen (wf.Edges lines) source step.id) {value : Val}
    (declared : step.get? "default_branch" = some value) :
    Drawn (wf.Edges lines) source value := by
  obtain ⟨text, rfl, nonempty⟩ := texts step (List.mem_of_getElem? there) value declared
  exact ⟨text, rfl, .inr (path.tail (.inl ((Workflow.branches_drawn renders there branched).2 text declared nonempty)))⟩

theorem Drawn.skip (renders : wf.diagram env = .ok lines) {forced : Bool} {skipped : List String}
    (skips : applySkipLoop env pointer wf data forced = .ok (next, skipped))
    (drawn : Drawn (wf.Edges lines) source pointer) :
    Drawn (wf.Edges lines) source next := by
  refine applySkipLoop_rule (Drawn (wf.Edges lines) source) ?_ skips drawn
  intro last idx step holds unfinished at_ guarded
  have there := (findStep_spec at_).1
  have path := holds.path unfinished at_
  cases branched : step.flag "branches" with
  | false => exact Drawn.unbranched renders there branched path
  | true =>
      refine Drawn.follows path fun next isNext => .inr ?_
      exact ⟨idx, step, next, there, branched, guarded, isNext, rfl, rfl⟩

theorem Drawn.run (renders : wf.diagram env = .ok lines) (texts : wf.TextDefaults)
    (drawn : Drawn (wf.Edges lines) source pointer) (unfinished : pointer.isStr complete = false)
    (at_ : findStep wf pointer = some (idx, step)) :
    Drawn (wf.Edges lines) source (afterMcpStep wf idx step) := by
  have there := (findStep_spec at_).1
  have path := drawn.path unfinished at_
  unfold afterMcpStep
  split
  · rename_i branched
    cases declared : step.get? "default_branch" with
    | none => exact ⟨complete, rfl, .inl rfl⟩
    | some value => exact Drawn.default renders texts there branched path declared
  · rename_i unbranched
    exact Drawn.unbranched renders there (by simpa using unbranched) path

theorem Drawn.autoRun {fuel : Nat} {advance : Advance} (renders : wf.diagram env = .ok lines)
    (texts : wf.TextDefaults) (ran : autoRun env registry wf fuel calls pointer data = .ok advance)
    (drawn : Drawn (wf.Edges lines) source pointer) :
    advance.Rests fun last _ => Drawn (wf.Edges lines) source last :=
  autoRun_rule (fun last _ => Drawn (wf.Edges lines) source last)
    (fun drawn unfinished at_ _ _ => drawn.run renders texts unfinished at_)
    (fun drawn skips => drawn.skip renders skips) ran drawn

theorem Drawn.skipAndRun {forced : Bool} {advance : Advance} (renders : wf.diagram env = .ok lines)
    (texts : wf.TextDefaults)
    (ran : skipAndRun env registry wf calls pointer data forced = .ok advance)
    (drawn : Drawn (wf.Edges lines) source pointer) :
    advance.Rests fun last _ => Drawn (wf.Edges lines) source last :=
  skipAndRun_rule (fun last _ => Drawn (wf.Edges lines) source last)
    (fun drawn unfinished at_ _ _ => drawn.run renders texts unfinished at_)
    (fun drawn skips => drawn.skip renders skips) ran drawn

theorem Drawn.submit {branch : String} {forced : Bool} (renders : wf.diagram env = .ok lines)
    (texts : wf.TextDefaults) (there : wf.steps[idx]? = some step)
    (goes : nextStepOf wf idx step none branch = .ok (.goTo next forced)) :
    Drawn (wf.Edges lines) step.id next := by
  rcases nextStepOf_unforced goes with ⟨unbranched, rfl⟩ | ⟨branched, chosen, items, iterates,
    along⟩
  · exact Drawn.unbranched renders there unbranched .refl
  have isText : ∃ text, next = .str text := by
    rcases chosen with rfl | rfl
    · exact ⟨branch, rfl⟩
    · cases declared : step.get? "default_branch" with
      | none => exact ⟨"", rfl⟩
      | some value =>
          obtain ⟨text, rfl, -⟩ := texts step (List.mem_of_getElem? there) value declared
          exact ⟨text, rfl⟩
  obtain ⟨text, rfl⟩ := isText
  obtain ⟨option, isOption, named⟩ := along text rfl
  refine ⟨text, rfl, .inr (ReflTransGen.single (.inl ?_))⟩
  exact (Workflow.branches_drawn renders there branched).1 items iterates option isOption text named

theorem Drawn.deliver (renders : wf.diagram env = .ok lines) (texts : wf.TextDefaults)
    (there : wf.steps[idx]? = some step) (goes : afterCallStep wf idx step = .ok next) :
    Drawn (wf.Edges lines) step.id next := by
  unfold afterCallStep at goes
  split at goes
  · rename_i branched
    unfold Step.item fieldItem at goes
    split at goes
    · rename_i value declared
      cases goes
      exact Drawn.default renders texts there branched .refl declared
    · cases goes
  · rename_i unbranched
    cases goes
    exact Drawn.unbranched renders there (by simpa using unbranched) .refl

/-! The moves of a session. -/

/-- The new pointer is at the end, or on a path from the old one. -/
def Session.Travels (edges : String → String → Prop) (old new : Session) : Prop :=
  new.currentStep = complete ∨ ReflTransGen edges old.currentStep new.currentStep

theorem Session.Travels.of_counted {edges : String → String → Prop} {old new : Session}
    (counts : old.Counted new) :
    old.Travels edges new := by
  rw [Travels, counts.currentStep_eq]
  exact .inr .refl

theorem Applies.travels {edges : String → String → Prop} {old new : Session}
    {result : Except Exn Advance} (applies : Applies env result old new)
    (rests : ∀ advance, result = .ok advance → advance.Rests fun last _ =>
      Drawn edges old.currentStep last) :
    old.Travels edges new := by
  rcases applies.cases with ⟨-, counts⟩ | ⟨advance, last, text, data, isResult, resting, column,
    moved⟩
  · exact .of_counted counts
  · obtain ⟨stored, rfl, path⟩ := rests advance isResult last data resting
    cases column
    rw [Session.Travels, moved.currentStep_eq]
    exact path

theorem firedGuardrail_unguarded {content stepId : String} {session : Session} {fired : Option Val}
    (unguarded : wf.Unguarded) (fires : firedGuardrail env wf content session stepId = .ok fired) :
    fired = none := by
  cases fired with
  | none => rfl
  | some guardrail =>
      obtain ⟨guardrails, items, declared, iterates, isOne⟩ := firedGuardrail_mem fires
      rw [unguarded guardrails items declared iterates] at isOne
      cases isOne

theorem RowChange.travels {ledger : Ledger} {sessionId stepId content branch artifactId : String}
    {row new : Session} (renders : wf.diagram env = .ok lines) (unguarded : wf.Unguarded)
    (texts : wf.TextDefaults)
    (resolves : Resolves deployment world.ledger row.sessionId row wf)
    (change : RowChange env deployment world ledger (.submitStep sessionId stepId content branch artifactId) row new) :
    row.Travels (wf.Edges lines) new := by
  cases change with
  | counted counts => exact .of_counted counts
  | marked stale marks =>
      obtain ⟨fingerprint, live, changed⟩ := stale.changed
      exact absurd (resolves.unchanged fingerprint live) changed
  | escalated submits framed owner cause escalates =>
      rw [Session.Travels, escalates.currentStep_eq]
      exact .inr .refl
  | @submitted _ _ _ _ _ _ _ otherWf idx step submits changes =>
      have again := submits.resolves
      rw [← again.sessionId_eq] at again
      obtain ⟨-, rfl⟩ := again.unique resolves
      have isStep : row.currentStep = step.id :=
        submits.accepts.inOrder ▸ Val.str.inj (findStep_spec submits.accepts.found).2
      cases verdict : verdictOf env deployment.registry world.outbound.length row otherWf idx step content branch
        artifactId with
      | kept =>
          rw [verdict] at changes
          exact .of_counted changes
      | retriesExhausted =>
          rw [verdict] at changes
          exact .of_counted changes
      | escalated =>
          rw [verdict] at changes
          rw [Session.Travels, changes.currentStep_eq]
          exact .inr .refl
      | advanced advance =>
          rw [verdict] at changes
          obtain ⟨fired, next, forced, guarded, goes, ran⟩ := verdictOf_advanced verdict
          obtain rfl := firedGuardrail_unguarded unguarded guarded
          refine Applies.travels changes fun other same => ?_
          cases same
          rw [isStep]
          exact (Drawn.submit renders texts (findStep_spec submits.accepts.found).1 goes).skipAndRun renders texts ran
  | delivered submits reached atEnd framed called owner again at_ isCall valid applies gone =>
      obtain ⟨-, rfl⟩ := again.unique resolves
      have isStep := Val.str.inj (findStep_spec at_).2
      refine applies.travels fun advance advanced => ?_
      unfold parentAdvance at advanced
      split at advanced
      · cases advanced
      · rename_i next goes
        rw [isStep]
        exact (Drawn.deliver renders texts (findStep_spec at_).1 goes).skipAndRun renders texts advanced

theorem RowBirth.travels {workflowType context : String} {new : Session}
    (renders : wf.diagram env = .ok lines) (texts : wf.TextDefaults)
    (loaded : deployment.workflows.get? workflowType = some wf)
    (birth : RowBirth env deployment world (.startWorkflow workflowType context) new) :
    new.currentStep = complete ∨ ReflTransGen (wf.Edges lines) wf.first.id new.currentStep := by
  cases birth with
  | started again opened =>
      obtain rfl := Option.some.inj (again.symm.trans loaded)
      rcases opened with applies | ⟨-, counts⟩
      · exact applies.travels fun advance ran =>
          Drawn.autoRun renders texts ran ⟨_, rfl, .inr .refl⟩
      · exact Session.Travels.of_counted counts
  | spawned above => cases above

/-- The solid edges, and the edges from skipped steps with branches to the next one, lead wherever a
session goes. -/
theorem diagram_covers {allowed : World → Request → Prop} {call : Call} {stem : String}
    {raw doc : Val} (reachable : Reachable env allowed world)
    (serves : Serves env world ⟨deployment, call⟩ after)
    (loaded : loadWorkflow env deployment.registry stem raw = .ok doc)
    (loads : Workflow.load doc = some wf)
    (renders : render env stem raw = .ok (some lines)) (unguarded : wf.Unguarded)
    (texts : wf.TextDefaults)
    (moves : PointerMove env deployment wf world after call source target)
    (unfinished : target ≠ complete) :
    ReflTransGen (fun source target => (source, target) ∈ solidEdges lines ∨
      wf.FallsThrough source target)
      source target := by
  have drawn := render_loaded loaded loads renders
  have sound := reachable.sound
  cases moves with
  | submitted resolves found =>
      rcases serves.rowEffect sound found with ⟨row, there, change⟩ | ⟨fresh, -⟩
      · obtain rfl := Option.some.inj (there.symm.trans resolves.row)
        rw [← resolves.sessionId_eq] at resolves
        exact (change.travels drawn unguarded texts resolves).resolve_left unfinished
      · exact absurd (fresh ▸ sound.rowIssued resolves.row) Issued.not_next
  | started isLoaded found =>
      rcases serves.rowEffect sound found with ⟨row, there, -⟩ | ⟨-, birth⟩
      · exact absurd (sound.rowIssued there) Issued.not_next
      · exact (birth.travels drawn texts isLoaded).resolve_left unfinished

/-! Moves that leave the solid edges: over a skipped step with branches, and along a default branch
that is no text. -/

/-- The claim of the diagram, for the workflows that meet a condition. -/
def DiagramCovers (condition : Workflow → Prop) : Prop :=
  ∀ (env : Env) (deployment : Deployment) (world after : World) (call : Call) (stem : String)
    (raw doc : Val)
    (wf : Workflow) (lines : List DiagramLine) (source target : String),
    deployment.Accepted env → Reachable env (fun _ _ => True) world →
      Serves env world ⟨deployment, call⟩ after →
    loadWorkflow env deployment.registry stem raw = .ok doc → Workflow.load doc = some wf →
    render env stem raw = .ok (some lines) → wf.Unguarded → condition wf →
    PointerMove env deployment wf world after call source target → target ≠ complete →
    ReflTransGen (fun source target => (source, target) ∈ solidEdges lines) source target

theorem PointerMove.of_submission {sessionId stepId content branch : String}
    (found : (submission? env deployment world sessionId stepId content).map (fun found =>
      (found.1.currentStep, found.2.1)) =
      some (source, wf))
    (arrives : (after.sessions.lookup (env.normalizeSessionId sessionId)).map Session.currentStep =
      some target) :
    PointerMove env deployment wf world after (.submitStep sessionId stepId content branch "") source target := by
  obtain ⟨⟨session, other, idx, step⟩, passes, same⟩ := Option.map_eq_some_iff.mp found
  obtain ⟨new, isNew, isTarget⟩ := Option.map_eq_some_iff.mp arrives
  cases same
  rw [← isTarget]
  exact .submitted (Submits.of_submission passes).resolves isNew

theorem not_reached {edges : List (String × String)} {inside : List String}
    (closed : edges.all (fun edge => !inside.contains edge.1 || inside.contains edge.2) = true)
    (starts : source ∈ inside) (outside : target ∉ inside) :
    ¬ReflTransGen (fun source target => (source, target) ∈ edges) source target := by
  intro path
  refine outside ?_
  clear outside
  induction path with
  | refl => exact starts
  | tail path edge ih =>
      have stays := List.all_eq_true.mp closed _ edge
      simpa [ih] using stays

def loadedDoc (raw : Val) : Val :=
    ((loadWorkflow sampleEnv (some sampleRegistry) "sample" raw).toOption).getD .none

def loadedWorkflow (raw : Val) : Workflow := (Workflow.load (loadedDoc raw)).getD ⟨⟨"", []⟩, [], []⟩

def drawnLines (raw : Val) : List DiagramLine :=
    (((loadedWorkflow raw).diagram sampleEnv).toOption).getD []

/-- The second step is skipped as the first one is answered otherwise. -/
def modeDoc : Val := workflowDoc "mode" [stepDoc "a" [], stepDoc "b" [
  ("precondition", .obj [("when_equals", .obj [("ref", .str "step_data.a"), ("value", .str "x")])]),
  ("branches", .list [.obj [("next", .str "a"), ("condition", .str "again")]]), ("default_branch",
    .str "a")], stepDoc "c" []]

/-- The server goes on from the step it runs to the step with the id `0`. -/
def zeroDoc : Val := workflowDoc "zero" [stepDoc "0" [], stepDoc "a" [], mcpDoc "m" [
  ("branches", .list [.obj [("next", .str "a"), ("condition", .str "again")]]), ("default_branch",
    .int 0)]]

/-- The session moves on from `a` when content is submitted for it. -/
structure Sampled (raw : Val) (world after : World) (target : String) : Prop where
  accepted : (appOf sampleEnv [raw]).Accepted sampleEnv
  reachable : Reachable sampleEnv (fun _ _ => True) world
  serves : Serves sampleEnv world ⟨appOf sampleEnv [raw], .submitStep "s" "a" "one" "" ""⟩ after
  loaded : loadWorkflow sampleEnv (appOf sampleEnv [raw]).registry "sample" raw =
    .ok (loadedDoc raw)
  loads : Workflow.load (loadedDoc raw) = some (loadedWorkflow raw)
  named : ((raw.get? "name").getD .none).printable = true
  drawn : (loadedWorkflow raw).diagram sampleEnv = .ok (drawnLines raw)
  unguarded : (loadedWorkflow raw).Unguarded
  moves : PointerMove sampleEnv (appOf sampleEnv [raw])
    (loadedWorkflow raw) world after (.submitStep "s" "a" "one" "" "")
    "a" target
  unfinished : target ≠ complete

theorem Sampled.refutes {condition : Workflow → Prop} {raw : Val}
    (sampled : Sampled raw world after target) (meets : condition (loadedWorkflow raw))
    {inside : List String} (starts : "a" ∈ inside) (outside : target ∉ inside)
    (closed : (solidEdges (drawnLines raw)).all (fun edge =>
      !inside.contains edge.1 || inside.contains edge.2) = true) :
    ¬DiagramCovers condition := by
  intro covers
  refine not_reached closed starts outside ?_
  exact covers _ _ _ _ _ _ _ _ _ _ _ _ sampled.accepted sampled.reachable sampled.serves sampled.loaded sampled.loads
    (render_of_diagram sampled.loaded sampled.loads sampled.named sampled.drawn) sampled.unguarded meets sampled.moves
    sampled.unfinished

theorem Workflow.unguarded_of_none (bare : wf.get? "guardrails" = none) : wf.Unguarded := by
  intro guardrails items declared
  rw [bare] at declared
  cases declared

def modeWorld : World :=
    serveAll sampleEnv (appOf sampleEnv [modeDoc]) World.empty [.startWorkflow "mode" ""]

def modeAfter : World :=
    serveAll sampleEnv (appOf sampleEnv [modeDoc]) modeWorld [.submitStep "s" "a" "one" "" ""]

theorem modeSampled : Sampled modeDoc modeWorld modeAfter "c" where
  accepted := appOf_accepted (Nat.succ_ne_zero 0)
  reachable := serveAll_run (by rfl) ⟨trivial, trivial⟩
  serves := serves_of_ends (by rfl)
  loaded := by rfl
  loads := by rfl
  named := by rfl
  drawn := by rfl
  unguarded := Workflow.unguarded_of_none (by rfl)
  moves := .of_submission (by rfl) (by rfl)
  unfinished := by decide

theorem modeTexts : (loadedWorkflow modeDoc).TextDefaults := by
  have defaults : (loadedWorkflow modeDoc).steps.map (fun step => step.get? "default_branch") =
    [none, some (.str "a"), none] := by rfl
  intro step member value declared
  have listed : some value ∈ [none, some (.str "a"), none] := by
    rw [← defaults, ← declared]
    exact List.mem_map_of_mem member
  simp only [List.mem_cons, reduceCtorEq, Option.some.injEq, List.not_mem_nil, or_false,
    false_or] at listed
  exact ⟨"a", listed, by decide⟩

def zeroWorld : World :=
    serveAll sampleEnv (appOf sampleEnv [zeroDoc]) World.empty [.startWorkflow "zero" "",
  .submitStep "s" "0" "one" "" ""]

def zeroAfter : World :=
    serveAll sampleEnv (appOf sampleEnv [zeroDoc]) zeroWorld [.submitStep "s" "a" "one" "" ""]

theorem zeroSampled : Sampled zeroDoc zeroWorld zeroAfter "0" where
  accepted := appOf_accepted (Nat.succ_ne_zero 0)
  reachable := serveAll_run (by rfl) ⟨trivial, trivial, trivial⟩
  serves := serves_of_ends (by rfl)
  loaded := by rfl
  loads := by rfl
  named := by rfl
  drawn := by rfl
  unguarded := Workflow.unguarded_of_none (by rfl)
  moves := .of_submission (by rfl) (by rfl)
  unfinished := by decide

theorem zero_not_fallsThrough : ¬(loadedWorkflow zeroDoc).FallsThrough source target := by
  rintro ⟨idx, step, next, there, -, guarded, -⟩
  have unguarded : (loadedWorkflow zeroDoc).steps.map (fun step => step.precondition.isSome) =
    [false, false, false] := by rfl
  have listed : true ∈ [false, false, false] := by
    rw [← unguarded, ← guarded]
    exact List.mem_map_of_mem (List.mem_of_getElem? there)
  simp at listed

theorem diagram_covers_mode :
    ReflTransGen (fun source target => (source, target) ∈ solidEdges (drawnLines modeDoc) ∨
    (loadedWorkflow modeDoc).FallsThrough source target) "a" "c" :=
  diagram_covers modeSampled.reachable modeSampled.serves modeSampled.loaded modeSampled.loads
    (render_of_diagram modeSampled.loaded modeSampled.loads modeSampled.named modeSampled.drawn)
    modeSampled.unguarded modeTexts modeSampled.moves modeSampled.unfinished

/-- Neither condition of the theorem is enough for the solid edges alone. -/
theorem diagram_not_always_covers :
    ¬DiagramCovers (fun _ => True) ∧ ¬DiagramCovers Workflow.TextDefaults ∧
    ¬DiagramCovers fun wf => ∀ source target, ¬wf.FallsThrough source target := by
  have modeClosed : (solidEdges (drawnLines modeDoc)).all
    (fun edge => !(["a", "b"].contains edge.1) || ["a", "b"].contains edge.2) = true := by rfl
  have zeroClosed : (solidEdges (drawnLines zeroDoc)).all
    (fun edge => !(["a", "m"].contains edge.1) || ["a", "m"].contains edge.2) = true := by rfl
  refine ⟨?_, ?_, ?_⟩
  · exact modeSampled.refutes trivial (by decide) (by decide) modeClosed
  · exact modeSampled.refutes modeTexts (by decide) (by decide) modeClosed
  · exact zeroSampled.refutes (fun _ _ => zero_not_fallsThrough) (by decide) (by decide) zeroClosed

end Megalos
