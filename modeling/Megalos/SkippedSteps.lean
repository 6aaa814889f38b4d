import Megalos.PassedOver
import Megalos.Predicates

/-!
The steps that `get_state` reports as skipped: what a precondition depends on, when the pass down
the list
finds a step, and where the list stands in the answer.
-/

namespace Megalos

open GuardedRuns KeyedTable StatefulProgram StatefulProgram.Program

def Unmet (env : Env) (data : StepData) (skipped : List String) (step : Step) : Prop :=
  ∃ pc, step.precondition = some pc ∧
    (evaluatePrecondition env pc data skipped step.id = .ok false ∨
    ∃ sid referencing, evaluatePrecondition env pc data skipped step.id =
      .error (.skippedPredecessor sid referencing))

/-- The answer names the step among the skipped ones. -/
def ListsSkipped (response : Val) (stepId : String) : Prop :=
  ∃ ids, response.get? "skipped_steps" = some (.list ids) ∧ .str stepId ∈ ids

def ReportsSkipped (env : Env) (deployment : Deployment) (ledger : Ledger) (sid : SessionId)
    (response : Val) : Prop :=
  response.isError = true ∨ ∃ session wf skipped, Resolves deployment ledger sid session wf ∧
    computeSkippedSteps env wf session.stepData = .ok skipped ∧
    response.get? "skipped_steps" = if skipped.isEmpty then none else some (Val.strs skipped)

variable {env : Env} {deployment : Deployment} {world : World} {wf : Workflow} {pc : Val}
  {data other : StepData} {skipped skippedSet result : List String} {referencing sid : String}
  {verdict : Bool} {steps : List Step} {step : Step}

/-- The precondition cannot be read at all, or its answer depends on one entry, and cascades where
that step is skipped. -/
def AsksOnce (env : Env) (pc : Val) : Prop :=
  (∀ data skipped referencing, ¬Calm (evaluatePrecondition env pc data skipped referencing)) ∨
    ∃ (sid : String) (answer : Option String → Except Exn Bool), Asks pc sid ∧
      answer none = .ok false ∧
      (∀ entry other step, answer entry ≠ .error (.skippedPredecessor other step)) ∧
      ∀ data skipped referencing, evaluatePrecondition env pc data skipped referencing =
        if sid ∈ skipped then .error (.skippedPredecessor sid referencing)
        else answer (data.get? sid)

/-- What `when_equals` makes of the entry that it asks for. -/
def equalsAnswer (env : Env) (we : Val) (path : List String) (entry : Option String) :
    Except Exn Bool := do
  let found ← entry.elim (.ok none) (readAt env path)
  found.elim (.ok false) fun resolved => do return resolved.pyEq (← we.item "value")

theorem equalsAnswer_quiet {we : Val} {path : List String} {entry : Option String}
    {other step : String} :
    equalsAnswer env we path entry ≠ .error (.skippedPredecessor other step) := by
  intro same
  unfold equalsAnswer at same
  cases read : entry.elim (.ok none) (readAt env path) with
  | error raised =>
      rw [read, StatefulProgram.error_bind, Except.error.injEq] at same
      cases entry with
      | none => cases read
      | some raw => exact readAt_quiet (same ▸ read)
  | ok found =>
      rw [read, StatefulProgram.ok_bind] at same
      cases found with
      | none => cases same
      | some resolved =>
          rw [Option.elim_some] at same
          cases compared : we.item "value" with
          | error raised =>
              rw [compared, StatefulProgram.error_bind, Except.error.injEq] at same
              exact item_not_cascade compared _ _ same
          | ok value =>
              rw [compared] at same
              cases same

theorem whenEquals_asksOnce {entries : List (Val × Val)} {we : Val}
    (declared : Val.valueAt? entries "when_equals" = some we) : AsksOnce env (.dict entries) := by
  cases refers : we.item "ref" with
  | error raised =>
      refine .inl fun data skipped referencing => ?_
      rw [evaluate_equals declared, refers]
      exact not_calm (item_not_cascade refers)
  | ok ref =>
      by_cases isText : ∃ text, ref = .str text
      case neg =>
        refine .inl fun data skipped referencing => ?_
        obtain ⟨kind, message, raises⟩ :=
          resolveRef_nonText env data skipped referencing (not_exists.mp isText)
        rw [evaluate_equals declared, refers, StatefulProgram.ok_bind, raises]
        exact not_calm_uncaught
      obtain ⟨text, rfl⟩ := isText
      by_cases segment : HasSegment text
      case neg =>
        refine .inl fun data skipped referencing => ?_
        obtain ⟨kind, message, raises⟩ := resolveRef_short env data skipped referencing segment
        rw [evaluate_equals declared, refers, StatefulProgram.ok_bind, raises]
        exact not_calm_uncaught
      obtain ⟨first, sid, path, parts⟩ := segment
      refine .inr ⟨sid, equalsAnswer env we path, ⟨text, first, path, ?_, parts⟩, rfl,
        fun _ _ _ => equalsAnswer_quiet, ?_⟩
      · simp only [Val.get?, declared]
        exact Val.get?_of_item refers
      · intro data skipped referencing
        rw [evaluate_equals declared, refers, StatefulProgram.ok_bind, resolveRef_parts parts]
        by_cases cascade : sid ∈ skipped
        · rw [if_pos cascade, if_pos cascade]
          rfl
        · rw [if_neg cascade, if_neg cascade, equalsAnswer]
          cases (data.get? sid).elim (.ok none) (readAt env path) with
          | error raised => rfl
          | ok found => cases found <;> rfl

theorem whenPresent_asksOnce {entries : List (Val × Val)}
    (declared : Val.valueAt? entries "when_equals" = none) : AsksOnce env (.dict entries) := by
  cases refers : (Val.dict entries).item "when_present" with
  | error raised =>
      refine .inl fun data skipped referencing => ?_
      rw [evaluate_present declared, refers]
      exact not_calm (item_not_cascade refers)
  | ok ref =>
      cases parts : refParts ref with
      | error raised =>
          refine .inl fun data skipped referencing => ?_
          rw [evaluate_present declared, refers, StatefulProgram.ok_bind, parts]
          unfold refParts at parts
          split at parts
          · cases parts
          · exact Except.error.inj parts ▸ not_calm_uncaught
      | ok segments =>
          rcases segments with _ | ⟨first, _ | ⟨sid, path⟩⟩
          · refine .inl fun data skipped referencing => ?_
            rw [evaluate_present declared, refers, StatefulProgram.ok_bind, parts]
            exact not_calm_uncaught
          · refine .inl fun data skipped referencing => ?_
            rw [evaluate_present declared, refers, StatefulProgram.ok_bind, parts]
            exact not_calm_uncaught
          obtain ⟨text, rfl, isSplit⟩ : ∃ text, ref = .str text ∧
              splitPath text = first :: sid :: path := by
            unfold refParts at parts
            split at parts
            · exact ⟨_, rfl, Except.ok.inj parts⟩
            · cases parts
          refine .inr ⟨sid, fun entry => .ok entry.isSome, ⟨text, first, path, ?_, isSplit⟩,
            rfl, by simp, ?_⟩
          · simp only [Val.get?, declared]
            exact Val.get?_of_item refers
          · intro data skipped referencing
            rw [evaluate_present declared, refers, StatefulProgram.ok_bind, parts,
              StatefulProgram.ok_bind]
            by_cases cascade : sid ∈ skipped
            · simp only [cascade, if_true]
              rfl
            · simp only [cascade, if_false, Dict.contains_iff_get?]
              rfl

theorem evaluatePrecondition_asksOnce (env : Env) (pc : Val) : AsksOnce env pc := by
  cases pc with
  | dict entries =>
      cases declared : Val.valueAt? entries "when_equals" with
      | some we => exact whenEquals_asksOnce declared
      | none => exact whenPresent_asksOnce declared
  | list items =>
      refine .inl fun data skipped referencing => ?_
      unfold evaluatePrecondition
      simp only [Val.contains, StatefulProgram.ok_bind, Val.item]
      split <;> exact not_calm_type
  | str text =>
      refine .inl fun data skipped referencing => ?_
      unfold evaluatePrecondition
      simp only [Val.contains, StatefulProgram.ok_bind, Val.item]
      split <;> exact not_calm_type
  | native scalar => exact .inl fun data skipped referencing => by cases scalar <;> exact not_calm_type
  | _ => exact .inl fun data skipped referencing => not_calm_type

/-- An answer of the evaluator depends on one entry of the step data, and on the skipped steps only
through a cascade. -/
theorem evaluatePrecondition_spec (reads : evaluatePrecondition env pc data skipped referencing =
    .ok verdict) :
    ∃ sid, Asks pc sid ∧ sid ∉ skipped ∧ (verdict = true → data.contains sid = true) ∧
      ∀ {other : StepData} {skippedSet : List String} {referencing : String},
        other.get? sid = data.get? sid →
        evaluatePrecondition env pc other skippedSet referencing =
          if sid ∈ skippedSet then .error (.skippedPredecessor sid referencing) else .ok verdict := by
  rcases evaluatePrecondition_asksOnce env pc with unreadable | ⟨sid, answer, asks, missing, -, eq⟩
  · exact absurd (reads ▸ .ok) (unreadable data skipped referencing)
  rw [eq] at reads
  by_cases isSkipped : sid ∈ skipped
  · rw [if_pos isSkipped] at reads
    exact nomatch reads
  rw [if_neg isSkipped] at reads
  refine ⟨sid, asks, isSkipped, ?_, ?_⟩
  · rintro rfl
    rw [Dict.contains_iff_get?]
    by_contra absent
    rw [Bool.not_eq_true, Option.isSome_eq_false_iff, Option.isNone_iff_eq_none] at absent
    rw [absent, missing] at reads
    exact nomatch reads
  · intro other skippedSet referencing same
    rw [eq, same, reads]

/-- A cascade is over a skipped step; with no entry and nothing skipped, the precondition would be
false. -/
theorem evaluatePrecondition_cascade {other : String}
    (raises : evaluatePrecondition env pc data skipped referencing =
      .error (.skippedPredecessor sid other)) :
    sid ∈ skipped ∧ (data.get? sid = none →
      evaluatePrecondition env pc data [] referencing = .ok false) := by
  rcases evaluatePrecondition_asksOnce env pc with unreadable | ⟨asked, answer, asks, missing, calm, eq⟩
  · exact absurd (raises ▸ .cascade) (unreadable data skipped referencing)
  rw [eq] at raises
  by_cases isSkipped : asked ∈ skipped
  · rw [if_pos isSkipped, Except.error.injEq, Exn.skippedPredecessor.injEq] at raises
    rw [← raises.1]
    refine ⟨isSkipped, fun absent => ?_⟩
    rw [eq, if_neg (by simp), absent, missing]
  · rw [if_neg isSkipped] at raises
    exact absurd raises (calm _ _ _)

theorem skippedFrom_cons (computed : skippedFrom env data (step :: steps) skipped = .ok result) :
    skippedFrom env data steps skipped = .ok result ∧
      (data.contains step.id = true ∨ ¬Unmet env data skipped step) ∨
      skippedFrom env data steps (skipped ++ [step.id]) = .ok result ∧
        data.contains step.id = false ∧
        Unmet env data skipped step := by
  unfold skippedFrom at computed
  split at computed
  · rename_i entered
    exact .inl ⟨computed, .inl entered⟩
  rename_i absent
  rw [Bool.not_eq_true] at absent
  split at computed
  · rename_i unguarded
    refine .inl ⟨computed, .inr ?_⟩
    rintro ⟨pc, guarded, -⟩
    rw [unguarded] at guarded
    cases guarded
  rename_i pc guarded
  split at computed
  · rename_i runs
    refine .inl ⟨computed, .inr ?_⟩
    rintro ⟨other, again, fails | ⟨sid, referencing, cascade⟩⟩
    · obtain rfl : pc = other := Option.some.inj (guarded.symm.trans again)
      cases runs.symm.trans fails
    · obtain rfl : pc = other := Option.some.inj (guarded.symm.trans again)
      cases runs.symm.trans cascade
  · rename_i fails
    exact .inr ⟨computed, absent, pc, guarded, .inl fails⟩
  · rename_i sid referencing cascade
    exact .inr ⟨computed, absent, pc, guarded, .inr ⟨sid, referencing, cascade⟩⟩
  · cases computed

theorem skippedFrom_subset (computed : skippedFrom env data steps skipped = .ok result) :
    ∀ id ∈ skipped, id ∈ result := by
  induction steps generalizing skipped with
  | nil =>
      rw [skippedFrom, Except.ok.injEq] at computed
      exact fun id member => computed ▸ member
  | cons step rest ih =>
      intro id member
      rcases skippedFrom_cons computed with ⟨later, -⟩ | ⟨later, -⟩
      · exact ih later id member
      · exact ih later id (List.mem_append_left _ member)

/-- A step without an entry whose precondition cannot be met is found. -/
theorem skippedFrom_unmet (computed : skippedFrom env data steps skipped = .ok result)
    (member : step ∈ steps) (absent : data.contains step.id = false)
    (unmet : ∀ skipped, Unmet env data skipped step) : step.id ∈ result := by
  induction steps generalizing skipped with
  | nil => exact nomatch member
  | cons first rest ih =>
      rcases skippedFrom_cons computed with ⟨later, entered | met⟩ | ⟨later, -, -⟩
      · rcases List.mem_cons.mp member with rfl | inRest
        · rw [absent] at entered
          exact nomatch entered
        · exact ih later inRest
      · rcases List.mem_cons.mp member with rfl | inRest
        · exact absurd (unmet _) met
        · exact ih later inRest
      · rcases List.mem_cons.mp member with rfl | inRest
        · exact skippedFrom_subset later _ (by simp)
        · exact ih later inRest

/-- What is found has no entry and a precondition that is not met. -/
theorem skippedFrom_found {id : String} (computed : skippedFrom env data steps skipped = .ok result)
    (found : id ∈ result) : id ∈ skipped ∨ ∃ (place : Nat) (step : Step) (before : List String),
      steps[place]? = some step ∧ step.id = id ∧ data.contains id = false ∧
        (∀ other ∈ before, other ∈ result) ∧
      Unmet env data before step := by
  induction steps generalizing skipped with
  | nil =>
      rw [skippedFrom, Except.ok.injEq] at computed
      exact .inl (computed ▸ found)
  | cons first rest ih =>
      rcases skippedFrom_cons computed with ⟨later, -⟩ | ⟨later, absent, unmet⟩
      · rcases ih later with old | ⟨place, step, before, there, facts⟩
        · exact .inl old
        · exact .inr ⟨place + 1, step, before, there, facts⟩
      · rcases ih later with old | ⟨place, step, before, there, facts⟩
        · rcases List.mem_append.mp old with earlier | isFirst
          · exact .inl earlier
          · rw [List.mem_singleton.mp isFirst]
            refine .inr ⟨0, first, skipped, rfl, rfl, absent, ?_, unmet⟩
            exact fun other isOther =>
              skippedFrom_subset later other (List.mem_append_left _ isOther)
        · exact .inr ⟨place + 1, step, before, there, facts⟩

theorem returns_getState_skipped (sessionId : String) :
    Returns (ReportsSkipped env deployment world.ledger (env.normalizeSessionId sessionId))
    (getState env deployment sessionId) world := by
  refine returns_trapErrors ?_ (returns_withSession ?_ ?_ ?_)
  · exact fun code message fields keyed => .inl (errorResponse_isError _ _ _)
  · exact fun err refused => .inl (checkStrs_isError refused)
  · exact fun err refusal => .inl refusal.isError
  intro session wf resolves
  refine returns_ofExcept_bind fun titles _ => ?_
  refine returns_ofExcept_bind fun current refers => ?_
  refine returns_ofExcept_bind fun injected injects => ?_
  have tail : ∀ {front : List (String × Val)}, field? front "skipped_steps" = none →
      Returns (ReportsSkipped env deployment world.ledger (env.normalizeSessionId sessionId)) (do
        let skipped ← ofExcept (computeSkippedSteps env wf session.stepData)
        let reached ← read id
        return .obj (front ++
          (if skipped.isEmpty then [] else [("skipped_steps", Val.strs skipped)]) ++
          ((reached.topFrameFor session.sessionId).map fun frame =>
            ("called_session", Val.str frame.sessionId.text)).toList ++
          [("stack", stackView reached session.sessionId)])) world := by
    intro front unlisted
    refine returns_ofExcept_bind fun skipped computed => returns_read_bind (returns_pure (.inr ?_))
    refine ⟨session, wf, skipped, resolves, computed, ?_⟩
    have called : field? (((id world).topFrameFor session.sessionId).map fun frame =>
        ("called_session", Val.str frame.sessionId.text)).toList "skipped_steps" = none := by
      cases (id world).topFrameFor session.sessionId <;> simp [field?]
    rw [Val.get?_obj, field?_append, field?_append, field?_append, unlisted, called]
    cases skipped.isEmpty <;> simp [field?]
  have unlisted : ∀ (progress : Val) (directives checkpointField : List (String × Val)),
      KeyedBy ["directives"] directives → KeyedBy ["artifact_checkpoints"] checkpointField →
      KeyedBy ["injected_context"] injected →
      field? ([("session_id", Val.str sessionId), ("workflow_type", .str session.workflowType),
        ("current_step", optionVal current), ("progress", progress), ("pending_steps",
          .list titles),
        ("step_data", .obj (session.stepData.rows.map fun entry => (entry.1, .str entry.2)))] ++
          injected ++ directives ++
        checkpointField) "skipped_steps" = none := by
    intro progress directives checkpointField directed checkpointed injectedKeyed
    rw [field?_append, field?_append, field?_append, directed.field?_none (by simp),
      checkpointed.field?_none (by simp), injectedKeyed.field?_none (by simp)]
    simp [field?]
  cases at_ : findStep wf (.str session.currentStep) with
  | none =>
      rw [at_] at injects
      obtain rfl := Except.ok.inj injects
      exact tail (unlisted _ [] _ (by simp [KeyedBy]) (by simp [KeyedBy,
        show (Table.empty : Dict String).size = 0 from rfl])
        (by simp [KeyedBy]))
  | some entry =>
      obtain ⟨idx, step⟩ := entry
      rw [at_] at injects
      have keyed : ∀ checkpoints : Dict String, KeyedBy ["artifact_checkpoints"]
        (if checkpoints.size = 0 then [] else
          [("artifact_checkpoints",
            Val.obj (checkpoints.rows.map fun entry => (entry.1, .str entry.2)))]) := by
        intro checkpoints
        split <;> simp [KeyedBy]
      have lists := fun checkpoints : Dict String =>
        tail (unlisted (.str ("step " ++ toString (idx + 1) ++ " of " ++
        toString wf.steps.length)) _ _ (flaggedFields_keyed step ["directives"]) (keyed checkpoints)
        (injectedFields_keyed injects))
      dsimp only
      split
      · rw [Returns, wp_bind]
        unfold getArtifacts
        rw [wp_bind]
        refine wp_getSession ?_ ?_
        · exact fun row isRow => lists _
        · intro missing response same
          cases same
      · exact lists _

/-- What an answer of `get_state` names as skipped is what the list of the session's workflow gives.
-/
theorem getState_listsSkipped {sessionId : String} {response : Val} {after : World}
    (ran : (callTool env deployment (.getState sessionId)).run world = (.ok response, after))
    (success : response.isError = false) : ∃ session wf skipped,
      Resolves deployment world.ledger (env.normalizeSessionId sessionId) session wf ∧
      computeSkippedSteps env wf session.stepData = .ok skipped ∧
      ∀ stepId, ListsSkipped response stepId ↔ stepId ∈ skipped := by
  have reports : ReportsSkipped env deployment world.ledger (env.normalizeSessionId sessionId) response :=
    Wp.elim (returns_getState_skipped sessionId) ran response rfl
  rcases reports with failed | ⟨session, wf, skipped, resolves, computed, listed⟩
  · rw [success] at failed
    exact nomatch failed
  refine ⟨session, wf, skipped, resolves, computed, fun stepId => ?_⟩
  unfold ListsSkipped
  rw [listed]
  cases skipped with
  | nil => simp
  | cons first rest => simp [Val.strs]

end Megalos
