import Megalos.SkippedSteps

/-!
The report of skipped steps against the history: `get_state` computes the list from the step data as
it stands,
over the whole workflow, and nobody records what the skip loop has passed over.
-/

namespace Megalos

open GuardedRuns KeyedTable

def Workflow.Behind (wf : Workflow) (env : Env) (pointer : Val) (position : Nat) : Prop :=
  ∀ place, wf.Lands env pointer place → position < place

def Workflow.LeapsOver (wf : Workflow) (env : Env) (idx : Nat) (pointer : Val) : Prop :=
  ∃ position step, wf.steps[position]? = some step ∧ step.precondition.isSome = true ∧
    idx < position ∧
    wf.Behind env pointer position

def Workflow.Overtaken (wf : Workflow) (env : Env) (pointer : Val) (data : StepData)
    (position : Nat) : Prop :=
  wf.Behind env pointer position ∨ ∃ stepId later step,
    findStep wf (.str stepId) = some (later, step) ∧
    data.contains stepId = true ∧ position < later

/-- The call takes the session past a guarded step that is neither run nor passed over in the skip
loop, or it is a revision that does so or that takes the entry of a step listed before its target.
-/
inductive JumpsOver (env : Env) (deployment : Deployment) (world : World) (sid : SessionId) : Call →
    Prop
  | jumped {call : Call} {row : Session} {wf : Workflow} {idx calls : Nat} {step : Step}
      {content : String}
      {pointer : Val} {forced : Bool} (named : row.sessionId = sid)
      (advances : Advances env deployment world call row wf idx step content pointer forced calls)
      (leaps : wf.LeapsOver env idx pointer) : JumpsOver env deployment world sid call
  | ran {call : Call} {row : Session} {wf : Workflow} {idx place calls : Nat} {step other : Step}
      {content : String}
      {pointer : Val} {forced : Bool} (named : row.sessionId = sid)
      (advances : Advances env deployment world call row wf idx step content pointer forced calls)
      (runs : other.id ∈ ranSteps env deployment.registry wf calls pointer (row.stepData.set step.id content) forced)
      (at_ : findStep wf (.str other.id) = some (place, other))
      (leaps : wf.LeapsOver env place (afterMcpStep wf place other)) :
        JumpsOver env deployment world sid call
  | opened {workflowType context : String} {wf : Workflow} {place : Nat} {other : Step}
      (fresh : sid = env.token world.minted)
      (loaded : deployment.workflows.get? workflowType = some wf)
      (runs : other.id ∈ autoRunSteps env deployment.registry wf env.fuel world.outbound.length (.str wf.first.id)
        Table.empty)
      (at_ : findStep wf (.str other.id) = some (place, other))
      (leaps : wf.LeapsOver env place (afterMcpStep wf place other)) :
      JumpsOver env deployment world sid (.startWorkflow workflowType context)
  | revised {sessionId stepId : String} {row : Session} {wf : Workflow} {idx position : Nat}
      {target step : Step}
      (named : row.sessionId = sid)
      (revises : Revises env deployment world sessionId stepId row wf idx target)
      (there : wf.steps[position]? = some step) (guarded : step.precondition.isSome = true)
      (early : position < idx)
      (overlooked : ¬wf.Overtaken env (.str row.currentStep) row.stepData position ∨
        row.stepData.contains step.id = true ∧
          (revisedData wf idx target row.stepData).contains step.id = false) :
      JumpsOver env deployment world sid (.reviseStep sessionId stepId)

def Workflow.Accounted (wf : Workflow) (env : Env) (pointer : Val) (data : StepData)
    (passed : List String) : Prop :=
  ∀ position step, wf.steps[position]? = some step → step.precondition.isSome = true →
    wf.Overtaken env pointer data position → data.contains step.id = true ∨ step.id ∈ passed

/-- No guarded step from the current one on has a false precondition and no entry. -/
def MetAhead (env : Env) (wf : Workflow) (row : Session) : Prop :=
  ∀ position step pc, wf.steps[position]? = some step → step.precondition = some pc →
    ¬wf.Behind env (.str row.currentStep) position → row.stepData.contains step.id = false →
    evaluatePrecondition env pc row.stepData [] step.id ≠ .ok false

/-- An advance of the session has passed the step over, and it stands behind the current one. -/
structure PassedBy (env : Env) (wf : Workflow) (row : Session) (log : List (List String))
    (stepId : String) : Prop where
  passed : ∃ steps ∈ log, stepId ∈ steps
  notCurrent : stepId ≠ row.currentStep
  behind : ∃ idx step, findStep wf (.str stepId) = some (idx, step) ∧
    wf.Behind env (.str row.currentStep) idx

variable {env : Env} {deployment : Deployment} {world after : World} {wf : Workflow} {pointer : Val}
  {data : StepData} {idx position calls : Nat} {step : Step} {sid : SessionId} {call : Call}
  {row new : Session} {passed : List String}
  {log later : List (List String)} {stepId : String}

namespace Workflow

theorem Lands.column {text : String} {place : Nat} (column : columnText env pointer = .ok text)
    (lands : wf.Lands env pointer place) : wf.Lands env (.str text) place := by
  obtain ⟨same, step, isText, found⟩ := lands
  rw [column, Except.ok.injEq] at isText
  exact ⟨same, step, congrArg _ isText, found⟩

theorem Behind.of_lt {place : Nat} (at_ : wf.Lands env pointer place) (before : position < place) :
    wf.Behind env pointer position := by
  intro other lands
  rw [← at_.unique lands]
  exact before

theorem behind_following (there : wf.steps[position]? = some step)
    (behind : wf.Behind env (.str (wf.following idx)) position) :
    position ≤ idx := by
  have bound := (List.getElem?_eq_some_iff.mp there).1
  cases next : wf.steps[idx + 1]? with
  | none =>
      have beyond := List.getElem?_eq_none_iff.mp next
      omega
  | some other =>
      have isNext : wf.following idx = other.id := by simp [following, next]
      obtain ⟨⟨place, found⟩, at_⟩ := Option.isSome_iff_exists.mp
        (show (findStep wf (.str other.id)).isSome =
          true from findStepFrom_isSome (List.mem_of_getElem? next) rfl)
      have least := findStep_least at_ next
      have before := behind place (isNext ▸ lands_of_found at_)
      omega

theorem not_leapsOver_following : ¬wf.LeapsOver env idx (.str (wf.following idx)) := by
  rintro ⟨position, step, there, -, ahead, behind⟩
  have reached := behind_following there behind
  omega

namespace Accounted

theorem mono {more : List String} (accounted : wf.Accounted env pointer data passed)
    (within : ∀ id ∈ passed, id ∈ more) :
    wf.Accounted env pointer data more :=
  fun position step there guarded overtaken =>
    (accounted position step there guarded overtaken).imp_right (within step.id)

/-- Content for the step at the pointer, which goes on without a leap. -/
theorem moved {next : Val} {text : String} (accounted : wf.Accounted env pointer data passed)
    (at_ : findStep wf pointer = some (idx, step)) (steady : ¬wf.LeapsOver env idx next) :
    wf.Accounted env next (data.set step.id text) passed := by
  have here : wf.Lands env pointer idx := lands_of_found at_
  have earlier : ∀ position other, wf.steps[position]? = some other →
    other.precondition.isSome = true →
      wf.Overtaken env pointer data position → (data.set step.id text).contains other.id = true ∨
        other.id ∈ passed := by
    intro position other there guarded overtaken
    exact (accounted position other there guarded overtaken).imp_left fun entered =>
      contains_set entered
  intro position other there guarded overtaken
  rcases overtaken with behind | ⟨stepId, later, entered, found, entry, before⟩
  · rcases Nat.lt_trichotomy position idx with before | rfl | ahead
    · exact earlier position other there guarded (.inl (.of_lt here before))
    · left
      rw [(findStep_spec at_).1, Option.some.injEq] at there
      rw [← there, Dict.contains_iff_get?, Dict.get?_set, if_pos rfl]
      rfl
    · exact absurd ⟨position, other, there, guarded, ahead, behind⟩ steady
  · rcases contains_of_set entry with isStep | entry
    · have own := findStep_own at_
      rw [← isStep, found, Option.some.injEq, Prod.mk.injEq] at own
      exact earlier position other there guarded (.inl (.of_lt here (own.1 ▸ before)))
    · exact earlier position other there guarded (.inr ⟨stepId, later, entered, found, entry,
        before⟩)

/-- The skip loop goes on by the list and leaves a note. -/
theorem passedOver (accounted : wf.Accounted env pointer data passed)
    (at_ : findStep wf pointer = some (idx, step)) :
    wf.Accounted env (.str (wf.following idx)) data (passed ++ [step.id]) := by
  have here : wf.Lands env pointer idx := lands_of_found at_
  intro position other there guarded overtaken
  rcases overtaken with behind | entered
  · rcases (behind_following there behind).lt_or_eq with before | rfl
    · exact (accounted position other there guarded (.inl (.of_lt here before))).imp_right (List.mem_append_left _)
    · rw [(findStep_spec at_).1, Option.some.injEq] at there
      exact .inr (there ▸ List.mem_append_right _ (List.mem_singleton.mpr rfl))
  · exact (accounted position other there guarded (.inr entered)).imp_right (List.mem_append_left _)

theorem column {text : String} (column : columnText env pointer = .ok text)
    (accounted : wf.Accounted env pointer data passed) :
    wf.Accounted env (.str text) data passed :=
  fun position step there guarded overtaken =>
    accounted position step there guarded (overtaken.imp_left fun behind place lands =>
      behind place (lands.column column))

theorem start : wf.Accounted env (.str wf.first.id) Table.empty passed := by
  intro position step there guarded overtaken
  rcases overtaken with behind | ⟨stepId, later, other, found, entered, before⟩
  · exact absurd (behind 0 (lands_of_found (findStep_first wf))) (Nat.not_lt_zero _)
  · exact nomatch entered

end Accounted

theorem accounted_tracked : Tracked env wf
    (fun stepId => ∀ place other, findStep wf (.str stepId) = some (place, other) →
      ¬wf.LeapsOver env place (afterMcpStep wf place other)) (wf.Accounted env) where
  runs := by
    intro pointer idx step data passed text accounted _ at_ _ may
    exact accounted.moved at_ (may idx step (findStep_own at_))
  passes := by
    intro pointer idx step pc data skippedSet passed accounted _ at_ _ _
    exact accounted.passedOver at_

end Workflow

def RowAccounted (env : Env) (wf : Workflow) (row : Session) (log : List (List String)) : Prop :=
  row.currentStep ≠ workflowChanged →
    wf.Accounted env (.str row.currentStep) row.stepData log.flatten

theorem Continues.accounted (behaves : ¬JumpsOver env deployment world row.sessionId call)
    (accounted : RowAccounted env wf row log)
    (continues : Continues env deployment world call wf row new log later) :
    RowAccounted env wf new later := by
  intro unmarked
  cases continues with
  | kept data pointer =>
      rcases pointer with same | marked
      · rw [same] at unmarked
        rw [data, same]
        exact accounted unmarked
      · exact absurd marked unmarked
  | escalated data pointer found =>
      obtain ⟨⟨idx, step⟩, at_⟩ := Option.isSome_iff_exists.mp found
      rw [pointer] at unmarked
      have isStep : row.currentStep = step.id := Val.str.inj (findStep_spec at_).2
      rw [data, pointer, isStep]
      refine (isStep ▸ accounted unmarked).moved (isStep ▸ at_) ?_
      rintro ⟨position, other, there, guarded, ahead, behind⟩
      have back := behind idx (Workflow.lands_of_found (isStep ▸ at_))
      omega
  | @revised sessionId stepId idx target isCall revises moved =>
      have holds := accounted revises.resolves.unmarked
      rw [isCall] at behaves
      have isTarget : stepId = target.id := Val.str.inj (findStep_spec revises.found).2
      have here : wf.Lands env (.str target.id) idx :=
        isTarget ▸ Workflow.lands_of_found revises.found
      rw [moved.currentStep_eq, moved.stepData_eq]
      intro position step there guarded overtaken
      have early : position < idx := by
        rcases overtaken with behind | ⟨other, later, entered, found, entry, before⟩
        · exact behind idx here
        · -- an entry that the revision leaves is of a step listed up to the target
          by_contra ahead
          rw [Dict.contains_iff_get?, get?_revisedData,
            if_pos (.inl (Workflow.mem_after found (by omega)))] at entry
          exact nomatch entry
      have reached : wf.Overtaken env (.str row.currentStep) row.stepData position := by
        by_contra short
        exact behaves (.revised rfl revises there guarded early (.inl short))
      refine (holds position step there guarded reached).imp_left fun entered => ?_
      by_contra gone
      rw [Bool.not_eq_true] at gone
      exact behaves (.revised rfl revises there guarded early (.inr ⟨entered, gone⟩))
  | @advanced idx calls step content text pointer last data forced advance advances ran resting column moved =>
      obtain ⟨resolves, at_⟩ := advances.at_
      have may : ∀ stepId ∈ ranSteps env deployment.registry wf calls pointer (row.stepData.set step.id content) forced,
          ∀ place other, findStep wf (.str stepId) = some (place, other) →
            ¬wf.LeapsOver env place (afterMcpStep wf place other) := by
        intro stepId runs place other found leaps
        obtain rfl := Val.str.inj (findStep_spec found).2
        exact behaves (.ran rfl advances runs found leaps)
      have steady : ¬wf.LeapsOver env idx pointer :=
        fun leaps => behaves (.jumped rfl advances leaps)
      have moves := Workflow.accounted_tracked.skipAndRun ran may resting
        ((accounted resolves.unmarked).moved at_ steady)
      rw [moved.currentStep_eq, moved.stepData_eq, List.flatten_append, List.flatten_singleton]
      exact moves.column column

theorem Begins.accounted (behaves : ¬JumpsOver env deployment world (env.token world.minted) call)
    (begins : Begins env deployment world call wf new later) : RowAccounted env wf new later := by
  intro _
  cases begins with
  | fresh current stored =>
      rw [current, stored]
      exact .start
  | opened isCall loaded ran resting column current stored =>
      have may : ∀ stepId ∈ autoRunSteps env deployment.registry wf env.fuel world.outbound.length (.str wf.first.id)
          Table.empty, ∀ place other, findStep wf (.str stepId) = some (place, other) →
            ¬wf.LeapsOver env place (afterMcpStep wf place other) := by
        intro stepId runs place other found leaps
        obtain rfl := Val.str.inj (findStep_spec found).2
        rw [isCall] at behaves
        exact behaves (.opened rfl loaded runs found leaps)
      have start : wf.Accounted env (.str wf.first.id) Table.empty [] := .start
      have moves := Workflow.accounted_tracked.autoRun ran may resting start
      rw [List.nil_append] at moves
      rw [current, stored, List.flatten_singleton]
      exact moves.column column

/-- A step that is found down the list, and is not met, has a precondition that is false before any
step is skipped. -/
theorem Unmet.fails {before : List String} (unmet : Unmet env data before step)
    (fresh : ∀ id ∈ before, data.contains id = false) :
    ∃ pc, step.precondition = some pc ∧
      evaluatePrecondition env pc data [] step.id = .ok false := by
  obtain ⟨pc, guarded, fails | ⟨sid, referencing, cascade⟩⟩ := unmet
  · obtain ⟨asked, asks, unskipped, -, depends⟩ := evaluatePrecondition_spec fails
    exact ⟨pc, guarded, by rw [depends rfl, if_neg (by simp)]⟩
  · obtain ⟨isSkipped, missing⟩ := evaluatePrecondition_cascade cascade
    have absent := fresh sid isSkipped
    rw [Dict.contains_iff_get?, Option.isSome_eq_false_iff, Option.isNone_iff_eq_none] at absent
    exact ⟨pc, guarded, missing absent⟩

theorem computeSkippedSteps_fails {skipped : List String}
    (computed : computeSkippedSteps env wf data = .ok skipped) (member : stepId ∈ skipped) :
    ∃ (position : Nat) (step : Step) (pc : Val), wf.steps[position]? = some step ∧
      step.id = stepId ∧ data.contains stepId = false ∧ step.precondition = some pc ∧
      evaluatePrecondition env pc data [] stepId = .ok false := by
  have absents : ∀ id ∈ skipped, data.contains id = false := by
    intro id isSkipped
    rcases skippedFrom_found computed isSkipped with initial | ⟨_, _, _, _, _, absent, -⟩
    · exact nomatch initial
    · exact absent
  rcases skippedFrom_found computed member with initial | ⟨position, step, before, there, rfl,
    absent, within, unmet⟩
  · exact nomatch initial
  · obtain ⟨pc, guarded, fails⟩ := unmet.fails fun id isBefore => absents id (within id isBefore)
    exact ⟨position, step, pc, there, rfl, absent, guarded, fails⟩

/-- With every overtaken step accounted for and none unmet ahead, the report names what was passed
over. -/
theorem RowAccounted.passedBy {skipped : List String} (accounted : RowAccounted env wf row log)
    (unmarked : row.currentStep ≠ workflowChanged) (met : MetAhead env wf row)
    (computed : computeSkippedSteps env wf row.stepData = .ok skipped) (member : stepId ∈ skipped) :
    PassedBy env wf row log stepId := by
  obtain ⟨position, step, pc, there, rfl, absent, guarded, fails⟩ :=
    computeSkippedSteps_fails computed member
  have behind : wf.Behind env (.str row.currentStep) position := by
    by_contra ahead
    exact met position step pc there guarded ahead absent fails
  obtain ⟨⟨idx, first⟩, found⟩ := Option.isSome_iff_exists.mp
    (show (findStep wf (.str step.id)).isSome =
      true from findStepFrom_isSome (List.mem_of_getElem? there) rfl)
  have least := findStep_least found there
  refine ⟨?_, ?_, idx, first, found, fun place lands => least.trans_lt (behind place lands)⟩
  · rcases accounted unmarked position step there (by rw [guarded]; rfl)
      (.inl behind) with entered | isPassed
    · rw [absent] at entered
      exact nomatch entered
    · exact List.mem_flatten.mp isPassed
  · intro current
    have before := behind idx (current ▸ Workflow.lands_of_found found)
    omega

variable {served : Deployment → Prop}

/-- Where no call jumps over a guarded step, and none ahead is unmet, the report is the history's.
-/
theorem skipped_honest {sessionId : String} {response : Val}
    (accepted : ∀ deployment, served deployment → deployment.Accepted env)
    (distinct : Distinguished served)
    (passing : Passing env (fun world request => served request.deployment ∧
      ¬JumpsOver env request.deployment world (env.normalizeSessionId sessionId) request.call)
      (env.normalizeSessionId sessionId) world log)
    (isServed : served deployment)
    (met : ∀ row wf, Resolves deployment world.ledger (env.normalizeSessionId sessionId) row wf →
      MetAhead env wf row)
    (ran : (callTool env deployment (.getState sessionId)).run world = (.ok response, after))
    (success : response.isError = false) :
    ∃ row wf, Resolves deployment world.ledger (env.normalizeSessionId sessionId) row wf ∧
      ∀ stepId, ListsSkipped response stepId → PassedBy env wf row log stepId := by
  obtain ⟨row, wf, skipped, resolves, computed, lists⟩ := getState_listsSkipped ran success
  have accounted : RowAccounted env wf row log := by
    refine (passing.invariant accepted distinct (fun _ _ meets =>
      meets.1) ?_ ?_).2 row deployment wf resolves.row
      isServed resolves.loaded (resolves.fingerprint (accepted _ isServed))
    · rintro world request wf row new log later ⟨-, behaves⟩ named - accounted continues
      rw [← named] at behaves
      exact continues.accounted behaves accounted
    · rintro world request wf new later ⟨-, behaves⟩ fresh - begins
      rw [fresh] at behaves
      exact begins.accounted behaves
  refine ⟨row, wf, resolves, fun stepId listed => ?_⟩
  exact accounted.passedBy resolves.unmarked (met row wf resolves) computed ((lists stepId).mp listed)

/-- Where only the list decides, nothing but a revision jumps over a step. -/
theorem not_jumpsOver (plain : ∀ name wf, deployment.workflows.get? name = some wf → wf.Listwise)
    (moves : ∀ sessionId stepId, call ≠ .reviseStep sessionId stepId) :
    ¬JumpsOver env deployment world sid call := by
  intro jumps
  cases jumps with
  | jumped named advances leaps =>
      rw [(plain _ _ advances.at_.1.loaded).advances_eq advances] at leaps
      exact Workflow.not_leapsOver_following leaps
  | ran named advances runs at_ leaps =>
      rw [(plain _ _ advances.at_.1.loaded).afterMcp_eq at_] at leaps
      exact Workflow.not_leapsOver_following leaps
  | opened fresh loaded runs at_ leaps =>
      rw [(plain _ _ loaded).afterMcp_eq at_] at leaps
      exact Workflow.not_leapsOver_following leaps
  | revised => exact moves _ _ rfl

theorem asked_plain : ∀ name wf, (appOf sampleEnv askedDocs).workflows.get? name = some wf →
    wf.Listwise ∧ wf.Distinct :=
  listwise_of_rows (by decide)

theorem asked_honest : ∃ row wf response after,
    (callTool sampleEnv (appOf sampleEnv askedDocs) (.getState "s")).run (asked 2) = (.ok response,
      after) ∧
      ListsSkipped response "b" ∧ (asked 2).sessions.lookup (sampleToken 0) = some row ∧
      PassedBy sampleEnv wf row [[], ["b"]] "b" := by
  have accepted : (appOf sampleEnv askedDocs).Accepted sampleEnv := appOf_accepted (by decide)
  let allowed := fun (world : World) (request : Request) =>
    request.deployment = appOf sampleEnv askedDocs ∧
    ¬JumpsOver sampleEnv request.deployment world (sampleToken 0) request.call
  have listwise : ∀ name wf, (appOf sampleEnv askedDocs).workflows.get? name = some wf →
    wf.Listwise :=
    fun name wf loaded => (asked_plain name wf loaded).1
  have first : Passing sampleEnv allowed (sampleToken 0) (asked 1) [[]] :=
    Passing.started ⟨rfl, not_jumpsOver listwise (by simp)⟩ (by rfl) (by rfl) (by rfl)
  have second : Passing sampleEnv allowed (sampleToken 0) (asked 2) [[], ["b"]] :=
    first.submitted ⟨rfl, not_jumpsOver listwise (by simp)⟩ (by rfl) (.of_passed (by rfl))
  have answers : ∃ response after,
      (callTool sampleEnv (appOf sampleEnv askedDocs) (.getState "s")).run (asked 2) =
        (.ok response, after) ∧
        response.isError = false ∧ response.get? "skipped_steps" = some (.list [.str "b"]) :=
          ⟨_, _, rfl, by rfl, by rfl⟩
  obtain ⟨response, after, ran, success, listed⟩ := answers
  have lists : ListsSkipped response "b" := ⟨[.str "b"], listed, by simp⟩
  have ended : ((asked 2).sessions.lookup (sampleToken 0)).map (fun row => row.currentStep) =
    some complete := by rfl
  have met : ∀ row wf, Resolves (appOf sampleEnv askedDocs)
    (asked 2).ledger (sampleToken 0) row wf →
      MetAhead sampleEnv wf row := by
    intro row wf resolves position step pc there guarded ahead
    rw [show (asked 2).sessions.lookup (sampleToken 0) = some row from resolves.row,
      Option.map_some, Option.some.injEq] at ended
    refine absurd (fun place lands => ?_) ahead
    obtain ⟨text, other, isText, found⟩ := lands
    cases isText
    rw [ended] at found
    exact absurd (List.mem_map.mpr ⟨other, findStep_mem found,
      (Val.str.inj (findStep_spec found).2).symm⟩)
      (asked_plain _ _ resolves.loaded).2.2
  obtain ⟨row, wf, resolves, honest⟩ :=
    skipped_honest (by rintro _ rfl; exact accepted) (.single _) second rfl met ran
    success
  exact ⟨row, wf, response, after, ran, lists, resolves.row, honest "b" lists⟩

/-- A session that has just begun already reports the step it has not reached. -/
theorem not_always_honest :
    ¬∀ (env : Env) (deployment : Deployment) (world after : World) (sessionId : String)
    (log : List (List String)) (response : Val), deployment.Accepted env →
    Passing env (fun _ request => request.deployment = deployment)
    (env.normalizeSessionId sessionId) world log →
    (callTool env deployment (.getState sessionId)).run world = (.ok response, after) →
      response.isError = false →
    ∃ row wf, Resolves deployment world.ledger (env.normalizeSessionId sessionId) row wf ∧
      ∀ stepId, ListsSkipped response stepId → PassedBy env wf row log stepId := by
  intro always
  have first : Passing sampleEnv (fun _ request => request.deployment = appOf sampleEnv askedDocs)
    (sampleToken 0)
      (asked 1) [[]] := Passing.started rfl (by rfl) (by rfl) (by rfl)
  have answers : ∃ response after,
      (callTool sampleEnv (appOf sampleEnv askedDocs) (.getState "s")).run (asked 1) =
        (.ok response, after) ∧
        response.isError = false ∧ response.get? "skipped_steps" = some (.list [.str "b"]) :=
          ⟨_, _, rfl, by rfl, by rfl⟩
  obtain ⟨response, after, ran, success, listed⟩ := answers
  obtain ⟨row, wf, -, honest⟩ :=
    always _ _ _ _ "s" _ response (appOf_accepted (by decide)) first ran success
  obtain ⟨steps, inLog, member⟩ := (honest "b" ⟨[.str "b"], listed, by simp⟩).passed
  rw [List.mem_singleton.mp inLog] at member
  exact nomatch member

end Megalos
