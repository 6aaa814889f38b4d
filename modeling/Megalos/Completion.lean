import Megalos.PassedOver
import Megalos.Waiting

/-!
The end of a workflow: whether a session at `__complete__` has been through the last step of the
list.
-/

namespace Megalos

open GuardedRuns KeyedTable

/-- Where the server runs the step, the workflow ends: it has branches without a default, and more
steps follow. -/
structure Workflow.Abandons (wf : Workflow) (idx : Nat) (step : Step) : Prop where
  mcp : step.isMcpToolCall = true
  branching : step.flag "branches" = true
  undefaulted : step.get? "default_branch" = none
  early : idx + 1 < wf.steps.length

/-- The call takes the session to the end of its workflow from a step that is not the last of the
list. -/
inductive LeavesEarly (env : Env) (deployment : Deployment) (world : World) (sid : SessionId) :
    Call → Prop
  | ran {call : Call} {row : Session} {wf : Workflow} {idx place calls : Nat} {step other : Step}
      {content : String}
      {pointer : Val} {forced : Bool} (named : row.sessionId = sid)
      (advances : Advances env deployment world call row wf idx step content pointer forced calls)
      (runs : other.id ∈ ranSteps env deployment.registry wf calls pointer (row.stepData.set step.id content) forced)
      (at_ : findStep wf (.str other.id) = some (place, other))
      (abandons : wf.Abandons place other) : LeavesEarly env deployment world sid call
  | branched {call : Call} {row : Session} {wf : Workflow} {idx calls : Nat} {step : Step}
      {content : String}
      {pointer : Val} {forced : Bool} (named : row.sessionId = sid)
      (advances : Advances env deployment world call row wf idx step content pointer forced calls)
      (mcp : step.isMcpToolCall = true) (early : idx + 1 < wf.steps.length)
      (ends : pointer.isStr complete = true) : LeavesEarly env deployment world sid call
  | opened {workflowType context : String} {wf : Workflow} {place : Nat} {other : Step}
      (fresh : sid = env.token world.minted)
      (loaded : deployment.workflows.get? workflowType = some wf)
      (runs : other.id ∈ autoRunSteps env deployment.registry wf env.fuel world.outbound.length (.str wf.first.id)
        Table.empty)
      (at_ : findStep wf (.str other.id) = some (place, other))
      (abandons : wf.Abandons place other) :
      LeavesEarly env deployment world sid (.startWorkflow workflowType context)

def Workflow.Ended (wf : Workflow) (pointer : Val) (data : StepData) (passed : List String) :
    Prop :=
  pointer.isStr complete = true → data.contains wf.last.id = true ∨ wf.last.id ∈ passed

variable {env : Env} {deployment : Deployment} {world : World} {wf : Workflow} {pointer : Val}
  {data : StepData} {idx calls : Nat} {step : Step} {sid : SessionId} {call : Call}
  {row new : Session} {log later : List (List String)}

namespace Workflow

theorem last_of_length (there : wf.steps[idx]? = some step) (atEnd : wf.steps.length ≤ idx + 1) :
    step = wf.last := by
  obtain ⟨bound, isStep⟩ := List.getElem?_eq_some_iff.mp there
  have isLast : wf.last = wf.steps[wf.steps.length - 1] := List.getLast_eq_getElem _
  rw [← isStep, isLast]
  simp only [show idx = wf.steps.length - 1 by omega]

/-- Where no step is named like the end, the list leads there from its last step only. -/
theorem last_of_following (unnamed : ¬wf.Names complete)
    (at_ : findStep wf pointer = some (idx, step)) (ends : wf.following idx = complete) :
    step = wf.last := by
  have there := (findStep_spec at_).1
  unfold following at ends
  split at ends
  · rename_i later isLater
    exact absurd ⟨later, List.mem_of_getElem? isLater, ends⟩ unnamed
  · rename_i beyond
    exact last_of_length there (List.getElem?_eq_none_iff.mp beyond)

theorem Ended.stored (isLast : step = wf.last) {text : String} {passed : List String} :
    wf.Ended pointer (data.set step.id text) passed := by
  intro _
  left
  rw [Dict.contains_iff_get?, Dict.get?_set, if_pos (congrArg Step.id isLast.symm)]
  rfl

theorem not_complete_of_names (unnamed : ¬wf.Names complete)
    (names : ∀ text, pointer = .str text → wf.Names text) :
    pointer.isStr complete = false := by
  by_contra ends
  rw [Bool.not_eq_false, Val.isStr_iff] at ends
  exact unnamed (names complete ends)

theorem ended_tracked (checked : wf.Checked) (unnamed : ¬wf.Names complete) :
    Tracked env wf (fun stepId => ∀ place other, findStep wf (.str stepId) = some (place, other) →
      ¬wf.Abandons place other)
      wf.Ended where
  runs := by
    intro pointer idx step data passed text _ _ at_ mcp may ends
    unfold afterMcpStep at ends
    split at ends
    · rename_i branching
      cases declared : step.get? "default_branch" with
      | none =>
          have atEnd : wf.steps.length ≤ idx + 1 := by
            by_contra early
            exact may idx step (findStep_own at_) ⟨mcp, branching, declared, by omega⟩
          exact Ended.stored (last_of_length (findStep_spec at_).1 atEnd) ends
      | some target =>
          rw [declared, Option.getD_some, Val.isStr_iff] at ends
          exact absurd (checked.mcpDefault step (findStep_mem at_) complete (declared.trans (congrArg some ends))) unnamed
    · rw [Val.isStr_str, beq_iff_eq] at ends
      exact Ended.stored (last_of_following unnamed at_ ends)
        (Val.isStr_iff.mpr (congrArg Val.str ends))
  passes := by
    intro pointer idx step pc data skippedSet passed _ _ at_ _ _ ends
    rw [Val.isStr_str, beq_iff_eq] at ends
    rw [last_of_following unnamed at_ ends]
    exact .inr (List.mem_append_right _ (List.mem_singleton.mpr rfl))

end Workflow

theorem Workflow.Leads.ended (unnamed : ¬wf.Names complete)
    (at_ : findStep wf (.str row.currentStep) = some (idx, step)) (leads : wf.Leads idx pointer)
    {text : String} : wf.Ended pointer (row.stepData.set step.id text) [] := by
  intro ends
  rcases leads with rfl | names
  · rw [Val.isStr_str, beq_iff_eq] at ends
    exact Ended.stored (last_of_following unnamed at_ ends)
      (Val.isStr_iff.mpr (congrArg Val.str ends))
  · rw [not_complete_of_names unnamed names] at ends
    exact nomatch ends

theorem Advances.ended {content : String} {forced : Bool} (checked : wf.Checked)
    (unnamed : ¬wf.Names complete) (behaves : ¬LeavesEarly env deployment world row.sessionId call)
    (advances : Advances env deployment world call row wf idx step content pointer forced calls) :
    wf.Ended pointer (row.stepData.set step.id content) [] := by
  have at_ := advances.at_.2
  cases mcp : step.isMcpToolCall with
  | true =>
      intro ends
      have atEnd : wf.steps.length ≤ idx + 1 := by
        by_contra early
        exact behaves (.branched rfl advances mcp (by omega) ends)
      exact Workflow.Ended.stored (Workflow.last_of_length (findStep_spec at_).1 atEnd) ends
  | false =>
      cases advances with
      | own submits passed guarded goes =>
          exact (nextStepOf_leads checked (findStep_mem at_) mcp guarded goes).ended unnamed at_
      | parent submits reached atEnd framed called owner resolves there isCall valid goes =>
          exact (afterCallStep_leads checked (findStep_mem at_) isCall goes).ended unnamed at_

/-- A session at the end has an entry for the last step, or its last advance passed that step over.
-/
def EndedSoundly (wf : Workflow) (row : Session) (log : List (List String)) : Prop :=
  row.currentStep = complete →
    row.stepData.contains wf.last.id = true ∨ ∃ passed, log.getLast? = some passed ∧
      wf.last.id ∈ passed

theorem Continues.endedSoundly (checked : wf.Checked) (unnamed : ¬wf.Names complete)
    (behaves : ¬LeavesEarly env deployment world row.sessionId call)
    (sound : EndedSoundly wf row log)
    (continues : Continues env deployment world call wf row new log later) :
    EndedSoundly wf new later := by
  intro ends
  cases continues with
  | kept data pointer =>
      rw [data]
      rcases pointer with kept | marked
      · exact sound (kept.symm.trans ends)
      · exact absurd (marked.symm.trans ends) (by decide)
  | escalated data pointer found =>
      obtain ⟨⟨idx, step⟩, found⟩ := Option.isSome_iff_exists.mp found
      exact absurd ⟨step, findStep_mem found,
        (Val.str.inj (findStep_spec found).2).symm.trans (pointer.symm.trans ends)⟩
        unnamed
  | revised isCall revises moved =>
      exact absurd ⟨_, findStep_mem revises.found, moved.currentStep_eq.symm.trans ends⟩ unnamed
  | @advanced idx calls step content text pointer last data forced advance advances ran resting column moved =>
      have may : ∀ stepId ∈ ranSteps env deployment.registry wf calls pointer (row.stepData.set step.id content) forced,
          ∀ place other, findStep wf (.str stepId) = some (place, other) →
            ¬wf.Abandons place other := by
        intro stepId runs place other at_ abandons
        obtain rfl := Val.str.inj (findStep_spec at_).2
        exact behaves (.ran rfl advances runs at_ abandons)
      have ended := (Workflow.ended_tracked checked unnamed).skipAndRun ran may resting
        (advances.ended checked unnamed behaves)
      rw [moved.currentStep_eq] at ends
      subst ends
      rw [moved.stepData_eq, List.getLast?_concat]
      rcases ended (Val.isStr_iff.mpr (columnText_underscore column (by decide))) with entry | isPassed
      · exact .inl entry
      · exact .inr ⟨_, rfl, isPassed⟩

theorem Begins.endedSoundly (checked : wf.Checked) (unnamed : ¬wf.Names complete)
    (behaves : ¬LeavesEarly env deployment world (env.token world.minted) call)
    (begins : Begins env deployment world call wf new later) : EndedSoundly wf new later := by
  have first : wf.first.id ≠ complete :=
    fun same => unnamed ⟨wf.first, by simp [Workflow.steps], same⟩
  intro ends
  cases begins with
  | fresh current stored => exact absurd (current.symm.trans ends) first
  | opened isCall loaded ran resting column current stored =>
      have may : ∀ stepId ∈ autoRunSteps env deployment.registry wf env.fuel world.outbound.length (.str wf.first.id)
          Table.empty, ∀ place other, findStep wf (.str stepId) = some (place, other) →
            ¬wf.Abandons place other := by
        intro stepId runs place other at_ abandons
        obtain rfl := Val.str.inj (findStep_spec at_).2
        rw [isCall] at behaves
        exact behaves (.opened rfl loaded runs at_ abandons)
      have start : wf.Ended (.str wf.first.id) Table.empty [] := by
        intro atEnd
        rw [Val.isStr_str, beq_iff_eq] at atEnd
        exact absurd atEnd first
      have ended := (Workflow.ended_tracked checked unnamed).autoRun ran may resting start
      rw [current] at ends
      subst ends
      rw [stored, List.getLast?_singleton]
      rcases ended (Val.isStr_iff.mpr (columnText_underscore column (by decide))) with entry | isPassed
      · exact .inl entry
      · exact .inr ⟨_, rfl, isPassed⟩

variable {served : Deployment → Prop}

/-- Where no call leaves a workflow early, a session reaches the end past the last step of the list.
-/
theorem completed_past_last (accepted : ∀ deployment, served deployment → deployment.Accepted env)
    (distinct : Distinguished served)
    (unnamed : ∀ deployment, served deployment →
      ∀ name wf, deployment.workflows.get? name = some wf → ¬wf.Names complete)
    (passing : Passing env (fun world request => served request.deployment ∧
      ¬LeavesEarly env request.deployment world sid request.call) sid world log)
    (isServed : served deployment) (found : world.sessions.lookup sid = some row)
    (loaded : deployment.workflows.get? row.workflowType = some wf)
    (live : deployment.workflowFingerprints.get? row.workflowType = some row.workflowFingerprint) :
    EndedSoundly wf row log := by
  refine (passing.invariant accepted distinct (fun _ _ meets =>
    meets.1) ?_ ?_).2 row deployment wf found isServed
    loaded live
  · rintro world request wf row new log later ⟨-, behaves⟩ rfl ⟨name, from_, reading,
      there⟩ sound continues
    exact continues.endedSoundly ((accepted _ reading).checked there)
      (unnamed _ reading _ _ there) behaves sound
  · rintro world request wf new later ⟨-, behaves⟩ rfl ⟨name, from_, reading, there⟩ begins
    exact begins.endedSoundly ((accepted _ reading).checked there)
      (unnamed _ reading _ _ there) behaves

theorem not_leavesEarly (plain : ∀ name wf, deployment.workflows.get? name = some wf →
    ∀ step ∈ wf.steps, step.isMcpToolCall =
      false) : ¬LeavesEarly env deployment world sid call := by
  intro leaves
  cases leaves with
  | ran named advances runs at_ abandons =>
      exact absurd abandons.mcp (by simp [plain _ _ advances.at_.1.loaded _ (findStep_mem at_)])
  | branched named advances mcp =>
      exact absurd mcp (by simp [plain _ _ advances.at_.1.loaded _ (findStep_mem advances.at_.2)])
  | opened fresh loaded runs at_ abandons =>
      exact absurd abandons.mcp (by simp [plain _ _ loaded _ (findStep_mem at_)])

theorem asked_completed : ∃ row wf, (asked 2).sessions.lookup (sampleToken 0) = some row ∧
    (appOf sampleEnv askedDocs).workflows.get? row.workflowType = some wf ∧
      row.currentStep = complete ∧
    EndedSoundly wf row [[], ["b"]] := by
  have accepted : (appOf sampleEnv askedDocs).Accepted sampleEnv := appOf_accepted (by decide)
  have checks : ∀ entry ∈ (appOf sampleEnv askedDocs).workflows.rows,
      entry.2.steps.all (fun step => !step.isMcpToolCall && step.id != complete) = true := by decide
  have each : ∀ name wf, (appOf sampleEnv askedDocs).workflows.get? name = some wf →
      ∀ step ∈ wf.steps, step.isMcpToolCall = false ∧ step.id ≠ complete := by
    intro name wf loaded step member
    simpa using List.all_eq_true.mp (checks _ (Dict.mem_of_get? loaded)) step member
  let allowed := fun (world : World) (request : Request) =>
    request.deployment = appOf sampleEnv askedDocs ∧
    ¬LeavesEarly sampleEnv request.deployment world (sampleToken 0) request.call
  have meets : ∀ world call, allowed world ⟨appOf sampleEnv askedDocs, call⟩ :=
    fun world call => ⟨rfl, not_leavesEarly fun name wf loaded step member =>
      (each name wf loaded step member).1⟩
  have first : Passing sampleEnv allowed (sampleToken 0) (asked 1) [[]] :=
    Passing.started (meets _ _) (by rfl) (by rfl) (by rfl)
  have second : Passing sampleEnv allowed (sampleToken 0) (asked 2) [[], ["b"]] :=
    first.submitted (meets _ _) (by rfl) (.of_passed (by rfl))
  obtain ⟨row, found⟩ := Option.isSome_iff_exists.mp
    (show ((asked 2).sessions.lookup (sampleToken 0)).isSome = true by rfl)
  have facts : ((asked 2).sessions.lookup (sampleToken 0)).map (fun row => (row.currentStep,
      ((appOf sampleEnv askedDocs).workflows.get? row.workflowType).isSome,
      (appOf sampleEnv askedDocs).workflowFingerprints.get? row.workflowType == some row.workflowFingerprint)) =
      some (complete, true, true) := by rfl
  rw [found, Option.map_some, Option.some.injEq] at facts
  simp only [Prod.mk.injEq, beq_iff_eq] at facts
  obtain ⟨ended, served, live⟩ := facts
  obtain ⟨wf, loaded⟩ := Option.isSome_iff_exists.mp served
  refine ⟨row, wf, found, loaded, ended,
    completed_past_last (by rintro _ rfl; exact accepted) (.single _) ?_ second rfl
    found loaded live⟩
  rintro deployment rfl name wf loaded ⟨step, member, named⟩
  exact (each name wf loaded step member).2 named

/-- A step of the server with a branch and no default, between two others. -/
def lostDocs : List Val := [workflowDoc "lost" [stepDoc "a" [],
  mcpDoc "t" [("branches",
    .list [.obj [("next", .str "b"), ("condition", .str "done")]])], stepDoc "b" []]]

def lost (calls : Nat) : World :=
  serveAll sampleEnv (appOf sampleEnv lostDocs) World.empty
    (([.startWorkflow "lost" "", .submitStep "s" "a" "one" "" ""] : List Call).take calls)

/-- The workflow ends after the step of the server, and nobody sees the last one. -/
theorem not_always_past_last :
    ¬∀ (env : Env) (deployment : Deployment) (world : World) (sid : SessionId) (row : Session)
    (wf : Workflow) (log : List (List String)), deployment.Accepted env →
    Passing env (fun _ request => request.deployment = deployment) sid world log →
    world.sessions.lookup sid = some row → deployment.workflows.get? row.workflowType = some wf →
    deployment.workflowFingerprints.get? row.workflowType = some row.workflowFingerprint →
      EndedSoundly wf row log := by
  intro always
  have first : Passing sampleEnv (fun _ request => request.deployment = appOf sampleEnv lostDocs)
    (sampleToken 0)
      (lost 1) [[]] := Passing.started rfl (by rfl) (by rfl) (by rfl)
  have second : Passing sampleEnv (fun _ request => request.deployment = appOf sampleEnv lostDocs)
    (sampleToken 0)
      (lost 2) [[], []] := first.submitted rfl (by rfl) (.of_passed (by rfl))
  obtain ⟨row, found⟩ := Option.isSome_iff_exists.mp
    (show ((lost 2).sessions.lookup (sampleToken 0)).isSome = true by rfl)
  have facts : ((lost 2).sessions.lookup (sampleToken 0)).map (fun row => (row.currentStep,
      ((appOf sampleEnv lostDocs).workflows.get? row.workflowType).map (fun wf =>
        row.stepData.contains wf.last.id),
      (appOf sampleEnv lostDocs).workflowFingerprints.get? row.workflowType == some row.workflowFingerprint)) =
      some (complete, some false, true) := by rfl
  rw [found, Option.map_some, Option.some.injEq] at facts
  simp only [Prod.mk.injEq, beq_iff_eq] at facts
  obtain ⟨ended, served, live⟩ := facts
  obtain ⟨wf, loaded, missing⟩ := Option.map_eq_some_iff.mp served
  rcases always _ _ _ _ row wf _ (appOf_accepted (by decide)) second found loaded live ended with entry | ⟨passed, last, isPassed⟩
  · rw [missing] at entry
    cases entry
  · obtain rfl : [] = passed := Option.some.inj last
    cases isPassed

end Megalos
