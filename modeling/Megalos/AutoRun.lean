import Megalos.Ledger

/-!
Automatic advancing as a function of the workflow, the step data and the number of
MCP calls made so far.  The loop of `tools.py` computes this function; on the store
it only counts visits.
-/

namespace Megalos

open KeyedTable StatefulProgram StatefulProgram.Program

inductive Advance where
  /-- A precondition names a skipped step before anything ran. -/
  | skipCascade
  /-- A skipped step is named after, or by, a step that auto-execution reached. -/
  | stopped (pointer : Val) (stepData : StepData) (calls : Nat)
  | arrived (pointer : Val) (stepData : StepData) (calls : Nat)

def executed (env : Env) (registry : Option Registry) (step : Step) (stepData : StepData)
    (skippedSet : List String) (calls : Nat) : Except Exn (Val × Nat) := do
  match registry with
  | none =>
      throw (.uncaught "RuntimeError"
        "registry required for mcp_tool_call execution — should have been caught at load time")
  | some registry =>
      let args ← step.item "args"
      let resolved ← resolveArgs env stepData skippedSet step.id args
      match findAbsentRefPath resolved "" with
      | some path => return (failureEnvelope ("unresolved arg ref: $\x7bstep_data." ++ path ++
        "\x7d"), calls)
      | none =>
          let _ ← effectiveTimeout step registry
          let serverName ← step.item "server"
          let _ ← step.item "tool"
          let _ ← registry.get serverName
          return (mapOutcomeToEnvelope (env.mcpOutcome calls), calls + 1)

def autoRun (env : Env) (registry : Option Registry) (wf : Workflow) :
    Nat → Nat → Val → StepData → Except Exn Advance
  | 0, _, _, _ => .error .diverges
  | fuel + 1, calls, pointer, stepData =>
      if pointer.isStr complete then .ok (.arrived pointer stepData calls)
      else
        match findStep wf pointer with
        | none => .ok (.arrived pointer stepData calls)
        | some (idx, step) =>
            if step.isMcpToolCall then
              match computeSkippedSteps env wf stepData with
              | .error raised => .error raised
              | .ok skippedSet =>
                  match executed env registry step stepData skippedSet calls with
                  | .error (.skippedPredecessor _ _) => .ok (.stopped pointer stepData calls)
                  | .error raised => .error raised
                  | .ok (envelope, calls) =>
                      let stepData := stepData.set step.id (env.dumps envelope)
                      match applySkipLoop env (afterMcpStep wf idx step) wf stepData false with
                      | .error (.skippedPredecessor _ _) =>
                          .ok (.stopped (afterMcpStep wf idx step) stepData calls)
                      | .error raised => .error raised
                      | .ok (next, _) => autoRun env registry wf fuel calls next stepData
            else .ok (.arrived pointer stepData calls)

def skipAndRun (env : Env) (registry : Option Registry) (wf : Workflow) (calls : Nat)
    (pointer : Val) (stepData : StepData) (forceBranched : Bool) : Except Exn Advance :=
  match applySkipLoop env pointer wf stepData forceBranched with
  | .error (.skippedPredecessor _ _) => .ok .skipCascade
  | .error raised => .error raised
  | .ok (next, _) => autoRun env registry wf env.fuel calls next stepData

variable {env : Env} {registry : Option Registry} {wf : Workflow} {world : World}

/-- What an executed step leaves: the tables as they were, and the calls it made. -/
inductive Executed (world : World) : Except Exn (Val × Nat) → Except Exn Val → World → Prop
  | ok {envelope : Val} {after : World} (reaches : Reaches world world.ledger after) :
      Executed world (.ok (envelope, after.outbound.length)) (.ok envelope) after
  | raised {raised : Exn} : Executed world (.error raised) (.error raised) world

theorem wp_mcpCall (registry : Registry) (request : McpRequest) :
    Wp (mcpCall env registry request) (fun outcome after =>
      match registry.get request.serverName with
      | .error raised => outcome = .error raised ∧ after = world
      | .ok _ => outcome = .ok (env.mcpOutcome world.outbound.length) ∧
          Reaches world world.ledger after ∧ after.outbound.length = world.outbound.length + 1) world := by
  unfold mcpCall
  simp only [wp_bind, wp_ofExcept]
  cases registry.get request.serverName with
  | error raised => simp
  | ok config =>
      simp only [wp_read, wp_write, wp_pure, true_and]
      exact ⟨⟨rfl, rfl⟩, by simp⟩

theorem wp_executeMcpToolCallStep (step : Step) (stepData : StepData) (skippedSet : List String) :
    Wp (executeMcpToolCallStep env registry step stepData skippedSet)
    (Executed world (executed env registry step stepData skippedSet world.outbound.length)) world := by
  unfold executeMcpToolCallStep executed
  cases registry with
  | none => exact .raised
  | some registry =>
      simp only [wp_bind, wp_ofExcept]
      cases step.item "args" with
      | error raised => exact .raised
      | ok args =>
          simp only [ok_bind]
          cases resolveArgs env stepData skippedSet step.id args with
          | error raised => exact .raised
          | ok resolved =>
              simp only [ok_bind]
              cases findAbsentRefPath resolved "" with
              | some path => exact .ok ⟨rfl, rfl⟩
              | none =>
                  simp only [wp_bind, wp_ofExcept]
                  cases effectiveTimeout step registry with
                  | error raised => exact .raised
                  | ok timeout =>
                      simp only [ok_bind]
                      cases step.item "server" with
                      | error raised => exact .raised
                      | ok serverName =>
                          simp only [ok_bind]
                          cases step.item "tool" with
                          | error raised => exact .raised
                          | ok tool =>
                              simp only [ok_bind]
                              refine (wp_mcpCall registry _).mono ?_
                              intro outcome after called
                              dsimp only at called
                              cases known : registry.get serverName with
                              | error raised =>
                                  rw [known] at called
                                  obtain ⟨rfl, rfl⟩ := called
                                  exact .raised
                              | ok config =>
                                  rw [known] at called
                                  obtain ⟨rfl, reaches, calls⟩ := called
                                  simp only [ok_bind, wp_pure, ← calls]
                                  exact .ok reaches

/-- What the loop leaves: its row with more visits counted, and what `autoRun` computes. -/
inductive Ran (world : World) (sid : SessionId) (old : Session) (result : Except Exn Advance) :
    Except Exn (Val × StepData × Option Val) → World → Prop
  | arrived {pointer : Val} {stepData : StepData} {new : Session} {after : World}
      (computed : result = .ok (.arrived pointer stepData after.outbound.length))
      (counted : old.Counted new) (reaches : Reaches world (world.ledger.setRow sid new) after) :
      Ran world sid old result (.ok (pointer, stepData, none)) after
  | stopped {pointer : Val} {stepData : StepData} {err : Val} {new : Session} {after : World}
      (computed : result = .ok (.stopped pointer stepData after.outbound.length))
      (counted : old.Counted new) (reaches : Reaches world (world.ledger.setRow sid new) after) :
      Ran world sid old result (.ok (pointer, stepData, some err)) after
  | raised {raised : Exn} {new : Session} {after : World} (computed : result = .error raised)
      (counted : old.Counted new) (reaches : Reaches world (world.ledger.setRow sid new) after) :
      Ran world sid old result (.error raised) after

theorem Ran.after {sid : SessionId} {old new : Session} {result : Except Exn Advance}
    {outcome : Except Exn (Val × StepData × Option Val)} {visited final : World}
    (ran : Ran visited sid new result outcome final) (counted : old.Counted new)
    (reached : Reaches world (world.ledger.setRow sid new) visited) :
    Ran world sid old result outcome final := by
  have extend : ∀ {last : Session}, Reaches visited (visited.ledger.setRow sid last) final →
      Reaches world (world.ledger.setRow sid last) final := by
    intro last reaches
    refine ⟨?_, reaches.minted_eq.trans reached.minted_eq⟩
    rw [reaches.ledger_eq, reached.ledger_eq, Ledger.setRow_setRow]
  cases ran with
  | arrived computed more reaches => exact .arrived computed (counted.trans more) (extend reaches)
  | stopped computed more reaches => exact .stopped computed (counted.trans more) (extend reaches)
  | raised computed more reaches => exact .raised computed (counted.trans more) (extend reaches)

theorem wp_incrementVisit {sid : SessionId} {old : Session} {stepId : Val}
    {post : Except Exn Unit → World → Prop} (found : world.ledger.row sid = some old)
    (onOk : ∀ new after, (∃ key, jsonKey env stepId = .ok key) → old.Counted new →
      Becomes world (world.ledger.setRow sid new) after → post (.ok ()) after)
    (onRaise : ∀ raised, jsonKey env stepId = .error raised → post (.error raised) world) :
    Wp (incrementVisit env sid stepId) post world := by
  unfold incrementVisit
  rw [wp_bind, wp_ofExcept]
  cases key : jsonKey env stepId with
  | error raised => exact onRaise raised key
  | ok text =>
      refine wp_changeRow_of found ?_
      intro now after becomes
      refine onOk _ after ⟨text, key⟩ ?_ becomes
      exact ⟨⟨rfl, rfl, rfl, rfl⟩, rfl, rfl, rfl⟩

theorem wp_attemptCascade {α : Type} (body : Server α)
    (post : Except Exn (Except (String × String) α) → World → Prop) :
    Wp (attemptCascade body) post world ↔
      Wp body (fun outcome after =>
        match outcome with
        | .ok value => post (.ok (.ok value)) after
        | .error (.skippedPredecessor sid referencing) => post (.ok (.error (sid, referencing))) after
        | .error raised => post (.error raised) after) world := by
  unfold attemptCascade
  rw [wp_rescue, wp_bind]
  simp only [Wp]
  rcases (body.run world) with ⟨raised | value, after⟩
  · cases raised <;> rfl
  · rfl

theorem wp_autoExecuteMcpSteps {sid : SessionId} {old : Session} (fuel : Nat) (pointer : Val)
    (stepData : StepData) (found : world.ledger.row sid = some old) :
    Wp (autoExecuteMcpSteps env registry wf sid fuel pointer stepData)
    (Ran world sid old (autoRun env registry wf fuel world.outbound.length pointer stepData)) world := by
  induction fuel generalizing world old pointer stepData with
  | zero => exact .raised rfl (Session.Counted.refl old) (Reaches.unmoved found)
  | succ fuel ih =>
      have waiting : Ran world sid old (.ok (.arrived pointer stepData world.outbound.length))
          (.ok (pointer, stepData, none)) world :=
        .arrived rfl (Session.Counted.refl old) (Reaches.unmoved found)
      unfold autoExecuteMcpSteps autoRun
      split
      · exact waiting
      cases at_ : findStep wf pointer with
      | none => exact waiting
      | some entry =>
      obtain ⟨idx, step⟩ := entry
      dsimp only
      by_cases mcp : step.isMcpToolCall
      case neg =>
        simp only [mcp, Bool.not_false, if_true]
        exact waiting
      simp only [mcp, Bool.not_true, Bool.false_eq_true, if_false, if_true]
      rw [wp_bind, wp_ofExcept]
      cases skips : computeSkippedSteps env wf stepData with
      | error raised => exact .raised rfl (Session.Counted.refl old) (Reaches.unmoved found)
      | ok skippedSet =>
      dsimp only
      rw [wp_bind, wp_attemptCascade]
      refine (wp_executeMcpToolCallStep step stepData skippedSet).mono ?_
      intro outcome after ran
      cases result : executed env registry step stepData skippedSet world.outbound.length with
      | error raised =>
          rw [result] at ran
          cases ran
          cases raised with
          | skippedPredecessor => exact .stopped rfl (Session.Counted.refl old) (Reaches.unmoved found)
          | _ => exact .raised rfl (Session.Counted.refl old) (Reaches.unmoved found)
      | ok answer =>
          obtain ⟨envelope, calls⟩ := answer
          rw [result] at ran
          cases ran with
          | ok reaches =>
          have foundAfter : after.ledger.row sid = some old :=
            by rw [reaches.ledger_eq]; exact found
          dsimp only
          rw [wp_bind]
          refine wp_incrementVisit foundAfter ?_ ?_
          · intro new visited _ counted becomes
            have reached : Reaches world (world.ledger.setRow sid new) visited := by
              refine ⟨?_, becomes.minted_eq.trans reaches.minted_eq⟩
              rw [becomes.ledger_eq, reaches.ledger_eq]
            have foundVisited : visited.ledger.row sid = some new := by
              rw [reached.ledger_eq]
              simp
            dsimp only
            rw [wp_bind, wp_attemptCascade, wp_ofExcept, ← becomes.outbound_eq]
            cases skip : applySkipLoop env (afterMcpStep wf idx step) wf
                (Dict.set stepData step.id (env.dumps envelope)) false with
            | error raised =>
                cases raised with
                | skippedPredecessor => exact .stopped rfl counted reached
                | _ => exact .raised rfl counted reached
            | ok next =>
                exact (ih next.1 _ foundVisited).mono fun _ _ ran => ran.after counted reached
          · intro raised broken
            simp [jsonKey] at broken

end Megalos
