import Megalos.ArgResolution

/-!
The end of automatic execution: the moves of the server between the steps of a validated
workflow, and how many outbound calls one request makes.
-/

namespace Megalos

open FiniteRank KeyedTable Relation StatefulProgram

variable {env : Env} {registry : Option Registry} {wf : Workflow} {step : Step} {data : StepData}
  {pointer : Val} {fuel calls : Nat}

/-- The moves that the server makes by itself: past a step with a precondition, or past a step it
ran. -/
def Workflow.Moves (wf : Workflow) (pointer next : String) : Prop :=
  wf.Skips pointer next ∨ pointer ≠ complete ∧
    ∃ idx step, findStep wf (.str pointer) = some (idx, step) ∧
    step.isMcpToolCall = true ∧ afterMcpStep wf idx step = .str next

/-- On the step data automatic execution returns, after finitely many calls, from every step and for
every session. -/
def Workflow.RunsToEnd (env : Env) (registry : Option Registry) (wf : Workflow) (data : StepData) :
    Prop :=
  ∀ (sid : SessionId) (start : String) (world : World), wf.Names start →
    (world.sessions.lookup sid).isSome → ∃ enough, ∀ fuel, enough ≤ fuel → ∃ value after,
      (autoExecuteMcpSteps (env.withFuel fuel) registry wf sid fuel (.str start) data).run world =
        (.ok value, after) ∧
      after.outbound.length ≤ world.outbound.length + enough

/-- The moves of the server that no precondition holds up. -/
def Workflow.Turns (wf : Workflow) (pointer next : String) : Prop :=
  pointer ≠ complete ∧ ∃ idx step, findStep wf (.str pointer) = some (idx, step) ∧
    step.isMcpToolCall = true ∧
    step.precondition = none ∧ afterMcpStep wf idx step = .str next

def Workflow.Unconditional (wf : Workflow) : Prop := ∀ step ∈ wf.steps, step.precondition = none

/-- The timeout of every step that the server can come to has a float. -/
def Workflow.TimeoutsFit (wf : Workflow) : Prop :=
  ∀ place idx step, place ≠ complete → findStep wf (.str place) = some (idx, step) →
    step.isMcpToolCall = true →
    step.TimeoutFits

/-- The arguments of the tools hold no ref. -/
def Workflow.Literal (wf : Workflow) : Prop :=
  ∀ step ∈ wf.steps, step.isMcpToolCall = true → ∀ args, step.get? "args" = some args →
    refsOf args = []

inductive Advance.Within (bound : Nat) : Advance → Prop
  | stopped {pointer : Val} {data : StepData} {calls : Nat} (few : calls ≤ bound) :
      Advance.Within bound (.stopped pointer data calls)
  | arrived {pointer : Val} {data : StepData} {calls : Nat} (few : calls ≤ bound) :
      Advance.Within bound (.arrived pointer data calls)

theorem Advance.Within.mono {bound more : Nat} {advance : Advance} (within : advance.Within bound)
    (le : bound ≤ more) :
    advance.Within more := by
  cases within with
  | stopped few => exact .stopped (few.trans le)
  | arrived few => exact .arrived (few.trans le)

theorem Workflow.Moves.target (checked : wf.Checked) {first second : String}
    (move : wf.Moves first second) :
    second ∈ wf.places := by
  rcases move with skips | ⟨-, idx, step, at_, -, goes⟩
  · exact skips.target
  · unfold afterMcpStep at goes
    split at goes
    · cases declared : step.get? "default_branch" with
      | none =>
          rw [declared, Option.getD_none, Val.str.injEq] at goes
          exact goes ▸ List.mem_cons_self
      | some target =>
          rw [declared, Option.getD_some] at goes
          subst goes
          obtain ⟨named, member, rfl⟩ := checked.mcpDefault step (findStep_mem at_) second declared
          exact List.mem_cons_of_mem _ (List.mem_map_of_mem member)
    · rw [Val.str.injEq] at goes
      exact goes ▸ wf.following_mem idx

theorem executed_calls {skipped : List String} {envelope : Val} {after : Nat}
    (result : executed env registry step data skipped calls = .ok (envelope, after)) :
    after ≤ calls + 1 := by
  unfold executed at result
  split at result
  · cases result
  · simp only [except_bind_ok] at result
    obtain ⟨args, -, resolved, -, result⟩ := result
    split at result
    · simp only [pure, Except.pure, Except.ok.injEq, Prod.mk.injEq] at result
      omega
    · simp only [except_bind_ok, pure, Except.pure, Except.ok.injEq, Prod.mk.injEq] at result
      obtain ⟨-, -, -, -, -, -, -, -, -, rfl⟩ := result
      exact le_rfl

section Rank

variable {rank : String → Nat}

theorem applySkipLoop_rank (falls : ∀ {first second}, wf.Moves first second →
    rank second < rank first)
    {next : Val} {skipped : List String}
    (skip : applySkipLoop env pointer wf data false = .ok (next, skipped)) :
    rankOf rank next ≤ rankOf rank pointer := by
  refine applySkipLoop_rule (fun last => rankOf rank last ≤ rankOf rank pointer) ?_ skip le_rfl
  intro last idx step holds unfinished at_ guarded
  obtain ⟨there, rfl⟩ := findStep_spec at_
  have less : rank (wf.following idx) < rank step.id :=
    falls (.inl ⟨by simpa using unfinished, idx, step, at_, guarded, rfl⟩)
  simp only [rankOf] at holds ⊢
  omega

/-- The turns of automatic execution go down in rank, so they end in a pointer. -/
theorem autoRun_ends (falls : ∀ {first second}, wf.Moves first second → rank second < rank first)
    (readable : ∀ data, wf.Legible env data → wf.Readable env data) (fit : wf.TimeoutsFit)
    (executable : ∀ step ∈ wf.steps, step.isMcpToolCall = true → step.Executable env registry)
    (skipCalm : ∀ pointer data, wf.Legible env data →
      Calm (applySkipLoop env pointer wf data false))
    (legible : wf.Legible env data) (enough : rankOf rank pointer < fuel) :
    ∃ advance, autoRun env registry wf fuel calls pointer data = .ok advance ∧
      advance.Within (calls + rankOf rank pointer) := by
  induction fuel generalizing calls pointer data with
  | zero => omega
  | succ fuel ih =>
      have waits : ∃ advance,
        (.ok (.arrived pointer data calls) : Except Exn Advance) = .ok advance ∧
          advance.Within (calls + rankOf rank pointer) := ⟨_, rfl, .arrived (by omega)⟩
      unfold autoRun
      split
      · exact waits
      rename_i unfinished
      cases at_ : findStep wf pointer with
      | none => exact waits
      | some entry =>
      obtain ⟨idx, step⟩ := entry
      dsimp only
      by_cases mcp : step.isMcpToolCall
      case neg =>
        rw [if_neg mcp]
        exact waits
      rw [if_pos mcp]
      obtain ⟨skipped, computed⟩ : ∃ skipped, computeSkippedSteps env wf data = .ok skipped :=
        skippedFrom_ok (readable data legible).surveyable
      rw [computed]
      dsimp only
      obtain ⟨there, rfl⟩ := findStep_spec at_
      -- the step itself ranks above the place that follows it
      have lower : rankOf rank (afterMcpStep wf idx step) < rankOf rank (.str step.id) := by
        cases goes : afterMcpStep wf idx step with
        | str next =>
            have less := falls (.inr ⟨by simpa using unfinished, idx, step, at_, mcp, goes⟩)
            simp only [rankOf]
            omega
        | _ => exact Nat.succ_pos _
      have fits := fit step.id idx step (by simpa using unfinished) at_ mcp
      have calm : Calm (executed env registry step data skipped calls) :=
        (executable step (findStep_mem at_) mcp).calm mcp fits (legible step (findStep_mem at_))
      cases ran : executed env registry step data skipped calls with
      | error raised =>
          rw [ran] at calm
          obtain ⟨sid, referencing, rfl⟩ := calm raised rfl
          exact ⟨_, rfl, .stopped (by omega)⟩
      | ok answer =>
          obtain ⟨envelope, after⟩ := answer
          have more := executed_calls ran
          have still : wf.Legible env (data.set step.id (env.dumps envelope)) :=
            legible.set (executed_contained ran)
          dsimp only
          have skips := skipCalm (afterMcpStep wf idx step) _ still
          cases skip : applySkipLoop env (afterMcpStep wf idx step) wf (data.set step.id (env.dumps envelope)) false with
          | error raised =>
              rw [skip] at skips
              obtain ⟨sid, referencing, rfl⟩ := skips raised rfl
              exact ⟨_, rfl, .stopped (by omega)⟩
          | ok next =>
              obtain ⟨next, passed⟩ := next
              have notAbove := applySkipLoop_rank falls skip
              have below : rankOf rank next < fuel := by omega
              obtain ⟨advance, result, within⟩ := ih still below
              exact ⟨advance, result, within.mono (by omega)⟩

end Rank

/-! The same checks with more or less patience. -/

mutual

theorem validateMcpArgValue_withFuel {label path : String} : (value : Val) →
    validateMcpArgValue (env.withFuel fuel) label path value =
      validateMcpArgValue env label path value
  | .dict entries => by simpa [validateMcpArgValue] using validateMcpArgEntries_withFuel entries
  | .list items => by simpa [validateMcpArgValue] using validateMcpArgItems_withFuel 0 items
  | .str _ => rfl
  | .none => rfl
  | .bool _ => rfl
  | .int _ => rfl
  | .float _ => rfl
  | .native _ => rfl
  | .absent => rfl

theorem validateMcpArgItems_withFuel {label path : String} : (index : Nat) → (items : List Val) →
    validateMcpArgItems (env.withFuel fuel) label path index items =
      validateMcpArgItems env label path index items
  | _, [] => rfl
  | index, item :: rest => by
      simp only [validateMcpArgItems, validateMcpArgValue_withFuel item,
        validateMcpArgItems_withFuel (index + 1) rest]

theorem validateMcpArgEntries_withFuel {label path : String} : (entries : List (Val × Val)) →
    validateMcpArgEntries (env.withFuel fuel) label path entries =
      validateMcpArgEntries env label path entries
  | [] => rfl
  | (key, value) :: rest => by
      cases key <;> simp only [validateMcpArgEntries, validateMcpArgValue_withFuel value,
        validateMcpArgEntries_withFuel rest]

end

theorem Step.Executable.withFuel (executable : step.Executable env registry) (fuel : Nat) :
    step.Executable (env.withFuel fuel) registry := by
  obtain ⟨server, tool, entries, isArgs, checked⟩ := executable
  refine ⟨server, tool, entries, isArgs, ?_⟩
  intro entry member
  obtain ⟨label, path, passed⟩ := checked entry member
  exact ⟨label, path, by rw [validateMcpArgValue_withFuel, passed]⟩

namespace Workflow

theorem Validated.checked (validated : wf.Validated env registry) : wf.Checked := by
  obtain ⟨stem, raw, doc, loaded, loads⟩ := validated
  exact loadWorkflow_checked loaded loads

theorem Validated.runsToEnd_of_acyclic (validated : wf.Validated env registry)
    (tools : wf.ToolsEvaluable env) (fit : wf.TimeoutsFit) (acyclic : Acyclic wf.Moves)
    (legible : wf.Legible env data) :
    wf.RunsToEnd env registry data := by
  obtain ⟨rank, bound, falls⟩ := exists_rank acyclic (Moves.target validated.checked)
  intro sid start world named there
  obtain ⟨row, found⟩ := Option.isSome_iff_exists.mp there
  refine ⟨wf.places.length + 2, fun fuel enough => ?_⟩
  have readable : ∀ data, wf.Legible (env.withFuel fuel) data →
    wf.Readable (env.withFuel fuel) data :=
    fun data legible => (validated.readable tools legible).withFuel fuel
  have executable : ∀ step ∈ wf.steps, step.isMcpToolCall = true →
    step.Executable (env.withFuel fuel) registry :=
    fun step member mcp => (validated.executable member mcp).withFuel fuel
  have skipCalm : ∀ pointer data, wf.Legible (env.withFuel fuel) data →
      Calm (applySkipLoop (env.withFuel fuel) pointer wf data false) :=
    fun pointer data legible => applySkipLoop_calm (readable data legible)
      (acyclic.mono fun skips => .inl skips)
      (by simp only [Env.withFuel]; omega) false
  have low := bound start
  have below : rankOf rank (.str start) < fuel := by
    simp only [rankOf]
    omega
  obtain ⟨advance, computed, within⟩ : ∃ advance,
    autoRun (env.withFuel fuel) registry wf fuel world.outbound.length
      (.str start) data = .ok advance ∧
        advance.Within (world.outbound.length + rankOf rank (.str start)) :=
    autoRun_ends falls readable fit executable skipCalm legible below
  rcases result : (autoExecuteMcpSteps (env.withFuel fuel) registry wf sid fuel (.str start) data).run world with
    ⟨outcome, after⟩
  have ran := (wp_autoExecuteMcpSteps fuel (.str start) data (show world.ledger.row sid = some row from found)).elim result
  simp only [rankOf] at within
  cases ran with
  | arrived same counted reaches =>
      rw [computed, Except.ok.injEq] at same
      subst same
      cases within with
      | arrived few => exact ⟨_, _, rfl, by omega⟩
  | stopped same counted reaches =>
      rw [computed, Except.ok.injEq] at same
      subst same
      cases within with
      | stopped few => exact ⟨_, _, rfl, by omega⟩
  | raised same counted reaches =>
      rw [computed] at same
      cases same

end Workflow

/-! A cycle of moves that no precondition holds up goes on for ever. -/

def Named {α : Type} (skipped : List String) (result : Except Exn α) : Prop :=
  ∀ sid referencing, result = .error (.skippedPredecessor sid referencing) → sid ∈ skipped

theorem Named.bind {α β : Type} {skipped : List String} {first : Except Exn α}
    {next : α → Except Exn β} (named : Named skipped first)
    (rest : ∀ value, Named skipped (next value)) : Named skipped (first >>= next) := by
  cases first with
  | error raised =>
      intro sid referencing same
      rw [error_bind, Except.error.injEq] at same
      exact named sid referencing (by rw [same])
  | ok value => exact rest value

theorem Named.ok {α : Type} {skipped : List String} {value : α} :
    Named skipped (.ok value : Except Exn α) := by
  intro sid referencing same
  cases same

theorem Named.fieldItem {skipped : List String} {fields : List (String × Val)} {key : String} :
    Named skipped (fieldItem fields key) := by
  intro sid referencing same
  unfold Megalos.fieldItem at same
  split at same <;> simp at same

theorem Named.server {skipped : List String} {servers : Registry} {server : Val} :
    Named skipped (servers.get server) := by
  intro sid referencing same
  unfold Registry.get at same
  dsimp only at same
  split at same <;> simp at same

section Named

variable {skipped : List String} {referencing : String}

theorem resolveRef_named {ref : Val} :
    Named skipped (resolveRef env ref data skipped referencing) := by
  unfold resolveRef
  refine Named.bind ?_ fun parts => ?_
  · intro sid other same
    unfold refParts at same
    split at same <;> simp at same
  · intro sid other same
    split at same
    · rename_i first name path
      by_cases gone : name ∈ skipped
      · rw [if_pos gone] at same
        change Except.error _ = _ at same
        rw [Except.error.injEq, Exn.skippedPredecessor.injEq] at same
        exact same.1 ▸ gone
      · simp only [gone, if_false, pure, Except.pure] at same
        split at same
        · simp at same
        · rename_i raw found
          split at same
          · simp at same
          · cases read : env.tryLoads raw with
            | error raised =>
                rw [read, error_bind, Except.error.injEq] at same
                obtain ⟨message, rfl | rfl⟩ := tryLoads_raises read <;> cases same
            | ok loaded =>
                rw [read, ok_bind] at same
                split at same <;> cases same
    · cases same

mutual

theorem resolveArgs_named :
    (value : Val) → Named skipped (resolveArgs env data skipped referencing value)
  | .dict entries => by
      unfold resolveArgs
      exact (resolveEntries_named entries).bind fun _ => .ok
  | .list items => by
      unfold resolveArgs
      exact (resolveItems_named items).bind fun _ => .ok
  | .str text => by
      unfold resolveArgs
      split
      · split
        · exact .ok
        · rename_i raised resolved
          intro sid other same
          rw [Except.error.injEq] at same
          subst same
          exact resolveRef_named sid other resolved
      · exact .ok
  | .none => .ok
  | .bool _ => .ok
  | .int _ => .ok
  | .float _ => .ok
  | .native _ => .ok
  | .absent => .ok

theorem resolveItems_named : (items : List Val) → Named skipped (resolveItems env data skipped referencing items)
  | [] => .ok
  | item :: rest => by
      unfold resolveItems
      exact (resolveArgs_named item).bind fun _ => (resolveItems_named rest).bind fun _ => .ok

theorem resolveEntries_named : (entries : List (Val × Val)) →
    Named skipped (resolveEntries env data skipped referencing entries)
  | [] => .ok
  | (key, value) :: rest => by
      unfold resolveEntries
      exact (resolveArgs_named value).bind fun _ => (resolveEntries_named rest).bind fun _ => .ok

end

theorem executed_named : Named skipped (executed env registry step data skipped calls) := by
  unfold executed
  split
  · intro sid other same
    cases same
  · rename_i servers
    refine Named.fieldItem.bind fun args => (resolveArgs_named args).bind fun resolved => ?_
    split
    · exact .ok
    · refine Named.bind ?_ fun _ => Named.fieldItem.bind fun server => Named.fieldItem.bind fun _ =>
        Named.server.bind fun _ => .ok
      intro sid other same
      unfold effectiveTimeout at same
      split at same
      · unfold floatOfInt at same
        split at same <;> simp at same
      · simp at same
      · split at same
        · rename_i raised missing
          rw [Except.error.injEq] at same
          exact Named.fieldItem sid other (same ▸ missing)
        · rename_i server found
          split at same
          · rename_i raised unknown
            rw [Except.error.injEq] at same
            exact Named.server sid other (same ▸ unknown)
          · simp at same

end Named

theorem skippedFrom_full {steps : List Step} {skipped : List String}
    (full : ∀ step ∈ steps, data.contains step.id = true) : skippedFrom env data steps skipped = .ok skipped := by
  induction steps with
  | nil => rfl
  | cons step rest ih =>
      rw [skippedFrom, if_pos (full step (by simp))]
      exact ih fun other member => full other (by simp [member])

theorem exists_full (env : Env) (wf : Workflow) (steps : List Step) :
    ∃ data : StepData, wf.Legible env data ∧ ∀ step ∈ steps, data.contains step.id = true := by
  induction steps with
  | nil =>
      refine ⟨Table.empty, ?_, by simp⟩
      intro step member sid raw reads found
      cases found
  | cons first rest ih =>
      obtain ⟨data, legible, full⟩ := ih
      refine ⟨data.set first.id _, legible.set (env.envelopeContained .timeoutError), ?_⟩
      intro step member
      rw [Dict.contains_iff_get?, Dict.get?_set]
      split
      · rfl
      · rename_i differs
        rcases List.mem_cons.mp member with rfl | later
        · exact absurd rfl differs
        · rw [← Dict.contains_iff_get?]
          exact full step later

theorem Workflow.turns_functional {place first second : String} (one : wf.Turns place first)
    (other : wf.Turns place second) : first = second := by
  obtain ⟨-, idx, step, at_, -, -, goes⟩ := one
  obtain ⟨-, idx', step', at', -, -, goes'⟩ := other
  rw [at_, Option.some.injEq, Prod.mk.injEq] at at'
  obtain ⟨rfl, rfl⟩ := at'
  exact Val.str.inj (goes.symm.trans goes')

theorem autoRun_cycle {place : String} (cycle : TransGen wf.Turns place place)
    (full : ∀ step ∈ wf.steps, data.contains step.id = true) (advance : Advance) :
    autoRun env registry wf fuel calls (.str place) data ≠ .ok advance := by
  induction fuel generalizing place calls data with
  | zero => simp [autoRun]
  | succ fuel ih =>
      obtain ⟨next, turn, -⟩ := TransGen.head'_iff.mp cycle
      have onward := cycle_next cycle Workflow.turns_functional turn
      obtain ⟨unfinished, idx, step, at_, mcp, -, goes⟩ := turn
      have running : (Val.str place).isStr complete = false := by simpa using unfinished
      have computed : computeSkippedSteps env wf data = .ok [] := skippedFrom_full full
      simp only [autoRun, running, at_, mcp, computed, goes, Bool.false_eq_true, if_false, if_true]
      cases ran : executed env registry step data [] calls with
      | error raised =>
          cases raised with
          | skippedPredecessor sid referencing => exact absurd (executed_named sid referencing ran) (by simp)
          | _ => simp
      | ok answer =>
          obtain ⟨envelope, after⟩ := answer
          dsimp only
          have stillFull : ∀ other ∈ wf.steps,
            (data.set step.id (env.dumps envelope)).contains other.id = true := by
            intro other member
            have there := full other member
            rw [Dict.contains_iff_get?] at there ⊢
            rw [Dict.get?_set]
            split
            · rfl
            · exact there
          have computedNext : computeSkippedSteps env wf (data.set step.id (env.dumps envelope)) =
            .ok [] :=
            skippedFrom_full stillFull
          -- the next place is on the cycle as well, so its step has no precondition
          obtain ⟨later, turn, -⟩ := TransGen.head'_iff.mp onward
          obtain ⟨unfinishedNext, idxNext, stepNext, atNext, -, plain, -⟩ := turn
          have runningNext : (Val.str next).isStr complete = false := by simpa using unfinishedNext
          simp only [applySkipLoop, Bool.false_eq_true, if_false, computedNext]
          cases env.fuel with
          | zero => simp [skipLoop]
          | succ patience =>
              simp only [skipLoop, runningNext, atNext, plain, Bool.false_eq_true, if_false]
              exact ih onward stillFull

namespace Workflow

theorem exists_session (place : String) :
    ∃ (world : World) (sid : SessionId) (row : Session), world.ledger.row sid = some row := by
  let row := newSession ⟨""⟩ "" place none "" 0
  exact ⟨{ World.empty with sessions := Table.empty.upsert row }, row.sessionId, row,
    by simp [World.ledger, Table.lookup_upsert]⟩

/-- Where automatic execution returns the turns that it takes end in a pointer. -/
theorem RunsToEnd.computed {place : String} (runs : wf.RunsToEnd env registry data)
    (named : wf.Names place) :
    ∃ fuel calls advance,
      autoRun (env.withFuel (fuel + 1)) registry wf (fuel + 1) calls (.str place) data =
      .ok advance := by
  obtain ⟨world, sid, row, found⟩ := exists_session place
  obtain ⟨enough, ends⟩ := runs sid place world named (Option.isSome_iff_exists.mpr ⟨row, found⟩)
  obtain ⟨value, after, result, -⟩ := ends (enough + 1) (by omega)
  have ran := (wp_autoExecuteMcpSteps (enough + 1) (.str place) data found).elim result
  cases ran with
  | arrived computed _ _ => exact ⟨enough, _, _, computed⟩
  | stopped computed _ _ => exact ⟨enough, _, _, computed⟩

theorem RunsToEnd.acyclic (runs : ∀ data, wf.Legible env data → wf.RunsToEnd env registry data) :
    Acyclic wf.Turns := by
  intro place cycle
  obtain ⟨data, legible, full⟩ := exists_full env wf wf.steps
  obtain ⟨next, turn, -⟩ := TransGen.head'_iff.mp cycle
  obtain ⟨-, idx, step, at_, -⟩ := turn
  have named : wf.Names place := ⟨step, findStep_mem at_, (Val.str.inj (findStep_spec at_).2).symm⟩
  obtain ⟨fuel, calls, advance, computed⟩ := (runs data legible).computed named
  exact autoRun_cycle cycle full advance computed

theorem Unconditional.turns (plain : wf.Unconditional) {first second : String}
    (move : wf.Moves first second) :
    wf.Turns first second := by
  rcases move with ⟨-, idx, step, at_, guarded, -⟩ | ⟨unfinished, idx, step, at_, mcp, goes⟩
  · rw [plain step (findStep_mem at_)] at guarded
    simp at guarded
  · exact ⟨unfinished, idx, step, at_, mcp, plain step (findStep_mem at_), goes⟩

theorem Unconditional.skippedFrom {steps : List Step}
    (plain : ∀ step ∈ steps, step.precondition = none) {skipped : List String} :
    skippedFrom env data steps skipped = .ok skipped := by
  induction steps with
  | nil => rfl
  | cons step rest ih =>
      rw [Megalos.skippedFrom, plain step (by simp), ih fun other member =>
        plain other (by simp [member])]
      exact ite_self _

theorem executed_overflow {skipped : List String} (executable : step.Executable env registry)
    (literal : ∀ args, step.get? "args" = some args → refsOf args = [])
    (large : ¬step.TimeoutFits) :
    executed env registry step data skipped calls =
      .error (.uncaught "OverflowError" "int too large to convert to float") := by
  obtain ⟨⟨servers, name, config, rfl, isServer, known⟩, -, entries, isArgs, checked⟩ := executable
  have argsItem : step.item "args" = .ok (.dict entries) := by
    rw [Step.item, fieldItem, show field? step.fields "args" = _ from isArgs]
  have noRefs := literal _ isArgs
  have resolved : resolveArgs env data skipped step.id (.dict entries) =
      .ok (substitute (resolvedValue env data) (.dict entries)) := by
    rw [resolveArgs_dict checked, noRefs]
    rfl
  have free : hasAbsent (substitute (resolvedValue env data) (.dict entries)) = false := by
    have marked : hasAbsentEntry (substituteEntries (resolvedValue env data) entries) = _ :=
      hasAbsent_substituteEntries entries checked
    rw [show refsOfEntries entries = [] from noRefs] at marked
    exact marked
  have present : findAbsentRefPath (substitute (resolvedValue env data) (.dict entries)) "" =
    none := by
    rw [← Option.isNone_iff_eq_none, ← Option.isSome_eq_false_iff, findAbsentRefPath_isSome, free]
  unfold executed
  simp only [argsItem, resolved, present, ok_bind, effectiveTimeout_overflow large]
  rfl

theorem RunsToEnd.timeoutsFit (validated : wf.Validated env registry) (plain : wf.Unconditional)
    (literal : wf.Literal) (runs : wf.RunsToEnd env registry data) : wf.TimeoutsFit := by
  intro place idx step unfinished at_ mcp
  by_contra large
  have named : wf.Names place := ⟨step, findStep_mem at_, (Val.str.inj (findStep_spec at_).2).symm⟩
  obtain ⟨fuel, calls, advance, computed⟩ := runs.computed named
  have running : (Val.str place).isStr complete = false := by simpa using unfinished
  have none : computeSkippedSteps (env.withFuel (fuel + 1)) wf data = .ok [] :=
    Unconditional.skippedFrom plain
  have raises : executed (env.withFuel (fuel + 1)) registry step data [] calls = _ :=
    executed_overflow ((validated.executable (findStep_mem at_) mcp).withFuel (fuel + 1))
      (literal step (findStep_mem at_) mcp) large
  simp [autoRun, running, at_, mcp, none, raises] at computed

end Workflow

def runDoc : Val := workflowDoc "run" [stepDoc "a" [], mcpDoc "t" [], stepDoc "b" []]

def spinDoc : Val := workflowDoc "spin" [
  mcpDoc "t" [("branches", .list [.obj [("next", .str "t"), ("condition", .str "again")]]),
    ("default_branch", .str "t")]]

end Megalos
