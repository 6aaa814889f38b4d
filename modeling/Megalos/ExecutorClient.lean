import Megalos.ClientRetry
import Megalos.Ending
import Megalos.Library.AnswerTable

/-!
The executor with its client.  The model of the server takes the outcome of each outbound
call from its environment; here the call goes through `mcp_client.call`, over the store
of the server and the state of the client together.
-/

namespace Megalos

open AnswerTable KeyedTable StatefulProgram StatefulProgram.Program

def executorRegistry (registry : McpRegistry.Registry) : Registry :=
  ⟨registry.servers.map fun config => ⟨config.timeoutDefault.map Val.float⟩⟩

/-- The environment with a table of outcomes for the outbound calls. -/
def Env.withOutcomes (env : Env) (outcomes : Nat → CallOutcome) : Env :=
    { env with mcpOutcome := outcomes }

/-- The store of a server process, and the client in it. -/
abbrev Hosted (α : Type) := Program (World × McpClient.Client) Exn α

def McpClient.Raised.inServer : McpClient.Raised → Exn
  | .unknownServer text => .uncaught "UnknownServer" text
  | _ => .uncaught "Exception" ""

namespace Hosted

/-- The request as the client takes it; a validated step names its server and its tool by texts. -/
def asked (registry : McpRegistry.Registry) (request : McpRequest) : Option McpClient.Request :=
  match request.serverName, request.tool, request.timeout with
  | .str serverName, .str tool, .float timeout =>
    some ⟨serverName, tool, request.args, registry, some timeout⟩
  | _, _, _ => none

variable (clientEnv : McpClient.ClientEnv)

def mcpCall (registry : McpRegistry.Registry) (request : McpRequest) : Hosted CallOutcome :=
  match asked registry request with
  | none => raise (.uncaught "TypeError" "")
  | some asked => do
      let outcome ← serve McpClient.Raised.inServer (McpClient.call clientEnv asked)
      own (write fun world => { world with outbound := world.outbound ++ [request] })
      return outcome

def executeMcpToolCallStep (registry : McpRegistry.Registry) (step : Step) (stepData : StepData)
    (skippedSet : List String) : Hosted Val := do
  let args ← own (ofExcept (step.item "args"))
  let resolved ← own (ofExcept (resolveArgs clientEnv.env stepData skippedSet step.id args))
  match findAbsentRefPath resolved "" with
  | some path => return failureEnvelope ("unresolved arg ref: $\x7bstep_data." ++ path ++ "\x7d")
  | none =>
      let timeout ← own (ofExcept (effectiveTimeout step (executorRegistry registry)))
      let serverName ← own (ofExcept (step.item "server"))
      let tool ← own (ofExcept (step.item "tool"))
      let outcome ← mcpCall clientEnv registry { serverName, tool, args := resolved, timeout }
      return mapOutcomeToEnvelope outcome

def cascadeHandler {α : Type} : Exn → Hosted (Except (String × String) α)
  | .skippedPredecessor sid referencing => pure (.error (sid, referencing))
  | other => raise other

def attemptCascade {α : Type} (body : Hosted α) : Hosted (Except (String × String) α) :=
  rescue (do return .ok (← body)) cascadeHandler

def autoExecuteMcpSteps (registry : McpRegistry.Registry) (wf : Workflow) (sessionId : SessionId) :
    Nat → Val → StepData → Hosted (Val × StepData × Option Val)
  | 0, _, _ => raise .diverges
  | fuel + 1, nextStepId, stepData => do
      if nextStepId.isStr complete then return (nextStepId, stepData, none)
      match findStep wf nextStepId with
      | none => return (nextStepId, stepData, none)
      | some (idx, step) =>
          if !step.isMcpToolCall then return (nextStepId, stepData, none)
          let skippedSet ← own (ofExcept (computeSkippedSteps clientEnv.env wf stepData))
          match ← attemptCascade (executeMcpToolCallStep clientEnv registry step stepData skippedSet) with
          | .error (sid, referencing) =>
              return (nextStepId, stepData, some (skippedPredecessorError
                (computeFingerprint clientEnv.env sessionId.text) nextStepId sid referencing "args"))
          | .ok envelope =>
              let stepData := stepData.set step.id (clientEnv.env.dumps envelope)
              own (incrementVisit clientEnv.env sessionId (.str step.id))
              let nextStepId := afterMcpStep wf idx step
              match ← attemptCascade (own (ofExcept (applySkipLoop clientEnv.env nextStepId wf stepData false))) with
              | .error (sid, referencing) =>
                  return (nextStepId, stepData, some (skippedPredecessorError
                    (computeFingerprint clientEnv.env sessionId.text) nextStepId sid referencing "precondition"))
              | .ok (nextStepId, _) =>
                  autoExecuteMcpSteps registry wf sessionId fuel nextStepId stepData

end Hosted

/-! The helpers do not look at the outcomes. -/

section Outcomes

variable {env : Env} {outcomes : Nat → CallOutcome} {data : StepData}

theorem skippedFrom_withOutcomes {steps : List Step} {skipped : List String} :
    skippedFrom (env.withOutcomes outcomes) data steps skipped =
      skippedFrom env data steps skipped :=
  skippedFrom_loads (show (env.withOutcomes outcomes).loads = env.loads from rfl)

theorem skipLoop_withOutcomes {wf : Workflow} {fuel : Nat} {pointer : Val}
    {skippedSet skipped : List String} :
    skipLoop (env.withOutcomes outcomes) wf data fuel pointer skippedSet skipped =
      skipLoop env wf data fuel pointer skippedSet skipped := by
  induction fuel generalizing pointer skippedSet skipped with
  | zero => rfl
  | succ fuel ih =>
      simp only [skipLoop, ih]
      rfl

theorem applySkipLoop_withOutcomes {wf : Workflow} {pointer : Val} {forced : Bool} :
    applySkipLoop (env.withOutcomes outcomes) pointer wf data forced =
      applySkipLoop env pointer wf data forced := by
  simp only [applySkipLoop, computeSkippedSteps, skippedFrom_withOutcomes, skipLoop_withOutcomes]
  rfl

theorem resolveArgs_withOutcomes {skipped : List String} {referencing : String} (value : Val) :
    resolveArgs (env.withOutcomes outcomes) data skipped referencing value =
      resolveArgs env data skipped referencing value :=
  resolveArgs_loads (show (env.withOutcomes outcomes).loads = env.loads from rfl) value

end Outcomes

structure Step.Dispatched (registry : Registry) (step : Step) : Prop where
  server : ∃ name config, step.get? "server" = some (.str name) ∧
    registry.servers.get? name = some config
  tool : ∃ name, step.get? "tool" = some (.str name)

theorem Workflow.Validated.dispatched {env : Env} {registry : Registry} {wf : Workflow}
    {step : Step} (validated : wf.Validated env (some registry)) (member : step ∈ wf.steps)
    (mcp : step.isMcpToolCall = true) :
    step.Dispatched registry := by
  obtain ⟨servers, name, config, same, isServer, known⟩ := (validated.executable member mcp).server
  obtain ⟨entries, position, -, -, from_, passed, -, -⟩ := validated.source member
  have isMcp : isMcpMapping entries = true := from_.isMcp.trans mcp
  simp only [validateStep, isMcp, if_true, gather_ok_nil, List.forall_mem_cons,
    validateMcpToolCallStep, naming_ok_nil] at passed
  obtain ⟨-, ⟨-, tool, -, -⟩, -⟩ := passed
  obtain ⟨toolName, isTool, -⟩ := literalField_nil tool
  cases same
  refine ⟨⟨name, config, isServer, known⟩, toolName, ?_⟩
  rw [from_.get_eq (by simp)]
  exact isTool

/-- Where the cursor of a server stands: at the number of its outbound calls. -/
def World.calls (world : World) : Nat := world.outbound.length

section Simulation

variable {clientEnv : McpClient.ClientEnv} {registry : McpRegistry.Registry} {wf : Workflow}
    {step : Step}

theorem executorRegistry_get? (name : String) : (executorRegistry registry).servers.get? name =
    (registry.servers.get? name).map fun config => ⟨config.timeoutDefault.map Val.float⟩ :=
  Dict.get?_map registry.servers _ name

theorem item_of_get? {key : String} {value : Val} (found : step.get? key = some value) :
    step.item key = .ok value := by
  simp [Step.item, fieldItem, show field? step.fields key = _ from found]

theorem executorRegistry_get {server : Val} {config : ServerConfig}
    (found : (executorRegistry registry).get server = .ok config) :
    ∃ seconds, config.timeoutDefault.getD (.float (.finite 30)) = .float seconds := by
  have held : ∃ name, (executorRegistry registry).servers.get? name = some config := by
    cases server with
    | str name =>
        simp only [Registry.get] at found
        cases there : (executorRegistry registry).servers.get? name with
        | none => simp [there] at found
        | some config =>
            rw [there, Except.ok.injEq] at found
            exact ⟨name, found ▸ there⟩
    | _ => cases found
  obtain ⟨name, held⟩ := held
  rw [executorRegistry_get?] at held
  obtain ⟨source, -, rfl⟩ := Option.map_eq_some_iff.mp held
  cases source.timeoutDefault with
  | none => exact ⟨_, rfl⟩
  | some seconds => exact ⟨seconds, rfl⟩

theorem effectiveTimeout_float {timeout : Val}
    (effective : effectiveTimeout step (executorRegistry registry) = .ok timeout) :
    ∃ seconds, timeout = .float seconds := by
  unfold effectiveTimeout at effective
  split at effective
  · unfold floatOfInt at effective
    split at effective
    · exact ⟨_, (Except.ok.inj effective).symm⟩
    · cases effective
  · exact ⟨_, (Except.ok.inj effective).symm⟩
  · split at effective
    · cases effective
    · split at effective
      · cases effective
      · rename_i config found
        rw [← Except.ok.inj effective]
        exact executorRegistry_get found

/-- The call of the client is the call of the model, with the outcome in the table. -/
theorem replays_mcpCall {name tool : String} {args : Val} {seconds : PyFloat}
    {config : ServerConfig} (known : (executorRegistry registry).servers.get? name = some config) :
    Replays World.calls (Hosted.mcpCall clientEnv registry ⟨.str name, .str tool, args,
      .float seconds⟩) fun table =>
      mcpCall (clientEnv.env.withOutcomes table) (executorRegistry registry)
        ⟨.str name, .str tool, args, .float seconds⟩ := by
  rintro ⟨world, client⟩
  have reads : (executorRegistry registry).get (.str name) = .ok config := by
    simp only [Registry.get, known]
  rw [executorRegistry_get?] at known
  obtain ⟨source, isSource, -⟩ := Option.map_eq_some_iff.mp known
  have looked : McpClient.lookupServer clientEnv registry name = .ok source := by
    simp only [McpClient.lookupServer, McpRegistry.Registry.get, isSource]
  have ends : McpClient.CallEnds clientEnv ⟨name, tool, args, registry, some seconds⟩ client _ _ :=
    McpClient.wp_call
  rcases ran : (McpClient.call clientEnv ⟨name, tool, args, registry, some seconds⟩).run client with
    ⟨raised | outcome, reached⟩
  · rw [ran] at ends
    cases ends with
    | unknown refused =>
        rw [looked] at refused
        cases refused
  · have hosted : (Hosted.mcpCall clientEnv registry ⟨.str name, .str tool, args,
      .float seconds⟩).run (world, client) =
        (.ok outcome,
          ({ world with outbound := world.outbound ++
            [⟨.str name, .str tool, args, .float seconds⟩] }, reached)) := by
      unfold Hosted.mcpCall Hosted.asked
      dsimp only
      rw [bind_ok (show (serve McpClient.Raised.inServer (McpClient.call clientEnv _)).run (world,
        client) =
        (.ok outcome, (world, reached)) by simp only [serve, ran]; rfl)]
      rfl
    rw [hosted]
    refine ⟨[outcome], ?_, fun table lists => ?_⟩
    · simp [World.calls]
    · have listed : table world.outbound.length = outcome := lists 0 outcome rfl
      unfold mcpCall
      rw [reads]
      change ((.ok (table world.outbound.length), _) : Except Exn CallOutcome × World) = _
      rw [listed]

theorem replays_executeMcpToolCallStep {data : StepData} {skipped : List String}
    (dispatched : step.Dispatched (executorRegistry registry)) :
    Replays World.calls (Hosted.executeMcpToolCallStep clientEnv registry step data skipped) fun table =>
      executeMcpToolCallStep (clientEnv.env.withOutcomes table)
        (some (executorRegistry registry)) step data skipped := by
  obtain ⟨⟨name, config, isServer, known⟩, tool, isTool⟩ := dispatched
  unfold Hosted.executeMcpToolCallStep executeMcpToolCallStep
  dsimp only
  refine Replays.bind_result fun args _ => ?_
  simp only [resolveArgs_withOutcomes]
  refine Replays.bind_result fun resolved _ => ?_
  cases findAbsentRefPath resolved "" with
  | some path => exact Replays.of_pure _
  | none =>
      dsimp only
      refine Replays.bind_result fun timeout effective => ?_
      obtain ⟨seconds, rfl⟩ := effectiveTimeout_float effective
      rw [item_of_get? isServer, item_of_get? isTool]
      exact (replays_mcpCall known).bind fun outcome => Replays.of_pure _

theorem replays_attemptCascade {α : Type} {body : Hosted α}
    {tabled : (Nat → CallOutcome) → Server α} (replays : Replays World.calls body tabled) :
    Replays World.calls (Hosted.attemptCascade body) fun table =>
      attemptCascade (tabled table) := by
  refine Replays.rescue (replays.bind fun value => Replays.of_pure _) fun raised => ?_
  cases raised with
  | skippedPredecessor sid referencing => exact Replays.of_pure _
  | _ => exact Replays.of_raise _

theorem incrementVisit_calls {env : Env} {sid : SessionId} {stepId : Val} (world : World) :
    Wp (incrementVisit env sid stepId) (fun _ after => after.calls = world.calls) world := by
  unfold incrementVisit
  rw [wp_bind, wp_ofExcept]
  cases jsonKey env stepId with
  | error raised => rfl
  | ok key =>
      refine wp_changeRow ?_ fun after _ becomes => congrArg List.length becomes.outbound_eq
      exact fun session now after found becomes => congrArg List.length becomes.outbound_eq

theorem replays_autoExecuteMcpSteps {sid : SessionId}
    (dispatched : ∀ step ∈ wf.steps, step.isMcpToolCall = true →
    step.Dispatched (executorRegistry registry)) (fuel : Nat) (pointer : Val) (data : StepData) :
    Replays World.calls (Hosted.autoExecuteMcpSteps clientEnv registry wf sid fuel pointer data) fun table =>
      autoExecuteMcpSteps (clientEnv.env.withOutcomes table)
        (some (executorRegistry registry)) wf sid fuel pointer
        data := by
  induction fuel generalizing pointer data with
  | zero => exact Replays.of_raise _
  | succ fuel ih =>
      unfold Hosted.autoExecuteMcpSteps autoExecuteMcpSteps
      split
      · exact Replays.of_pure _
      cases at_ : findStep wf pointer with
      | none => exact Replays.of_pure _
      | some entry =>
          obtain ⟨idx, step⟩ := entry
          dsimp only
          split
          · exact Replays.of_pure _
          rename_i isMcp
          rw [Bool.not_eq_true', Bool.not_eq_false] at isMcp
          simp only [computeSkippedSteps, skippedFrom_withOutcomes, applySkipLoop_withOutcomes]
          refine Replays.bind_result fun skipped _ => ?_
          refine (replays_attemptCascade (replays_executeMcpToolCallStep
            (dispatched step (findStep_mem at_) isMcp))).bind fun ran => ?_
          cases ran with
          | error cascade => exact Replays.of_pure _
          | ok envelope =>
              dsimp only
              refine (Replays.of_own (fun _ => rfl) incrementVisit_calls).bind fun _ => ?_
              refine (replays_attemptCascade (Replays.of_own (fun _ => rfl) fun _ =>
                rfl)).bind fun skips => ?_
              cases skips with
              | error cascade => exact Replays.of_pure _
              | ok skips => exact ih _ _

/-- A client whose server lists the tool `run` and answers every call of it. -/
def sampleClientEnv : McpClient.ClientEnv where
  environ _ _ := some "token"
  listTools _ _ _ _ := .ok [⟨"run", .dict [(.str "type", .str "object")]⟩]
  callTool _ _ _ _ _ _ := .ok ⟨false, [.text "done"]⟩
  compile _ := .ok ()
  validate _ _ := .valid
  dumpsSorted _ := some "\x7b\x7d"
  sha256 text := text
  env := sampleEnv
  reprOf _ := ""

def sampleServers : McpRegistry.Registry :=
  ⟨Dict.set Table.empty "tools" ⟨"tools", "http://localhost", "http", ⟨"bearer", "TOKEN"⟩, none⟩⟩

/-- A store with one session of the workflow. -/
def openedRun : World :=
    ((createSession sampleEnv "run" "a" none .call none none "").run World.empty).2

end Simulation

/-! Where the envelopes come from. -/

section Provenance

open McpClient

variable {clientEnv : ClientEnv} {registry : McpRegistry.Registry} {wf : Workflow} {step : Step}

/-- The envelope of a failure, or of the text that the step's own tool answered, in the call between
two traces, to the arguments that the step's are resolved to. -/
inductive EnvelopeOf (clientEnv : ClientEnv) (data : StepData) (skipped : List String)
    (since trace : List Exchange) (step : Step) : Val → Prop
  | failed (message : String) :
      EnvelopeOf clientEnv data skipped since trace step (failureEnvelope message)
  | value {serverName tool value : String} {args resolved : Val}
      (server : step.item "server" = .ok (.str serverName))
      (named : step.item "tool" = .ok (.str tool))
      (item : step.item "args" = .ok args)
      (resolves : resolveArgs clientEnv.env data skipped step.id args = .ok resolved)
      (answer : Answer clientEnv since trace serverName tool resolved value) :
      EnvelopeOf clientEnv data skipped since trace step (.obj [("ok", .bool true),
        ("value", .str value)])

/-- The server ran steps of the workflow, each over the step data with the envelopes of those before
it. -/
inductive RanSteps (clientEnv : ClientEnv) (wf : Workflow) :
    StepData → List Exchange → StepData → List Exchange → Prop
  | done {data : StepData} {since trace : List Exchange} (grown : since <:+ trace) :
      RanSteps clientEnv wf data since data trace
  | ran {data stored : StepData} {since middle trace : List Exchange} {step : Step}
      {skipped : List String}
      {envelope : Val} (member : step ∈ wf.steps) (mcp : step.isMcpToolCall = true)
      (skips : computeSkippedSteps clientEnv.env wf data = .ok skipped)
      (from_ : EnvelopeOf clientEnv data skipped since middle step envelope)
      (rest : RanSteps clientEnv wf (data.set step.id (clientEnv.env.dumps envelope)) middle stored trace) :
      RanSteps clientEnv wf data since stored trace

structure GoesOn (clientEnv : ClientEnv) (client reached : Client) : Prop where
  replayed : Replayed clientEnv reached
  grown : client.trace <:+ reached.trace

theorem GoesOn.trans {first second third : Client} (start : GoesOn clientEnv first second)
    (rest : GoesOn clientEnv second third) : GoesOn clientEnv first third :=
  ⟨rest.replayed, start.grown.trans rest.grown⟩

theorem asked_spec {request : McpRequest} {asked : McpClient.Request}
    (same : Hosted.asked registry request = some asked) :
    request.serverName = .str asked.serverName ∧ request.tool = .str asked.tool ∧
      request.args = asked.args := by
  unfold Hosted.asked at same
  split at same
  · rename_i isServer isTool _
    cases same
    exact ⟨isServer, isTool, rfl⟩
  · cases same

theorem wp_mcpCall_answer {world : World} {client : Client} (replayed : Replayed clientEnv client)
    {request : McpRequest} :
    Wp (Hosted.mcpCall clientEnv registry request)
    (fun ending reached => GoesOn clientEnv client reached.2 ∧
      ∀ value, ending = .ok (.ok value) → ∃ serverName tool, request.serverName = .str serverName ∧
        request.tool = .str tool ∧
          Answer clientEnv client.trace reached.2.trace serverName tool request.args value)
    (world, client) := by
  unfold Hosted.mcpCall
  cases same : Hosted.asked registry request with
  | none => exact ⟨⟨replayed, List.suffix_refl _⟩, fun value isValue => by cases isValue⟩
  | some asked =>
      obtain ⟨isServer, isTool, isArgs⟩ := asked_spec same
      dsimp only
      rw [wp_bind, wp_serve]
      refine Wp.mono replayed.answers ?_
      rintro (raised | outcome) reached ⟨kept, grown, values⟩
      · exact ⟨⟨kept, grown⟩, fun value isValue => by cases isValue⟩
      · refine ⟨⟨kept, grown⟩, fun value isValue => ?_⟩
        cases isValue
        exact ⟨_, _, isServer, isTool, isArgs ▸ values value rfl⟩

theorem wp_executeMcpToolCallStep_envelopeOf {world : World} {client : Client}
    (replayed : Replayed clientEnv client) {data : StepData} {skipped : List String} :
    Wp (Hosted.executeMcpToolCallStep clientEnv registry step data skipped) (fun ending reached =>
      GoesOn clientEnv client reached.2 ∧ ∀ envelope, ending = .ok envelope →
        EnvelopeOf clientEnv data skipped client.trace reached.2.trace step envelope) (world, client) := by
  have still : GoesOn clientEnv client client := ⟨replayed, List.suffix_refl _⟩
  have raises : ∀ {raised : Exn}, ∀ envelope, (.error raised : Except Exn Val) = .ok envelope →
      EnvelopeOf clientEnv data skipped client.trace client.trace step envelope :=
        fun _ same => by cases same
  unfold Hosted.executeMcpToolCallStep
  rw [wp_bind, wp_own, wp_ofExcept]
  cases item : step.item "args" with
  | error raised => exact ⟨still, raises⟩
  | ok args =>
  dsimp only
  rw [wp_bind, wp_own, wp_ofExcept]
  cases resolves : resolveArgs clientEnv.env data skipped step.id args with
  | error raised => exact ⟨still, raises⟩
  | ok resolved =>
  dsimp only
  cases findAbsentRefPath resolved "" with
  | some path =>
      refine ⟨still, fun envelope same => ?_⟩
      cases same
      exact .failed _
  | none =>
  dsimp only
  rw [wp_bind, wp_own, wp_ofExcept]
  cases effectiveTimeout step (executorRegistry registry) with
  | error raised => exact ⟨still, raises⟩
  | ok timeout =>
  dsimp only
  rw [wp_bind, wp_own, wp_ofExcept]
  cases server : step.item "server" with
  | error raised => exact ⟨still, raises⟩
  | ok serverName =>
  dsimp only
  rw [wp_bind, wp_own, wp_ofExcept]
  cases named : step.item "tool" with
  | error raised => exact ⟨still, raises⟩
  | ok tool =>
  dsimp only
  rw [wp_bind]
  refine Wp.mono (wp_mcpCall_answer replayed) ?_
  rintro (raised | outcome) reached ⟨goesOn, values⟩
  · exact ⟨goesOn, fun envelope same => by cases same⟩
  · refine ⟨goesOn, fun envelope same => ?_⟩
    cases same
    cases outcome with
    | ok value =>
        obtain ⟨ownServer, ownTool, rfl, rfl, answer⟩ := values value rfl
        exact .value server named item resolves answer
    | _ => exact .failed _

theorem wp_attemptCascade_hosted {α : Type} {body : Hosted α}
    {post : Except Exn (Except (String × String) α) →
      World × Client → Prop} {start : World × Client}
    (holds : Wp body (fun ending reached =>
      (∀ value, ending = .ok value → post (.ok (.ok value)) reached) ∧
      ∀ raised, ending = .error raised → (∀ cascade, post (.ok (.error cascade)) reached) ∧
        post (.error raised) reached)
      start) : Wp (Hosted.attemptCascade body) post start := by
  unfold Hosted.attemptCascade
  rw [wp_rescue, wp_bind]
  refine holds.mono ?_
  rintro (raised | value) reached ⟨onOk, onRaise⟩
  · obtain ⟨onCascade, onOther⟩ := onRaise raised rfl
    cases raised with
    | skippedPredecessor sid referencing => exact onCascade _
    | _ => exact onOther
  · exact onOk value rfl

/-- How the loop ends: the client went on, and the step data has the envelopes of the steps that
ran. -/
structure LoopEnds (clientEnv : ClientEnv) (wf : Workflow) (data : StepData) (client : Client)
    (ending : Except Exn (Val × StepData × Option Val)) (reached : World × Client) : Prop where
  goesOn : GoesOn clientEnv client reached.2
  ran : ∀ arrived stored cascade, ending = .ok (arrived, stored, cascade) →
    RanSteps clientEnv wf data client.trace stored reached.2.trace

section Loop

variable {data : StepData} {client : Client} {reached : World × Client}
    {ending : Except Exn (Val × StepData × Option Val)}

theorem LoopEnds.raised {raised : Exn} (goesOn : GoesOn clientEnv client reached.2) :
    LoopEnds clientEnv wf data client (.error raised) reached :=
  ⟨goesOn, fun _ _ _ same => by cases same⟩

theorem LoopEnds.still {arrived : Val} {cascade : Option Val}
    (goesOn : GoesOn clientEnv client reached.2) :
    LoopEnds clientEnv wf data client (.ok (arrived, data, cascade)) reached := by
  refine ⟨goesOn, fun _ _ _ same => ?_⟩
  cases same
  exact .done goesOn.grown

theorem LoopEnds.after {middle : Client} {skipped : List String} {envelope : Val}
    (goesOn : GoesOn clientEnv client middle) (member : step ∈ wf.steps)
    (mcp : step.isMcpToolCall = true)
    (skips : computeSkippedSteps clientEnv.env wf data = .ok skipped)
    (from_ : EnvelopeOf clientEnv data skipped client.trace middle.trace step envelope)
    (rest : LoopEnds clientEnv wf (data.set step.id (clientEnv.env.dumps envelope)) middle ending reached) :
    LoopEnds clientEnv wf data client ending reached :=
  ⟨goesOn.trans rest.goesOn, fun arrived stored cascade same =>
    .ran member mcp skips from_ (rest.ran arrived stored cascade same)⟩

end Loop

theorem wp_autoExecuteMcpSteps_envelopes {sid : SessionId} {fuel : Nat} {pointer : Val}
    {data : StepData} {world : World} {client : Client} (replayed : Replayed clientEnv client) :
    Wp (Hosted.autoExecuteMcpSteps clientEnv registry wf sid fuel pointer data)
    (LoopEnds clientEnv wf data client)
    (world, client) := by
  induction fuel generalizing pointer data world client with
  | zero => exact .raised ⟨replayed, List.suffix_refl _⟩
  | succ fuel ih =>
      have stays : GoesOn clientEnv client client := ⟨replayed, List.suffix_refl _⟩
      unfold Hosted.autoExecuteMcpSteps
      split
      · exact .still stays
      cases at_ : findStep wf pointer with
      | none => exact .still stays
      | some entry =>
          obtain ⟨idx, step⟩ := entry
          dsimp only
          split
          · exact .still stays
          rename_i isMcp
          rw [Bool.not_eq_true', Bool.not_eq_false] at isMcp
          rw [wp_bind, wp_own, wp_ofExcept]
          cases skips : computeSkippedSteps clientEnv.env wf data with
          | error raised => exact .raised stays
          | ok skipped =>
          dsimp only
          rw [wp_bind]
          refine wp_attemptCascade_hosted (Wp.mono (wp_executeMcpToolCallStep_envelopeOf replayed) ?_)
          rintro ending ⟨middle, reached⟩ ⟨goesOn, envelopes⟩
          refine ⟨?_, fun raised _ => ⟨fun cascade => .still goesOn, .raised goesOn⟩⟩
          rintro envelope rfl
          have from_ := envelopes envelope rfl
          have on : GoesOn clientEnv reached reached := ⟨goesOn.replayed, List.suffix_refl _⟩
          dsimp only
          rw [wp_bind, wp_own]
          refine Wp.mono (show Wp _ (fun _ _ => True) middle from trivial) ?_
          rintro (raised | done) visited -
          · exact .raised goesOn
          dsimp only
          refine Wp.mono ?_ fun ending final =>
            LoopEnds.after goesOn (findStep_mem at_) isMcp skips from_
          rw [wp_bind]
          refine wp_attemptCascade_hosted ?_
          rw [wp_own, wp_ofExcept]
          refine ⟨fun arrived isOk => ?_, fun raised _ => ⟨fun cascade => .still on, .raised on⟩⟩
          exact ih goesOn.replayed

/-- After every history of the client: what the loop adds are the envelopes of the steps that it
ran, and a value in one is the text that this step's tool answered, in its own call, to the step's
arguments. -/
theorem autoExecute_envelopes (clientEnv : ClientEnv) (earlier : List McpClient.Request)
    (registry : McpRegistry.Registry) (wf : Workflow) (sid : SessionId) (fuel : Nat) (pointer : Val)
    (data : StepData) (world : World) :
    Wp (Hosted.autoExecuteMcpSteps clientEnv registry wf sid fuel pointer data)
    (LoopEnds clientEnv wf data (runCalls clientEnv earlier .start))
        (world, runCalls clientEnv earlier .start) :=
  wp_autoExecuteMcpSteps_envelopes Replayed.start.runCalls

end Provenance

end Megalos
