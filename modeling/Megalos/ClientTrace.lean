import Megalos.McpClient

/-!
What a process exchanges with the servers, over every history of calls: a validator is
listed once, stays as it was listed, and no tool is called with arguments it refuses.
-/

namespace Megalos

open KeyedTable StatefulProgram StatefulProgram.Program

namespace McpClient

variable {env : ClientEnv} {client reached : Client} {serverName tool : String} {schema args : Val}
  {request : Request} {config : McpRegistry.ServerConfig} {timeout : PyFloat}
  {registry : McpRegistry.Registry}

def Grants (env : ClientEnv) (serverName tool : String) (schema : Val) (exchange : Exchange) :
    Prop :=
  ∃ tools, exchange = .listed serverName tool (.ok tools) ∧ schemaIn env tool tools = .ok schema ∧
    env.compile schema = .ok ()

def Granted (env : ClientEnv) (trace : List Exchange) (serverName tool : String) (schema : Val) :
    Prop :=
  ∃ exchange ∈ trace, Grants env serverName tool schema exchange

/-- Traces, the latest exchange first: nothing is listed again that was granted, and a tool is
called with arguments that its schema accepts. -/
inductive Lawful (env : ClientEnv) : List Exchange → Prop
  | nil : Lawful env []
  | listed {before : List Exchange} {serverName tool : String}
      (answer : Except Raised (List ListedTool))
      (lawful : Lawful env before) (first : ∀ schema, ¬Granted env before serverName tool schema) :
      Lawful env (.listed serverName tool answer :: before)
  | called {before : List Exchange} {serverName tool : String} {args schema : Val}
      (answer : Except Raised CallToolResult) (lawful : Lawful env before)
      (granted : Granted env before serverName tool schema)
      (accepted : env.validate schema args = .valid) :
      Lawful env (.called serverName tool args answer :: before)
  | slept {before : List Exchange} (seconds : Rat) (lawful : Lawful env before) :
      Lawful env (.slept seconds :: before)

/-- The cache holds what the trace granted, no more and no less. -/
structure Replayed (env : ClientEnv) (client : Client) : Prop where
  lawful : Lawful env client.trace
  cache : ∀ serverName tool schema, client.cached serverName tool = some schema ↔
    Granted env client.trace serverName tool schema

structure NoValidator (ending : Except Raised (Except CallOutcome Val)) : Prop where
  schema : ∀ schema, ending ≠ .ok (.ok schema)
  value : ∀ value, ending ≠ .ok (.error (.ok value))

inductive Fetched (env : ClientEnv) (serverName tool : String) (client : Client) :
    Except Raised (Except CallOutcome Val) → Client → Prop
  | unasked {ending : Except Raised (Except CallOutcome Val)} (none : NoValidator ending) :
      Fetched env serverName tool client ending client
  | refused {ending : Except Raised (Except CallOutcome Val)}
      {answer : Except Raised (List ListedTool)}
      {reached : Client} (cache : reached.validatorCache = client.validatorCache)
      (trace : reached.trace = .listed serverName tool answer :: client.trace)
      (noneListed : ∀ tools schema, answer = .ok tools → schemaIn env tool tools ≠ .ok schema)
      (none : NoValidator ending) : Fetched env serverName tool client ending reached
  | listed {schema : Val} {tools : List ListedTool} {reached : Client}
      (cache : reached.validatorCache = client.validatorCache)
      (trace : reached.trace = .listed serverName tool (.ok tools) :: client.trace)
      (found : schemaIn env tool tools = .ok schema) :
        Fetched env serverName tool client (.ok (.ok schema)) reached

inductive Obtained (env : ClientEnv) (serverName tool : String) (client : Client) :
    Except Raised (Except CallOutcome Val) → Client → Prop
  | hit {schema : Val} {reached : Client} (found : client.cached serverName tool = some schema)
      (cache : reached.validatorCache = client.validatorCache)
      (trace : reached.trace = client.trace) :
      Obtained env serverName tool client (.ok (.ok schema)) reached
  | failed {ending : Except Raised (Except CallOutcome Val)} {reached : Client}
      (missing : client.cached serverName tool = none)
      (cache : reached.validatorCache = client.validatorCache)
      (trace : reached.trace = client.trace ∨
        ∃ answer, reached.trace = .listed serverName tool answer :: client.trace ∧
        ∀ schema, ¬Grants env serverName tool schema (.listed serverName tool answer))
      (none : NoValidator ending) : Obtained env serverName tool client ending reached
  | granted {schema : Val} {answer : Except Raised (List ListedTool)} {reached : Client}
      (missing : client.cached serverName tool = none)
      (cache : reached.validatorCache = client.validatorCache.upsert ((serverName, tool), schema))
      (trace : reached.trace = .listed serverName tool answer :: client.trace)
      (grants : Grants env serverName tool schema (.listed serverName tool answer)) :
      Obtained env serverName tool client (.ok (.ok schema)) reached

def callEnding (env : ClientEnv) (config : McpRegistry.ServerConfig) :
    Except Raised CallToolResult → Except Raised CallOutcome
  | .error raised => callFailure env config raised
  | .ok result => .ok (classifyResult result)

inductive Round (env : ClientEnv) (config : McpRegistry.ServerConfig) (request : Request)
    (client : Client) : Except Raised CallOutcome → Client → Prop
  | uncalled {search : Except Raised (Except CallOutcome Val)} {ending : Except Raised CallOutcome}
      {reached : Client}
      (searched : Obtained env request.serverName request.tool client search reached)
      (noValue : ∀ value, ending ≠ .ok (.ok value)) : Round env config request client ending reached
  | called {schema : Val} {middle reached : Client} {answer : Except Raised CallToolResult}
      (searched : Obtained env request.serverName request.tool client (.ok (.ok schema)) middle)
      (accepted : env.validate schema request.args = .valid)
      (cache : reached.validatorCache = middle.validatorCache)
      (trace : reached.trace =
        .called request.serverName request.tool request.args answer :: middle.trace) :
      Round env config request client (callEnding env config answer) reached

inductive Attempts (env : ClientEnv) (config : McpRegistry.ServerConfig) (request : Request) :
    Nat → Client → Except Raised (CallOutcome × Nat) → Client → Prop
  | last {attempt : Nat} {client reached : Client} {outcome : CallOutcome}
      (round : Round env config request client (.ok outcome) reached)
      (late : attempt ≤ retryMaxAttempts) :
      Attempts env config request attempt client (.ok (outcome, attempt)) reached
  | raised {attempt : Nat} {client reached : Client} {raised : Raised}
      (round : Round env config request client (.error raised) reached)
      (late : attempt ≤ retryMaxAttempts) :
      Attempts env config request attempt client (.error raised) reached
  | again {attempt : Nat} {client middle rested reached : Client} {outcome : CallOutcome}
      {backoff : Rat}
      {ending : Except Raised (CallOutcome × Nat)}
      (round : Round env config request client (.ok outcome) middle)
      (retries : retriable outcome = true) (isBackoff : retryBackoffs[attempt - 1]? = some backoff)
      (cache : rested.validatorCache = middle.validatorCache)
      (trace : rested.trace = .slept backoff :: middle.trace)
      (rest : Attempts env config request (attempt + 1) rested ending reached) :
      Attempts env config request attempt client ending reached

@[simp] theorem wp_log {entry : LogEntry} {post : Except Raised Unit → Client → Prop} :
    Wp (log entry) post client ↔ post (.ok ()) { client with logs := entry :: client.logs } :=
      Iff.rfl

@[simp] theorem wp_exchange {α : Type} {answers : Nat → α} {remember : α → Exchange}
    {post : Except Raised α → Client → Prop} : Wp (exchange answers remember) post client ↔
      post (.ok (answers client.ticks))
        { client with ticks := client.ticks + 1, trace := remember (answers client.ticks) :: client.trace } := Iff.rfl

@[simp] theorem wp_sleep {seconds : Rat} {post : Except Raised Unit → Client → Prop} :
    Wp (sleep seconds) post client ↔
      post (.ok ()) { client with ticks := client.ticks + 1, trace := .slept seconds :: client.trace } := Iff.rfl

theorem noValidator_raised (raised : Raised) : NoValidator (.error raised) := ⟨by simp, by simp⟩

/-- The private exceptions become failed outcomes, and every other exception goes on. -/
theorem wp_fetchHandler {raised : Raised} {post : Except Raised (Except CallOutcome Val) → Client → Prop}
    (holds : ∀ ending, NoValidator ending → post ending reached) : Wp (fetchHandler raised) post reached := by
  cases raised with
  | fetchTransport detail => exact holds (.ok (.error (.transportError detail))) ⟨by simp, by simp⟩
  | fetchProtocol detail => exact holds (.ok (.error (.protocolError detail))) ⟨by simp, by simp⟩
  | _ => exact holds (.error _) (noValidator_raised _)

theorem wp_attemptFetch : Wp (attemptFetch (fetchInputSchema env serverName tool registry timeout))
    (Fetched env serverName tool client) client := by
  unfold attemptFetch fetchInputSchema
  rw [wp_rescue, wp_bind, wp_bind, wp_ofExcept]
  cases lookupServer env registry serverName with
  | error raised => exact wp_fetchHandler fun ending none => .unasked none
  | ok config =>
      simp only
      rw [wp_bind, wp_read]
      cases env.environ client.ticks config.auth.tokenEnv with
      | none =>
          simp only [wp_raise]
          exact wp_fetchHandler fun ending none => .unasked none
      | some token =>
          simp only
          rw [wp_bind, wp_exchange]
          cases answer : env.listTools client.ticks config token timeout with
          | error raised =>
              simp only [wp_raise]
              exact wp_fetchHandler fun ending none =>
                .refused rfl rfl (fun tools schema isOk => by cases isOk) none
          | ok tools =>
              simp only
              rw [wp_ofExcept]
              cases found : schemaIn env tool tools with
              | error raised =>
                  refine wp_fetchHandler fun ending none =>
                    .refused rfl rfl (fun others schema isOk => ?_) none
                  cases isOk
                  simp [found]
              | ok schema => exact .listed rfl rfl found

theorem wp_obtainValidator : Wp (obtainValidator env serverName tool registry timeout)
    (Obtained env serverName tool client) client := by
  unfold obtainValidator
  rw [wp_bind, wp_read]
  cases held : client.cached serverName tool with
  | some schema => exact .hit held rfl rfl
  | none =>
      simp only
      refine wp_bind_of wp_attemptFetch ?_ ?_
      · intro search middle fetched
        cases fetched with
        | unasked none =>
            cases search with
            | error outcome => exact .failed held rfl (.inl rfl) none
            | ok schema => exact absurd rfl (none.schema schema)
        | refused cache trace noneListed none =>
            cases search with
            | error outcome =>
                refine .failed held cache (.inr ⟨_, trace, ?_⟩) none
                rintro schema ⟨tools, same, found, -⟩
                cases same
                exact noneListed tools schema rfl found
            | ok schema => exact absurd rfl (none.schema schema)
        | @listed schema tools _ cache trace found =>
            simp only
            have failed : ∀ {raised : Raised}, env.compile schema = .error raised →
                ∀ {ending : Except Raised (Except CallOutcome Val)}, NoValidator ending →
                  Obtained env serverName tool client ending middle := by
              intro raised fails ending none
              refine .failed held cache (.inr ⟨_, trace, ?_⟩) none
              rintro other ⟨others, same, isOther, compiles⟩
              cases same
              cases found.symm.trans isOther
              cases fails.symm.trans compiles
            cases compiled : env.compile schema with
            | error raised =>
                cases raised with
                | schemaError message =>
                    have none : NoValidator (.ok (.error (.protocolError ("server inputSchema invalid: " ++ message)))) :=
                      ⟨by simp, by simp⟩
                    exact failed compiled none
                | _ => exact failed compiled (noValidator_raised _)
            | ok done =>
                rw [wp_bind, wp_write]
                refine .granted held ?_ trace ⟨tools, rfl, found, compiled⟩
                exact congrArg (Table.upsert · _) cache
      · intro raised middle fetched
        cases fetched with
        | unasked none => exact .failed held rfl (.inl rfl) none
        | refused cache trace noneListed none =>
            refine .failed held cache (.inr ⟨_, trace, ?_⟩) none
            rintro schema ⟨tools, same, found, -⟩
            cases same
            exact noneListed tools schema rfl found

theorem wp_callAsync {middle : Client}
    (searched : Obtained env request.serverName request.tool client (.ok (.ok schema)) middle)
    (accepted : env.validate schema request.args = .valid) :
    Wp (callAsync env config request.serverName request.tool request.args timeout)
    (Round env config request client) middle := by
  unfold callAsync
  rw [wp_bind, wp_read]
  cases env.environ middle.ticks config.auth.tokenEnv with
  | none =>
      simp only [wp_pure]
      exact .uncalled searched (by simp)
  | some token =>
      simp only
      rw [wp_bind, wp_exchange]
      have round := fun answer => @Round.called env config request client schema middle
        { middle with ticks := middle.ticks + 1,
                      trace := .called request.serverName request.tool request.args answer :: middle.trace }
        answer searched accepted rfl rfl
      cases answer : env.callTool middle.ticks config token timeout request.tool request.args with
      | error raised => exact round (.error raised)
      | ok result => exact round (.ok result)

theorem wp_callWithValidation : Wp (callWithValidation env config request timeout)
    (Round env config request client) client := by
  unfold callWithValidation
  refine wp_bind_of wp_obtainValidator ?_ ?_
  · intro search middle searched
    cases search with
    | error outcome =>
        refine .uncalled searched fun value same => ?_
        cases same
        cases searched with
        | failed _ _ _ none => exact none.value value rfl
    | ok schema =>
        simp only
        cases accepted : env.validate schema request.args with
        | raised exception =>
            rw [wp_raise]
            exact .uncalled searched (by simp)
        | invalid jsonPath message =>
            rw [wp_pure]
            exact .uncalled searched (by simp)
        | valid => exact wp_callAsync searched accepted
  · intro raised middle searched
    exact .uncalled searched (by simp)

theorem wp_callWithRetry {argFingerprint : String} {remaining : Nat} :
    ∀ {attempt : Nat} {client : Client},
    1 ≤ attempt → attempt + remaining = retryMaxAttempts →
    Wp (callWithRetry env config request timeout argFingerprint (remaining + 1))
    (Attempts env config request attempt client) client := by
  induction remaining with
  | zero =>
      intro attempt client positive total
      have isLast : attempt = retryMaxAttempts := total
      unfold callWithRetry
      refine wp_bind_of wp_callWithValidation ?_ ?_
      · intro outcome middle round
        subst isLast
        simp only [Nat.sub_zero, le_refl, decide_true, Bool.or_true, if_true]
        exact .last round le_rfl
      · intro raised middle round
        exact .raised round isLast.le
  | succ remaining ih =>
      intro attempt client positive total
      have isAttempt : retryMaxAttempts - (remaining + 1) = attempt := by omega
      have early : ¬retryMaxAttempts ≤ attempt := by omega
      unfold callWithRetry
      refine wp_bind_of wp_callWithValidation ?_ ?_
      · intro outcome middle round
        simp only [isAttempt, early, decide_false, Bool.or_false, Bool.not_eq_true']
        by_cases retries : retriable outcome = false
        · rw [if_pos retries]
          exact .last round (by omega)
        · rw [if_neg retries]
          cases isBackoff : retryBackoffs[attempt - 1]? with
          | none =>
              rw [List.getElem?_eq_none_iff] at isBackoff
              simp only [retryBackoffs, retryMaxAttempts, List.length_cons,
                List.length_nil] at isBackoff total
              omega
          | some backoff =>
              simp only
              rw [wp_bind, wp_log]
              simp only
              rw [wp_bind, wp_sleep]
              refine Wp.mono (@ih (attempt + 1) _ (by omega) (by omega)) ?_
              intro ending reached rest
              refine .again round (Bool.not_eq_false _ ▸ retries) isBackoff ?_ ?_ rest
              · rfl
              · rfl
      · intro raised middle round
        exact .raised round (by omega)

/-! What the trace grants. -/

theorem granted_cons {exchange : Exchange} {before : List Exchange} :
    Granted env (exchange :: before) serverName tool schema ↔
      Grants env serverName tool schema exchange ∨ Granted env before serverName tool schema := by
  simp [Granted]

theorem grants_called {otherServer otherTool : String} {answer : Except Raised CallToolResult} :
    ¬Grants env serverName tool schema (.called otherServer otherTool args answer) := by
  rintro ⟨tools, same, -⟩
  cases same

theorem grants_slept {seconds : Rat} : ¬Grants env serverName tool schema (.slept seconds) := by
  rintro ⟨tools, same, -⟩
  cases same

theorem cached_of_cache (cache : reached.validatorCache = client.validatorCache)
    (serverName tool : String) :
    reached.cached serverName tool = client.cached serverName tool := by
  simp only [Client.cached, cache]

theorem cached_of_upsert (cache : reached.validatorCache =
    client.validatorCache.upsert ((serverName, tool), schema))
    (otherServer otherTool : String) : reached.cached otherServer otherTool =
      if otherServer = serverName ∧
        otherTool = tool then some schema else client.cached otherServer otherTool := by
  simp only [Client.cached, cache, Table.lookup_upsert, Prod.mk.injEq]
  split <;> rfl

theorem Replayed.start : Replayed env .start :=
  ⟨.nil, fun serverName tool schema => by simp [Client.start, Client.cached, Granted]⟩

theorem Replayed.called (replayed : Replayed env client) {answer : Except Raised CallToolResult}
    (granted : Granted env client.trace serverName tool schema)
    (accepted : env.validate schema args = .valid)
    (cache : reached.validatorCache = client.validatorCache)
    (trace : reached.trace = .called serverName tool args answer :: client.trace) :
    Replayed env reached := by
  refine ⟨trace ▸ .called answer replayed.lawful granted accepted,
    fun otherServer otherTool other => ?_⟩
  rw [cached_of_cache cache, replayed.cache, trace, granted_cons]
  exact ⟨.inr, fun either => either.resolve_left grants_called⟩

theorem Replayed.slept (replayed : Replayed env client) {seconds : Rat}
    (cache : reached.validatorCache = client.validatorCache)
    (trace : reached.trace = .slept seconds :: client.trace) :
    Replayed env reached := by
  refine ⟨trace ▸ .slept seconds replayed.lawful, fun otherServer otherTool other => ?_⟩
  rw [cached_of_cache cache, replayed.cache, trace, granted_cons]
  exact ⟨.inr, fun either => either.resolve_left grants_slept⟩

/-- What is not in the cache was never granted, so it may be listed. -/
theorem Replayed.missing (replayed : Replayed env client)
    (missing : client.cached serverName tool = none) (schema : Val) :
    ¬Granted env client.trace serverName tool schema := by
  intro granted
  cases missing.symm.trans ((replayed.cache serverName tool schema).mpr granted)

theorem Grants.pair {otherServer otherTool : String} {answer : Except Raised (List ListedTool)}
    (grants : Grants env otherServer otherTool schema (.listed serverName tool answer)) :
    otherServer = serverName ∧ otherTool = tool := by
  obtain ⟨tools, same, -⟩ := grants
  cases same
  exact ⟨rfl, rfl⟩

theorem Grants.unique {exchange : Exchange} {other : Val}
    (grants : Grants env serverName tool schema exchange)
    (too : Grants env serverName tool other exchange) : schema = other := by
  obtain ⟨tools, rfl, found, -⟩ := grants
  obtain ⟨others, same, isOther, -⟩ := too
  cases same
  exact Except.ok.inj (found.symm.trans isOther)

/-- A search keeps the cache a replay of the trace, and what it finds was granted. -/
theorem Obtained.replayed {ending : Except Raised (Except CallOutcome Val)}
    (searched : Obtained env serverName tool client ending reached)
    (replayed : Replayed env client) :
    Replayed env reached ∧ ∀ schema, ending = .ok (.ok schema) →
      Granted env reached.trace serverName tool schema := by
  cases searched with
  | hit found cache trace =>
      refine ⟨⟨trace ▸ replayed.lawful, fun otherServer otherTool other => ?_⟩, fun schema same =>
        ?_⟩
      · rw [cached_of_cache cache, replayed.cache, trace]
      · cases same
        exact trace ▸ (replayed.cache _ _ _).mp found
  | failed missing cache trace none =>
      refine ⟨?_, fun schema same => absurd same (none.schema schema)⟩
      rcases trace with same | ⟨answer, trace, ungranted⟩
      · refine ⟨same ▸ replayed.lawful, fun otherServer otherTool other => ?_⟩
        rw [cached_of_cache cache, replayed.cache, same]
      · refine ⟨trace ▸ .listed answer replayed.lawful (replayed.missing missing),
          fun otherServer otherTool other => ?_⟩
        rw [cached_of_cache cache, replayed.cache, trace, granted_cons]
        refine ⟨.inr, fun either => either.resolve_left fun grants => ?_⟩
        obtain ⟨rfl, rfl⟩ := grants.pair
        exact ungranted other grants
  | @granted schema answer _ missing cache trace grants =>
      refine ⟨⟨trace ▸ .listed answer replayed.lawful (replayed.missing missing),
        fun otherServer otherTool other => ?_⟩,
        fun found same => ?_⟩
      · rw [cached_of_upsert cache, trace, granted_cons]
        by_cases same : otherServer = serverName ∧ otherTool = tool
        · obtain ⟨rfl, rfl⟩ := same
          rw [if_pos ⟨rfl, rfl⟩, Option.some.injEq]
          refine ⟨fun same => .inl (same ▸ grants), ?_⟩
          rintro (too | earlier)
          · exact grants.unique too
          · exact absurd earlier (replayed.missing missing other)
        · rw [if_neg same, replayed.cache]
          exact ⟨.inr, fun either => either.resolve_left fun grants => same grants.pair⟩
      · cases same
        exact trace ▸ granted_cons.mpr (.inl grants)

theorem Round.replayed {ending : Except Raised CallOutcome}
    (round : Round env config request client ending reached) (replayed : Replayed env client) :
    Replayed env reached := by
  cases round with
  | uncalled searched noValue => exact (searched.replayed replayed).1
  | called searched accepted cache trace =>
      obtain ⟨middle, granted⟩ := searched.replayed replayed
      exact middle.called (granted _ rfl) accepted cache trace

theorem Attempts.replayed {attempt : Nat} {ending : Except Raised (CallOutcome × Nat)}
    (attempts : Attempts env config request attempt client ending reached)
    (replayed : Replayed env client) :
    Replayed env reached := by
  induction attempts with
  | last round late => exact round.replayed replayed
  | raised round late => exact round.replayed replayed
  | again round retries isBackoff cache trace rest ih =>
    exact ih ((round.replayed replayed).slept cache trace)

end McpClient

end Megalos
