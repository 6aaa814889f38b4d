import Megalos.ClientTrace

/-!
What one call adds to the trace and to the log: its attempts, its sleeps, and where its
answer comes from.
-/

namespace Megalos

open KeyedTable StatefulProgram StatefulProgram.Program

namespace McpClient

variable {env : ClientEnv} {client reached : Client} {serverName tool : String} {args : Val}
  {request : Request} {config : McpRegistry.ServerConfig} {timeout : PyFloat}
  {added : List Exchange}

def Exchange.isCall : Exchange → Bool
  | .called .. => true
  | _ => false

def Exchange.pause? : Exchange → Option Rat
  | .slept seconds => some seconds
  | _ => none

def pauses (trace : List Exchange) : List Rat := trace.filterMap Exchange.pause?

inductive Single (env : ClientEnv) (config : McpRegistry.ServerConfig) (request : Request)
    (ending : Except Raised CallOutcome) : List Exchange → Prop
  | uncalled {listing : List Exchange}
      (asked : listing = [] ∨ ∃ answer, listing = [.listed request.serverName request.tool answer])
      (noValue : ∀ value, ending ≠ .ok (.ok value)) : Single env config request ending listing
  | called {listing : List Exchange} {answer : Except Raised CallToolResult}
      (asked : listing = [] ∨ ∃ answer, listing = [.listed request.serverName request.tool answer])
      (isEnding : ending = callEnding env config answer) :
      Single env config request ending (.called request.serverName request.tool request.args answer :: listing)

def Transient (env : ClientEnv) (config : McpRegistry.ServerConfig)
    (answer : Except Raised CallToolResult) : Prop :=
  ∃ outcome, callEnding env config answer = .ok outcome ∧ retriable outcome = true

structure Series (env : ClientEnv) (config : McpRegistry.ServerConfig) (request : Request)
    (attempt : Nat) (added : List Exchange) (ending : Except Raised (CallOutcome × Nat)) :
    Prop where
  calls : added.countP Exchange.isCall + attempt ≤ retryMaxAttempts + 1
  sleeps : (pauses added).reverse <+: retryBackoffs.drop (attempt - 1)
  number : ∀ outcome number, ending = .ok (outcome, number) →
    number = attempt + (pauses added).length
  own : ∀ serverName tool args answer, .called serverName tool args answer ∈ added →
    serverName = request.serverName ∧ tool = request.tool ∧ args = request.args
  repeats : ∀ serverName tool args answer, .called serverName tool args answer ∈ added.tail →
    Transient env config answer
  value : ∀ value number, ending = .ok (.ok value, number) → ∃ result earlier,
    added = .called request.serverName request.tool request.args (.ok result) :: earlier ∧
      classifyResult result = .ok value

theorem Obtained.adds {ending : Except Raised (Except CallOutcome Val)}
    (searched : Obtained env serverName tool client ending reached) :
    ∃ listing, reached.trace = listing ++ client.trace ∧
      (listing = [] ∨ ∃ answer, listing = [.listed serverName tool answer]) := by
  cases searched with
  | hit found cache trace => exact ⟨[], trace, .inl rfl⟩
  | failed missing cache trace none =>
      rcases trace with same | ⟨answer, trace, -⟩
      · exact ⟨[], same, .inl rfl⟩
      · exact ⟨[_], trace, .inr ⟨answer, rfl⟩⟩
  | granted missing cache trace grants => exact ⟨[_], trace, .inr ⟨_, rfl⟩⟩

theorem Round.adds {ending : Except Raised CallOutcome}
    (round : Round env config request client ending reached) :
    ∃ added, reached.trace = added ++ client.trace ∧ Single env config request ending added := by
  cases round with
  | uncalled searched noValue =>
      obtain ⟨listing, trace, asked⟩ := searched.adds
      exact ⟨listing, trace, .uncalled asked noValue⟩
  | called searched accepted cache trace =>
      obtain ⟨listing, listed, asked⟩ := searched.adds
      exact ⟨_ :: listing, by rw [trace, listed, List.cons_append], .called asked rfl⟩

theorem callFailure_noValue {raised : Raised} {value : String} :
    callFailure env config raised ≠ .ok (.ok value) := by
  unfold callFailure
  split <;> try simp
  all_goals split <;> simp

theorem listing_counts {listing : List Exchange}
    (asked : listing = [] ∨ ∃ answer, listing = [.listed serverName tool answer]) :
    listing.countP Exchange.isCall = 0 ∧ pauses listing = [] ∧
      ∀ serverName tool args answer, Exchange.called serverName tool args answer ∉ listing := by
  rcases asked with rfl | ⟨answer, rfl⟩
  · exact ⟨rfl, rfl, fun _ _ _ _ => List.not_mem_nil⟩
  · exact ⟨rfl, rfl, fun _ _ _ _ => by simp⟩

section Single

variable {ending : Except Raised CallOutcome} (single : Single env config request ending added)

include single

theorem Single.calls : added.countP Exchange.isCall ≤ 1 := by
  cases single with
  | uncalled asked noValue => exact (listing_counts asked).1.le.trans (Nat.zero_le 1)
  | called asked isEnding =>
      rw [List.countP_cons, (listing_counts asked).1]
      split <;> simp

theorem Single.sleeps : pauses added = [] := by
  cases single with
  | uncalled asked noValue => exact (listing_counts asked).2.1
  | called asked isEnding => exact (listing_counts asked).2.1

theorem Single.pauses_again {rest : List Exchange} {backoff : Rat} :
    pauses (rest ++ .slept backoff :: added) = pauses rest ++ [backoff] := by
  rw [pauses, List.filterMap_append, List.filterMap_cons]
  exact congrArg (fun others => pauses rest ++ backoff :: others) single.sleeps

theorem Single.own : ∀ serverName tool args answer, .called serverName tool args answer ∈ added →
    serverName = request.serverName ∧ tool = request.tool ∧ args = request.args ∧
      ending = callEnding env config answer := by
  intro serverName tool args answer member
  cases single with
  | uncalled asked noValue => exact absurd member ((listing_counts asked).2.2 _ _ _ _)
  | called asked isEnding =>
      rcases List.mem_cons.mp member with same | earlier
      · cases same
        exact ⟨rfl, rfl, rfl, isEnding⟩
      · exact absurd earlier ((listing_counts asked).2.2 _ _ _ _)

theorem Single.once :
    ∀ serverName tool args answer, Exchange.called serverName tool args answer ∉ added.tail := by
  intro serverName tool args answer member
  cases single with
  | uncalled asked noValue => exact (listing_counts asked).2.2 _ _ _ _ (List.mem_of_mem_tail member)
  | called asked isEnding => exact (listing_counts asked).2.2 _ _ _ _ member

theorem Single.value {value : String} (isValue : ending = .ok (.ok value)) : ∃ result earlier,
    added = .called request.serverName request.tool request.args (.ok result) :: earlier ∧
      classifyResult result = .ok value := by
  cases single with
  | uncalled asked noValue => exact absurd isValue (noValue value)
  | @called listing answer asked isEnding =>
      have answered : callEnding env config answer = .ok (.ok value) := isEnding.symm.trans isValue
      cases answer with
      | error raised => exact absurd answered callFailure_noValue
      | ok result => exact ⟨result, listing, rfl, Except.ok.inj answered⟩

end Single

theorem Single.series {attempt : Nat} {ending : Except Raised CallOutcome}
    {numbered : Except Raised (CallOutcome × Nat)} (single : Single env config request ending added)
    (late : attempt ≤ retryMaxAttempts)
    (same : ∀ outcome number, numbered = .ok (outcome, number) → ending = .ok outcome ∧
      number = attempt) :
    Series env config request attempt added numbered where
  calls := by have few := single.calls; omega
  sleeps := by rw [single.sleeps]; exact List.nil_prefix
  number := by
    intro outcome number isEnding
    rw [single.sleeps, List.length_nil, Nat.add_zero]
    exact (same outcome number isEnding).2
  own := by
    intro serverName tool args answer member
    obtain ⟨isServer, isTool, isArgs, -⟩ := single.own _ _ _ _ member
    exact ⟨isServer, isTool, isArgs⟩
  repeats := fun _ _ _ _ member => absurd member (single.once _ _ _ _)
  value := fun value number isEnding => single.value (same _ _ isEnding).1

theorem Series.again {attempt : Nat} {rest : List Exchange} {outcome : CallOutcome} {backoff : Rat}
    {ending : Except Raised (CallOutcome × Nat)}
    (series : Series env config request (attempt + 1) rest ending)
    (single : Single env config request (.ok outcome) added) (retries : retriable outcome = true)
    (isBackoff : retryBackoffs[attempt - 1]? = some backoff) (positive : 1 ≤ attempt) :
    Series env config request attempt (rest ++ .slept backoff :: added) ending where
  calls := by
    have few := single.calls
    have fewer := series.calls
    rw [List.countP_append, List.countP_cons]
    simp only [Exchange.isCall, Bool.false_eq_true, if_false]
    omega
  sleeps := by
    obtain ⟨inRange, isAt⟩ := List.getElem?_eq_some_iff.mp isBackoff
    have after : attempt - 1 + 1 = attempt + 1 - 1 := by omega
    rw [single.pauses_again, List.reverse_append, List.reverse_singleton, List.singleton_append,
      List.drop_eq_getElem_cons inRange, isAt, after]
    exact List.cons_prefix_cons.mpr ⟨rfl, series.sleeps⟩
  number := by
    intro outcome number isEnding
    rw [single.pauses_again, List.length_append, List.length_singleton,
      series.number outcome number isEnding]
    omega
  own := by
    intro serverName tool args answer member
    rcases List.mem_append.mp member with later | earlier
    · exact series.own _ _ _ _ later
    · obtain ⟨isServer, isTool, isArgs, -⟩ :=
        single.own _ _ _ _ ((List.mem_cons.mp earlier).resolve_left (by simp))
      exact ⟨isServer, isTool, isArgs⟩
  repeats := by
    intro serverName tool args answer member
    have transient : Exchange.called serverName tool args answer ∈ added →
      Transient env config answer := by
      intro earlier
      obtain ⟨-, -, -, isEnding⟩ := single.own _ _ _ _ earlier
      exact ⟨outcome, isEnding.symm, retries⟩
    cases rest with
    | nil => exact transient member
    | cons exchange rest =>
        rw [List.cons_append, List.tail_cons] at member
        rcases List.mem_append.mp member with later | earlier
        · exact series.repeats _ _ _ _ later
        · exact transient ((List.mem_cons.mp earlier).resolve_left (by simp))
  value := by
    intro value number isEnding
    obtain ⟨result, earlier, same, isValue⟩ := series.value value number isEnding
    exact ⟨result, earlier ++ .slept backoff :: added, by rw [same, List.cons_append], isValue⟩

theorem Attempts.series {attempt : Nat} {ending : Except Raised (CallOutcome × Nat)}
    (attempts : Attempts env config request attempt client ending reached) : 1 ≤ attempt →
    ∃ added, reached.trace = added ++ client.trace ∧
      Series env config request attempt added ending := by
  induction attempts with
  | last round late =>
      intro positive
      obtain ⟨added, trace, single⟩ := round.adds
      refine ⟨added, trace, single.series late fun outcome number same => ?_⟩
      cases same
      exact ⟨rfl, rfl⟩
  | raised round late =>
      intro positive
      obtain ⟨added, trace, single⟩ := round.adds
      exact ⟨added, trace, single.series late fun outcome number same => by cases same⟩
  | again round retries isBackoff cache trace rest ih =>
      intro positive
      obtain ⟨added, first, single⟩ := round.adds
      obtain ⟨later, second, series⟩ := ih (Nat.le_succ_of_le positive)
      refine ⟨later ++ .slept _ :: added, ?_, series.again single retries isBackoff positive⟩
      rw [second, trace, first, List.append_assoc, List.cons_append]

/-! The log. -/

def LogEntry.isTerminal : LogEntry → Bool
  | .terminal .. => true
  | _ => false

def Client.terminals (client : Client) : Nat := client.logs.countP LogEntry.isTerminal

def SameTerminals (client reached : Client) : Prop := reached.terminals = client.terminals

theorem sameTerminals_refl (client : Client) : SameTerminals client client := rfl

theorem sameTerminals_trans (first second third : Client) (one : SameTerminals first second)
    (two : SameTerminals second third) : SameTerminals first third := Eq.trans two one

theorem keeps_log {entry : LogEntry} (quiet : entry.isTerminal = false) :
    Keeps SameTerminals (log entry) := by
  intro client
  change (entry :: client.logs).countP LogEntry.isTerminal = client.logs.countP LogEntry.isTerminal
  rw [List.countP_cons, quiet]
  rfl

theorem keeps_exchange {α : Type} {answers : Nat → α} {remember : α → Exchange} :
    Keeps SameTerminals (exchange answers remember) := fun _ => rfl

theorem keeps_attemptFetch {registry : McpRegistry.Registry} :
    Keeps SameTerminals (attemptFetch (fetchInputSchema env serverName tool registry timeout)) := by
  unfold attemptFetch fetchInputSchema
  refine keeps_rescue sameTerminals_trans (keeps_bind sameTerminals_trans ?_ fun schema =>
    keeps_pure sameTerminals_refl _)
    fun raised => ?_
  · refine keeps_bind sameTerminals_trans (keeps_ofExcept sameTerminals_refl _) fun config => ?_
    refine keeps_bind sameTerminals_trans (keeps_read sameTerminals_refl _) fun token => ?_
    cases token with
    | none => exact keeps_raise sameTerminals_refl _
    | some token =>
        refine keeps_bind sameTerminals_trans keeps_exchange fun answer => ?_
        cases answer with
        | error raised => exact keeps_raise sameTerminals_refl _
        | ok tools => exact keeps_ofExcept sameTerminals_refl _
  · cases raised with
    | fetchTransport detail => exact keeps_pure sameTerminals_refl _
    | fetchProtocol detail => exact keeps_pure sameTerminals_refl _
    | _ => exact keeps_raise sameTerminals_refl _

theorem keeps_obtainValidator {registry : McpRegistry.Registry} :
    Keeps SameTerminals (obtainValidator env serverName tool registry timeout) := by
  unfold obtainValidator
  refine keeps_bind sameTerminals_trans (keeps_read sameTerminals_refl _) fun cached => ?_
  cases cached with
  | some schema =>
      exact keeps_bind sameTerminals_trans (keeps_log rfl) fun _ => keeps_pure sameTerminals_refl _
  | none =>
      refine keeps_bind sameTerminals_trans keeps_attemptFetch fun fetched => ?_
      cases fetched with
      | error outcome => exact keeps_pure sameTerminals_refl _
      | ok schema =>
          simp only
          cases env.compile schema with
          | error raised =>
              cases raised with
              | schemaError message => exact keeps_pure sameTerminals_refl _
              | _ => exact keeps_raise sameTerminals_refl _
          | ok done =>
              refine keeps_bind sameTerminals_trans (fun client => rfl) fun _ => ?_
              exact keeps_bind sameTerminals_trans (keeps_log rfl) fun _ =>
                keeps_pure sameTerminals_refl _

theorem keeps_callAsync :
    Keeps SameTerminals (callAsync env config serverName tool args timeout) := by
  unfold callAsync
  refine keeps_bind sameTerminals_trans (keeps_read sameTerminals_refl _) fun token => ?_
  cases token with
  | none => exact keeps_pure sameTerminals_refl _
  | some token =>
      refine keeps_bind sameTerminals_trans keeps_exchange fun answer => ?_
      cases answer with
      | error raised => exact keeps_ofExcept sameTerminals_refl _
      | ok result => exact keeps_pure sameTerminals_refl _

theorem keeps_callWithValidation :
    Keeps SameTerminals (callWithValidation env config request timeout) := by
  unfold callWithValidation
  refine keeps_bind sameTerminals_trans keeps_obtainValidator fun search => ?_
  cases search with
  | error outcome => exact keeps_pure sameTerminals_refl _
  | ok schema =>
      simp only
      cases env.validate schema request.args with
      | raised exception => exact keeps_raise sameTerminals_refl _
      | invalid jsonPath message => exact keeps_pure sameTerminals_refl _
      | valid => exact keeps_callAsync

theorem keeps_callWithRetry {argFingerprint : String} {remaining : Nat} :
    Keeps SameTerminals (callWithRetry env config request timeout argFingerprint remaining) := by
  induction remaining with
  | zero => exact keeps_raise sameTerminals_refl _
  | succ remaining ih =>
      unfold callWithRetry
      refine keeps_bind sameTerminals_trans keeps_callWithValidation fun outcome => ?_
      refine keeps_ite (fun _ => keeps_pure sameTerminals_refl _) fun _ => ?_
      cases retryBackoffs[retryMaxAttempts - remaining - 1]? with
      | none => exact keeps_raise sameTerminals_refl _
      | some backoff =>
          refine keeps_bind sameTerminals_trans (keeps_log rfl) fun _ => ?_
          exact keeps_bind sameTerminals_trans keeps_exchange fun _ => ih

/-! The call. -/

def Request.isKnown (env : ClientEnv) (request : Request) : Bool :=
  (lookupServer env request.registry request.serverName).toBool

/-- What a call with a known server leaves behind: what it exchanged and the number in its last
record. -/
structure CallRecord (env : ClientEnv) (config : McpRegistry.ServerConfig) (request : Request)
    (outcome : CallOutcome) (client reached : Client) (added : List Exchange) (number : Nat) :
    Prop where
  trace : reached.trace = added ++ client.trace
  calls : added.countP Exchange.isCall ≤ retryMaxAttempts
  sleeps : (pauses added).reverse <+: retryBackoffs
  own : ∀ serverName tool args answer, .called serverName tool args answer ∈ added →
    serverName = request.serverName ∧ tool = request.tool ∧ args = request.args
  repeats : ∀ serverName tool args answer, .called serverName tool args answer ∈ added.tail →
    Transient env config answer
  value : ∀ value, outcome = .ok value → ∃ result earlier,
    added = .called request.serverName request.tool request.args (.ok result) :: earlier ∧
      classifyResult result = .ok value
  logged : reached.logs.head? =
    some (terminalLog request (argFingerprint env request.args) outcome number)
  once : reached.terminals = client.terminals + 1
  number : number = (pauses added).length + 1 ∨ number = 1 ∧
    ∃ raised, outcome = .protocolError (env.reprOf raised)

/-- The client after the catch-all of `call`: the attempts, and one record when they raised. -/
inductive Guarded (env : ClientEnv) (config : McpRegistry.ServerConfig) (request : Request)
    (client : Client) :
    Except Raised (CallOutcome × Nat) → Client → Prop
  | answered {outcome : CallOutcome} {number : Nat} {reached : Client}
      (attempts : Attempts env config request 1 client (.ok (outcome, number)) reached)
      (terminals : SameTerminals client reached) :
        Guarded env config request client (.ok (outcome, number)) reached
  | broken {raised : Raised} {middle : Client}
      (attempts : Attempts env config request 1 client (.error raised) middle)
      (terminals : SameTerminals client middle) :
      Guarded env config request client (.ok (.protocolError (env.reprOf raised), 1))
        { middle with logs := .unexpected request.serverName request.tool :: middle.logs }

theorem wp_guardedRun :
    Wp (guardedRun env config request) (Guarded env config request client) client := by
  unfold guardedRun
  rw [wp_rescue]
  have attempts := @wp_callWithRetry env request config (effectiveTimeout request config)
    (argFingerprint env request.args) 2 1 client le_rfl rfl
  have terminals := (@keeps_callWithRetry env request config (effectiveTimeout request config)
    (argFingerprint env request.args) retryMaxAttempts).wp client
  refine Wp.using terminals (Wp.mono attempts ?_)
  intro ending reached series same
  cases ending with
  | ok ended => exact .answered series same
  | error raised => exact .broken series same

theorem terminalLog_isTerminal {argFingerprint : String} {outcome : CallOutcome} {number : Nat} :
    (terminalLog request argFingerprint outcome number).isTerminal = true := by
  unfold terminalLog
  split
  · rfl
  · split <;> rfl

theorem terminals_succ (middle : Client) (argFingerprint : String) (outcome : CallOutcome) (number : Nat) :
    ({ middle with logs := terminalLog request argFingerprint outcome number :: middle.logs } : Client).terminals =
      middle.terminals + 1 := by
  simp only [Client.terminals, List.countP_cons, terminalLog_isTerminal, if_true]

/-- A call raises for an unknown server only, and then does nothing; else it ends with one record.
-/
inductive CallEnds (env : ClientEnv) (request : Request) (client : Client) :
    Except Raised CallOutcome → Client → Prop
  | unknown {raised : Raised}
      (refused : lookupServer env request.registry request.serverName = .error raised) :
      CallEnds env request client (.error raised) client
  | recorded {config : McpRegistry.ServerConfig} {outcome : CallOutcome} {reached : Client}
      {added : List Exchange}
      {number : Nat} (known : lookupServer env request.registry request.serverName = .ok config)
      (record : CallRecord env config request outcome client reached added number) :
      CallEnds env request client (.ok outcome) reached

theorem wp_call : Wp (call env request) (CallEnds env request client) client := by
  unfold call
  rw [wp_bind, wp_ofExcept]
  cases known : lookupServer env request.registry request.serverName with
  | error raised => exact .unknown known
  | ok config =>
      simp only
      refine wp_bind_of wp_guardedRun ?_ ?_
      · intro ended middle guarded
        rw [wp_bind, wp_log]
        cases guarded with
        | @answered outcome number _ attempts terminals =>
            obtain ⟨added, trace, series⟩ := attempts.series le_rfl
            exact .recorded known ⟨trace, Nat.le_of_succ_le_succ series.calls, series.sleeps, series.own,
              series.repeats, fun value isValue => series.value value number (isValue ▸ rfl), rfl,
              (terminals_succ middle _ _ _).trans (congrArg (· + 1) terminals),
              .inl (by rw [series.number _ _ rfl]; omega)⟩
        | @broken raised first attempts terminals =>
            obtain ⟨added, trace, series⟩ := attempts.series le_rfl
            exact .recorded known ⟨trace, Nat.le_of_succ_le_succ series.calls, series.sleeps, series.own,
              series.repeats, fun value isValue => (by cases isValue), rfl,
              (terminals_succ _ _ _ _).trans (congrArg (· + 1) terminals), .inr ⟨rfl, raised, rfl⟩⟩
      · intro raised middle guarded
        cases guarded

theorem flattenTextBlocks_getD (content : List Block) :
    (flattenTextBlocks content).getD "" = String.join (content.filterMap Block.text?) := by
  unfold flattenTextBlocks
  split
  · rename_i none
    rw [none]
    rfl
  · rfl

theorem texts_of_all {content : List Block}
    (allText : content.any (fun block => block.text?.isNone) = false) :
    content = (content.filterMap Block.text?).map Block.text := by
  induction content with
  | nil => rfl
  | cons block rest ih =>
      rw [List.any_cons, Bool.or_eq_false_iff] at allText
      cases block with
      | text value => exact congrArg (Block.text value :: ·) (ih allText.2)
      | other => cases allText.1

theorem classifyResult_ok {result : CallToolResult} {value : String}
    (isValue : classifyResult result = .ok value) :
    result.isError = false ∧ ∃ texts, result.content = texts.map Block.text ∧
      value = String.join texts := by
  unfold classifyResult at isValue
  split at isValue
  · cases isValue
  · rename_i noError
    split at isValue
    · cases isValue
    · rename_i allText
      refine ⟨Bool.not_eq_true _ ▸ noError, result.content.filterMap Block.text?, ?_, ?_⟩
      · exact texts_of_all (Bool.not_eq_true _ ▸ allText)
      · rw [← flattenTextBlocks_getD]
        exact (CallOutcome.ok.inj isValue).symm

/-! Histories of calls. -/

theorem Replayed.call (replayed : Replayed env client) :
    Wp (call env request) (fun _ reached => Replayed env reached) client := by
  unfold McpClient.call
  rw [wp_bind, wp_ofExcept]
  cases lookupServer env request.registry request.serverName with
  | error raised => exact replayed
  | ok config =>
      simp only
      refine wp_bind_of wp_guardedRun ?_ ?_
      · intro ended middle guarded
        rw [wp_bind, wp_log]
        cases guarded with
        | answered attempts terminals =>
            have kept := attempts.replayed replayed
            exact ⟨kept.lawful, kept.cache⟩
        | broken attempts terminals =>
            have kept := attempts.replayed replayed
            exact ⟨kept.lawful, kept.cache⟩
      · intro raised middle guarded
        cases guarded

theorem Replayed.runCalls {requests : List Request} : ∀ {client : Client}, Replayed env client →
    Replayed env (runCalls env requests client) := by
  induction requests with
  | nil => exact fun replayed => replayed
  | cons request rest ih => exact fun replayed => ih replayed.call

theorem runCalls_append (earlier later : List Request) (client : Client) :
    runCalls env (earlier ++ later) client = runCalls env later (runCalls env earlier client) := by
  induction earlier generalizing client with
  | nil => rfl
  | cons request rest ih => exact ih _

theorem CallEnds.suffix {ending : Except Raised CallOutcome} {reached : Client}
    (ends : CallEnds env request client ending reached) : client.trace <:+ reached.trace := by
  cases ends with
  | unknown refused => exact List.suffix_refl _
  | recorded known record => exact ⟨_, record.trace.symm⟩

theorem CallEnds.terminals_eq {ending : Except Raised CallOutcome} {reached : Client}
    (ends : CallEnds env request client ending reached) :
    reached.terminals = client.terminals + (if request.isKnown env then 1 else 0) := by
  cases ends with
  | unknown refused => simp [Request.isKnown, refused, Except.toBool]
  | recorded known record => simp [Request.isKnown, known, Except.toBool, record.once]

theorem CallEnds.calls_le {ending : Except Raised CallOutcome} {reached : Client}
    (ends : CallEnds env request client ending reached) : reached.trace.countP Exchange.isCall ≤
      client.trace.countP Exchange.isCall + retryMaxAttempts * (if request.isKnown env then 1 else 0) := by
  cases ends with
  | unknown refused => exact Nat.le_add_right _ _
  | recorded known record =>
      rw [record.trace, List.countP_append, Request.isKnown, known, Except.toBool, if_pos rfl,
        Nat.mul_one, Nat.add_comm]
      exact Nat.add_le_add_left record.calls _

theorem runCalls_suffix {requests : List Request} : ∀ {client : Client},
    client.trace <:+ (runCalls env requests client).trace := by
  induction requests with
  | nil => exact List.suffix_refl _
  | cons request rest ih =>
      intro client
      exact (show CallEnds env request client _ _ from wp_call).suffix.trans ih

/-- One terminal record for each call of a known server, and no more tool calls than the attempts
allow. -/
theorem runCalls_terminals {requests : List Request} : ∀ {client : Client},
    (runCalls env requests client).terminals =
      client.terminals + requests.countP (Request.isKnown env) ∧
      (runCalls env requests client).trace.countP Exchange.isCall ≤
        client.trace.countP Exchange.isCall + retryMaxAttempts * requests.countP (Request.isKnown env) := by
  induction requests with
  | nil => exact fun {client} => ⟨rfl, Nat.le_add_right _ _⟩
  | cons request rest ih =>
      intro client
      have ends : CallEnds env request client _ _ := wp_call
      obtain ⟨terminals, calls⟩ := @ih ((call env request).run client).2
      rw [List.countP_cons, runCalls]
      have here := ends.terminals_eq
      have spent := ends.calls_le
      refine ⟨by omega, calls.trans ?_⟩
      rw [Nat.mul_add]
      omega

/-- Over every history of a process: nothing is listed again that was granted, no tool is called
with arguments that its schema refuses, the cache is what the trace granted, and no entry ever
changes. -/
theorem histories_replayed (env : ClientEnv) (earlier later : List Request) :
    Replayed env (runCalls env earlier .start) ∧ ∀ serverName tool schema,
      (runCalls env earlier .start).cached serverName tool = some schema →
        (runCalls env (earlier ++ later) .start).cached serverName tool = some schema := by
  have replayed : Replayed env (runCalls env earlier .start) := Replayed.start.runCalls
  refine ⟨replayed, fun serverName tool schema held => ?_⟩
  obtain ⟨exchange, member, grants⟩ := (replayed.cache _ _ _).mp held
  rw [runCalls_append, (Replayed.runCalls replayed).cache]
  exact ⟨exchange, runCalls_suffix.subset member, grants⟩

/-- After every history: the call raises for an unknown server only, else it leaves one record of
what it did; the history as a whole has one terminal record for each call of a known server. -/
theorem call_recorded (env : ClientEnv) (earlier : List Request) (request : Request) :
    Wp (call env request) (fun ending reached =>
      CallEnds env request (runCalls env earlier .start) ending reached ∧
      reached.terminals = (earlier ++ [request]).countP (Request.isKnown env) ∧
      reached.trace.countP Exchange.isCall ≤
        retryMaxAttempts * (earlier ++
          [request]).countP (Request.isKnown env)) (runCalls env earlier .start) := by
  refine Wp.mono wp_call ?_
  intro ending reached ends
  obtain ⟨terminals, calls⟩ := @runCalls_terminals env earlier .start
  have here := ends.terminals_eq
  have spent := ends.calls_le
  rw [List.countP_append, List.countP_singleton]
  refine ⟨ends, ?_, ?_⟩
  · rw [here, terminals]
    exact congrArg (· + _) (Nat.zero_add _)
  · rw [Nat.mul_add]
    have none : Client.start.trace.countP Exchange.isCall = 0 := rfl
    omega

structure Answer (env : ClientEnv) (since trace : List Exchange) (serverName tool : String)
    (args : Val) (value : String) : Prop where
  exchanged : ∃ result before schema, trace = .called serverName tool args (.ok result) :: before ∧
    since <:+ before ∧ Granted env before serverName tool schema ∧
      env.validate schema args = .valid ∧
    result.isError = false ∧ ∃ texts, result.content = texts.map Block.text ∧
      value = String.join texts

theorem Replayed.answers (replayed : Replayed env client) :
    Wp (McpClient.call env request) (fun ending reached =>
    Replayed env reached ∧ client.trace <:+ reached.trace ∧ ∀ value, ending = .ok (.ok value) →
      Answer env client.trace reached.trace request.serverName request.tool request.args value) client := by
  refine Wp.using replayed.call (Wp.mono wp_call ?_)
  intro ending reached ends kept
  refine ⟨kept, ends.suffix, fun value isValue => ?_⟩
  cases ends with
  | unknown refused => cases isValue
  | recorded known record =>
      obtain ⟨result, earlier, same, classified⟩ := record.value value (Except.ok.inj isValue)
      have trace := record.trace
      rw [same, List.cons_append] at trace
      have lawful := kept.lawful
      rw [trace] at lawful
      cases lawful with
      | @called _ _ _ _ schema answer _ granted accepted =>
          obtain ⟨noError, texts⟩ := classifyResult_ok classified
          exact ⟨result, _, schema, trace, List.suffix_append _ _, granted, accepted, noError,
            texts⟩

/-- A value is the text of the last exchange: a call of the request's tool, with arguments that the
schema listed for it accepts, that the server answered with text and no error. -/
theorem value_answered (env : ClientEnv) (earlier : List Request) (request : Request) :
    Wp (call env request) (fun ending reached => ∀ value, ending = .ok (.ok value) →
      ∃ result before schema,
      reached.trace = .called request.serverName request.tool request.args (.ok result) :: before ∧
      Granted env before request.serverName request.tool schema ∧
        env.validate schema request.args = .valid ∧
      result.isError = false ∧ ∃ texts, result.content = texts.map Block.text ∧
        value = String.join texts)
    (runCalls env earlier .start) := by
  have replayed : Replayed env (runCalls env earlier .start) := Replayed.start.runCalls
  refine Wp.mono replayed.answers fun ending reached holds value isValue => ?_
  obtain ⟨result, before, schema, trace, -, answered⟩ := (holds.2.2 value isValue).exchanged
  exact ⟨result, before, schema, trace, answered⟩

end McpClient

end Megalos
