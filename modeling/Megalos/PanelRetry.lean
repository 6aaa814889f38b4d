import Mathlib.Algebra.Order.Ring.Unbundled.Rat
import Mathlib.Algebra.Ring.Rat
import Mathlib.Data.Nat.Count
import Megalos.Library.KeyedTable
import Megalos.Value

/-!
The calls of `megalos_panel` to a provider: the retry loop with its two budgets, and
`panel_query`, which runs one loop for each request and records how many calls it took.
-/

namespace Megalos

open KeyedTable

inductive PanelOutcome where
  | success (text : String)
  | rateLimitError (message : String)
  | transientError (message : String)
  | otherError (message : String)
  deriving DecidableEq

namespace PanelOutcome

def isRateLimit : PanelOutcome → Bool
  | .rateLimitError _ => true
  | _ => false

def isTransient : PanelOutcome → Bool
  | .transientError _ => true
  | _ => false

def isOther : PanelOutcome → Bool
  | .otherError _ => true
  | _ => false

@[simp] theorem isRateLimit_rateLimitError (message : String) :
    (rateLimitError message).isRateLimit = true := rfl

@[simp] theorem isTransient_transientError (message : String) :
    (transientError message).isTransient = true := rfl

@[simp] theorem isTransient_rateLimitError (message : String) :
    (rateLimitError message).isTransient = false := rfl

@[simp] theorem isRateLimit_transientError (message : String) :
    (transientError message).isRateLimit = false := rfl

end PanelOutcome

structure PanelProviderError where
  model : String
  attempts : Nat
  lastError : String
  deriving DecidableEq

def PanelProviderError.text (error : PanelProviderError) : String :=
  "panel provider error: model=" ++ error.model ++ " attempts=" ++ toString error.attempts ++
    " last_error=" ++
    error.lastError

structure RetryBudgets where
  rateLimitAttempts : Nat
  transientAttempts : Nat
  rateLimitPositive : 1 ≤ rateLimitAttempts
  transientPositive : 1 ≤ transientAttempts

structure Backoff where
  cap : Rat
  base : Rat
  capNonneg : 0 ≤ cap
  baseNonneg : 0 ≤ base

inductive RetryExit where
  | returned (text : String)
  | raised (error : PanelProviderError)
  | uncaught (exn : Exn)
  deriving DecidableEq

/-- A finished loop: how it ended, how long it slept, and what the calls left behind. -/
structure Retried (σ : Type) where
  exit : RetryExit
  slept : List Rat
  state : σ

def backoffDelay (backoff : Backoff) (attempt : Nat) : Except Exn Rat :=
  if 1024 < attempt then .error (.uncaught "OverflowError" "int too large to convert to float")
  else .ok (min (backoff.base * 2 ^ (attempt - 1)) backoff.cap)

section Loop

variable {σ : Type} (fn : σ → PanelOutcome × σ) (budgets : RetryBudgets) (backoff : Backoff)
    (model : String)

def retryLoop (rateLimitUsed transientUsed totalAttempts : Nat) (slept : List Rat) (state : σ) :
    Retried σ :=
  match (fn state).1 with
  | .success text => ⟨.returned text, slept, (fn state).2⟩
  | .rateLimitError message =>
      if budgets.rateLimitAttempts ≤ rateLimitUsed + 1 then
        ⟨.raised ⟨model, totalAttempts + 1, message⟩, slept, (fn state).2⟩
      else match backoffDelay backoff (totalAttempts + 1) with
        | .error exn => ⟨.uncaught exn, slept, (fn state).2⟩
        | .ok delay =>
            retryLoop (rateLimitUsed + 1) transientUsed (totalAttempts + 1) (slept ++ [delay])
              (fn state).2
  | .transientError message =>
      if budgets.transientAttempts ≤ transientUsed + 1 then
        ⟨.raised ⟨model, totalAttempts + 1, message⟩, slept, (fn state).2⟩
      else match backoffDelay backoff (totalAttempts + 1) with
        | .error exn => ⟨.uncaught exn, slept, (fn state).2⟩
        | .ok delay =>
            retryLoop rateLimitUsed (transientUsed + 1) (totalAttempts + 1) (slept ++ [delay])
              (fn state).2
  | .otherError message => ⟨.raised ⟨model, 1, message⟩, slept, (fn state).2⟩
termination_by (budgets.rateLimitAttempts - rateLimitUsed) + (budgets.transientAttempts - transientUsed)

def retryWithBackoff (state : σ) : Retried σ := retryLoop fn budgets backoff model 0 0 0 [] state

end Loop

/-! The specification: the first outcome that decides. -/

section Specification

def kindCount (kind : PanelOutcome → Bool) (outcomes : Nat → PanelOutcome) (number : Nat) : Nat :=
  Nat.count (fun call => kind (outcomes call) = true) number

theorem kindCount_succ (kind : PanelOutcome → Bool) (outcomes : Nat → PanelOutcome) (number : Nat) :
    kindCount kind outcomes (number + 1) =
      kindCount kind outcomes number + if kind (outcomes number) then 1 else 0 :=
  Nat.count_succ ..

variable (budgets : RetryBudgets) (outcomes : Nat → PanelOutcome)

def Decides (number : Nat) : Prop :=
  match outcomes number with
  | .success _ => True
  | .rateLimitError _ =>
      budgets.rateLimitAttempts ≤ kindCount PanelOutcome.isRateLimit outcomes (number + 1)
  | .transientError _ =>
      budgets.transientAttempts ≤ kindCount PanelOutcome.isTransient outcomes (number + 1)
  | .otherError _ => True

structure FirstDecisive (number : Nat) : Prop where
  decides : Decides budgets outcomes number
  earlier : ∀ call < number, ¬Decides budgets outcomes call

variable {budgets outcomes}

theorem FirstDecisive.unique {number other : Nat} (first : FirstDecisive budgets outcomes number)
    (second : FirstDecisive budgets outcomes other) : number = other := by
  rcases Nat.lt_trichotomy number other with less | same | more
  · exact absurd first.decides (second.earlier number less)
  · exact same
  · exact absurd second.decides (first.earlier other more)

end Specification

/-- What the loop ends with after the call that decides. -/
def RetryExit.after (model : String) (number : Nat) : PanelOutcome → RetryExit
  | .success text => .returned text
  | .rateLimitError message => .raised ⟨model, number + 1, message⟩
  | .transientError message => .raised ⟨model, number + 1, message⟩
  | .otherError message => .raised ⟨model, 1, message⟩

section Runs

variable {σ : Type} {fn : σ → PanelOutcome × σ} {budgets : RetryBudgets} {backoff : Backoff}
    {model : String}

def stateBefore (fn : σ → PanelOutcome × σ) (state : σ) : Nat → σ
  | 0 => state
  | number + 1 => (fn (stateBefore fn state number)).2

def outcomeOf (fn : σ → PanelOutcome × σ) (state : σ) (number : Nat) : PanelOutcome :=
  (fn (stateBefore fn state number)).1

structure StopsAfter (fn : σ → PanelOutcome × σ) (backoff : Backoff) (model : String) (state : σ)
    (number : Nat) (result : Retried σ) : Prop where
  exit : result.exit = RetryExit.after model number (outcomeOf fn state number)
  slept : result.slept = (List.range number).map fun retry =>
    min (backoff.base * 2 ^ retry) backoff.cap
  state : result.state = stateBefore fn state (number + 1)

/-- The delay after the call number 1024 has no value. -/
structure Overflows (fn : σ → PanelOutcome × σ) (state : σ) (result : Retried σ) : Prop where
  exit : result.exit = .uncaught (.uncaught "OverflowError" "int too large to convert to float")
  state : result.state = stateBefore fn state 1025

theorem backoffDelay_eq {attempt : Nat} (small : attempt < 1024) :
    backoffDelay backoff (attempt + 1) = .ok (min (backoff.base * 2 ^ attempt) backoff.cap) := by
  rw [backoffDelay, if_neg (by omega), Nat.add_sub_cancel]

def loopFrom (fn : σ → PanelOutcome × σ) (budgets : RetryBudgets) (backoff : Backoff)
    (model : String) (state : σ) (number : Nat) : Retried σ :=
  retryLoop fn budgets backoff model (kindCount PanelOutcome.isRateLimit (outcomeOf fn state) number)
    (kindCount PanelOutcome.isTransient (outcomeOf fn state) number) number
    ((List.range number).map fun retry => min (backoff.base * 2 ^ retry) backoff.cap)
      (stateBefore fn state number)

variable {state : σ} {number : Nat}

theorem loopFrom_zero :
    retryWithBackoff fn budgets backoff model state = loopFrom fn budgets backoff model state 0 :=
    rfl

theorem loopFrom_decides (decides : Decides budgets (outcomeOf fn state) number) :
    StopsAfter fn backoff model state number (loopFrom fn budgets backoff model state number) := by
  unfold loopFrom
  rw [retryLoop]
  unfold Decides at decides
  cases outcome : outcomeOf fn state number with
  | success text =>
      rw [outcomeOf] at outcome
      rw [outcome]
      exact ⟨by rw [outcomeOf, outcome]; rfl, rfl, rfl⟩
  | otherError message =>
      rw [outcomeOf] at outcome
      rw [outcome]
      exact ⟨by rw [outcomeOf, outcome]; rfl, rfl, rfl⟩
  | rateLimitError message =>
      simp only [outcome, kindCount_succ, PanelOutcome.isRateLimit_rateLimitError,
        if_true] at decides
      rw [outcomeOf] at outcome
      simp only [outcome, if_pos decides]
      exact ⟨by rw [outcomeOf, outcome]; rfl, rfl, rfl⟩
  | transientError message =>
      simp only [outcome, kindCount_succ, PanelOutcome.isTransient_transientError,
        if_true] at decides
      rw [outcomeOf] at outcome
      simp only [outcome, if_pos decides]
      exact ⟨by rw [outcomeOf, outcome]; rfl, rfl, rfl⟩

/-- A call that does not decide has failed in one of the two ways that are retried. -/
theorem not_decides {outcomes : Nat → PanelOutcome} (retried : ¬Decides budgets outcomes number) :
    (∃ message, outcomes number = .rateLimitError message ∧
        ¬budgets.rateLimitAttempts ≤ kindCount PanelOutcome.isRateLimit outcomes number + 1) ∨
      ∃ message, outcomes number = .transientError message ∧
        ¬budgets.transientAttempts ≤ kindCount PanelOutcome.isTransient outcomes number + 1 := by
  unfold Decides at retried
  cases outcome : outcomes number with
  | success text =>
      rw [outcome] at retried
      exact absurd trivial retried
  | otherError message =>
      rw [outcome] at retried
      exact absurd trivial retried
  | rateLimitError message =>
      simp only [outcome, kindCount_succ, PanelOutcome.isRateLimit_rateLimitError,
        if_true] at retried
      exact .inl ⟨message, rfl, retried⟩
  | transientError message =>
      simp only [outcome, kindCount_succ, PanelOutcome.isTransient_transientError,
        if_true] at retried
      exact .inr ⟨message, rfl, retried⟩

theorem loopFrom_retries (retried : ¬Decides budgets (outcomeOf fn state) number)
    (small : number < 1024) :
    loopFrom fn budgets backoff model state number =
      loopFrom fn budgets backoff model state (number + 1) := by
  unfold loopFrom
  rw [retryLoop, List.range_succ, List.map_append, kindCount_succ, kindCount_succ]
  rcases not_decides retried with ⟨message, outcome, room⟩ | ⟨message, outcome, room⟩
  · rw [outcome, ← outcomeOf, outcome]
    simp only [if_neg room, backoffDelay_eq small]
    rfl
  · rw [outcome, ← outcomeOf, outcome]
    simp only [if_neg room, backoffDelay_eq small]
    rfl

theorem loopFrom_overflows (retried : ¬Decides budgets (outcomeOf fn state) 1024) :
    Overflows fn state (loopFrom fn budgets backoff model state 1024) := by
  unfold loopFrom
  rw [retryLoop]
  rcases not_decides retried with ⟨message, outcome, room⟩ | ⟨message, outcome, room⟩
  · rw [outcomeOf] at outcome
    simp only [outcome, if_neg room, backoffDelay]
    exact ⟨rfl, rfl⟩
  · rw [outcomeOf] at outcome
    simp only [outcome, if_neg room, backoffDelay]
    exact ⟨rfl, rfl⟩

theorem loopFrom_of_retried (small : number ≤ 1024)
    (retried : ∀ call < number, ¬Decides budgets (outcomeOf fn state) call) :
    retryWithBackoff fn budgets backoff model state =
      loopFrom fn budgets backoff model state number := by
  induction number with
  | zero => exact loopFrom_zero
  | succ number ih =>
      rw [ih (by omega) fun call before => retried call (by omega)]
      exact loopFrom_retries (retried number (by omega)) (by omega)

theorem retryWithBackoff_stops {stop : Nat}
    (first : FirstDecisive budgets (outcomeOf fn state) stop) (small : stop ≤ 1024) :
    StopsAfter fn backoff model state stop (retryWithBackoff fn budgets backoff model state) := by
  rw [loopFrom_of_retried small first.earlier]
  exact loopFrom_decides first.decides

theorem retryWithBackoff_overflows (retried : ∀ call ≤ 1024,
    ¬Decides budgets (outcomeOf fn state) call) :
    Overflows fn state (retryWithBackoff fn budgets backoff model state) := by
  rw [loopFrom_of_retried (le_refl 1024) fun call before => retried call before.le]
  exact loopFrom_overflows (retried 1024 (le_refl 1024))

theorem count_of_retried {outcomes : Nat → PanelOutcome}
    (retried : ∀ call < number, ¬Decides budgets outcomes call) :
    kindCount PanelOutcome.isRateLimit outcomes number + kindCount PanelOutcome.isTransient outcomes number = number ∧
      kindCount PanelOutcome.isRateLimit outcomes number < budgets.rateLimitAttempts ∧
      kindCount PanelOutcome.isTransient outcomes number < budgets.transientAttempts := by
  induction number with
  | zero => exact ⟨rfl, budgets.rateLimitPositive, budgets.transientPositive⟩
  | succ number ih =>
      obtain ⟨total, rateLimits, transients⟩ := ih fun call before => retried call (by omega)
      rw [kindCount_succ, kindCount_succ]
      rcases not_decides (retried number (by omega)) with ⟨message, outcome, room⟩ | ⟨message,
        outcome, room⟩
      · rw [outcome, PanelOutcome.isRateLimit_rateLimitError,
          PanelOutcome.isTransient_rateLimitError]
        simp only [if_true, Bool.false_eq_true, if_false]
        omega
      · rw [outcome, PanelOutcome.isRateLimit_transientError,
          PanelOutcome.isTransient_transientError]
        simp only [if_true, Bool.false_eq_true, if_false]
        omega

theorem firstDecisive_exists (budgets : RetryBudgets) (outcomes : Nat → PanelOutcome) :
    ∃ stop, FirstDecisive budgets outcomes stop ∧
      stop + 2 ≤ budgets.rateLimitAttempts + budgets.transientAttempts := by
  classical
  have some : ∃ stop, Decides budgets outcomes stop := by
    by_contra none
    have never : ∀ call < budgets.rateLimitAttempts + budgets.transientAttempts,
      ¬Decides budgets outcomes call :=
      fun call _ decides => none ⟨call, decides⟩
    have counts := count_of_retried never
    omega
  have earlier : ∀ call < Nat.find some, ¬Decides budgets outcomes call :=
    fun call before => Nat.find_min some before
  have counts := count_of_retried earlier
  exact ⟨Nat.find some, ⟨Nat.find_spec some, earlier⟩, by omega⟩

end Runs

/-! The batch. -/

structure PanelRequest where
  prompt : String
  model : String
  requestId : String
  deriving DecidableEq

structure PanelResult where
  selection : String
  rawResponse : String
  error : Option String

structure RequestMeta where
  attempts : Nat
  elapsedMs : Nat

structure PanelRecord where
  requestId : String
  model : String
  prompt : String
  selection : String
  rawResponse : String
  error : Option String
  attempts : Nat
  elapsedMs : Nat
  timestamp : String

structure PanelEnv where
  /-- How the n-th call of the provider for a request ends. -/
  invoke : PanelRequest → Nat → PanelOutcome
  elapsedMs : PanelRequest → Nat
  timestamp : Nat → String
  /-- The import of the adapter class of a prefix. -/
  loadAdapterClass : String → Except Exn Unit
  /-- The construction of the adapter for a model. -/
  buildAdapter : String → Except Exn Unit
  pyRepr : String → String

def panelBudgets : RetryBudgets := ⟨5, 5, by decide, by decide⟩

def panelBackoff : Backoff := ⟨30, 1, by decide, by decide⟩

def adapterPrefixes : List String := ["claude-", "gpt-", "groq/"]

def dispatch (env : PanelEnv) (model : String) : Except Exn Unit :=
  match adapterPrefixes.find? fun known => known.toList.isPrefixOf model.toList with
  | none => .error (.valueError
      ("no panel adapter registered for model " ++ env.pyRepr model ++
        "; known prefixes: ['claude-', 'gpt-', 'groq/']"))
  | some known => env.loadAdapterClass known

/-- What one worker has done: its own counter, and the calls the adapter has had from it. -/
structure CallCounts where
  attempts : Nat
  invoked : Nat

def callOnce (env : PanelEnv) (request : PanelRequest) (calls : CallCounts) :
    PanelOutcome × CallCounts :=
  (env.invoke request calls.invoked, ⟨calls.attempts + 1, calls.invoked + 1⟩)

def retried (env : PanelEnv) (request : PanelRequest) : Retried CallCounts :=
  retryWithBackoff (callOnce env request) panelBudgets panelBackoff request.model ⟨0, 0⟩

def providerCalls (env : PanelEnv) (request : PanelRequest) : Nat :=
    (retried env request).state.invoked

def perRequest (env : PanelEnv) (request : PanelRequest) : Except Exn (PanelResult × RequestMeta) :=
  match (retried env request).exit with
  | .returned text => .ok (⟨text, text, none⟩,
    ⟨(retried env request).state.attempts, env.elapsedMs request⟩)
  | .raised error => .ok (⟨"", "", some error.text⟩, ⟨error.attempts, env.elapsedMs request⟩)
  | .uncaught exn => .error exn

def Exn.message : Exn → String
  | .typeError message | .valueError message | .uncaught _ message => message
  | _ => ""

def safeCall (env : PanelEnv) (request : PanelRequest) : PanelResult :=
  match perRequest env request with
  | .ok (result, _) => result
  | .error exn => ⟨"", "", some exn.message⟩

/-- The requests of one run, and the order in which their workers finish. A request id correlates
one request with its result. -/
structure PanelBatch where
  requests : List PanelRequest
  finished : List PanelRequest
  distinct : (requests.map PanelRequest.requestId).Nodup
  all : finished.Perm requests

def noteMeta (env : PanelEnv) (noted : Dict RequestMeta) (request : PanelRequest) :
    Dict RequestMeta :=
  match perRequest env request with
  | .ok (_, gathered) => noted.set request.requestId gathered
  | .error _ => noted

def gatheredMeta (env : PanelEnv) (batch : PanelBatch) : Dict RequestMeta :=
  batch.finished.foldl (noteMeta env) Table.empty

def recordOf (env : PanelEnv) (gathered : Dict RequestMeta) (request : PanelRequest)
    (written : Nat) : PanelRecord where
  requestId := request.requestId
  model := request.model
  prompt := request.prompt
  selection := (safeCall env request).selection
  rawResponse := (safeCall env request).rawResponse
  error := (safeCall env request).error
  attempts := (gathered.getD request.requestId ⟨0, 0⟩).attempts
  elapsedMs := (gathered.getD request.requestId ⟨0, 0⟩).elapsedMs
  timestamp := env.timestamp written

/-- The records that `panel_query` writes. -/
def panelQuery (env : PanelEnv) (batch : PanelBatch) : Except Exn (List PanelRecord) := do
  batch.requests.forM fun request => dispatch env request.model
  batch.requests.forM fun request => env.buildAdapter request.model
  return batch.requests.mapIdx fun written request =>
    recordOf env (gatheredMeta env batch) request written

/-! What a record holds. -/

variable {env : PanelEnv} {request : PanelRequest}

theorem stateBefore_callOnce (number : Nat) :
    stateBefore (callOnce env request) ⟨0, 0⟩ number = ⟨number, number⟩ := by
  induction number with
  | zero => rfl
  | succ number ih =>
      rw [stateBefore, ih]
      rfl

theorem outcomeOf_callOnce : outcomeOf (callOnce env request) ⟨0, 0⟩ = env.invoke request := by
  funext number
  rw [outcomeOf, stateBefore_callOnce]
  rfl

theorem panelBudgets_stop {stop : Nat}
    (first : FirstDecisive panelBudgets (env.invoke request) stop) : stop ≤ 8 := by
  obtain ⟨other, decisive, bound⟩ := firstDecisive_exists panelBudgets (env.invoke request)
  have budgets : panelBudgets.rateLimitAttempts + panelBudgets.transientAttempts = 10 := rfl
  have same := first.unique decisive
  omega

theorem retried_stops {stop : Nat} (first : FirstDecisive panelBudgets (env.invoke request) stop) :
    (retried env request).exit = RetryExit.after request.model stop (env.invoke request stop) ∧
      (retried env request).state = ⟨stop + 1, stop + 1⟩ := by
  have bound := panelBudgets_stop first
  rw [← outcomeOf_callOnce] at first
  have stops : StopsAfter (callOnce env request) panelBackoff request.model ⟨0,
    0⟩ stop (retried env request) :=
    retryWithBackoff_stops first (by omega)
  rw [← stateBefore_callOnce, ← outcomeOf_callOnce]
  exact ⟨stops.exit, stops.state⟩

theorem providerCalls_eq {stop : Nat}
    (first : FirstDecisive panelBudgets (env.invoke request) stop) :
    providerCalls env request = stop + 1 := by
  rw [providerCalls, (retried_stops first).2]

/-- A failure that is not retried is reported as the first call, whichever call it was. -/
theorem perRequest_attempts {stop : Nat}
    (first : FirstDecisive panelBudgets (env.invoke request) stop) :
    ∃ result gathered, perRequest env request = .ok (result, gathered) ∧
      gathered.attempts = if (env.invoke request stop).isOther then 1 else stop + 1 := by
  obtain ⟨exit, state⟩ := retried_stops first
  unfold perRequest
  rw [exit, state]
  cases outcome : env.invoke request stop with
  | success text => exact ⟨_, _, rfl, rfl⟩
  | rateLimitError message => exact ⟨_, _, rfl, rfl⟩
  | transientError message => exact ⟨_, _, rfl, rfl⟩
  | otherError message => exact ⟨_, _, rfl, rfl⟩

theorem noteMeta_get? {noted : Dict RequestMeta} {other : PanelRequest} {wanted : String}
    (distinct : other.requestId ≠ wanted) :
    (noteMeta env noted other).get? wanted = noted.get? wanted := by
  unfold noteMeta
  cases perRequest env other with
  | error exn => rfl
  | ok answer => rw [Dict.get?_set, if_neg distinct.symm]

theorem foldl_noteMeta_get? {finished : List PanelRequest} {wanted : String}
    (absent : wanted ∉ finished.map PanelRequest.requestId) (noted : Dict RequestMeta) :
    (finished.foldl (noteMeta env) noted).get? wanted = noted.get? wanted := by
  induction finished generalizing noted with
  | nil => rfl
  | cons other rest ih =>
      rw [List.map_cons, List.mem_cons, not_or] at absent
      rw [List.foldl_cons, ih absent.2, noteMeta_get? (Ne.symm absent.1)]

/-- The workers write under different ids, so that the order in which they finish does not matter.
-/
theorem gathered_get? {finished : List PanelRequest}
    (distinct : (finished.map PanelRequest.requestId).Nodup) (member : request ∈ finished)
    {result : PanelResult} {gathered : RequestMeta}
    (answered : perRequest env request = .ok (result, gathered)) (noted : Dict RequestMeta) :
    (finished.foldl (noteMeta env) noted).get? request.requestId = some gathered := by
  induction finished generalizing noted with
  | nil => cases member
  | cons first rest ih =>
      rw [List.map_cons, List.nodup_cons] at distinct
      rw [List.foldl_cons]
      rcases List.mem_cons.mp member with rfl | later
      · rw [foldl_noteMeta_get? distinct.1, noteMeta, answered]
        dsimp only
        rw [Dict.get?_set, if_pos rfl]
      · exact ih distinct.2 later _

theorem recordOf_attempts {batch : PanelBatch} (member : request ∈ batch.requests) {stop : Nat}
    (first : FirstDecisive panelBudgets (env.invoke request) stop) (written : Nat) :
    (recordOf env (gatheredMeta env batch) request written).attempts =
      if (env.invoke request stop).isOther then 1 else stop + 1 := by
  obtain ⟨result, gathered, answered, attempts⟩ := perRequest_attempts first
  have distinct : (batch.finished.map PanelRequest.requestId).Nodup :=
    (batch.all.map PanelRequest.requestId).nodup_iff.mpr batch.distinct
  have found : (gatheredMeta env batch).get? request.requestId = some gathered :=
    gathered_get? distinct (batch.all.mem_iff.mpr member) answered Table.empty
  rw [recordOf, Dict.getD, found, Option.getD_some, attempts]

theorem panelQuery_record {batch : PanelBatch} {records : List PanelRecord}
    (ran : panelQuery env batch = .ok records) {record : PanelRecord} (written : record ∈ records)
    (member : request ∈ batch.requests)
    (own : record.requestId = request.requestId) :
    ∃ number, record = recordOf env (gatheredMeta env batch) request number := by
  have all : records = batch.requests.mapIdx fun number request =>
    recordOf env (gatheredMeta env batch) request number := by
    unfold panelQuery at ran
    cases models : batch.requests.forM fun request => dispatch env request.model with
    | error exn =>
        rw [models] at ran
        cases ran
    | ok done =>
        rw [models] at ran
        cases built : batch.requests.forM fun request => env.buildAdapter request.model with
        | error exn =>
            rw [built] at ran
            cases ran
        | ok finished =>
            rw [built] at ran
            cases ran
            rfl
  rw [all, List.mem_mapIdx] at written
  obtain ⟨number, there, rfl⟩ := written
  have same : batch.requests[number] = request :=
    List.inj_on_of_nodup_map batch.distinct (List.getElem_mem there) member own
  exact ⟨number, by rw [same]⟩

/-! The account of the attempts. -/

def EndsAs : PanelOutcome → RetryExit → Prop
  | .success text, exit => exit = .returned text
  | .rateLimitError message, exit => ∃ error, exit = .raised error ∧ error.lastError = message
  | .transientError message, exit => ∃ error, exit = .raised error ∧ error.lastError = message
  | .otherError message, exit => ∃ error, exit = .raised error ∧ error.lastError = message

theorem endsAs_after (model : String) (number : Nat) (outcome : PanelOutcome) :
    EndsAs outcome (RetryExit.after model number outcome) := by
  cases outcome with
  | success text => exact rfl
  | rateLimitError message => exact ⟨_, rfl, rfl⟩
  | transientError message => exact ⟨_, rfl, rfl⟩
  | otherError message => exact ⟨_, rfl, rfl⟩

theorem not_endsAs_uncaught (exn : Exn) (outcome : PanelOutcome) :
    ¬EndsAs outcome (.uncaught exn) := by
  cases outcome <;> simp [EndsAs]

/-- A provider whose calls end in this order; the state counts them. -/
def scriptedCalls (outcomes : Nat → PanelOutcome) (made : Nat) : PanelOutcome × Nat :=
    (outcomes made, made + 1)

/-- The first call that decides was the last one made, and the loop ended as it did. -/
def StopsAtFirstDecisive (budgets : RetryBudgets) (outcomes : Nat → PanelOutcome)
    (result : Retried Nat) : Prop :=
  ∃ number, FirstDecisive budgets outcomes number ∧ result.state = number + 1 ∧
    EndsAs (outcomes number) result.exit

theorem stateBefore_scriptedCalls (outcomes : Nat → PanelOutcome) (number : Nat) :
    stateBefore (scriptedCalls outcomes) 0 number = number := by
  induction number with
  | zero => rfl
  | succ number ih =>
      rw [stateBefore, ih]
      rfl

theorem outcomeOf_scriptedCalls (outcomes : Nat → PanelOutcome) :
    outcomeOf (scriptedCalls outcomes) 0 = outcomes := by
  funext number
  rw [outcomeOf, stateBefore_scriptedCalls]
  rfl

/-- Only a delay without a float value keeps the loop from the call that decides. -/
theorem stopsAtFirstDecisive_iff (budgets : RetryBudgets) (outcomes : Nat → PanelOutcome)
    (backoff : Backoff) (model : String) :
    StopsAtFirstDecisive budgets outcomes (retryWithBackoff (scriptedCalls outcomes) budgets backoff model 0) ↔
      ∃ number ≤ 1024, FirstDecisive budgets outcomes number := by
  constructor
  · rintro ⟨number, first, made, ends⟩
    by_cases small : number ≤ 1024
    · exact ⟨number, small, first⟩
    · have late : ∀ call ≤ 1024, ¬Decides budgets (outcomeOf (scriptedCalls outcomes) 0) call := by
        intro call before
        rw [outcomeOf_scriptedCalls]
        exact first.earlier call (by omega)
      have overflows : Overflows (scriptedCalls outcomes) 0
          (retryWithBackoff (scriptedCalls outcomes) budgets backoff model 0) :=
            retryWithBackoff_overflows late
      rw [overflows.exit] at ends
      exact absurd ends (not_endsAs_uncaught _ _)
  · rintro ⟨number, small, first⟩
    have decisive : FirstDecisive budgets (outcomeOf (scriptedCalls outcomes) 0) number := by
      rwa [outcomeOf_scriptedCalls]
    have stops : StopsAfter (scriptedCalls outcomes) backoff model 0 number
        (retryWithBackoff (scriptedCalls outcomes) budgets backoff model 0) :=
          retryWithBackoff_stops decisive small
    refine ⟨number, first, ?_, ?_⟩
    · rw [stops.state, stateBefore_scriptedCalls]
    · rw [stops.exit, outcomeOf_scriptedCalls]
      exact endsAs_after model number _

def sampleRequest : PanelRequest := ⟨"prompt", "gpt-5", "r"⟩

def sampleBatch : PanelBatch := ⟨[sampleRequest], [sampleRequest], by decide, .refl _⟩

/-- A provider that refuses the first call, and answers the second as given. -/
def samplePanelEnv (second : PanelOutcome) : PanelEnv where
  invoke _ call := if call = 0 then .rateLimitError "429" else second
  elapsedMs _ := 0
  timestamp _ := "2026-01-01T00:00:00+00:00"
  loadAdapterClass _ := .ok ()
  buildAdapter _ := .ok ()
  pyRepr text := text

theorem samplePanelEnv_decides {second : PanelOutcome}
    (final : second = .success "answer" ∨ second = .otherError "400") :
    FirstDecisive panelBudgets ((samplePanelEnv second).invoke sampleRequest) 1 := by
  constructor
  · rcases final with rfl | rfl <;> exact trivial
  · intro call before
    obtain rfl : call = 0 := by omega
    change ¬5 ≤ kindCount PanelOutcome.isRateLimit _ (0 + 1)
    rw [kindCount_succ]
    change ¬5 ≤ 0 + 1
    decide

end Megalos
