import Megalos.PanelRetry

/-!
The workers of `fan_out`, call by call.  Between two calls of one worker the others call
and finish, and the provider may answer a call by anything, depending on how many calls
came before it.
-/

namespace Megalos

open KeyedTable

structure RetryCounts where
  rateLimitUsed : Nat
  transientUsed : Nat
  totalAttempts : Nat
  deriving DecidableEq

/-- A worker: in its retry loop, out of it, or with its result returned. `attempts` is the counter
of `call_once`. -/
inductive Worker where
  | looping (counts : RetryCounts) (attempts : Nat)
  | exited (exit : RetryExit) (attempts : Nat)
  | finished (result : PanelResult)

/-- One turn of the loop: a call of the provider, and what its end makes of the worker. -/
def Worker.called (model : String) (worker : Worker) (outcome : PanelOutcome) : Worker :=
  match worker with
  | .looping counts attempts =>
      match outcome with
      | .success text => .exited (.returned text) (attempts + 1)
      | .rateLimitError message =>
          if panelBudgets.rateLimitAttempts ≤ counts.rateLimitUsed + 1 then
            .exited (.raised ⟨model, counts.totalAttempts + 1, message⟩) (attempts + 1)
          else match backoffDelay panelBackoff (counts.totalAttempts + 1) with
            | .error exn => .exited (.uncaught exn) (attempts + 1)
            | .ok _ =>
                .looping ⟨counts.rateLimitUsed + 1, counts.transientUsed,
                  counts.totalAttempts + 1⟩ (attempts + 1)
      | .transientError message =>
          if panelBudgets.transientAttempts ≤ counts.transientUsed + 1 then
            .exited (.raised ⟨model, counts.totalAttempts + 1, message⟩) (attempts + 1)
          else match backoffDelay panelBackoff (counts.totalAttempts + 1) with
            | .error exn => .exited (.uncaught exn) (attempts + 1)
            | .ok _ =>
                .looping ⟨counts.rateLimitUsed, counts.transientUsed + 1,
                  counts.totalAttempts + 1⟩ (attempts + 1)
      | .otherError message => .exited (.raised ⟨model, 1, message⟩) (attempts + 1)
  | other => other

/-- What `per_request` returns, or `_safe_call` for it. -/
def RetryExit.result : RetryExit → PanelResult
  | .returned text => ⟨text, text, none⟩
  | .raised error => ⟨"", "", some error.text⟩
  | .uncaught exn => ⟨"", "", some exn.message⟩

/-- What `per_request` has gathered by then; an exception from outside the taxonomy passes it by. -/
def RetryExit.gathered (attempts elapsedMs : Nat) : RetryExit → Option RequestMeta
  | .returned _ => some ⟨attempts, elapsedMs⟩
  | .raised error => some ⟨error.attempts, elapsedMs⟩
  | .uncaught _ => none

def noteUnder (noted : Dict RequestMeta) (requestId : String) : Option RequestMeta →
    Dict RequestMeta
  | some gathered => noted.set requestId gathered
  | none => noted

/-- The threads of the pool, and what they share. -/
structure PanelState where
  workers : Nat → Worker
  noted : Dict RequestMeta
  made : Nat

def PanelState.start : PanelState := ⟨fun _ => .looping ⟨0, 0, 0⟩ 0, Table.empty, 0⟩

inductive PanelEvent where
  | called (worker : Nat)
  | finished (worker elapsedMs : Nat)

section Schedules

variable (provider : Nat → PanelRequest → PanelOutcome) (requests : List PanelRequest)

/-- One event of a schedule, when the worker is where the event finds it. -/
def PanelState.step (state : PanelState) : PanelEvent → Option PanelState
  | .called worker =>
      match requests[worker]?, state.workers worker with
      | some request, .looping counts attempts =>
          some { state with
            workers := Function.update state.workers worker
              ((Worker.looping counts attempts).called request.model (provider state.made request))
            made := state.made + 1 }
      | _, _ => none
  | .finished worker elapsedMs =>
      match requests[worker]?, state.workers worker with
      | some request, .exited exit attempts =>
          some { state with
            workers := Function.update state.workers worker (.finished exit.result)
            noted := noteUnder state.noted request.requestId (exit.gathered attempts elapsedMs) }
      | _, _ => none

def PanelState.run (state : PanelState) : List PanelEvent → Option PanelState
  | [] => some state
  | event :: rest =>
      match state.step provider requests event with
      | some next => next.run rest
      | none => none

end Schedules

/-- The end of `fan_out`: the results in the order of the requests, once every worker has returned.
-/
def fanOut (workers : Nat → Worker) : Nat → List PanelRequest → Dict PanelResult →
    Option (Dict PanelResult)
  | _, [], results => some results
  | worker, request :: rest, results =>
      match workers worker with
      | .finished result => fanOut workers (worker + 1) rest (results.set request.requestId result)
      | _ => none

def writeRecords (env : PanelEnv) (results : Dict PanelResult) (noted : Dict RequestMeta) :
    Nat → List PanelRequest → Except Exn (List PanelRecord)
  | _, [] => .ok []
  | written, request :: rest =>
      match results.get? request.requestId with
      | none => .error (.uncaught "KeyError" request.requestId)
      | some result => do
          let record : PanelRecord := {
            requestId := request.requestId
            model := request.model
            prompt := request.prompt
            selection := result.selection
            rawResponse := result.rawResponse
            error := result.error
            attempts := (noted.getD request.requestId ⟨0, 0⟩).attempts
            elapsedMs := (noted.getD request.requestId ⟨0, 0⟩).elapsedMs
            timestamp := env.timestamp written }
          return record :: (← writeRecords env results noted (written + 1) rest)

/-- `panel_query` under a schedule: the dict it returns, and the records it writes; `none` when the
schedule cannot happen or leaves a worker behind. -/
def panelQueryRun (env : PanelEnv) (provider : Nat → PanelRequest → PanelOutcome)
    (requests : List PanelRequest) (events : List PanelEvent) :
    Except Exn (Option (Dict PanelResult × List PanelRecord)) := do
  requests.forM fun request => dispatch env request.model
  requests.forM fun request => env.buildAdapter request.model
  match PanelState.start.run provider requests events with
  | none => return none
  | some state =>
      match fanOut state.workers 0 requests Table.empty with
      | none => return none
      | some results => return some (results, ← writeRecords env results state.noted 0 requests)

/-! One worker and the answers it has had. -/

/-- The answers to the calls of one worker, out of a schedule; so many calls came before it. -/
def answersTo (provider : Nat → PanelRequest → PanelOutcome) (request : PanelRequest)
    (worker : Nat) : Nat → List PanelEvent → List PanelOutcome
  | _, [] => []
  | made, .called other :: rest =>
      if other = worker then provider made request :: answersTo provider request worker (made + 1) rest
      else answersTo provider request worker (made + 1) rest
  | made, .finished _ _ :: rest => answersTo provider request worker made rest

/-- The worker that has had these answers and no others. -/
def Worker.after (model : String) (answers : List PanelOutcome) : Worker :=
  answers.foldl (Worker.called model) (.looping ⟨0, 0, 0⟩ 0)

variable {env : PanelEnv} {request : PanelRequest} {exit : RetryExit} {attempts : Nat}

theorem foldl_called_exited (model : String) (answers : List PanelOutcome) :
    answers.foldl (Worker.called model) (.exited exit attempts) = .exited exit attempts := by
  induction answers with
  | nil => rfl
  | cons answer rest ih => exact ih

theorem retryLoop_turns {answers : List PanelOutcome} {counts : RetryCounts} {made : Nat}
    (slept : List Rat) (heard : ∀ call answer, answers[call]? = some answer →
      env.invoke request (made + call) = answer)
    (turned : answers.foldl (Worker.called request.model) (.looping counts made) =
      .exited exit attempts) :
    (retryLoop (callOnce env request) panelBudgets panelBackoff request.model counts.rateLimitUsed
        counts.transientUsed counts.totalAttempts slept ⟨made, made⟩).exit = exit ∧
      (retryLoop (callOnce env request) panelBudgets panelBackoff request.model counts.rateLimitUsed
        counts.transientUsed counts.totalAttempts slept ⟨made, made⟩).state =
          ⟨attempts, attempts⟩ := by
  induction answers generalizing counts made slept with
  | nil => cases turned
  | cons answer rest ih =>
      have first : env.invoke request made = answer := heard 0 answer rfl
      have later : ∀ call answer, rest[call]? = some answer →
        env.invoke request (made + 1 + call) = answer := by
        intro call other there
        rw [Nat.add_assoc, Nat.add_comm 1]
        exact heard (call + 1) other there
      rw [List.foldl_cons] at turned
      rw [retryLoop]
      have called : callOnce env request ⟨made, made⟩ = (answer, ⟨made + 1, made + 1⟩) :=
        by rw [callOnce, first]
      rw [called]
      cases answer
      case success text =>
        rw [Worker.called, foldl_called_exited] at turned
        cases turned
        exact ⟨rfl, rfl⟩
      case otherError message =>
        rw [Worker.called, foldl_called_exited] at turned
        cases turned
        exact ⟨rfl, rfl⟩
      -- the two kinds of failure that are retried differ in the budget only
      all_goals
        simp only [Worker.called] at turned
        dsimp only
        split at turned
        · rename_i spent
          rw [foldl_called_exited] at turned
          cases turned
          rw [if_pos spent]
          exact ⟨rfl, rfl⟩
        · rename_i room
          rw [if_neg room]
          cases delay : backoffDelay panelBackoff (counts.totalAttempts + 1) with
          | error exn =>
              rw [delay] at turned
              dsimp only at turned
              rw [foldl_called_exited] at turned
              cases turned
              exact ⟨rfl, rfl⟩
          | ok delayed =>
              rw [delay] at turned
              exact ih _ later turned

theorem retried_turns {answers : List PanelOutcome}
    (heard : ∀ call answer, answers[call]? = some answer → env.invoke request call = answer)
    (turned : Worker.after request.model answers = .exited exit attempts) :
    (retried env request).exit = exit ∧ (retried env request).state = ⟨attempts, attempts⟩ :=
  retryLoop_turns [] (fun call answer there => by rw [Nat.zero_add, heard call answer there]) turned

theorem safeCall_eq : safeCall env request = (retried env request).exit.result := by
  unfold safeCall perRequest
  cases (retried env request).exit <;> rfl

def Worker.attempts? : Worker → Option Nat
  | .looping _ attempts => some attempts
  | .exited _ attempts => some attempts
  | .finished _ => none

theorem attempts?_called (model : String) (counts : RetryCounts) (answer : PanelOutcome) :
    ((Worker.looping counts attempts).called model answer).attempts? = some (attempts + 1) := by
  cases answer with
  | success text => rfl
  | otherError message => rfl
  | rateLimitError message =>
      simp only [Worker.called]
      split
      · rfl
      · split <;> rfl
  | transientError message =>
      simp only [Worker.called]
      split
      · rfl
      · split <;> rfl

/-! All workers. -/

def PanelEvent.isCalled : PanelEvent → Bool
  | .called _ => true
  | .finished _ _ => false

/-- The workers that returned, with the time each took, in the order in which they did. -/
def finishes : List PanelEvent → List (Nat × Nat)
  | [] => []
  | .called _ :: rest => finishes rest
  | .finished worker elapsedMs :: rest => (worker, elapsedMs) :: finishes rest

theorem finishes_append (first second : List PanelEvent) :
    finishes (first ++ second) = finishes first ++ finishes second := by
  induction first with
  | nil => rfl
  | cons event rest ih =>
      cases event with
      | called worker => exact ih
      | finished worker elapsedMs => exact congrArg ((worker, elapsedMs) :: ·) ih

variable {provider : Nat → PanelRequest → PanelOutcome} {requests : List PanelRequest}
  {state next : PanelState} {past events : List PanelEvent} {worker : Nat}

theorem answersTo_append (first second : List PanelEvent) (made : Nat) :
    answersTo provider request worker made (first ++ second) =
      answersTo provider request worker made first ++
      answersTo provider request worker (made + first.countP PanelEvent.isCalled) second := by
  induction first generalizing made with
  | nil => rfl
  | cons event rest ih =>
      cases event with
      | called other =>
          have grown : made + (PanelEvent.called other :: rest).countP PanelEvent.isCalled =
              made + 1 + rest.countP PanelEvent.isCalled := by
            rw [List.countP_cons, show PanelEvent.isCalled (.called other) = true from rfl,
              if_pos rfl]
            omega
          rw [grown]
          simp only [List.cons_append, answersTo, ih]
          split <;> rfl
      | finished other elapsedMs => exact ih made

inductive Stands (provider : Nat → PanelRequest → PanelOutcome) (past : List PanelEvent)
    (state : PanelState) (worker : Nat) (request : PanelRequest) : Prop
  | busy (unfinished : worker ∉ (finishes past).map Prod.fst)
      (is : state.workers worker =
        Worker.after request.model (answersTo provider request worker 0 past))
      (counted : (state.workers worker).attempts? =
        some (answersTo provider request worker 0 past).length)
      (fresh : state.noted.get? request.requestId = none) :
        Stands provider past state worker request
  | done {exit : RetryExit} {elapsedMs : Nat} (listed : (worker, elapsedMs) ∈ finishes past)
      (exited : Worker.after request.model (answersTo provider request worker 0 past) =
        .exited exit (answersTo provider request worker 0 past).length)
      (is : state.workers worker = .finished exit.result)
      (noted : state.noted.get? request.requestId =
        exit.gathered (answersTo provider request worker 0 past).length elapsedMs) :
      Stands provider past state worker request

structure Scheduled (provider : Nat → PanelRequest → PanelOutcome) (requests : List PanelRequest)
    (past : List PanelEvent) (state : PanelState) : Prop where
  made : state.made = past.countP PanelEvent.isCalled
  each : ∀ worker request, requests[worker]? = some request →
    Stands provider past state worker request
  once : ((finishes past).map Prod.fst).Nodup
  known : ∀ worker ∈ (finishes past).map Prod.fst, worker < requests.length

theorem Scheduled.start (provider : Nat → PanelRequest → PanelOutcome)
    (requests : List PanelRequest) :
    Scheduled provider requests [] .start :=
  ⟨rfl, fun _ _ _ => .busy (by simp [finishes]) rfl rfl rfl, List.nodup_nil, by simp [finishes]⟩

theorem get?_noteUnder {noted : Dict RequestMeta} {requestId wanted : String}
    {gathered : Option RequestMeta} :
    (noteUnder noted requestId gathered).get? wanted =
      if wanted = requestId then gathered.or (noted.get? wanted) else noted.get? wanted := by
  cases gathered with
  | none => simp [noteUnder]
  | some gathered =>
      rw [noteUnder, Dict.get?_set]
      split <;> rfl

theorem Stands.aside {request : PanelRequest} (stands : Stands provider past state worker request)
    (answers : answersTo provider request worker 0 events =
      answersTo provider request worker 0 past)
    (finished : ∀ elapsedMs, (worker, elapsedMs) ∈ finishes events ↔
      (worker, elapsedMs) ∈ finishes past)
    (same : next.workers worker = state.workers worker)
    (noted : next.noted.get? request.requestId = state.noted.get? request.requestId) :
    Stands provider events next worker request := by
  cases stands with
  | busy unfinished is counted fresh =>
      refine .busy (fun member => unfinished ?_) ?_ ?_ (noted.trans fresh)
      · obtain ⟨⟨other, elapsedMs⟩, there, rfl⟩ := List.mem_map.mp member
        exact List.mem_map.mpr ⟨_, (finished elapsedMs).mp there, rfl⟩
      · rw [same, answers, is]
      · rw [same, answers, counted]
  | done listed exited is stored =>
      refine .done ((finished _).mpr listed) ?_ (same.trans is) ?_
      · rw [answers, exited]
      · rw [noted, answers, stored]

theorem finishes_called : finishes (past ++ [.called worker]) = finishes past := by
  rw [finishes_append]
  exact List.append_nil _

theorem finishes_finished {elapsedMs : Nat} :
    finishes (past ++ [.finished worker elapsedMs]) = finishes past ++ [(worker, elapsedMs)] :=
  finishes_append _ _

theorem answersTo_own : answersTo provider request worker 0 (past ++ [.called worker]) =
    answersTo provider request worker 0 past ++
      [provider (past.countP PanelEvent.isCalled) request] := by
  rw [answersTo_append, Nat.zero_add, answersTo, if_pos rfl, answersTo]

theorem answersTo_other {other : Nat} (apart : other ≠ worker) :
    answersTo provider request worker 0 (past ++ [.called other]) =
      answersTo provider request worker 0 past := by
  rw [answersTo_append, answersTo, if_neg apart, answersTo, List.append_nil]

theorem answersTo_finished {other elapsedMs : Nat} :
    answersTo provider request worker 0 (past ++ [.finished other elapsedMs]) =
      answersTo provider request worker 0 past := by
  rw [answersTo_append, answersTo, answersTo, List.append_nil]

theorem ids_apart (distinct : (requests.map PanelRequest.requestId).Nodup) {other : Nat}
    {otherRequest : PanelRequest} (own : requests[worker]? = some request)
    (there : requests[other]? = some otherRequest) (apart : other ≠ worker) :
    otherRequest.requestId ≠ request.requestId := by
  intro same
  have inside : other < (requests.map PanelRequest.requestId).length := by
    rw [List.length_map]
    exact (List.getElem?_eq_some_iff.mp there).1
  refine apart ((List.getElem?_inj inside distinct).mp ?_)
  rw [List.getElem?_map, List.getElem?_map, own, there]
  exact congrArg some same

theorem Scheduled.called {worker : Nat} (scheduled : Scheduled provider requests past state)
    (stepped : state.step provider requests (.called worker) = some next) :
    Scheduled provider requests (past ++ [.called worker]) next := by
  simp only [PanelState.step] at stepped
  split at stepped
  · rename_i request counts attempts own looping
    cases stepped
    refine ⟨?_, fun other otherRequest there => ?_, ?_, ?_⟩
    · rw [List.countP_append, scheduled.made]
      rfl
    · by_cases same : other = worker
      · subst same
        obtain rfl : request = otherRequest := Option.some.inj (own.symm.trans there)
        cases scheduled.each other request own with
        | busy unfinished is counted fresh =>
            have turned : (Worker.looping counts attempts).called request.model (provider state.made request) =
                Worker.after request.model (answersTo provider request other 0 (past ++
                  [.called other])) := by
              rw [answersTo_own, Worker.after, List.foldl_append, ← Worker.after, ← is, looping,
                scheduled.made]
              rfl
            rw [looping] at counted
            refine .busy (by rwa [finishes_called]) ?_ ?_ fresh
            · rw [← turned]
              exact Function.update_self _ _ _
            · dsimp only
              rw [Function.update_self, attempts?_called, answersTo_own, List.length_append]
              exact congrArg (Option.map (· + 1)) counted
        | done listed exited is noted =>
            rw [is] at looping
            cases looping
      · exact (scheduled.each other otherRequest there).aside (answersTo_other (Ne.symm same))
          (fun _ => by rw [finishes_called]) (Function.update_of_ne same _ _) rfl
    · rw [finishes_called]
      exact scheduled.once
    · rw [finishes_called]
      exact scheduled.known
  · cases stepped

theorem Scheduled.finished {worker elapsedMs : Nat}
    (scheduled : Scheduled provider requests past state)
    (distinct : (requests.map PanelRequest.requestId).Nodup)
    (stepped : state.step provider requests (.finished worker elapsedMs) = some next) :
    Scheduled provider requests (past ++ [.finished worker elapsedMs]) next := by
  simp only [PanelState.step] at stepped
  split at stepped
  · rename_i request exit attempts own exited
    cases stepped
    cases scheduled.each worker request own with
    | done listed _ is _ =>
        rw [is] at exited
        cases exited
    | busy unfinished is counted fresh =>
    rw [exited] at counted is
    cases counted
    refine ⟨?_, fun other otherRequest there => ?_, ?_, ?_⟩
    · rw [List.countP_append, scheduled.made]
      rfl
    · by_cases same : other = worker
      · subst same
        obtain rfl : request = otherRequest := Option.some.inj (own.symm.trans there)
        have listed : (other, elapsedMs) ∈ finishes (past ++ [.finished other elapsedMs]) := by
          rw [finishes_finished]
          exact List.mem_append_right _ List.mem_cons_self
        refine .done listed ?_ (Function.update_self _ _ _) ?_
        · rw [answersTo_finished, ← is]
        · rw [answersTo_finished, get?_noteUnder, if_pos rfl, fresh, Option.or_none]
      · refine (scheduled.each other otherRequest there).aside answersTo_finished (fun elapsed =>
          ?_)
          (Function.update_of_ne same _ _) ?_
        · simp [finishes_finished, same]
        · rw [get?_noteUnder, if_neg (ids_apart distinct own there same)]
    · rw [finishes_finished, List.map_append, List.nodup_append]
      refine ⟨scheduled.once, List.nodup_singleton _, ?_⟩
      rintro first known second member rfl
      rw [List.map_singleton, List.mem_singleton] at member
      rw [member] at known
      exact unfinished known
    · rw [finishes_finished, List.map_append]
      intro other member
      rcases List.mem_append.mp member with before | last
      · exact scheduled.known other before
      · rw [List.map_singleton, List.mem_singleton] at last
        rw [last]
        exact (List.getElem?_eq_some_iff.mp own).1
  · cases stepped

theorem Scheduled.step (scheduled : Scheduled provider requests past state) {event : PanelEvent}
    (distinct : (requests.map PanelRequest.requestId).Nodup)
    (stepped : state.step provider requests event = some next) :
    Scheduled provider requests (past ++ [event]) next := by
  cases event with
  | called worker => exact scheduled.called stepped
  | finished worker elapsedMs => exact scheduled.finished distinct stepped

theorem Scheduled.run (scheduled : Scheduled provider requests past state)
    (distinct : (requests.map PanelRequest.requestId).Nodup)
    (ran : state.run provider requests events = some next) :
    Scheduled provider requests (past ++ events) next := by
  induction events generalizing past state with
  | nil =>
      cases ran
      rwa [List.append_nil]
  | cons event rest ih =>
      rw [PanelState.run] at ran
      split at ran
      · rename_i middle stepped
        have later := ih (scheduled.step distinct stepped) ran
        rwa [List.append_assoc] at later
      · cases ran

/-! The sequential run. -/

/-- The providers as the workers of a schedule have met them. -/
def heardEnv (env : PanelEnv) (provider : Nat → PanelRequest → PanelOutcome)
    (requests : List PanelRequest) (events : List PanelEvent) : PanelEnv :=
  { env with
    invoke := fun request call =>
      (answersTo provider request (requests.idxOf request) 0 events).getD call (.success "")
    elapsedMs := fun request => ((finishes events).lookup (requests.idxOf request)).getD 0 }

/-- The requests in the order in which their workers returned. -/
def finishOrder (requests : List PanelRequest) (events : List PanelEvent) : List PanelRequest :=
  ((finishes events).map Prod.fst).filterMap (requests[·]?)

theorem filterMap_range (requests : List PanelRequest) :
    (List.range requests.length).filterMap (requests[·]?) = requests := by
  induction requests with
  | nil => rfl
  | cons first rest ih =>
      rw [List.length_cons, List.range_succ_eq_map, List.filterMap_cons, List.filterMap_map]
      exact congrArg (first :: ·) ih

theorem lookup_finishes {finished : List (Nat × Nat)} {elapsedMs : Nat}
    (once : (finished.map Prod.fst).Nodup) (member : (worker, elapsedMs) ∈ finished) :
    finished.lookup worker = some elapsedMs := by
  induction finished with
  | nil => cases member
  | cons first rest ih =>
      rw [List.map_cons, List.nodup_cons] at once
      rcases List.mem_cons.mp member with rfl | later
      · exact List.lookup_cons_self
      · have apart : worker ≠ first.1 := by
          intro same
          exact once.1 (List.mem_map.mpr ⟨_, later, same⟩)
        rw [List.lookup_cons, beq_false_of_ne apart]
        exact ih once.2 later

theorem fanOut_collects {workers : Nat → Worker} {results acc : Dict PanelResult} {first : Nat}
    (distinct : (requests.map PanelRequest.requestId).Nodup)
    (collected : fanOut workers first requests acc = some results) :
    (∀ requestId, requestId ∉ requests.map PanelRequest.requestId →
      results.get? requestId = acc.get? requestId) ∧
      ∀ worker request, requests[worker]? = some request → ∃ result,
        workers (first + worker) = .finished result ∧
          results.get? request.requestId = some result := by
  induction requests generalizing first acc with
  | nil =>
      cases collected
      exact ⟨fun _ _ => rfl, fun worker request own => by cases own⟩
  | cons own rest ih =>
      rw [List.map_cons, List.nodup_cons] at distinct
      rw [fanOut] at collected
      split at collected
      · rename_i result returned
        obtain ⟨kept, each⟩ := ih distinct.2 collected
        constructor
        · intro requestId absent
          rw [List.map_cons, List.mem_cons, not_or] at absent
          rw [kept requestId absent.2, Dict.get?_set, if_neg absent.1]
        · intro worker request there
          cases worker with
          | zero =>
              cases there
              exact ⟨result, returned, by rw [kept _ distinct.1, Dict.get?_set, if_pos rfl]⟩
          | succ worker =>
              obtain ⟨result, finished, found⟩ := each worker request there
              exact ⟨result, by rw [← finished, Nat.add_right_comm, Nat.add_assoc], found⟩
      · cases collected

theorem writeRecords_eq {heard : PanelEnv} {results : Dict PanelResult}
    {noted gathered : Dict RequestMeta} (clock : heard.timestamp = env.timestamp)
    (each : ∀ request ∈ requests, results.get? request.requestId = some (safeCall heard request) ∧
      noted.getD request.requestId ⟨0, 0⟩ = gathered.getD request.requestId ⟨0,
        0⟩) (written : Nat) :
    writeRecords env results noted written requests =
      .ok (requests.mapIdx fun number request =>
        recordOf heard gathered request (written + number)) := by
  induction requests generalizing written with
  | nil => rfl
  | cons first rest ih =>
      obtain ⟨found, same⟩ := each first List.mem_cons_self
      rw [writeRecords, found]
      dsimp only
      rw [ih (fun request member => each request (List.mem_cons_of_mem _ member)), List.mapIdx_cons]
      have shifted : (fun number request =>
        recordOf heard gathered request (written + 1 + number)) =
          fun number request => recordOf heard gathered request (written + (number + 1)) := by
        funext number request
        rw [Nat.add_assoc, Nat.add_comm 1]
      rw [shifted, recordOf, clock, same]
      rfl

theorem idxOf_own (distinct : (requests.map PanelRequest.requestId).Nodup)
    (own : requests[worker]? = some request) :
    requests.idxOf request = worker := by
  obtain ⟨inside, rfl⟩ := List.getElem?_eq_some_iff.mp own
  exact distinct.of_map.idxOf_getElem worker inside

theorem providerCalls_le (env : PanelEnv) (request : PanelRequest) :
    providerCalls env request ≤ 9 := by
  obtain ⟨stop, first, -⟩ := firstDecisive_exists panelBudgets (env.invoke request)
  have bound := panelBudgets_stop first
  rw [providerCalls_eq first]
  omega

theorem Stands.returned {result : PanelResult}
    (stands : Stands provider events state worker request)
    (scheduled : Scheduled provider requests events state)
    (distinct : (requests.map PanelRequest.requestId).Nodup)
    (own : requests[worker]? = some request) (finished : state.workers worker = .finished result) :
    safeCall (heardEnv env provider requests events) request = result ∧
      providerCalls (heardEnv env provider requests events) request =
        (answersTo provider request worker 0 events).length ∧
      ∃ returned gathered,
        perRequest (heardEnv env provider requests events) request = .ok (returned, gathered) ∧
        state.noted.get? request.requestId = some gathered := by
  cases stands with
  | busy _ _ counted _ =>
      rw [finished] at counted
      cases counted
  | done listed exited is noted =>
      rename_i exit elapsedMs
      rw [finished] at is
      cases is
      have place : requests.idxOf request = worker := idxOf_own distinct own
      have heard : ∀ call answer,
        (answersTo provider request worker 0 events)[call]? = some answer →
          (heardEnv env provider requests events).invoke request call = answer := by
        intro call answer there
        dsimp only [heardEnv]
        rw [place, List.getD, there, Option.getD_some]
      have elapsed : (heardEnv env provider requests events).elapsedMs request = elapsedMs := by
        dsimp only [heardEnv]
        rw [place, lookup_finishes scheduled.once listed, Option.getD_some]
      obtain ⟨ended, counts⟩ := retried_turns heard exited
      refine ⟨by rw [safeCall_eq, ended], by rw [providerCalls, counts], ?_⟩
      obtain ⟨stop, first, -⟩ :=
        firstDecisive_exists panelBudgets ((heardEnv env provider requests events).invoke request)
      obtain ⟨returned, gathered, answered, -⟩ := perRequest_attempts first
      refine ⟨returned, gathered, answered, ?_⟩
      rw [noted]
      unfold perRequest at answered
      rw [ended, counts, elapsed] at answered
      cases exit with
      | returned text =>
          cases answered
          rfl
      | raised error =>
          cases answered
          rfl
      | uncaught exn => cases answered

theorem Scheduled.finishOrder_perm (scheduled : Scheduled provider requests events state)
    (all : ∀ worker request, requests[worker]? = some request →
      ∃ result, state.workers worker = .finished result) :
    (finishOrder requests events).Perm requests := by
  have indices : ((finishes events).map Prod.fst).Perm (List.range requests.length) := by
    rw [List.perm_ext_iff_of_nodup scheduled.once List.nodup_range]
    intro worker
    rw [List.mem_range]
    refine ⟨scheduled.known worker, fun inside => ?_⟩
    have own : requests[worker]? = some requests[worker] := List.getElem?_eq_getElem inside
    obtain ⟨result, finished⟩ := all worker _ own
    cases scheduled.each worker _ own with
    | busy _ _ counted _ =>
        rw [finished] at counted
        cases counted
    | done listed _ _ _ => exact List.mem_map_of_mem listed
  have requested := indices.filterMap (requests[·]?)
  rwa [filterMap_range] at requested

/-- How a run to the end went. -/
structure RanTo (env : PanelEnv) (provider : Nat → PanelRequest → PanelOutcome)
    (requests : List PanelRequest) (events : List PanelEvent) (results : Dict PanelResult)
    (records : List PanelRecord) (state : PanelState) : Prop where
  models : (requests.forM fun request => dispatch env request.model) = .ok ()
  adapters : (requests.forM fun request => env.buildAdapter request.model) = .ok ()
  running : PanelState.start.run provider requests events = some state
  collected : fanOut state.workers 0 requests Table.empty = some results
  wrote : writeRecords env results state.noted 0 requests = .ok records

variable {results : Dict PanelResult} {records : List PanelRecord}

theorem panelQueryRun_ran (ran : panelQueryRun env provider requests events =
    .ok (some (results, records))) :
    ∃ state, RanTo env provider requests events results records state := by
  unfold panelQueryRun at ran
  cases models : requests.forM fun request => dispatch env request.model with
  | error exn =>
      rw [models] at ran
      cases ran
  | ok resolved =>
  rw [models] at ran
  cases adapters : requests.forM fun request => env.buildAdapter request.model with
  | error exn =>
      rw [adapters] at ran
      cases ran
  | ok built =>
  rw [adapters] at ran
  cases running : PanelState.start.run provider requests events with
  | none =>
      rw [running] at ran
      cases ran
  | some state =>
  rw [running] at ran
  cases collected : fanOut state.workers 0 requests Table.empty with
  | none =>
      dsimp only at ran
      rw [collected] at ran
      cases ran
  | some gathered =>
  dsimp only at ran
  rw [collected] at ran
  cases wrote : writeRecords env gathered state.noted 0 requests with
  | error exn =>
      dsimp only at ran
      rw [wrote] at ran
      cases ran
  | ok written =>
      dsimp only at ran
      rw [wrote] at ran
      cases ran
      exact ⟨state, models, adapters, running, collected, wrote⟩

theorem panelQuery_ran {state : PanelState}
    (ran : RanTo env provider requests events results records state) (batch : PanelBatch)
    (same : batch.requests = requests) :
    panelQuery (heardEnv env provider requests events) batch =
      .ok (requests.mapIdx fun written request =>
      recordOf (heardEnv env provider requests events)
        (gatheredMeta (heardEnv env provider requests events) batch)
        request written) := by
  have models : (requests.forM fun request =>
    dispatch (heardEnv env provider requests events) request.model) = .ok () :=
    ran.models
  have adapters : (requests.forM fun request =>
    (heardEnv env provider requests events).buildAdapter request.model) =
      .ok () := ran.adapters
  rw [panelQuery, same, models, adapters]
  rfl

/-- What the shared tables hold of a request at the end is what its own sequential run leaves there.
-/
theorem RanTo.settled {state : PanelState}
    (ran : RanTo env provider requests events results records state)
    (distinct : (requests.map PanelRequest.requestId).Nodup) (batch : PanelBatch)
    (same : batch.requests = requests)
    (own : requests[worker]? = some request) :
    results.get? request.requestId =
      some (safeCall (heardEnv env provider requests events) request) ∧
      providerCalls (heardEnv env provider requests events) request =
        (answersTo provider request worker 0 events).length ∧
      state.noted.getD request.requestId ⟨0, 0⟩ =
        (gatheredMeta (heardEnv env provider requests events) batch).getD request.requestId ⟨0,
          0⟩ := by
  have scheduled : Scheduled provider requests events state :=
    (Scheduled.start provider requests).run distinct ran.running
  obtain ⟨result, finished, found⟩ := (fanOut_collects distinct ran.collected).2 worker request own
  rw [Nat.zero_add] at finished
  obtain ⟨called, calls, answered, noted, done, kept⟩ :=
    (scheduled.each worker request own).returned scheduled distinct own finished
  have nodup : (batch.finished.map PanelRequest.requestId).Nodup :=
    (batch.all.map PanelRequest.requestId).nodup_iff.mpr batch.distinct
  have member : request ∈ batch.finished := by
    rw [batch.all.mem_iff, same]
    exact List.mem_of_getElem? own
  have sequential : (gatheredMeta (heardEnv env provider requests events) batch).get? request.requestId = some noted :=
    gathered_get? nodup member done Table.empty
  rw [called, Dict.getD, Dict.getD, kept, sequential]
  exact ⟨found, calls, rfl⟩

/-- Whatever the order of the calls, the dict and the records are those of the sequential run in
which each provider gives a request the answers that its worker had. -/
theorem panelQueryRun_sequential (distinct : (requests.map PanelRequest.requestId).Nodup)
    (ran : panelQueryRun env provider requests events = .ok (some (results, records))) :
    ∃ batch : PanelBatch, batch.requests = requests ∧ batch.finished = finishOrder requests events ∧
      panelQuery (heardEnv env provider requests events) batch = .ok records ∧
      (∀ requestId, requestId ∉ requests.map PanelRequest.requestId →
        results.get? requestId = none) ∧
      ∀ worker request, requests[worker]? = some request →
        results.get? request.requestId =
          some (safeCall (heardEnv env provider requests events) request) ∧
          providerCalls (heardEnv env provider requests events) request =
            (answersTo provider request worker 0 events).length ∧
          (answersTo provider request worker 0 events).length ≤ 9 := by
  obtain ⟨state, ran⟩ := panelQueryRun_ran ran
  have scheduled : Scheduled provider requests events state :=
    (Scheduled.start provider requests).run distinct ran.running
  have order : (finishOrder requests events).Perm requests := by
    refine scheduled.finishOrder_perm fun worker request own => ?_
    obtain ⟨result, finished, -⟩ := (fanOut_collects distinct ran.collected).2 worker request own
    exact ⟨result, by rwa [Nat.zero_add] at finished⟩
  let batch : PanelBatch := ⟨requests, finishOrder requests events, distinct, order⟩
  refine ⟨batch, rfl, rfl, ?_, (fanOut_collects distinct ran.collected).1, fun worker request own =>
    ?_⟩
  · have settled : ∀ request ∈ requests,
        results.get? request.requestId =
          some (safeCall (heardEnv env provider requests events) request) ∧
          state.noted.getD request.requestId ⟨0, 0⟩ =
            (gatheredMeta (heardEnv env provider requests events) batch).getD request.requestId ⟨0,
              0⟩ := by
      intro request member
      obtain ⟨worker, own⟩ := List.mem_iff_getElem?.mp member
      obtain ⟨found, -, same⟩ := ran.settled distinct batch rfl own
      exact ⟨found, same⟩
    have clock : (heardEnv env provider requests events).timestamp = env.timestamp := rfl
    have wrote : writeRecords env results state.noted 0 requests =
      .ok (requests.mapIdx fun written request =>
        recordOf (heardEnv env provider requests events)
          (gatheredMeta (heardEnv env provider requests events) batch)
          request (0 + written)) := writeRecords_eq clock settled 0
    simp only [Nat.zero_add] at wrote
    rw [panelQuery_ran ran batch rfl, ← wrote, ran.wrote]
  · obtain ⟨found, calls, -⟩ := ran.settled distinct batch rfl own
    refine ⟨found, calls, ?_⟩
    rw [← calls]
    exact providerCalls_le _ _

def otherRequest : PanelRequest := ⟨"other prompt", "claude-opus", "s"⟩

def overlappedCalls : List PanelEvent :=
    [.called 0, .called 1, .called 0, .finished 1 5, .finished 0 7]

/-- The first call of all meets a rate limit. -/
def busyProvider (made : Nat) (request : PanelRequest) : PanelOutcome :=
  if made = 0 then .rateLimitError "429" else .success request.prompt

theorem panelQueryRun_sequential_overlapped :
    ∃ batch : PanelBatch, batch.finished = [otherRequest, sampleRequest] ∧
      (∃ records, panelQuery (heardEnv (samplePanelEnv (.success "")) busyProvider [sampleRequest,
        otherRequest]
        overlappedCalls) batch = .ok records) ∧
      providerCalls (heardEnv (samplePanelEnv (.success "")) busyProvider [sampleRequest,
        otherRequest] overlappedCalls)
        sampleRequest = 2 := by
  have distinct : ([sampleRequest, otherRequest].map PanelRequest.requestId).Nodup := by decide
  have ran : ∃ results records, panelQueryRun (samplePanelEnv (.success "")) busyProvider
      [sampleRequest, otherRequest] overlappedCalls = .ok (some (results, records)) := ⟨_, _, rfl⟩
  obtain ⟨results, records, ran⟩ := ran
  obtain ⟨batch, -, finished, wrote, -, each⟩ := panelQueryRun_sequential distinct ran
  exact ⟨batch, finished, ⟨records, wrote⟩, (each 0 sampleRequest rfl).2.1⟩

end Megalos
