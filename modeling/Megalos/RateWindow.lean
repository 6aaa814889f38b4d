import Megalos.MiddlewareSpec
import Megalos.Sample

/-!
How many calls of a session pass the gate in a stretch of time: no more than the burst
and what the rate adds, when the calls carry the session as `session_id`.
-/

namespace Megalos

open KeyedTable TokenBucket

/-- A call on its way to the gate, and what the clock shows each axis. -/
structure Arrival where
  context : ToolContext
  now : Axis → Rat

/-- The call has the session among its arguments, under any name. -/
def Arrival.names (env : Env) (arrival : Arrival) (sid : SessionId) : Bool :=
  match arrival.context.arguments with
  | .dict entries => entries.any fun entry =>
      match entry.2 with
      | .str raw => env.normalizeSessionId raw == sid
      | _ => false
  | _ => false

def dispatched (env : Env) : RateLimiter → List Arrival → List Arrival
  | _, [] => []
  | limiter, arrival :: rest =>
      match onCallTool env limiter arrival.now arrival.context with
      | (none, charged) => arrival :: dispatched env charged rest
      | (some _, kept) => dispatched env kept rest

section Gate

variable {env : Env} {limiter : RateLimiter} {now : Axis → Rat} {context : ToolContext}
    {key : String}

/-- What a call does to the bucket of a session: nothing, and then it does not carry the session or
is refused; or it charges it, and then it passes only when the bucket has a token. -/
theorem onCallTool_session (key : String) :
    (((onCallTool env limiter now context).2.buckets .session).get? key =
      (limiter.buckets .session).get? key ∧
      ((onCallTool env limiter now context).1 = none → context.sessionKey env ≠ some key)) ∨
    (((onCallTool env limiter now context).2.buckets .session).get? key =
        some (chargedBucket (((limiter.buckets .session).get? key).getD (limiter.fresh .session (now .session))) 1
          (now .session)) ∧
      ((onCallTool env limiter now context).1 = none →
        1 ≤ ((((limiter.buckets .session).get? key).getD (limiter.fresh .session (now .session))).refill
          (now .session)).tokens)) := by
  rw [onCallTool_limiter, onCallTool_passes, ToolContext.axes, List.append_assoc, consult_append]
  have apart : ∀ entry ∈ (if context.toolName = sessionCreateTool then
      context.ip.toList.map fun ip =>
        (Axis.ipSessionCreate, ip) else []), Axis.session ≠ entry.1 := by
    intro entry member
    split at member
    · obtain ⟨ip, -, rfl⟩ := List.mem_map.mp member
      simp
    · simp at member
  generalize (if context.toolName = sessionCreateTool then
    context.ip.toList.map fun ip => (Axis.ipSessionCreate, ip) else []) = creation at apart
  have apart' : ∀ entry ∈ context.ip.toList.map fun ip =>
    (Axis.ip, ip), Axis.session ≠ entry.1 := by
    intro entry member
    obtain ⟨ip, -, rfl⟩ := List.mem_map.mp member
    simp
  generalize (context.ip.toList.map fun ip => (Axis.ip, ip)) = address at apart'
  have untouched := consult_other limiter now key apart
  have config : (limiter.consult now creation).2.config = limiter.config := consult_config
  cases created : limiter.consult now creation with
  | mk denial charged =>
  rw [created] at untouched config
  cases denial with
  | some denial =>
      left
      exact ⟨untouched, by simp⟩
  | none =>
  dsimp only
  have fresh : charged.fresh .session (now .session) = limiter.fresh .session (now .session) := by
    have sameConfig : charged.config = limiter.config := config
    simp only [RateLimiter.fresh, RateLimiter.limits, sameConfig]
  cases carried : context.sessionKey env with
  | none =>
      left
      exact ⟨(consult_other charged now key apart').trans untouched, by simp⟩
  | some own =>
  simp only [Option.toList_some, List.map_cons, List.map_nil, List.singleton_append,
    RateLimiter.consult]
  have charge := RateLimiter.tryConsume_session charged own key 1 (now .session)
  have allowedIff := RateLimiter.tryConsume_allowed charged .session own 1 (now .session)
  rw [RateLimiter.getBucket_session, fresh] at allowedIff
  rw [fresh] at charge
  dsimp only at untouched
  by_cases isOwn : key = own
  · subst isOwn
    right
    rw [untouched, if_pos rfl] at charge
    rw [untouched] at allowedIff
    cases consumed : charged.tryConsume .session key 1 (now .session) with
    | mk outcome kept =>
    obtain ⟨allowed, retryAfterMs⟩ := outcome
    rw [consumed] at charge allowedIff
    cases allowed with
    | true =>
        refine ⟨(consult_other kept now key apart').trans charge, fun _ => ?_⟩
        simpa using allowedIff.symm
    | false => exact ⟨charge, by simp⟩
  · left
    rw [if_neg isOwn] at charge
    refine ⟨?_, by simp [Ne.symm isOwn]⟩
    cases consumed : charged.tryConsume .session own 1 (now .session) with
    | mk outcome kept =>
    obtain ⟨allowed, retryAfterMs⟩ := outcome
    rw [consumed] at charge
    cases allowed with
    | true => exact ((consult_other kept now key apart').trans charge).trans untouched
    | false => exact charge.trans untouched

end Gate

section Window

variable {env : Env} {config : RateLimitConfig} {sid : SessionId} {start stop : Rat}

structure Paced (config : RateLimitConfig) (time : Rat) (bucket : Bucket Rat) : Prop where
  valid : bucket.Valid
  capacity : bucket.capacity = config.sessionBurst
  rate : bucket.refillRate = config.sessionRate
  past : bucket.lastRefill ≤ time

def supply (bucket : Bucket Rat) (stop : Rat) : Rat :=
    bucket.tokens + (stop - bucket.lastRefill) * bucket.refillRate

theorem Paced.fresh (config : RateLimitConfig) (time : Rat) :
    Paced config time (Bucket.full config.sessionBurst config.sessionRate time) :=
  ⟨⟨config.sessionRate.cast_nonneg, config.sessionBurst.cast_nonneg, le_refl _⟩, rfl, rfl,
    le_refl _⟩

theorem Paced.charged {bucket : Bucket Rat} {now : Rat} (paced : Paced config now bucket) :
    Paced config now (chargedBucket bucket 1 now) := by
  refine ⟨chargedBucket_valid paced.valid, ?_, ?_, le_of_eq (chargedBucket_lastRefill 1 paced.past)⟩
  · unfold chargedBucket
    split
    · exact paced.capacity
    · exact paced.capacity
  · unfold chargedBucket
    split
    · exact paced.rate
    · exact paced.rate

theorem Paced.later {bucket : Bucket Rat} {time now : Rat} (paced : Paced config time bucket)
    (ordered : time ≤ now) :
    Paced config now bucket :=
  ⟨paced.valid, paced.capacity, paced.rate, paced.past.trans ordered⟩

theorem chargedBucket_room {bucket : Bucket Rat} {now : Rat} (valid : bucket.Valid)
    (enough : 1 ≤ (bucket.refill now).tokens) :
    (chargedBucket bucket 1 now).tokens + 1 ≤ bucket.capacity := by
  have room := (valid.refill now).room
  have tokens : (chargedBucket bucket 1 now).tokens = (bucket.refill now).tokens - 1 := by
    unfold chargedBucket
    rw [if_pos (by simpa using enough)]
    simp [Bucket.spend]
  rw [tokens]
  rw [Bucket.refill_capacity] at room
  linarith

theorem supply_nonneg {bucket : Bucket Rat} (valid : bucket.Valid)
    (inside : bucket.lastRefill ≤ stop) :
    0 ≤ supply bucket stop :=
  add_nonneg valid.some (mul_nonneg (sub_nonneg.mpr inside) valid.rate)

theorem supply_charged (stop : Rat) {bucket : Bucket Rat} {now : Rat} (valid : bucket.Valid)
    (past : bucket.lastRefill ≤ now) :
    supply (chargedBucket bucket 1 now) stop ≤ supply bucket stop ∧
      (1 ≤ (bucket.refill now).tokens →
        supply (chargedBucket bucket 1 now) stop + 1 ≤ supply bucket stop) := by
  have gained := valid.refill_le past
  have last := chargedBucket_lastRefill 1 past
  have split : (stop - bucket.lastRefill) * bucket.refillRate =
      (now - bucket.lastRefill) * bucket.refillRate + (stop - now) * bucket.refillRate := by ring
  have rate : (chargedBucket bucket 1 now).refillRate = bucket.refillRate := by
    unfold chargedBucket
    split <;> rfl
  unfold supply
  rw [last, rate, split]
  by_cases enough : 1 ≤ (bucket.refill now).tokens
  · have tokens : (chargedBucket bucket 1 now).tokens = (bucket.refill now).tokens - 1 := by
      unfold chargedBucket
      rw [if_pos (by simpa using enough)]
      simp [Bucket.spend]
    rw [tokens]
    exact ⟨by linarith, fun _ => by linarith⟩
  · have tokens : (chargedBucket bucket 1 now).tokens = (bucket.refill now).tokens := by
      unfold chargedBucket
      rw [if_neg (by simpa using enough)]
    rw [tokens]
    exact ⟨by linarith, fun has => absurd has enough⟩

/-- The calls of the session among these, inside the window. -/
def countedCalls (env : Env) (sid : SessionId) (start stop : Rat) (arrivals : List Arrival) : Nat :=
  (arrivals.filter fun arrival => arrival.names env sid &&
    (decide (start ≤ arrival.now .session) && decide (arrival.now .session ≤ stop))).length

theorem countedCalls_cons (arrival : Arrival) (rest : List Arrival) :
    countedCalls env sid start stop (arrival :: rest) =
      (if arrival.names env sid = true ∧ start ≤ arrival.now .session ∧
        arrival.now .session ≤ stop then 1 else 0) +
        countedCalls env sid start stop rest := by
  unfold countedCalls
  rw [List.filter_cons]
  by_cases counted : arrival.names env sid = true ∧ start ≤ arrival.now .session ∧
    arrival.now .session ≤ stop
  · rw [if_pos (by simpa using counted), if_pos counted, List.length_cons, Nat.add_comm]
  · rw [if_neg (by simpa using counted), if_neg counted, Nat.zero_add]

theorem dispatched_cons {limiter : RateLimiter} {arrival : Arrival} {rest : List Arrival} :
    dispatched env limiter (arrival :: rest) =
      if (onCallTool env limiter arrival.now arrival.context).1.isNone then
        arrival :: dispatched env (onCallTool env limiter arrival.now arrival.context).2 rest
      else dispatched env (onCallTool env limiter arrival.now arrival.context).2 rest := by
  rw [dispatched]
  cases onCallTool env limiter arrival.now arrival.context with
  | mk denial after => cases denial <;> rfl

theorem dispatched_sublist (env : Env) (limiter : RateLimiter) (arrivals : List Arrival) :
    (dispatched env limiter arrivals).Sublist arrivals := by
  induction arrivals generalizing limiter with
  | nil => exact List.Sublist.refl _
  | cons arrival rest ih =>
      rw [dispatched_cons]
      split
      · exact (ih _).cons_cons arrival
      · exact (ih _).cons arrival

theorem countedCalls_late {limiter : RateLimiter} {arrivals : List Arrival}
    (late : ∀ arrival ∈ arrivals, stop < arrival.now .session) :
    countedCalls env sid start stop (dispatched env limiter arrivals) = 0 := by
  unfold countedCalls
  rw [List.length_eq_zero_iff, List.filter_eq_nil_iff]
  intro arrival member
  have after := late arrival ((dispatched_sublist env limiter arrivals).subset member)
  simp [not_le.mpr after]

/-- The calls that name the session carry it as `session_id`. -/
def Carried (env : Env) (sid : SessionId) (arrivals : List Arrival) : Prop :=
  ∀ arrival ∈ arrivals, arrival.names env sid = true →
    arrival.context.sessionKey env = some sid.text

/-- One call at the gate: those that pass, those that count, and those that follow. -/
theorem dispatched_step (start stop : Rat) {limiter : RateLimiter} {arrival : Arrival}
    {rest : List Arrival} (carried : Carried env sid (dispatched env limiter (arrival :: rest))) :
    let after := (onCallTool env limiter arrival.now arrival.context).2
    Carried env sid (dispatched env after rest) ∧
    ∃ counted : Nat, countedCalls env sid start stop (dispatched env limiter (arrival :: rest)) =
        counted + countedCalls env sid start stop (dispatched env after rest) ∧ counted ≤ 1 ∧
      (counted = 1 → (onCallTool env limiter arrival.now arrival.context).1 = none ∧
        arrival.context.sessionKey env = some sid.text ∧ start ≤ arrival.now .session) := by
  intro after
  rw [dispatched_cons] at carried ⊢
  by_cases passes : (onCallTool env limiter arrival.now arrival.context).1.isNone
  · rw [if_pos passes] at carried ⊢
    refine ⟨fun other member => carried other (List.mem_cons_of_mem _ member), _,
      countedCalls_cons arrival _, ?_, ?_⟩
    · split
      · exact le_refl 1
      · exact Nat.zero_le 1
    · intro one
      split at one
      · rename_i counts
        exact ⟨by simpa using passes, carried arrival (by simp) counts.1, counts.2.1⟩
      · simp at one
  · rw [if_neg passes] at carried ⊢
    exact ⟨carried, 0, by rw [Nat.zero_add], Nat.zero_le 1, by simp⟩

theorem countedCalls_supply (start : Rat) {limiter : RateLimiter} {arrivals : List Arrival}
    {bucket : Bucket Rat} (carried : Carried env sid (dispatched env limiter arrivals))
    (monotone : arrivals.Pairwise fun earlier later => earlier.now .session ≤ later.now .session)
    (found : (limiter.buckets .session).get? sid.text = some bucket) (valid : bucket.Valid)
    (ahead : ∀ arrival ∈ arrivals, bucket.lastRefill ≤ arrival.now .session)
    (inside : bucket.lastRefill ≤ stop) :
    (countedCalls env sid start stop (dispatched env limiter arrivals) : Rat) ≤ supply bucket stop := by
  induction arrivals generalizing limiter bucket with
  | nil =>
      simp only [dispatched, countedCalls, List.filter_nil, List.length_nil, Nat.cast_zero]
      exact supply_nonneg valid inside
  | cons arrival rest ih =>
      obtain ⟨later, monotone⟩ := List.pairwise_cons.mp monotone
      have past := ahead arrival (by simp)
      by_cases within : arrival.now .session ≤ stop
      · obtain ⟨carriedRest, counted, split, few, one⟩ := dispatched_step start stop carried
        rw [split, Nat.cast_add]
        rcases onCallTool_session sid.text with ⟨same, apart⟩ | ⟨charged, enough⟩
        · have rest := ih carriedRest monotone (same.trans found) valid (fun other member =>
            ahead other (by simp [member]))
            inside
          have none : counted = 0 := by
            by_contra some
            obtain ⟨passes, carries, -⟩ := one (by omega)
            exact apart passes carries
          rw [none, Nat.cast_zero, zero_add]
          exact rest
        · rw [found, Option.getD_some] at charged enough
          have last := chargedBucket_lastRefill 1 past
          obtain ⟨less, spent⟩ := supply_charged stop valid past
          have rest := ih carriedRest monotone charged (chargedBucket_valid valid)
            (by rw [last]; exact later)
            (by rw [last]; exact within)
          by_cases one' : counted = 1
          · have has := spent (enough (one one').1)
            rw [one', Nat.cast_one]
            linarith
          · have none : counted = 0 := by omega
            rw [none, Nat.cast_zero, zero_add]
            linarith
      · have late : ∀ other ∈ arrival :: rest, stop < other.now .session := by
          intro other member
          rcases List.mem_cons.mp member with rfl | inRest
          · exact not_le.mp within
          · exact lt_of_lt_of_le (not_le.mp within) (later other inRest)
        rw [countedCalls_late late, Nat.cast_zero]
        exact supply_nonneg valid inside

theorem countedCalls_window (start stop : Rat) {limiter : RateLimiter} {arrivals : List Arrival}
    (carried : Carried env sid (dispatched env limiter arrivals))
    (monotone : arrivals.Pairwise fun earlier later => earlier.now .session ≤ later.now .session)
    (paced : ∀ bucket, (limiter.buckets .session).get? sid.text = some bucket →
      ∀ arrival ∈ arrivals,
        Paced limiter.config (arrival.now .session) bucket) (opens : start ≤ stop) :
    (countedCalls env sid start stop (dispatched env limiter arrivals) : Rat) ≤
      limiter.config.sessionBurst + limiter.config.sessionRate * (stop - start) := by
  have room : 0 ≤ (limiter.config.sessionBurst : Rat) + limiter.config.sessionRate * (stop - start) :=
    add_nonneg limiter.config.sessionBurst.cast_nonneg
      (mul_nonneg limiter.config.sessionRate.cast_nonneg (sub_nonneg.mpr opens))
  induction arrivals generalizing limiter with
  | nil =>
      simp only [dispatched, countedCalls, List.filter_nil, List.length_nil, Nat.cast_zero]
      exact room
  | cons arrival rest ih =>
      obtain ⟨later, monotone⟩ := List.pairwise_cons.mp monotone
      by_cases within : arrival.now .session ≤ stop
      · obtain ⟨carriedRest, counted, split, few, one⟩ := dispatched_step start stop carried
        have config : (onCallTool env limiter arrival.now arrival.context).2.config =
          limiter.config := by
          rw [onCallTool_limiter, consult_config]
        rw [split, Nat.cast_add]
        rcases onCallTool_session sid.text with ⟨same, apart⟩ | ⟨charged, enough⟩
        · have none : counted = 0 := by
            by_contra some
            obtain ⟨passes, carries, -⟩ := one (by omega)
            exact apart passes carries
          rw [none, Nat.cast_zero, zero_add, ← config]
          refine ih carriedRest monotone ?_ (by rw [config]; exact room)
          intro bucket found other member
          rw [config]
          exact paced bucket (same.symm.trans found) other (by simp [member])
        · have isPaced : Paced limiter.config (arrival.now .session)
              (((limiter.buckets .session).get? sid.text).getD (limiter.fresh .session (arrival.now .session))) := by
            cases found : (limiter.buckets .session).get? sid.text with
            | none => exact Paced.fresh limiter.config (arrival.now .session)
            | some bucket => exact paced bucket found arrival (by simp)
          generalize ((limiter.buckets .session).get? sid.text).getD
            (limiter.fresh .session (arrival.now .session)) = bucket at charged enough isPaced
          have pacedAfter := isPaced.charged
          by_cases early : arrival.now .session < start
          · have none : counted = 0 := by
              by_contra some
              exact absurd (one (by omega)).2.2 (not_le.mpr early)
            rw [none, Nat.cast_zero, zero_add, ← config]
            refine ih carriedRest monotone ?_ (by rw [config]; exact room)
            intro other found next member
            rw [charged, Option.some.injEq] at found
            rw [← found, config]
            exact pacedAfter.later (later next member)
          · have last := chargedBucket_lastRefill 1 isPaced.past
            have inside : (chargedBucket bucket 1 (arrival.now .session)).lastRefill ≤ stop := by
              rw [last]
              exact within
            have ahead : ∀ other ∈ rest,
                (chargedBucket bucket 1 (arrival.now .session)).lastRefill ≤ other.now .session := by
              rw [last]
              exact later
            have bound := countedCalls_supply start carriedRest monotone charged pacedAfter.valid ahead inside
            have window : (stop - arrival.now .session) * (limiter.config.sessionRate : Rat) ≤
                limiter.config.sessionRate * (stop - start) := by
              rw [mul_comm]
              exact mul_le_mul_of_nonneg_left (by linarith [not_lt.mp early]) limiter.config.sessionRate.cast_nonneg
            unfold supply at bound
            rw [last, pacedAfter.rate] at bound
            have room' := pacedAfter.valid.room
            rw [pacedAfter.capacity] at room'
            by_cases one' : counted = 1
            · have space := chargedBucket_room isPaced.valid (enough (one one').1)
              rw [isPaced.capacity] at space
              rw [one', Nat.cast_one]
              linarith
            · have none : counted = 0 := by omega
              rw [none, Nat.cast_zero, zero_add]
              linarith
      · have late : ∀ other ∈ arrival :: rest, stop < other.now .session := by
          intro other member
          rcases List.mem_cons.mp member with rfl | inRest
          · exact not_le.mp within
          · exact lt_of_lt_of_le (not_le.mp within) (later other inRest)
        rw [countedCalls_late late, Nat.cast_zero]
        exact room

end Window

/-- Where every call that names the session carries it as `session_id`, the calls that pass in any
window are no more than the burst and what the rate adds. -/
theorem countedCalls_bounded (env : Env) (config : RateLimitConfig) {arrivals : List Arrival}
    {sid : SessionId} (monotone : arrivals.Pairwise fun earlier later =>
      earlier.now .session ≤ later.now .session)
    (carried : Carried env sid arrivals) (start : Rat) (length : NNRat) :
    (countedCalls env sid start (start + length) (dispatched env (.init config) arrivals) : Rat) ≤
      config.sessionBurst + config.sessionRate * length := by
  have passing : Carried env sid (dispatched env (.init config) arrivals) := fun arrival member =>
    carried arrival ((dispatched_sublist env _ arrivals).subset member)
  have bound := countedCalls_window start (start + length) passing monotone
    (by simp [RateLimiter.buckets, RateLimiter.init]) (by simp)
  rw [add_sub_cancel_left] at bound
  exact bound

def stdioCall (toolName argument : String) : Arrival where
  context := ⟨toolName, .obj [(argument, .str "s")], some "stdio", none⟩
  now _ := 0

/-- Three reads of one session against a burst of two. -/
theorem stateReads_bounded : (countedCalls sampleEnv ⟨"s"⟩ 0 (0 + (1 : NNRat))
    (dispatched sampleEnv (.init { sessionBurst := 2, sessionRate := 0 })
      (List.replicate 3 (stdioCall "get_state" "session_id"))) : Rat) ≤ (2 : NNRat) + (0 : NNRat) * (1 : NNRat) := by
  refine countedCalls_bounded sampleEnv { sessionBurst := 2, sessionRate := 0 } ?_ ?_ 0 1
  · simp
  · intro arrival member _
    rw [List.eq_of_mem_replicate member]
    rfl

/-- The 31st entry into a sub-workflow of one session, at once, with the limits of the server. -/
theorem entries_unbounded : ¬(countedCalls sampleEnv ⟨"s"⟩ 0 (0 + (0 : NNRat))
    (dispatched sampleEnv (.init {}) (List.replicate 31 (stdioCall "enter_sub_workflow" "parent_session_id"))) : Rat) ≤
      ({} : RateLimitConfig).sessionBurst + ({} : RateLimitConfig).sessionRate * (0 : NNRat) := by
  have passes : ∀ limiter : RateLimiter, ∀ count, dispatched sampleEnv limiter
      (List.replicate count (stdioCall "enter_sub_workflow" "parent_session_id")) =
        List.replicate count (stdioCall "enter_sub_workflow" "parent_session_id") := by
    intro limiter count
    induction count with
    | zero => rfl
    | succ count ih => exact congrArg (List.cons _) ih
  rw [passes]
  have counted : countedCalls sampleEnv ⟨"s"⟩ 0 (0 + ((0 : NNRat) : Rat))
      (List.replicate 31 (stdioCall "enter_sub_workflow" "parent_session_id")) = 31 := by
    have named : (stdioCall "enter_sub_workflow" "parent_session_id").names sampleEnv ⟨"s"⟩ =
      true := by decide
    have atZero : (stdioCall "enter_sub_workflow" "parent_session_id").now .session = 0 := rfl
    unfold countedCalls
    rw [List.filter_replicate, if_pos (by simp [named, atZero]), List.length_replicate]
  rw [counted]
  norm_num

end Megalos
