import Mathlib.Tactic.NormNum
import Megalos.RateLimitSpec

/-!
Histories of calls on the limiter: how many requests of a session are granted, and what
a refused request may expect of the time it is told to wait.
-/

namespace Megalos

open KeyedTable TokenBucket

/-- A call on the limiter. A request carries what the clock shows it. -/
inductive LimiterCall where
  | tryConsume (axis : Axis) (key : String) (cost : Int) (now : Rat)
  | dropSession (sessionId : String)

def LimiterCall.reading? : LimiterCall → Option Rat
  | .tryConsume _ _ _ now => some now
  | .dropSession _ => none

/-- The call asks for tokens of a key. -/
def LimiterCall.Consumes (axis : Axis) (key : String) : LimiterCall → Prop
  | .tryConsume consulted own _ _ => consulted = axis ∧ own = key
  | .dropSession _ => False

namespace RateLimiter

def perform (limiter : RateLimiter) : LimiterCall → RateLimiter
  | .tryConsume axis key cost now => (limiter.tryConsume axis key cost now).2
  | .dropSession sessionId => limiter.dropSession sessionId

def performAll (limiter : RateLimiter) (calls : List LimiterCall) : RateLimiter :=
    calls.foldl perform limiter

structure Timely (limiter : RateLimiter) (time : Rat) : Prop where
  capacity : ∀ axis key bucket, (limiter.buckets axis).get? key = some bucket →
    bucket.capacity = (limiter.limits axis).1
  rate : ∀ axis key bucket, (limiter.buckets axis).get? key = some bucket →
    bucket.refillRate = (limiter.limits axis).2
  past : ∀ axis key bucket, (limiter.buckets axis).get? key = some bucket → bucket.lastRefill ≤ time

section Histories

variable {limiter : RateLimiter} {axis : Axis} {key : String} {cost : Int} {now time : Rat}
  {bucket : Bucket Rat} {call : LimiterCall} {calls : List LimiterCall}

@[simp] theorem perform_config (limiter : RateLimiter) (call : LimiterCall) :
    (limiter.perform call).config = limiter.config := by
  cases call with
  | tryConsume axis key cost now => exact tryConsume_config
  | dropSession sessionId => rfl

theorem performAll_config (limiter : RateLimiter) (calls : List LimiterCall) :
    (limiter.performAll calls).config = limiter.config := by
  induction calls generalizing limiter with
  | nil => rfl
  | cons call rest ih => exact (ih _).trans (perform_config limiter call)

theorem init_timely (config : RateLimitConfig) (time : Rat) :
    (RateLimiter.init config).Timely time := by
  have none (axis : Axis) (key : String) :
    ((RateLimiter.init config).buckets axis).get? key = none := by
    cases axis <;> rfl
  constructor
  · intro axis key bucket found
    exact nomatch (none axis key).symm.trans found
  · intro axis key bucket found
    exact nomatch (none axis key).symm.trans found
  · intro axis key bucket found
    exact nomatch (none axis key).symm.trans found

theorem Timely.later (timely : limiter.Timely time) (ordered : time ≤ now) : limiter.Timely now :=
  ⟨timely.capacity, timely.rate, fun axis key bucket found =>
    (timely.past axis key bucket found).trans ordered⟩

theorem Timely.getBucket (timely : limiter.Timely now) (axis : Axis) (key : String) :
    (limiter.getBucket axis key now).1.capacity = (limiter.limits axis).1 ∧
      (limiter.getBucket axis key now).1.refillRate = (limiter.limits axis).2 ∧
      (limiter.getBucket axis key now).1.lastRefill ≤ now := by
  rw [getBucket_bucket]
  cases there : (limiter.lookedUp axis now).get? key with
  | none => exact ⟨rfl, rfl, le_refl now⟩
  | some bucket =>
      have found := lookedUp_get? there
      exact ⟨timely.capacity axis key bucket found, timely.rate axis key bucket found,
        timely.past axis key bucket found⟩

theorem Timely.tryConsume (timely : limiter.Timely now) (axis : Axis) (key : String) (cost : Int) :
    (limiter.tryConsume axis key cost now).2.Timely now := by
  have charged := timely.getBucket axis key
  have fields := chargedBucket_fields (limiter.getBucket axis key now).1 cost now
  have last := chargedBucket_lastRefill cost charged.2.2
  have limits (other : Axis) :
    (limiter.tryConsume axis key cost now).2.limits other = limiter.limits other :=
    limits_congr tryConsume_config other
  constructor
  · intro other wanted bucket found
    have origin := tryConsume_found found
    rw [limits]
    split at origin
    · rename_i own
      rw [origin, own.1, fields.1, charged.1]
    · exact timely.capacity other wanted bucket origin
  · intro other wanted bucket found
    have origin := tryConsume_found found
    rw [limits]
    split at origin
    · rename_i own
      rw [origin, own.1, fields.2, charged.2.1]
    · exact timely.rate other wanted bucket origin
  · intro other wanted bucket found
    have origin := tryConsume_found found
    split at origin
    · rw [origin, last]
    · exact timely.past other wanted bucket origin

theorem Timely.dropSession (timely : limiter.Timely time) (sessionId : String) :
    (limiter.dropSession sessionId).Timely time :=
  ⟨fun axis key bucket found => timely.capacity axis key bucket (dropSession_found found),
    fun axis key bucket found => timely.rate axis key bucket (dropSession_found found),
    fun axis key bucket found => timely.past axis key bucket (dropSession_found found)⟩

/-- Under a clock that never falls back, no bucket is ahead of the time. -/
theorem Timely.performAll
    (timely : ∀ reading ∈ calls.filterMap LimiterCall.reading? ++ [now], limiter.Timely reading)
    (monotone : (calls.filterMap LimiterCall.reading? ++ [now]).Pairwise (· ≤ ·)) :
    (limiter.performAll calls).Timely now := by
  induction calls generalizing limiter with
  | nil => exact timely now (by simp)
  | cons call rest ih =>
      cases call with
      | tryConsume axis key cost reading =>
          obtain ⟨ordered, monotone⟩ := List.pairwise_cons.mp monotone
          have atReading := (timely reading (by simp [LimiterCall.reading?])).tryConsume axis key cost
          exact ih (fun later member => atReading.later (ordered later member)) monotone
      | dropSession sessionId =>
          exact ih (fun later member => (timely later member).dropSession sessionId) monotone

/-- A bucket that nobody charges is kept as it is, or dropped. -/
theorem performAll_found (undisturbed : ∀ call ∈ calls, ¬call.Consumes axis key)
    (found : ((limiter.performAll calls).buckets axis).get? key = some bucket) :
    (limiter.buckets axis).get? key = some bucket := by
  induction calls generalizing limiter with
  | nil => exact found
  | cons call rest ih =>
      have after := ih (fun later member => undisturbed later (by simp [member])) found
      have apart := undisturbed call (by simp)
      cases call with
      | tryConsume consulted own cost now =>
          have origin := tryConsume_found after
          rwa [if_neg fun both => apart ⟨both.1.symm, both.2.symm⟩] at origin
      | dropSession sessionId => exact dropSession_found after

theorem tryConsume_refused {retryAfterMs : Rat}
    (denied : (limiter.tryConsume axis key cost now).1 = (false, .finite retryAfterMs)) :
    ((limiter.getBucket axis key now).1.refill now).tokens < cost ∧
      0 < (limiter.getBucket axis key now).1.refillRate ∧
      retryAfterMs / 1000 = (cost - ((limiter.getBucket axis key now).1.refill now).tokens) /
        (limiter.getBucket axis key now).1.refillRate := by
  unfold RateLimiter.tryConsume at denied
  dsimp only at denied
  generalize (limiter.getBucket axis key now).1 = bucket at denied ⊢
  by_cases enough : cost ≤ (bucket.refill now).tokens
  · rw [if_pos enough] at denied
    exact nomatch congrArg Prod.fst denied
  · rw [if_neg enough] at denied
    by_cases stuck : (bucket.refill now).refillRate ≤ 0
    · rw [if_pos stuck] at denied
      exact nomatch congrArg Prod.snd denied
    · rw [if_neg stuck] at denied
      have told := PyFloat.finite.inj (congrArg Prod.snd denied)
      rw [Bucket.refill_refillRate] at stuck told
      refine ⟨not_le.mp enough, not_le.mp stuck, ?_⟩
      rw [← told]
      ring

/-- A request that is refused, and comes again when it was told to. -/
theorem Timely.retry_iff (timely : limiter.Timely now) {retryAfterMs later : Rat}
    (denied : (limiter.tryConsume axis key cost now).1 = (false, .finite retryAfterMs))
    (undisturbed : ∀ call ∈ calls, ¬call.Consumes axis key)
    (waited : now + retryAfterMs / 1000 ≤ later) :
    (((limiter.tryConsume axis key cost now).2.performAll calls).tryConsume axis key cost later).1.1 = true ↔
      cost ≤ (limiter.limits axis).1 := by
  obtain ⟨missing, rate, told⟩ := tryConsume_refused denied
  obtain ⟨capacity, -, past⟩ := timely.getBucket axis key
  have config : ((limiter.tryConsume axis key cost now).2.performAll calls).config =
    limiter.config :=
    (performAll_config _ calls).trans tryConsume_config
  rw [tryConsume_allowed, decide_eq_true_eq, getBucket_bucket]
  cases there : (((limiter.tryConsume axis key cost now).2.performAll calls).lookedUp axis later).get? key with
  | none =>
      have fresh : ((limiter.tryConsume axis key cost now).2.performAll calls).fresh axis later =
        limiter.fresh axis later := by
        unfold RateLimiter.fresh
        rw [limits_congr config]
      rw [Option.getD_none, fresh]
      unfold RateLimiter.fresh
      rw [Bucket.refill_full]
  | some bucket =>
      -- nobody charged the bucket since the refusal, which had only refilled it
      have origin := tryConsume_found (performAll_found undisturbed (lookedUp_get? there))
      rw [if_pos ⟨rfl, rfl⟩] at origin
      have kept : bucket = (limiter.getBucket axis key now).1.refill now := by
        rw [origin]
        unfold chargedBucket
        rw [if_neg (not_le.mpr missing)]
      have last : ((limiter.getBucket axis key now).1.refill now).lastRefill = now := by
        rw [Bucket.refill_lastRefill, max_eq_right past]
      have waits : ((limiter.getBucket axis key now).1.refill now).lastRefill +
          (cost - ((limiter.getBucket axis key now).1.refill now).tokens) /
            ((limiter.getBucket axis key now).1.refill now).refillRate ≤ later := by
        rw [last, Bucket.refill_refillRate, ← told]
        exact waited
      have gains : 0 < ((limiter.getBucket axis key now).1.refill now).refillRate := rate
      rw [Option.getD_some, kept, Bucket.refill_enough_iff gains missing waits,
        Bucket.refill_capacity, capacity]

end Histories

end RateLimiter

/-- A request that waits as it is told is allowed when the bucket of its axis could hold the tokens,
and else never. -/
theorem retryAfter_honest_iff (config : RateLimitConfig) (earlier between : List LimiterCall)
    (axis : Axis) (key : String) (cost : Int) {now retryAfterMs later : Rat}
    (monotone : (earlier.filterMap LimiterCall.reading? ++ [now]).Pairwise (· ≤ ·))
    (denied : (((RateLimiter.init config).performAll earlier).tryConsume axis key cost now).1 =
      (false, .finite retryAfterMs))
    (undisturbed : ∀ call ∈ between, ¬call.Consumes axis key)
    (waited : now + retryAfterMs / 1000 ≤ later) :
    (((RateLimiter.init config).performAll (earlier ++
      .tryConsume axis key cost now :: between)).tryConsume axis key cost
      later).1.1 = true ↔ cost ≤ ((RateLimiter.init config).limits axis).1 := by
  have timely := RateLimiter.Timely.performAll (fun reading _ =>
    RateLimiter.init_timely config reading) monotone
  have run : (RateLimiter.init config).performAll (earlier ++
    .tryConsume axis key cost now :: between) =
      (((RateLimiter.init config).performAll earlier).tryConsume axis key cost now).2.performAll between := by
    unfold RateLimiter.performAll
    rw [List.foldl_append]
    rfl
  rw [run, timely.retry_iff denied undisturbed waited,
    RateLimiter.limits_congr (RateLimiter.performAll_config (.init config) earlier)]

/-- The second call of a session with a burst of one, after a second in which another session calls.
-/
theorem secondCall_allowed :
    ((((RateLimiter.init { sessionRate := 1, sessionBurst :=
      1 }).performAll ([.tryConsume .session "s" 1 0] ++
      .tryConsume .session "s" 1 0 :: [.tryConsume .session "t" 1 0])).tryConsume .session "s" 1 1).1.1 = true ↔
        ((1 : Int) : Rat) ≤ ((RateLimiter.init { sessionRate := 1, sessionBurst :=
          1 }).limits .session).1) := by
  have denied : (((RateLimiter.init { sessionRate := 1, sessionBurst := 1 }).performAll
      [.tryConsume .session "s" 1 0]).tryConsume .session "s" 1 0).1 = (false, .finite 1000) := by
    decide +kernel
  exact retryAfter_honest_iff { sessionRate := 1, sessionBurst := 1 } [.tryConsume .session "s" 1 0]
    [.tryConsume .session "t" 1 0] .session "s" 1 (by simp [LimiterCall.reading?]) denied
    (by simp [LimiterCall.Consumes]) (by norm_num)

/-- A burst of half a call: the first call waits half a second as told, and is refused again. -/
theorem halfBurst_refused :
    ((RateLimiter.init { sessionRate := 1, sessionBurst := 1 / 2 }).tryConsume .session "s" 1 0).1 =
        (false, .finite 500) ∧
      (((RateLimiter.init { sessionRate := 1, sessionBurst :=
        1 / 2 }).tryConsume .session "s" 1 0).2.tryConsume .session "s" 1
        (0 + 500 / 1000)).1.1 = false := by
  constructor
  · decide +kernel
  · decide +kernel

def RateLimiter.consumeAll (limiter : RateLimiter) (key : String) : List Rat →
    List Bool × RateLimiter
  | [] => ([], limiter)
  | now :: rest =>
      let ((allowed, _), charged) := limiter.tryConsume .session key 1 now
      let (answers, last) := charged.consumeAll key rest
      (allowed :: answers, last)

section Granted

variable {limiter : RateLimiter} {key : String} {bucket : Bucket Rat}

/-- What a bucket holds and what it granted, against what it may have gained since a time. -/
structure Funded (config : RateLimitConfig) (first latest : Rat) (granted : Nat)
    (bucket : Bucket Rat) : Prop where
  valid : bucket.Valid
  capacity : bucket.capacity = config.sessionBurst
  rate : bucket.refillRate = config.sessionRate
  lastRefill : bucket.lastRefill = latest
  paid : granted + bucket.tokens ≤ config.sessionBurst + config.sessionRate * (latest - first)

theorem Funded.fresh (config : RateLimitConfig) (first : Rat) :
    Funded config first first 0 (Bucket.full config.sessionBurst config.sessionRate first) := by
  refine ⟨Bucket.full_valid config.sessionRate.cast_nonneg config.sessionBurst.cast_nonneg, rfl,
    rfl, rfl, ?_⟩
  rw [sub_self, mul_zero, Nat.cast_zero, zero_add, add_zero]
  exact le_refl _

/-- One request: what it gets was held, or gained since the latest reading. -/
theorem Funded.charged {config : RateLimitConfig} {first latest : Rat} {granted : Nat}
    (funded : Funded config first latest granted bucket) (now : Rat) :
    Funded config first (max latest now) (granted + if 1 ≤ (bucket.refill now).tokens then 1 else 0)
    (chargedBucket bucket 1 now) := by
  obtain ⟨capacity, rate⟩ := chargedBucket_fields bucket 1 now
  have last := chargedBucket_last bucket 1 now
  have gain := funded.valid.refill_gain now
  have tokens : ((if 1 ≤ (bucket.refill now).tokens then 1 else 0 : Nat) : Rat) + (chargedBucket bucket 1 now).tokens =
      (bucket.refill now).tokens := by
    unfold chargedBucket
    rw [Int.cast_one]
    split
    · simp [Bucket.spend]
    · simp
  refine ⟨chargedBucket_valid funded.valid, capacity.trans funded.capacity, rate.trans funded.rate,
    ?_, ?_⟩
  · rw [last, funded.lastRefill]
  · rw [Bucket.refill_lastRefill, funded.lastRefill, funded.rate] at gain
    have whole : (config.sessionRate : Rat) * (max latest now - first) =
        config.sessionRate * (latest - first) + (max latest now - latest) * config.sessionRate := by
      ring
    have paid := funded.paid
    rw [Nat.cast_add, add_assoc, tokens, whole]
    linarith

/-- The first of the requests is granted when its bucket has a token. -/
theorem consumeAll_count (limiter : RateLimiter) (key : String) (now : Rat) (rest : List Rat) :
    (limiter.consumeAll key (now :: rest)).1.count true =
      (if 1 ≤ ((((limiter.buckets .session).get? key).getD (limiter.fresh .session now)).refill now).tokens then 1 else 0) +
        ((limiter.tryConsume .session key 1 now).2.consumeAll key rest).1.count true := by
  have allowed := RateLimiter.tryConsume_allowed limiter .session key 1 now
  have cons : (limiter.consumeAll key (now :: rest)).1 =
    (limiter.tryConsume .session key 1 now).1.1 ::
      ((limiter.tryConsume .session key 1 now).2.consumeAll key rest).1 := rfl
  rw [RateLimiter.getBucket_session, Int.cast_one] at allowed
  rw [cons, List.count_cons, allowed]
  by_cases enough : 1 ≤ ((((limiter.buckets .session).get? key).getD (limiter.fresh .session now)).refill now).tokens
  · rw [if_pos enough, if_pos (by simpa using enough), Nat.add_comm]
  · rw [if_neg enough, if_neg (by simpa using enough), Nat.add_comm]

theorem Funded.consumeAll {config : RateLimitConfig} {first latest : Rat} {granted : Nat}
    (funded : Funded config first latest granted bucket)
    (found : (limiter.buckets .session).get? key = some bucket)
    (readings : List Rat) :
    ∃ last, ((limiter.consumeAll key readings).2.buckets .session).get? key = some last ∧
      Funded config first (readings.foldl max latest)
        (granted + (limiter.consumeAll key readings).1.count true) last := by
  induction readings generalizing limiter latest granted bucket with
  | nil => exact ⟨bucket, found, funded⟩
  | cons now rest ih =>
      have after := RateLimiter.tryConsume_session limiter key key 1 now
      have counted := consumeAll_count limiter key now rest
      rw [if_pos rfl, found, Option.getD_some] at after
      rw [found, Option.getD_some] at counted
      obtain ⟨last, there, paid⟩ := ih (funded.charged now) after
      refine ⟨last, there, ?_⟩
      rw [counted, ← Nat.add_assoc]
      exact paid

end Granted

/-- The tokens of a session stay within the burst, and no clock grants more than the burst and what
the rate adds up to the latest reading. -/
theorem granted_bounded (config : RateLimitConfig) (key : String) (first : Rat) (rest : List Rat) :
    let run := (RateLimiter.init config).consumeAll key (first :: rest)
    (∃ bucket, (run.2.buckets .session).get? key = some bucket ∧ 0 ≤ bucket.tokens ∧
        bucket.tokens ≤ config.sessionBurst) ∧
      (run.1.count true : Rat) ≤ config.sessionBurst + config.sessionRate * (rest.foldl max first - first) := by
  intro run
  have absent : ((RateLimiter.init config).buckets .session).get? key = none := rfl
  have after := RateLimiter.tryConsume_session (.init config) key key 1 first
  have counted := consumeAll_count (.init config) key first rest
  rw [if_pos rfl, absent, Option.getD_none] at after
  rw [absent, Option.getD_none] at counted
  have opened := (Funded.fresh config first).charged first
  rw [max_self, Nat.zero_add] at opened
  obtain ⟨last, there, funded⟩ := opened.consumeAll after rest
  have granted : run.1.count true = _ := counted
  constructor
  · exact ⟨last, there, funded.valid.some, funded.capacity ▸ funded.valid.room⟩
  · have paid := funded.paid
    have some := funded.valid.some
    rw [granted]
    exact (le_add_of_nonneg_right some).trans paid

end Megalos
