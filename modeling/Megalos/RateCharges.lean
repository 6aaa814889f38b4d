import Megalos.MiddlewareSpec
import Megalos.Sample

/-!
What a refused call costs on the axes that did not refuse it.
-/

namespace Megalos

open KeyedTable TokenBucket

/-- The charge of an address leaves no trace: the store keeps nothing, or this access drops the idle
bucket of the address, which was one token short of the burst, and of the others only full ones. -/
def IpStore.EvensOut (store : IpStore) (burst : Rat) (key : String) (now : Rat) : Prop :=
  store.cap = 0 ∨
    (∃ bucket, store.buckets.get? key = some bucket ∧ store.sweeps now bucket = true ∧
      bucket.balance now = burst - 1) ∧
      ∀ other bucket, other ≠ key → store.buckets.get? other = some bucket →
        store.sweeps now bucket = true →
        bucket.balance now = burst

namespace RateLimiter

/-- The states that the server's calls lead to. -/
inductive Reachable (config : RateLimitConfig) : RateLimiter → Prop
  | init : Reachable config (.init config)
  | call {limiter} (env : Env) (now : Axis → Rat) (context : ToolContext) :
      Reachable config limiter → Reachable config (onCallTool env limiter now context).2
  | drop {limiter} (sessionId : String) : Reachable config limiter →
    Reachable config (limiter.dropSession sessionId)

structure WellFormed (limiter : RateLimiter) : Prop where
  bucket : ∀ {axis} {key : String} {bucket}, (limiter.buckets axis).get? key = some bucket →
    bucket.Valid ∧ bucket.capacity = (limiter.limits axis).1 ∧
      bucket.refillRate = (limiter.limits axis).2
  bounded : ∀ {axis store}, limiter.store? axis = some store → store.buckets.size ≤ store.cap

/-- The tokens that a request finds. -/
def offer (limiter : RateLimiter) (axis : Axis) (key : String) (now : Rat) : Rat :=
  (limiter.getBucket axis key now).1.balance now

/-- The tokens of a bucket at a time; a bucket that is not stored is full. -/
def balance (limiter : RateLimiter) (axis : Axis) (key : String) (time : Rat) : Rat :=
  ((limiter.buckets axis).get? key).elim (limiter.limits axis).1 fun bucket => bucket.balance time

def EvensOut (limiter : RateLimiter) (axis : Axis) (key : String) (now : Rat) : Prop :=
  ∃ store, limiter.store? axis = some store ∧ store.EvensOut (limiter.limits axis).1 key now

variable {config : RateLimitConfig} {limiter : RateLimiter} {axis other : Axis}
  {key wanted : String} {now time : Rat} {bucket : Bucket Rat} {store : IpStore}

section WellFormed

theorem WellFormed.getBucket (wellFormed : limiter.WellFormed) (axis : Axis) (key : String)
    (now : Rat) :
    (limiter.getBucket axis key now).1.Valid ∧
      (limiter.getBucket axis key now).1.capacity = (limiter.limits axis).1 ∧
        (limiter.getBucket axis key now).1.refillRate = (limiter.limits axis).2 := by
  rw [getBucket_bucket]
  cases found : (limiter.lookedUp axis now).get? key with
  | none =>
      obtain ⟨room, rate⟩ := limiter.limits_nonneg axis
      exact ⟨Bucket.full_valid rate room, rfl, rfl⟩
  | some bucket => exact wellFormed.bucket (lookedUp_get? found)

theorem WellFormed.init (config : RateLimitConfig) : (RateLimiter.init config).WellFormed where
  bucket := by
    intro axis key bucket found
    cases axis <;> simp [RateLimiter.init, buckets] at found
  bounded := by
    intro axis store has
    cases axis with
    | session => simp [store?] at has
    | ip =>
        simp only [store?, Option.some.injEq] at has
        rw [← has]
        exact Nat.zero_le _
    | ipSessionCreate =>
        simp only [store?, Option.some.injEq] at has
        rw [← has]
        exact Nat.zero_le _

theorem WellFormed.tryConsume (wellFormed : limiter.WellFormed) (axis : Axis) (key : String)
    (now : Rat) :
    (limiter.tryConsume axis key 1 now).2.WellFormed where
  bucket := by
    intro other wanted bucket found
    rw [limits_congr tryConsume_config]
    have origin := tryConsume_found found
    split at origin
    · rename_i own
      obtain ⟨same, -⟩ := own
      subst same origin
      obtain ⟨valid, capacity, rate⟩ := wellFormed.getBucket other key now
      obtain ⟨sameCapacity, sameRate⟩ :=
        chargedBucket_fields (limiter.getBucket other key now).1 1 now
      exact ⟨chargedBucket_valid valid, sameCapacity.trans capacity, sameRate.trans rate⟩
    · exact wellFormed.bucket origin
  bounded := by
    intro other store has
    by_cases same : other = axis
    · subst same
      cases before : limiter.store? other with
      | none => cases other <;> simp [store?] at before has
      | some old =>
          obtain ⟨after, found, cap, size⟩ := tryConsume_store key now before
          rw [found, Option.some.injEq] at has
          rw [← has, cap, size]
          exact IpStore.getOrCreate_size_le (wellFormed.bounded before)
    · rw [tryConsume_store_other same] at has
      exact wellFormed.bounded has

theorem WellFormed.consult (wellFormed : limiter.WellFormed) (now : Axis → Rat)
    (entries : List (Axis × String)) :
    (limiter.consult now entries).2.WellFormed := by
  induction entries generalizing limiter with
  | nil => exact wellFormed
  | cons entry rest ih =>
      obtain ⟨axis, key⟩ := entry
      have next := wellFormed.tryConsume axis key (now axis)
      rw [RateLimiter.consult]
      cases consumed : limiter.tryConsume axis key 1 (now axis) with
      | mk outcome charged =>
          obtain ⟨allowed, retryAfterMs⟩ := outcome
          rw [consumed] at next
          cases allowed with
          | true => exact ih next
          | false => exact next

theorem WellFormed.dropSession (wellFormed : limiter.WellFormed) (sessionId : String) :
    (limiter.dropSession sessionId).WellFormed where
  bucket := by
    intro axis key bucket found
    have same : (limiter.dropSession sessionId).limits axis = limiter.limits axis :=
      limits_congr rfl axis
    rw [same]
    exact wellFormed.bucket (dropSession_found found)
  bounded := by
    intro axis store has
    cases axis with
    | session => simp [store?] at has
    | ip =>
        have before : limiter.store? .ip = some store := has
        exact wellFormed.bounded before
    | ipSessionCreate =>
        have before : limiter.store? .ipSessionCreate = some store := has
        exact wellFormed.bounded before

theorem Reachable.wellFormed (reachable : Reachable config limiter) : limiter.WellFormed := by
  induction reachable with
  | init => exact WellFormed.init config
  | call env now context _ ih =>
      rw [onCallTool_limiter]
      exact ih.consult now (context.axes env)
  | drop sessionId _ ih => exact ih.dropSession sessionId

end WellFormed

section Charge

theorem charged_balance (valid : bucket.Valid) (enough : 1 ≤ bucket.balance now) :
    (chargedBucket bucket 1 now).balance now = bucket.balance now - 1 := by
  have enough' : ((1 : Int) : Rat) ≤ (bucket.refill now).tokens := by
    rw [Int.cast_one]
    exact enough
  have past : now ≤ ((bucket.refill now).spend ((1 : Int) : Rat)).lastRefill := by
    have last : (bucket.refill now).lastRefill = max bucket.lastRefill now :=
      bucket.refill_lastRefill now
    exact (le_max_right _ _).trans (le_of_eq last.symm)
  have spent := (valid.refill now).spend (by simp) enough'
  unfold chargedBucket
  rw [if_pos enough', spent.balance_past past]
  simp [Bucket.spend, Bucket.balance]

theorem tryConsume_own : ((limiter.tryConsume axis key 1 now).2.buckets axis).get? key =
    (((limiter.getBucket axis key now).2.buckets axis).get? key).map fun _ =>
      chargedBucket (limiter.getBucket axis key now).1 1 now := by
  rw [tryConsume_limiter, mutate_get?, if_pos ⟨rfl, rfl⟩]

theorem tryConsume_same (differs : wanted ≠ key) :
    ((limiter.tryConsume axis key 1 now).2.buckets axis).get? wanted =
    ((limiter.getBucket axis key now).2.buckets axis).get? wanted := by
  rw [tryConsume_limiter, mutate_get?, if_neg fun both => differs both.2]

theorem balance_stored (found : (limiter.buckets axis).get? key = some bucket) :
    limiter.balance axis key time = bucket.balance time := by
  unfold balance
  rw [found]
  rfl

theorem balance_absent (absent : (limiter.buckets axis).get? key = none) :
    limiter.balance axis key time = (limiter.limits axis).1 := by
  unfold balance
  rw [absent]
  rfl

theorem balance_charged (wellFormed : limiter.WellFormed) (enough : 1 ≤ limiter.offer axis key now)
    (kept : ((limiter.getBucket axis key now).2.buckets axis).get? key = some bucket) :
    (limiter.tryConsume axis key 1 now).2.balance axis key now =
      limiter.offer axis key now - 1 := by
  have own : ((limiter.tryConsume axis key 1 now).2.buckets axis).get? key = _ := tryConsume_own
  rw [kept] at own
  rw [balance_stored own]
  exact charged_balance (wellFormed.getBucket axis key now).1 enough

end Charge

section EvensOut

theorem offer_absent (limiter : RateLimiter) {axis : Axis} {key : String} {now : Rat}
    (absent : (limiter.lookedUp axis now).get? key = none) :
    limiter.offer axis key now = (limiter.limits axis).1 := by
  obtain ⟨room, rate⟩ := limiter.limits_nonneg axis
  unfold offer
  rw [getBucket_bucket, absent, Option.getD_none]
  exact (Bucket.full_valid rate room).balance_past (le_refl _)

theorem offer_stored (found : (limiter.lookedUp axis now).get? key = some bucket) :
    limiter.offer axis key now = limiter.balance axis key now := by
  unfold offer
  rw [getBucket_bucket, found, Option.getD_some, balance_stored (lookedUp_get? found)]

theorem evensOut_of_unchanged (wellFormed : limiter.WellFormed)
    (enough : 1 ≤ limiter.offer axis key now)
    (unchanged : ∀ wanted, (limiter.tryConsume axis key 1 now).2.balance axis wanted now =
      limiter.balance axis wanted now) : limiter.EvensOut axis key now := by
  have shows : ∀ bucket, ((limiter.getBucket axis key now).2.buckets axis).get? key = some bucket →
      limiter.balance axis key now = limiter.offer axis key now - 1 := by
    intro bucket stored
    rw [← unchanged key, balance_charged wellFormed enough stored]
  cases has : limiter.store? axis with
  | none =>
      exfalso
      have isSession : axis = .session := by
        cases axis with
        | session => rfl
        | ip => simp [store?] at has
        | ipSessionCreate => simp [store?] at has
      subst isSession
      have less := shows _ (getBucket_session_get?.trans (if_pos rfl))
      cases found : (limiter.lookedUp .session now).get? key with
      | none =>
          have absent : (limiter.buckets .session).get? key = none := found
          rw [offer_absent limiter found, balance_absent absent] at less
          linarith
      | some bucket =>
          rw [offer_stored found] at less
          linarith
  | some store =>
      refine ⟨store, has, ?_⟩
      by_cases never : store.cap = 0
      · exact .inl never
      right
      have lookedUp : limiter.lookedUp axis now = (store.accessed now).buckets := by
        unfold RateLimiter.lookedUp
        rw [has]
      have stored : ((limiter.getBucket axis key now).2.buckets axis).get? key =
          some (store.getOrCreate key (limiter.limits axis).1 (limiter.limits axis).2 now).1 := by
        rw [store?_buckets (getBucket_store has)]
        exact IpStore.getOrCreate_own (by omega)
      have less := shows _ stored
      have sameBuckets : limiter.buckets axis = store.buckets := store?_buckets has
      constructor
      · cases found : store.buckets.get? key with
        | none =>
            have absent : (limiter.lookedUp axis now).get? key = none := by
              rw [lookedUp, IpStore.accessed_get?, found]
              rfl
            have burst : limiter.balance axis key now = (limiter.limits axis).1 :=
              balance_absent (by rw [sameBuckets, found])
            rw [offer_absent limiter absent, burst] at less
            linarith
        | some bucket =>
            have now' : limiter.balance axis key now = bucket.balance now :=
              balance_stored (by rw [sameBuckets, found])
            have after : (limiter.lookedUp axis now).get? key =
                (some bucket).filter fun bucket => !store.sweeps now bucket := by
              rw [lookedUp, IpStore.accessed_get?, found]
            cases swept : store.sweeps now bucket with
            | true =>
                have absent : (limiter.lookedUp axis now).get? key = none :=
                  by simp [after, Option.filter, swept]
                rw [offer_absent limiter absent, now'] at less
                exact ⟨bucket, rfl, swept, less⟩
            | false =>
                have kept : (limiter.lookedUp axis now).get? key = some bucket := by
                  simp [after, Option.filter, swept]
                rw [offer_stored kept] at less
                linarith
      · intro other bucket differs found swept
        have before : limiter.balance axis other now = bucket.balance now :=
          balance_stored (by rw [sameBuckets, found])
        rw [← before, ← unchanged other]
        have gone : ((limiter.tryConsume axis key 1 now).2.buckets axis).get? other = none := by
          rw [tryConsume_same differs]
          cases still : ((limiter.getBucket axis key now).2.buckets axis).get? other with
          | none => rfl
          | some left =>
              have there := getBucket_get?_other differs still
              rw [lookedUp, IpStore.accessed_get?, found] at there
              simp [Option.filter, swept] at there
        rw [balance_absent gone, limits_congr tryConsume_config]

theorem charged_fresh {capacity rate : Rat} (valid : bucket.Valid)
    (sameCapacity : bucket.capacity = capacity) (sameRate : bucket.refillRate = rate)
    (past : bucket.lastRefill < now) (enough : 1 ≤ capacity)
    (short : bucket.balance now = capacity - 1) :
    chargedBucket (Bucket.full capacity rate now) 1 now = bucket.refill now := by
  have full : (Bucket.full capacity rate now).Valid :=
    Bucket.full_valid (sameRate ▸ valid.rate) (by linarith)
  have tokens : ((Bucket.full capacity rate now).refill now).tokens = capacity :=
    full.balance_past (le_refl _)
  have lastFull : ((Bucket.full capacity rate now).refill now).lastRefill = now := by
    rw [Bucket.refill_lastRefill]
    exact max_self now
  have last : (bucket.refill now).lastRefill = now :=
    by rw [Bucket.refill_lastRefill, max_eq_right past.le]
  have enough' : ((1 : Int) : Rat) ≤ ((Bucket.full capacity rate now).refill now).tokens := by
    rw [tokens, Int.cast_one]
    exact enough
  unfold chargedBucket
  rw [if_pos enough']
  refine Bucket.ext sameCapacity.symm sameRate.symm ?_ (lastFull.trans last.symm)
  calc ((Bucket.full capacity rate now).refill now).tokens - ((1 : Int) : Rat) = capacity - 1 := by
        rw [tokens, Int.cast_one]
    _ = bucket.balance now := short.symm

theorem past_of_sweeps (swept : store.sweeps now bucket = true) : bucket.lastRefill < now := by
  simp only [IpStore.sweeps, IpStore.expired, Bool.and_eq_true, decide_eq_true_eq] at swept
  have positive : (0 : Rat) < store.idleTtlSec := by exact_mod_cast swept.1.2
  linarith [swept.2]

theorem EvensOut.unchanged (even : limiter.EvensOut axis key now) (wellFormed : limiter.WellFormed)
    (enough : 1 ≤ limiter.offer axis key now) (wanted : String) (ordered : now ≤ time) :
    (limiter.tryConsume axis key 1 now).2.balance axis wanted time =
      limiter.balance axis wanted time := by
  obtain ⟨store, has, even⟩ := even
  have sameBuckets : limiter.buckets axis = store.buckets := store?_buckets has
  have limits : (limiter.tryConsume axis key 1 now).2.limits axis = limiter.limits axis :=
    limits_congr tryConsume_config axis
  have bounded : store.buckets.size ≤ store.cap := wellFormed.bounded has
  rcases even with never | ⟨⟨own, found, swept, short⟩, others⟩
  · obtain ⟨left, hasAfter, cap, -⟩ := tryConsume_store key now has
    have boundedAfter := (wellFormed.tryConsume axis key now).bounded hasAfter
    have before : (limiter.buckets axis).get? wanted = none := by
      rw [sameBuckets]
      unfold Dict.get?
      rw [Table.lookup_of_size_zero (by omega)]
      rfl
    have after : ((limiter.tryConsume axis key 1 now).2.buckets axis).get? wanted = none := by
      rw [store?_buckets hasAfter]
      unfold Dict.get?
      rw [Table.lookup_of_size_zero (by omega)]
      rfl
    rw [balance_absent before, balance_absent after, limits]
  · have stored : (limiter.buckets axis).get? key = some own := by rw [sameBuckets, found]
    have lookedUp : limiter.lookedUp axis now = (store.accessed now).buckets := by
      unfold RateLimiter.lookedUp
      rw [has]
    have absent : (limiter.lookedUp axis now).get? key = none := by
      rw [lookedUp, IpStore.accessed_get?, found]
      simp [Option.filter, swept]
    have spare : (store.accessed now).buckets.size < store.cap := by
      have fewer := IpStore.accessed_size_lt found swept
      omega
    by_cases isOwn : wanted = key
    · subst isOwn
      obtain ⟨valid, capacity, rate⟩ := wellFormed.bucket stored
      have fresh : (limiter.getBucket axis wanted now).1 = limiter.fresh axis now := by
        rw [getBucket_bucket, absent, Option.getD_none]
      have charged : chargedBucket (limiter.getBucket axis wanted now).1 1 now =
        own.refill now := by
        rw [offer_absent limiter absent] at enough
        rw [fresh]
        exact charged_fresh valid capacity rate (past_of_sweeps swept) enough short
      have kept : ((limiter.getBucket axis wanted now).2.buckets axis).get? wanted =
          some (store.getOrCreate wanted (limiter.limits axis).1 (limiter.limits axis).2 now).1 := by
        rw [store?_buckets (getBucket_store has)]
        exact IpStore.getOrCreate_own (by omega)
      have after : ((limiter.tryConsume axis wanted 1 now).2.buckets axis).get? wanted =
        some (own.refill now) := by
        rw [tryConsume_own, kept, charged]
        rfl
      rw [balance_stored after, balance_stored stored, valid.balance_refill ordered]
    · have after : ((limiter.tryConsume axis key 1 now).2.buckets axis).get? wanted =
          (store.buckets.get? wanted).filter fun bucket => !store.sweeps now bucket := by
        rw [tryConsume_same isOwn, store?_buckets (getBucket_store has),
          IpStore.getOrCreate_spare spare isOwn, IpStore.accessed_get?]
      cases there : store.buckets.get? wanted with
      | none =>
          rw [there] at after
          rw [balance_absent after, limits, balance_absent (by rw [sameBuckets, there])]
      | some bucket =>
          have before : (limiter.buckets axis).get? wanted = some bucket :=
            by rw [sameBuckets, there]
          rw [balance_stored before]
          cases goes : store.sweeps now bucket with
          | true =>
              have gone : ((limiter.tryConsume axis key 1 now).2.buckets axis).get? wanted =
                none := by
                simp [after, there, Option.filter, goes]
              obtain ⟨valid, capacity, -⟩ := wellFormed.bucket before
              have isFull := others wanted bucket isOwn there goes
              rw [← capacity] at isFull
              rw [balance_absent gone, limits, valid.balance_full isFull ordered, capacity]
          | false =>
              have still : ((limiter.tryConsume axis key 1 now).2.buckets axis).get? wanted =
                some bucket := by
                simp [after, there, Option.filter, goes]
              rw [balance_stored still]

end EvensOut

section Consult

structure Alike (first second : RateLimiter) (axis : Axis) : Prop where
  config : first.config = second.config
  buckets : first.buckets axis = second.buckets axis
  store : first.store? axis = second.store? axis

variable {first second : RateLimiter}

theorem Alike.lookedUp (alike : Alike first second axis) :
    first.lookedUp axis now = second.lookedUp axis now := by
  unfold RateLimiter.lookedUp
  rw [alike.store, alike.buckets]

theorem Alike.limits (alike : Alike first second axis) : first.limits axis = second.limits axis :=
  limits_congr alike.config axis

theorem Alike.offer (alike : Alike first second axis) :
    first.offer axis key now = second.offer axis key now := by
  unfold RateLimiter.offer
  rw [getBucket_bucket, getBucket_bucket, alike.lookedUp]
  unfold RateLimiter.fresh
  rw [alike.limits]

theorem Alike.evensOut (alike : Alike first second axis) :
    first.EvensOut axis key now ↔ second.EvensOut axis key now := by
  unfold RateLimiter.EvensOut
  rw [alike.store, alike.limits]

theorem Alike.balance (alike : Alike first second axis) :
    first.balance axis key time = second.balance axis key time := by
  unfold RateLimiter.balance
  rw [alike.buckets, alike.limits]

theorem Alike.symm (alike : Alike first second axis) : Alike second first axis :=
  ⟨alike.config.symm, alike.buckets.symm, alike.store.symm⟩

theorem Alike.trans {third : RateLimiter} (one : Alike first second axis)
    (two : Alike second third axis) :
    Alike first third axis :=
  ⟨one.config.trans two.config, one.buckets.trans two.buckets, one.store.trans two.store⟩

theorem Alike.refl (limiter : RateLimiter) (axis : Axis) :
    Alike limiter limiter axis := ⟨rfl, rfl, rfl⟩

theorem tryConsume_alike (differs : other ≠ axis) :
    Alike (limiter.tryConsume axis key 1 now).2 limiter other := by
  refine ⟨tryConsume_config, ?_, tryConsume_store_other differs⟩
  have mutated : ∀ found : RateLimiter, ∀ bucket,
    (found.mutate axis key bucket).buckets other = found.buckets other := by
    intro found bucket
    cases axis <;> cases other <;> first | rfl | exact absurd rfl differs
  rw [tryConsume_limiter, mutated, getBucket_other differs]

variable {clock : Axis → Rat} {entries : List (Axis × String)} {scope : Axis}
    {retryAfterMs : PyFloat}

theorem consult_cons (limiter : RateLimiter) (clock : Axis → Rat) (axis : Axis) (key : String)
    (rest : List (Axis × String)) : limiter.consult clock ((axis, key) :: rest) =
      if 1 ≤ limiter.offer axis key (clock axis) then
        (limiter.tryConsume axis key 1 (clock axis)).2.consult clock rest
      else (some (axis, (limiter.tryConsume axis key 1 (clock axis)).1.2),
        (limiter.tryConsume axis key 1 (clock axis)).2) := by
  have allowed := tryConsume_allowed limiter axis key 1 (clock axis)
  rw [RateLimiter.consult]
  cases consumed : limiter.tryConsume axis key 1 (clock axis) with
  | mk outcome charged =>
      obtain ⟨isAllowed, retryAfterMs⟩ := outcome
      rw [consumed] at allowed
      cases isAllowed with
      | true =>
          have enough : 1 ≤ limiter.offer axis key (clock axis) := by
            simpa [offer, Bucket.balance] using allowed.symm
          rw [if_pos enough]
      | false =>
          have short : ¬1 ≤ limiter.offer axis key (clock axis) := by
            simpa [offer, Bucket.balance] using allowed.symm
          rw [if_neg short]

theorem consult_alike (apart : ∀ entry ∈ entries, axis ≠ entry.1) :
    Alike (limiter.consult clock entries).2 limiter axis := by
  induction entries generalizing limiter with
  | nil => exact Alike.refl limiter axis
  | cons entry rest ih =>
      obtain ⟨consulted, key⟩ := entry
      have charged : Alike (limiter.tryConsume consulted key 1 (clock consulted)).2 limiter axis :=
        tryConsume_alike (apart (consulted, key) (by simp))
      rw [consult_cons]
      split
      · exact (ih fun entry member => apart entry (by simp [member])).trans charged
      · exact charged

theorem consult_scope (denied : (limiter.consult clock entries).1 = some (scope, retryAfterMs)) :
    ∃ entry ∈ entries, scope = entry.1 := by
  induction entries generalizing limiter with
  | nil => simp [RateLimiter.consult] at denied
  | cons entry rest ih =>
      obtain ⟨consulted, key⟩ := entry
      rw [consult_cons] at denied
      split at denied
      · obtain ⟨entry, member, same⟩ := ih denied
        exact ⟨entry, by simp [member], same⟩
      · simp only [Option.some.injEq, Prod.mk.injEq] at denied
        exact ⟨(consulted, key), by simp, denied.1.symm⟩

/-- Every axis before the one that has no token evens out. -/
def ChargesNone (limiter : RateLimiter) (clock : Axis → Rat) : List (Axis × String) → Prop
  | [] => True
  | (axis, key) :: rest =>
      limiter.offer axis key (clock axis) < 1 ∨
        limiter.EvensOut axis key (clock axis) ∧ limiter.ChargesNone clock rest

theorem consult_unchanged_iff {current : RateLimiter} (wellFormed : current.WellFormed)
    (alike : ∀ entry ∈ entries, Alike current limiter entry.1)
    (distinct : (entries.map Prod.fst).Nodup)
    (denied : (current.consult clock entries).1 = some (scope, retryAfterMs)) :
    (∀ axis, axis ≠ scope → ∀ key time, clock axis ≤ time →
      (current.consult clock entries).2.balance axis key time = current.balance axis key time) ↔
        limiter.ChargesNone clock entries := by
  induction entries generalizing current with
  | nil => simp [RateLimiter.consult] at denied
  | cons entry rest ih =>
      obtain ⟨consulted, key⟩ := entry
      have here : Alike current limiter consulted := alike (consulted, key) (by simp)
      rw [List.map_cons, List.nodup_cons] at distinct
      have apart : ∀ entry ∈ rest, consulted ≠ entry.1 := by
        intro entry member same
        exact distinct.1 (List.mem_map.mpr ⟨entry, member, same.symm⟩)
      rw [ChargesNone, ← here.offer, ← here.evensOut]
      rw [consult_cons] at denied ⊢
      by_cases enough : 1 ≤ current.offer consulted key (clock consulted)
      · rw [if_pos enough] at denied ⊢
        have others : ∀ axis, axis ≠ consulted →
          Alike (current.tryConsume consulted key 1 (clock consulted)).2
            current axis := fun axis differs => tryConsume_alike differs
        have alikeRest : ∀ entry ∈ rest,
          Alike (current.tryConsume consulted key 1 (clock consulted)).2 limiter
            entry.1 := fun entry member =>
          (others entry.1 (apart entry member).symm).trans (alike entry (by simp [member]))
        have rule := ih (wellFormed.tryConsume consulted key (clock consulted)) alikeRest distinct.2 denied
        have untouched : Alike ((current.tryConsume consulted key 1 (clock consulted)).2.consult clock rest).2
            (current.tryConsume consulted key 1 (clock consulted)).2 consulted :=
              consult_alike apart
        have notScope : consulted ≠ scope := by
          obtain ⟨entry, member, same⟩ := consult_scope denied
          rw [same]
          exact apart entry member
        rw [or_iff_right (not_lt.mpr enough), ← rule]
        constructor
        · intro unchanged
          constructor
          · apply evensOut_of_unchanged wellFormed enough
            intro wanted
            rw [← untouched.balance]
            exact unchanged consulted notScope wanted (clock consulted) (le_refl _)
          · intro axis differs key' time ordered
            by_cases same : axis = consulted
            · subst same
              exact untouched.balance
            · rw [unchanged axis differs key' time ordered, (others axis same).balance]
        · rintro ⟨even, unchanged⟩ axis differs key' time ordered
          rw [unchanged axis differs key' time ordered]
          by_cases same : axis = consulted
          · subst same
            exact even.unchanged wellFormed enough key' ordered
          · exact (others axis same).balance
      · rw [if_neg enough] at denied ⊢
        simp only [Option.some.injEq, Prod.mk.injEq] at denied
        refine iff_of_true ?_ (.inl (not_le.mp enough))
        intro axis differs key' time _
        exact (tryConsume_alike (denied.1 ▸ differs)).balance

end Consult

end RateLimiter

theorem axes_distinct (env : Env) (context : ToolContext) :
    ((context.axes env).map Prod.fst).Nodup := by
  unfold ToolContext.axes
  cases context.ip <;> cases context.sessionKey env <;> split <;> simp

/-- A refused call leaves the other axes as they were exactly when no axis before the refusal shows
its charge. -/
theorem refused_unchanged_iff (env : Env) {config : RateLimitConfig} {limiter : RateLimiter}
    (reachable : limiter.Reachable config) (clock : Axis → Rat) (context : ToolContext)
    {scope : Axis}
    {retryAfterMs : PyFloat}
    (refused : (limiter.consult clock (context.axes env)).1 = some (scope, retryAfterMs)) :
    (∀ axis, axis ≠ scope → ∀ key time, clock axis ≤ time →
      (onCallTool env limiter clock context).2.balance axis key time =
        limiter.balance axis key time) ↔
        limiter.ChargesNone clock (context.axes env) := by
  rw [onCallTool_limiter]
  exact RateLimiter.consult_unchanged_iff reachable.wellFormed (fun entry _ =>
    .refl limiter entry.1)
    (axes_distinct env context) refused

def webCall (toolName : String) : ToolContext :=
  ⟨toolName, .obj [("session_id", .str "s")], some "http", some "10.0.0.1"⟩

/-- A read that its session refuses costs its address nothing. -/
theorem sessionRefusal_unchanged :
    (onCallTool sampleEnv (.init { sessionBurst :=
      0 }) 0 (webCall "get_state")).2.balance .ip "10.0.0.1" 0 =
      (RateLimiter.init { sessionBurst := 0 }).balance .ip "10.0.0.1" 0 := by
  have refused : ((RateLimiter.init { sessionBurst :=
    0 }).consult 0 ((webCall "get_state").axes sampleEnv)).1 =
      some (.session, .finite 500) := by decide +kernel
  have first : (RateLimiter.init { sessionBurst := 0 }).offer .session "s" 0 < 1 :=
    by decide +kernel
  exact (refused_unchanged_iff sampleEnv .init 0 (webCall "get_state") refused).mpr (.inl first) .ip (by decide)
    "10.0.0.1" 0 (le_refl 0)

/-- A read that its address refuses has cost its session a token. -/
theorem addressRefusal_charges :
    ((RateLimiter.init { ipBurst := 0 }).consult 0 ((webCall "get_state").axes sampleEnv)).1 =
        some (.ip, .finite (50 / 3)) ∧
      (RateLimiter.init { ipBurst := 0 }).balance .session "s" 0 = 30 ∧
        (onCallTool sampleEnv (.init { ipBurst :=
          0 }) 0 (webCall "get_state")).2.balance .session "s" 0 = 29 := by
  decide +kernel

end Megalos
