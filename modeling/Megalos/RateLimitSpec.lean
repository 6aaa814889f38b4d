import Megalos.RateLimit

/-!
What one request for a token does to the limiter: the bucket it finds, the bucket it
leaves, and what it does not touch.
-/

namespace Megalos

open KeyedTable TokenBucket

def bucketAnswer (bucket : Bucket Rat) (cost : Int) (now : Rat) : Bool × PyFloat :=
  if cost ≤ (bucket.refill now).tokens then (true, .finite 0)
  else if (bucket.refill now).refillRate ≤ 0 then (false, .infinite false)
  else (false, .finite ((cost - (bucket.refill now).tokens) / (bucket.refill now).refillRate * 1000))

def chargedBucket (bucket : Bucket Rat) (cost : Int) (now : Rat) : Bucket Rat :=
  if cost ≤ (bucket.refill now).tokens then (bucket.refill now).spend cost else bucket.refill now

theorem chargedBucket_valid_of_nonneg {bucket : Bucket Rat} {cost : Int} {now : Rat}
    (valid : bucket.Valid) (nonneg : 0 ≤ cost) : (chargedBucket bucket cost now).Valid := by
  unfold chargedBucket
  split
  · rename_i enough
    exact (valid.refill now).spend (by exact_mod_cast nonneg) enough
  · exact valid.refill now

theorem chargedBucket_valid {bucket : Bucket Rat} {now : Rat} (valid : bucket.Valid) :
    (chargedBucket bucket 1 now).Valid :=
  chargedBucket_valid_of_nonneg valid (by decide)

theorem chargedBucket_fields (bucket : Bucket Rat) (cost : Int) (now : Rat) :
    (chargedBucket bucket cost now).capacity = bucket.capacity ∧
      (chargedBucket bucket cost now).refillRate = bucket.refillRate := by
  unfold chargedBucket
  split
  · exact ⟨rfl, rfl⟩
  · exact ⟨rfl, rfl⟩

theorem chargedBucket_last (bucket : Bucket Rat) (cost : Int) (now : Rat) :
    (chargedBucket bucket cost now).lastRefill = max bucket.lastRefill now := by
  unfold chargedBucket
  split
  · exact Bucket.refill_lastRefill bucket now
  · exact Bucket.refill_lastRefill bucket now

theorem chargedBucket_lastRefill {bucket : Bucket Rat} {now : Rat} (cost : Int)
    (past : bucket.lastRefill ≤ now) :
    (chargedBucket bucket cost now).lastRefill = now := by
  rw [chargedBucket_last, max_eq_right past]

namespace IpStore

variable {store : IpStore} {key wanted : String} {capacity refillRate now : Rat}
    {bucket : Bucket Rat}

/-- Whether the next access drops a bucket because it was idle for too long. -/
def sweeps (store : IpStore) (now : Rat) (bucket : Bucket Rat) : Bool :=
  decide ((store.accessCount + 1) % sweepEvery = 0 ∧
    0 < store.idleTtlSec) && store.expired now bucket

theorem accessed_buckets : (store.accessed now).buckets =
    if (store.accessCount + 1) % sweepEvery = 0 ∧ 0 < store.idleTtlSec then
      store.buckets.deleteWhere fun entry => store.expired now entry.2
    else store.buckets := by
  unfold accessed sweepExpired
  dsimp only
  by_cases due : (store.accessCount + 1) % sweepEvery = 0
  · by_cases never : store.idleTtlSec ≤ 0
    · rw [if_pos due, if_pos never, if_neg fun both => absurd both.2 (not_lt.mpr never)]
    · rw [if_pos due, if_neg never, if_pos ⟨due, not_le.mp never⟩]
      rfl
  · rw [if_neg due, if_neg fun both => due both.1]

theorem accessed_get? : (store.accessed now).buckets.get? wanted =
    (store.buckets.get? wanted).filter fun bucket => !store.sweeps now bucket := by
  rw [accessed_buckets]
  by_cases due : (store.accessCount + 1) % sweepEvery = 0 ∧ 0 < store.idleTtlSec
  · rw [if_pos due]
    unfold Dict.get?
    rw [Table.lookup_deleteWhere]
    cases store.buckets.lookup wanted with
    | none => rfl
    | some entry => cases idle : store.expired now entry.2 <;> simp [Option.filter, sweeps, due,
      idle]
  · rw [if_neg due]
    cases store.buckets.get? wanted with
    | none => rfl
    | some bucket => simp [Option.filter, sweeps, due]

theorem accessed_cap : (store.accessed now).cap = store.cap := by
  unfold accessed sweepExpired
  dsimp only
  split
  · split <;> rfl
  · rfl

theorem accessed_size_le : (store.accessed now).buckets.size ≤ store.buckets.size := by
  rw [accessed_buckets]
  split
  · exact Table.size_deleteWhere_le _ _
  · exact le_refl _

theorem accessed_size_lt (found : store.buckets.get? wanted = some bucket)
    (idle : store.sweeps now bucket = true) :
    (store.accessed now).buckets.size < store.buckets.size := by
  obtain ⟨entry, inTable, rfl⟩ := Option.map_eq_some_iff.mp found
  simp only [sweeps, Bool.and_eq_true, decide_eq_true_eq] at idle
  rw [accessed_buckets, if_pos idle.1]
  exact Table.size_deleteWhere_lt inTable idle.2

theorem getOrCreate_bucket : (store.getOrCreate key capacity refillRate now).1 =
    ((store.accessed now).buckets.get? key).getD (Bucket.full capacity refillRate now) := by
  unfold getOrCreate
  dsimp only
  cases (store.accessed now).buckets.get? key <;> rfl

theorem getOrCreate_cap : (store.getOrCreate key capacity refillRate now).2.cap = store.cap := by
  have same : (store.accessed now).cap = store.cap := accessed_cap
  unfold getOrCreate evictIfOverCap
  dsimp only
  cases (store.accessed now).buckets.get? key with
  | none => exact same
  | some bucket => exact same

theorem getOrCreate_new (absent : (store.accessed now).buckets.get? key = none) :
    (store.getOrCreate key capacity refillRate now).2.buckets =
      ((store.accessed now).buckets.set key (Bucket.full capacity refillRate now)).dropOldest
        ((store.accessed now).buckets.size + 1 - store.cap) := by
  have notThere : (store.accessed now).buckets.lookup key = none := Option.map_eq_none_iff.mp absent
  have size : ((store.accessed now).buckets.set key (Bucket.full capacity refillRate now)).size =
      (store.accessed now).buckets.size + 1 :=
    Table.size_upsert_new notThere
  unfold getOrCreate evictIfOverCap
  dsimp only
  rw [absent]
  dsimp only
  rw [size, accessed_cap]

theorem getOrCreate_known (found : (store.accessed now).buckets.get? key = some bucket) :
    (store.getOrCreate key capacity refillRate now).2.buckets =
      Dict.set ((store.accessed now).buckets.erase key) key bucket := by
  unfold getOrCreate
  dsimp only
  rw [found]

/-- A store that may hold a bucket holds the one it gives. -/
theorem getOrCreate_own (roomy : 0 < store.cap) :
    (store.getOrCreate key capacity refillRate now).2.buckets.get? key =
      some (store.getOrCreate key capacity refillRate now).1 := by
  rw [getOrCreate_bucket]
  cases found : (store.accessed now).buckets.get? key with
  | some bucket => rw [getOrCreate_known found, Dict.get?_set, if_pos rfl, Option.getD_some]
  | none =>
      have absent : (store.accessed now).buckets.lookup key = none :=
        Option.map_eq_none_iff.mp found
      rw [getOrCreate_new found, Option.getD_none]
      unfold Dict.get? Dict.set
      rw [Table.lookup_dropOldest_newest absent (by omega)]
      rfl

theorem getOrCreate_other (differs : wanted ≠ key)
    (found : (store.getOrCreate key capacity refillRate now).2.buckets.get? wanted = some bucket) :
    (store.accessed now).buckets.get? wanted = some bucket := by
  cases known : (store.accessed now).buckets.get? key with
  | some own =>
      rw [getOrCreate_known known, Dict.get?_set, if_neg differs, Dict.get?_erase,
        if_neg differs] at found
      exact found
  | none =>
      rw [getOrCreate_new known] at found
      obtain ⟨entry, inTable, rfl⟩ := Option.map_eq_some_iff.mp found
      have before : ((store.accessed now).buckets.set key (Bucket.full capacity refillRate now)).get? wanted =
          some entry.2 := by
        unfold Dict.get?
        rw [Table.lookup_dropOldest inTable]
        rfl
      rwa [Dict.get?_set, if_neg differs] at before

/-- A store with room to spare drops nothing for a new address. -/
theorem getOrCreate_spare (spare : (store.accessed now).buckets.size < store.cap)
    (differs : wanted ≠ key) :
    (store.getOrCreate key capacity refillRate now).2.buckets.get? wanted =
      (store.accessed now).buckets.get? wanted := by
  cases known : (store.accessed now).buckets.get? key with
  | some own => rw [getOrCreate_known known, Dict.get?_set, if_neg differs, Dict.get?_erase,
    if_neg differs]
  | none =>
      have all : (store.accessed now).buckets.size + 1 - store.cap = 0 := by omega
      rw [getOrCreate_new known, all, Table.dropOldest_zero, Dict.get?_set, if_neg differs]

theorem getOrCreate_size_le (bounded : store.buckets.size ≤ store.cap) :
    (store.getOrCreate key capacity refillRate now).2.buckets.size ≤ store.cap := by
  have fewer : (store.accessed now).buckets.size ≤ store.buckets.size := accessed_size_le
  cases known : (store.accessed now).buckets.get? key with
  | some own =>
      obtain ⟨entry, inTable, -⟩ := Option.map_eq_some_iff.mp known
      have smaller : ((store.accessed now).buckets.erase key).size < (store.accessed now).buckets.size :=
        Table.size_deleteWhere_lt inTable (by simpa using Table.lookup_key inTable)
      have gone : ((store.accessed now).buckets.erase key).lookup key = none := by
        rw [Table.lookup_erase, if_pos rfl]
      have size : (Dict.set ((store.accessed now).buckets.erase key) key own).size =
          ((store.accessed now).buckets.erase key).size + 1 :=
        Table.size_upsert_new gone
      rw [getOrCreate_known known, size]
      omega
  | none =>
      have absent : (store.accessed now).buckets.lookup key = none :=
        Option.map_eq_none_iff.mp known
      have size : ((store.accessed now).buckets.set key (Bucket.full capacity refillRate now)).size =
          (store.accessed now).buckets.size + 1 :=
        Table.size_upsert_new absent
      rw [getOrCreate_new known, Table.size_dropOldest, size]
      omega

def charged (store : IpStore) (key : String) (capacity refillRate : Rat) (cost : Int) (now : Rat) :
    IpStore :=
  let (bucket, found) := store.getOrCreate key capacity refillRate now
  { found with buckets := found.buckets.update key fun entry =>
    (entry.1, chargedBucket bucket cost now) }

theorem charged_size {cost : Int} : (store.charged key capacity refillRate cost now).buckets.size =
    (store.getOrCreate key capacity refillRate now).2.buckets.size :=
  Table.size_update _ key
    (fun entry => (entry.1,
      chargedBucket (store.getOrCreate key capacity refillRate now).1 cost now)) fun _ => rfl

end IpStore

namespace RateLimiter

def buckets (limiter : RateLimiter) : Axis → Dict (Bucket Rat)
  | .session => limiter.sessionBuckets
  | .ip => limiter.ipStore.buckets
  | .ipSessionCreate => limiter.ipCreateStore.buckets

/-- The bucket of an axis that nobody has used yet. -/
def fresh (limiter : RateLimiter) (axis : Axis) (now : Rat) : Bucket Rat :=
  Bucket.full (limiter.limits axis).1 (limiter.limits axis).2 now

variable {limiter : RateLimiter} {axis other : Axis} {key wanted : String} {cost : Int} {now : Rat}
    {bucket : Bucket Rat}

theorem tryConsume_allowed (limiter : RateLimiter) (axis : Axis) (key : String) (cost : Int)
    (now : Rat) :
    (limiter.tryConsume axis key cost now).1.1 =
      decide (cost ≤ ((limiter.getBucket axis key now).1.refill now).tokens) := by
  unfold tryConsume
  dsimp only
  by_cases enough : cost ≤ ((limiter.getBucket axis key now).1.refill now).tokens
  · rw [if_pos enough, decide_eq_true enough]
  · rw [if_neg enough, decide_eq_false enough]

theorem tryConsume_answer (limiter : RateLimiter) (axis : Axis) (key : String) (cost : Int)
    (now : Rat) :
    (limiter.tryConsume axis key cost now).1 =
      bucketAnswer (limiter.getBucket axis key now).1 cost now := by
  unfold tryConsume bucketAnswer
  dsimp only
  split
  · rfl
  · split
    · rfl
    · rfl

theorem tryConsume_limiter : (limiter.tryConsume axis key cost now).2 =
    (limiter.getBucket axis key now).2.mutate axis key
      (chargedBucket (limiter.getBucket axis key now).1 cost now) := by
  unfold tryConsume chargedBucket
  dsimp only
  by_cases enough : cost ≤ ((limiter.getBucket axis key now).1.refill now).tokens
  · rw [if_pos enough, if_pos enough]
  · rw [if_neg enough, if_neg enough]

@[simp] theorem getBucket_config : (limiter.getBucket axis key now).2.config = limiter.config := by
  cases axis with
  | session =>
      simp only [getBucket]
      cases limiter.sessionBuckets.get? key <;> rfl
  | ip => rfl
  | ipSessionCreate => rfl

@[simp] theorem mutate_config : (limiter.mutate axis key bucket).config = limiter.config := by
  cases axis <;> rfl

@[simp] theorem tryConsume_config :
    (limiter.tryConsume axis key cost now).2.config = limiter.config := by
  rw [tryConsume_limiter, mutate_config, getBucket_config]

theorem getBucket_other (differs : other ≠ axis) :
    (limiter.getBucket axis key now).2.buckets other = limiter.buckets other := by
  cases axis with
  | session =>
      simp only [getBucket]
      cases limiter.sessionBuckets.get? key <;> cases other <;> first | rfl | exact absurd rfl differs
  | ip => cases other <;> first | rfl | exact absurd rfl differs
  | ipSessionCreate => cases other <;> first | rfl | exact absurd rfl differs

theorem mutate_get? : ((limiter.mutate axis key bucket).buckets other).get? wanted =
    if other = axis ∧ wanted = key then ((limiter.buckets other).get? wanted).map fun _ => bucket
    else (limiter.buckets other).get? wanted := by
  by_cases same : other = axis
  · subst same
    have changed : (limiter.mutate other key bucket).buckets other =
        (limiter.buckets other).update key fun entry => (entry.1, bucket) := by
      cases other <;> rfl
    rw [changed, Dict.get?_update]
    simp
  · rw [if_neg fun both => same both.1]
    have kept : (limiter.mutate axis key bucket).buckets other = limiter.buckets other := by
      cases axis <;> cases other <;> first | rfl | exact absurd rfl same
    rw [kept]

/-- A request leaves the buckets of the other axes as they are. -/
theorem tryConsume_other (differs : other ≠ axis) :
    ((limiter.tryConsume axis key cost now).2.buckets other).get? wanted =
      (limiter.buckets other).get? wanted := by
  rw [tryConsume_limiter, mutate_get?, if_neg fun both => differs both.1, getBucket_other differs]

section Session

theorem getBucket_session : (limiter.getBucket .session key now).1 =
    ((limiter.buckets .session).get? key).getD (limiter.fresh .session now) := by
  simp only [getBucket, buckets]
  cases limiter.sessionBuckets.get? key <;> rfl

theorem getBucket_session_get? :
    ((limiter.getBucket .session key now).2.buckets .session).get? wanted =
    if wanted = key then some (limiter.getBucket .session key now).1 else (limiter.buckets .session).get? wanted := by
  simp only [getBucket, buckets]
  cases found : limiter.sessionBuckets.get? key with
  | none => simp
  | some bucket =>
      by_cases same : wanted = key
      · rw [if_pos same, same]
        exact found
      · rw [if_neg same]

/-- The session axis keeps every bucket, and charges the one of the call. -/
theorem tryConsume_session (limiter : RateLimiter) (key wanted : String) (cost : Int) (now : Rat) :
    ((limiter.tryConsume .session key cost now).2.buckets .session).get? wanted =
    if wanted = key then
      some (chargedBucket (((limiter.buckets .session).get? key).getD (limiter.fresh .session now)) cost now)
    else (limiter.buckets .session).get? wanted := by
  rw [tryConsume_limiter, mutate_get?, getBucket_session_get?, getBucket_session]
  by_cases same : wanted = key
  · simp [same]
  · simp [same]

end Session

section Stores

variable {store : IpStore}

def store? (limiter : RateLimiter) : Axis → Option IpStore
  | .session => none
  | .ip => some limiter.ipStore
  | .ipSessionCreate => some limiter.ipCreateStore

def lookedUp (limiter : RateLimiter) (axis : Axis) (now : Rat) : Dict (Bucket Rat) :=
  match limiter.store? axis with
  | none => limiter.buckets axis
  | some store => (store.accessed now).buckets

theorem store?_buckets (has : limiter.store? axis = some store) :
    limiter.buckets axis = store.buckets := by
  cases axis with
  | session => simp [store?] at has
  | ip =>
      simp only [store?, Option.some.injEq] at has
      rw [← has]
      rfl
  | ipSessionCreate =>
      simp only [store?, Option.some.injEq] at has
      rw [← has]
      rfl

theorem lookedUp_get? (found : (limiter.lookedUp axis now).get? key = some bucket) :
    (limiter.buckets axis).get? key = some bucket := by
  unfold lookedUp at found
  cases has : limiter.store? axis with
  | none =>
      rw [has] at found
      exact found
  | some store =>
      rw [has] at found
      dsimp only at found
      rw [IpStore.accessed_get?] at found
      rw [store?_buckets has]
      exact (Option.filter_eq_some_iff.mp found).1

theorem getBucket_bucket : (limiter.getBucket axis key now).1 =
    ((limiter.lookedUp axis now).get? key).getD (limiter.fresh axis now) := by
  cases axis with
  | session => exact getBucket_session
  | ip => exact IpStore.getOrCreate_bucket
  | ipSessionCreate => exact IpStore.getOrCreate_bucket

theorem getBucket_given (has : limiter.store? axis = some store) :
    (limiter.getBucket axis key now).1 =
    (store.getOrCreate key (limiter.limits axis).1 (limiter.limits axis).2 now).1 := by
  cases axis with
  | session => simp [store?] at has
  | ip =>
      simp only [store?, Option.some.injEq] at has
      rw [← has]
      rfl
  | ipSessionCreate =>
      simp only [store?, Option.some.injEq] at has
      rw [← has]
      rfl

theorem getBucket_store (has : limiter.store? axis = some store) :
    (limiter.getBucket axis key now).2.store? axis =
      some (store.getOrCreate key (limiter.limits axis).1 (limiter.limits axis).2 now).2 := by
  cases axis with
  | session => simp [store?] at has
  | ip =>
      simp only [store?, Option.some.injEq] at has
      rw [← has]
      rfl
  | ipSessionCreate =>
      simp only [store?, Option.some.injEq] at has
      rw [← has]
      rfl

theorem getBucket_get?_other (differs : wanted ≠ key)
    (found : ((limiter.getBucket axis key now).2.buckets axis).get? wanted = some bucket) :
    (limiter.lookedUp axis now).get? wanted = some bucket := by
  unfold lookedUp
  cases has : limiter.store? axis with
  | none =>
      cases axis with
      | session => rwa [getBucket_session_get?, if_neg differs] at found
      | ip => simp [store?] at has
      | ipSessionCreate => simp [store?] at has
  | some store =>
      rw [store?_buckets (getBucket_store has)] at found
      exact IpStore.getOrCreate_other differs found

theorem tryConsume_found (found : ((limiter.tryConsume axis key cost now).2.buckets other).get? wanted = some bucket) :
    if other = axis ∧ wanted = key then bucket =
      chargedBucket (limiter.getBucket axis key now).1 cost now
    else (limiter.buckets other).get? wanted = some bucket := by
  rw [tryConsume_limiter, mutate_get?] at found
  by_cases own : other = axis ∧ wanted = key
  · rw [if_pos own] at found ⊢
    obtain ⟨before, -, isCharged⟩ := Option.map_eq_some_iff.mp found
    exact isCharged.symm
  · rw [if_neg own] at found ⊢
    by_cases same : other = axis
    · subst same
      exact lookedUp_get? (getBucket_get?_other (fun isKey => own ⟨rfl, isKey⟩) found)
    · rwa [getBucket_other same] at found

theorem dropSession_found {sessionId : String}
    (found : ((limiter.dropSession sessionId).buckets axis).get? wanted = some bucket) :
    (limiter.buckets axis).get? wanted = some bucket := by
  cases axis with
  | session =>
      simp only [dropSession, buckets, Dict.get?_erase] at found
      split at found
      · exact nomatch found
      · exact found
  | ip => exact found
  | ipSessionCreate => exact found

theorem limits_congr {first second : RateLimiter} (same : first.config = second.config)
    (axis : Axis) :
    first.limits axis = second.limits axis := by
  unfold limits
  rw [same]

theorem limits_nonneg (limiter : RateLimiter) (axis : Axis) :
    0 ≤ (limiter.limits axis).1 ∧ 0 ≤ (limiter.limits axis).2 := by
  cases axis with
  | session => exact ⟨NNRat.cast_nonneg _, NNRat.cast_nonneg _⟩
  | ip => exact ⟨NNRat.cast_nonneg _, NNRat.cast_nonneg _⟩
  | ipSessionCreate => exact ⟨NNRat.cast_nonneg _, NNRat.cast_nonneg _⟩

theorem tryConsume_store_other (differs : other ≠ axis) :
    (limiter.tryConsume axis key cost now).2.store? other = limiter.store? other := by
  rw [tryConsume_limiter]
  have mutated : ∀ found : RateLimiter, ∀ bucket,
    (found.mutate axis key bucket).store? other = found.store? other := by
    intro found bucket
    cases axis <;> cases other <;> first | rfl | exact absurd rfl differs
  rw [mutated]
  cases axis with
  | session =>
      simp only [RateLimiter.getBucket]
      cases limiter.sessionBuckets.get? key <;> rfl
  | ip => cases other <;> first | rfl | exact absurd rfl differs
  | ipSessionCreate => cases other <;> first | rfl | exact absurd rfl differs

theorem tryConsume_store? (key : String) (cost : Int) (now : Rat)
    (has : limiter.store? axis = some store) :
    (limiter.tryConsume axis key cost now).2.store? axis =
      some (store.charged key (limiter.limits axis).1 (limiter.limits axis).2 cost now) := by
  have mutated : ∀ found : RateLimiter, ∀ bucket, (found.mutate axis key bucket).store? axis =
      (found.store? axis).map fun store =>
        { store with buckets := store.buckets.update key fun entry => (entry.1, bucket) } := by
    intro found bucket
    cases axis <;> rfl
  rw [tryConsume_limiter, mutated, getBucket_store has, getBucket_given has]
  rfl

theorem tryConsume_store (key : String) (now : Rat) (has : limiter.store? axis = some store) :
    ∃ after, (limiter.tryConsume axis key cost now).2.store? axis = some after ∧
      after.cap = store.cap ∧
      after.buckets.size =
        (store.getOrCreate key (limiter.limits axis).1 (limiter.limits axis).2 now).2.buckets.size :=
  ⟨_, tryConsume_store? key cost now has, IpStore.getOrCreate_cap, IpStore.charged_size⟩

end Stores

end RateLimiter

end Megalos
