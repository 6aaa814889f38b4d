import Mathlib.Tactic.NormNum
import Megalos.Library.Recency
import Megalos.RateLimitSpec

/-!
The bounded stores of the limiter against a limiter that keeps every bucket: what a sweep
or the bound of the store drops is full again, or nobody asks for it any more.
-/

namespace Megalos

open KeyedTable TokenBucket

structure TokenRequest where
  axis : Axis
  key : String
  cost : Nat
  now : Rat

/-- The buckets of a limiter that keeps them all, and sweeps none. -/
abbrev KeptBuckets := String → Option (Bucket Rat)

namespace KeptBuckets

def find (kept : KeptBuckets) (limits : Rat × Rat) (key : String) (now : Rat) : Bucket Rat :=
  (kept key).getD (Bucket.full limits.1 limits.2 now)

def charged (kept : KeptBuckets) (limits : Rat × Rat) (request : TokenRequest) : KeptBuckets :=
  Function.update kept request.key
    (some (chargedBucket (kept.find limits request.key request.now) request.cost request.now))

/-- What the requests are told, one after the other. -/
def answers (limits : Rat × Rat) : KeptBuckets → List TokenRequest → List (Bool × PyFloat)
  | _, [] => []
  | kept, request :: rest =>
      bucketAnswer (kept.find limits request.key request.now) request.cost request.now ::
        answers limits (kept.charged limits request) rest

end KeptBuckets

def RateLimiter.answersOn (axis : Axis) : RateLimiter → List TokenRequest → List (Bool × PyFloat)
  | _, [] => []
  | limiter, request :: rest =>
      let (answer, after) := limiter.tryConsume request.axis request.key request.cost request.now
      if request.axis = axis then answer :: after.answersOn axis rest else after.answersOn axis rest

def RateLimiter.afterAll (limiter : RateLimiter) (requests : List TokenRequest) : RateLimiter :=
  requests.foldl (fun limiter request =>
    (limiter.tryConsume request.axis request.key request.cost request.now).2) limiter

namespace IpStore

variable {store : IpStore} {key wanted : String} {capacity refillRate now : Rat} {cost : Int}
  {bucket : Bucket Rat} {uses : List String}

theorem accessed_inOrder (now : Rat) (ordered : store.buckets.InOrder uses) :
    (store.accessed now).buckets.InOrder uses := by
  rw [accessed_buckets]
  split
  · exact ordered.deleteWhere _
  · exact ordered

theorem accessed_ttl : (store.accessed now).idleTtlSec = store.idleTtlSec := by
  unfold accessed sweepExpired
  dsimp only
  split
  · split <;> rfl
  · rfl

theorem charged_cap :
    (store.charged key capacity refillRate cost now).cap = store.cap := getOrCreate_cap

theorem charged_ttl :
    (store.charged key capacity refillRate cost now).idleTtlSec = store.idleTtlSec := by
  have same : (store.accessed now).idleTtlSec = store.idleTtlSec := accessed_ttl
  unfold charged getOrCreate evictIfOverCap
  dsimp only
  cases (store.accessed now).buckets.get? key with
  | none => exact same
  | some bucket => exact same

theorem getOrCreate_inOrder (ordered : store.buckets.InOrder uses) :
    (store.getOrCreate key capacity refillRate now).2.buckets.InOrder (key :: uses) := by
  have swept := accessed_inOrder now ordered
  cases known : (store.accessed now).buckets.get? key with
  | some own =>
      have gone : ((store.accessed now).buckets.erase key).lookup key = none := by
        rw [Table.lookup_erase, if_pos rfl]
      rw [getOrCreate_known known]
      exact (swept.deleteWhere _).append (key, own) gone
  | none =>
      have absent : (store.accessed now).buckets.lookup key = none :=
        Option.map_eq_none_iff.mp known
      rw [getOrCreate_new known]
      exact (swept.append (key, Bucket.full capacity refillRate now) absent).dropOldest _

/-- A bucket that the bound drops was overtaken by as many keys as the store may hold. -/
theorem getOrCreate_overtaken (ordered : store.buckets.InOrder uses) (differs : wanted ≠ key)
    (found : (store.accessed now).buckets.get? wanted = some bucket)
    (gone : (store.getOrCreate key capacity refillRate now).2.buckets.get? wanted = none) :
    store.cap ≤ (overtaking (key :: uses) wanted).card := by
  cases known : (store.accessed now).buckets.get? key with
  | some own =>
      rw [getOrCreate_known known, Dict.get?_set, if_neg differs, Dict.get?_erase, if_neg differs,
        found] at gone
      exact nomatch gone
  | none =>
      have absent : (store.accessed now).buckets.lookup key = none :=
        Option.map_eq_none_iff.mp known
      have grown := (accessed_inOrder now ordered).append (key,
        Bucket.full capacity refillRate now) absent
      have size : ((store.accessed now).buckets.upsert (key,
        Bucket.full capacity refillRate now)).size =
          (store.accessed now).buckets.size + 1 :=
        Table.size_upsert_new absent
      have there : ((store.accessed now).buckets.set key (Bucket.full capacity refillRate now)).get? wanted =
          some bucket := by
        rw [Dict.get?_set, if_neg differs, found]
      obtain ⟨row, inTable, -⟩ := Option.map_eq_some_iff.mp there
      rw [getOrCreate_new known] at gone
      have overtaken := grown.overtaken inTable (Option.map_eq_none_iff.mp gone)
      rw [size] at overtaken
      dsimp only at overtaken
      by_cases full : store.cap ≤ (store.accessed now).buckets.size + 1
      · omega
      · have all : (store.accessed now).buckets.size + 1 - store.cap = 0 := by omega
        rw [all, Table.dropOldest_zero, there] at gone
        exact nomatch gone

theorem charged_get? : (store.charged key capacity refillRate cost now).buckets.get? wanted =
    if wanted = key then ((store.getOrCreate key capacity refillRate now).2.buckets.get? key).map fun _ =>
      chargedBucket (store.getOrCreate key capacity refillRate now).1 cost now
    else (store.getOrCreate key capacity refillRate now).2.buckets.get? wanted := by
  unfold charged
  dsimp only
  rw [Dict.get?_update]
  split
  · rename_i same
    rw [same]
  · rfl

theorem charged_inOrder (ordered : store.buckets.InOrder uses) :
    (store.charged key capacity refillRate cost now).buckets.InOrder (key :: uses) :=
  (getOrCreate_inOrder ordered).update key
    (fun entry => (entry.1,
      chargedBucket (store.getOrCreate key capacity refillRate now).1 cost now)) fun _ => rfl

end IpStore

theorem chargedBucket_congr {left right : Bucket Rat} {now : Rat}
    (same : left.refill now = right.refill now) (cost : Int) :
    chargedBucket left cost now = chargedBucket right cost now := by
  unfold chargedBucket
  rw [same]

theorem bucketAnswer_congr {left right : Bucket Rat} {now : Rat}
    (same : left.refill now = right.refill now) (cost : Int) :
    bucketAnswer left cost now = bucketAnswer right cost now := by
  unfold bucketAnswer
  rw [same]

/-- A store against all the buckets there ever were: what it holds is the same, and what it dropped
is full, or was overtaken by as many keys as it may hold. -/
structure Shadows (limits : Rat × Rat) (store : IpStore) (kept : KeptBuckets) (uses : List String)
    (time : Rat) : Prop where
  stored : ∀ key bucket, store.buckets.get? key = some bucket → kept key = some bucket
  dropped : ∀ key bucket, kept key = some bucket → store.buckets.get? key = none →
    bucket.balance time = bucket.capacity ∨ store.cap ≤ (overtaking uses key).card
  valid : ∀ key bucket, kept key = some bucket → bucket.Valid
  capacity : ∀ key bucket, kept key = some bucket → bucket.capacity = limits.1
  rate : ∀ key bucket, kept key = some bucket → bucket.refillRate = limits.2
  past : ∀ key bucket, kept key = some bucket → bucket.lastRefill ≤ time
  used : ∀ key bucket, kept key = some bucket → key ∈ uses
  ordered : store.buckets.InOrder uses

namespace Shadows

variable {limits : Rat × Rat} {store : IpStore} {kept : KeptBuckets} {uses : List String}
  {time now : Rat} {request : TokenRequest} {requests : List TokenRequest}

theorem init (limits : Rat × Rat) (cap : Nat) (idleTtlSec : NNRat) (time : Rat) :
    Shadows limits ⟨cap, idleTtlSec, Table.empty, 0⟩ (fun _ => none) [] time := by
  constructor
  · intro key bucket found
    exact nomatch found
  · intro key bucket found
    exact nomatch found
  · intro key bucket found
    exact nomatch found
  · intro key bucket found
    exact nomatch found
  · intro key bucket found
    exact nomatch found
  · intro key bucket found
    exact nomatch found
  · intro key bucket found
    exact nomatch found
  · exact List.Pairwise.nil

theorem accessed (shadows : Shadows limits store kept uses time) (ordered : time ≤ now)
    (fills : limits.1 ≤ limits.2 * store.idleTtlSec) :
    Shadows limits (store.accessed now) kept uses now := by
  refine ⟨?_, ?_, shadows.valid, shadows.capacity, shadows.rate, ?_, shadows.used,
    IpStore.accessed_inOrder now shadows.ordered⟩
  · intro key bucket found
    rw [IpStore.accessed_get?] at found
    exact shadows.stored key bucket (Option.eq_some_of_filter_eq_some found)
  · intro key bucket found gone
    have valid := shadows.valid key bucket found
    have past := shadows.past key bucket found
    rw [IpStore.accessed_cap]
    cases before : store.buckets.get? key with
    | none =>
        rcases shadows.dropped key bucket found before with full | overtaken
        · exact .inl (valid.balance_full full ordered)
        · exact .inr overtaken
    | some held =>
        have same : held = bucket :=
          Option.some.inj ((shadows.stored key held before).symm.trans found)
        subst same
        left
        rw [IpStore.accessed_get?, before] at gone
        have swept : store.sweeps now held = true := by simpa [Option.filter] using gone
        simp only [IpStore.sweeps, IpStore.expired, Bool.and_eq_true, decide_eq_true_eq] at swept
        apply valid.balance_idle store.idleTtlSec
        · rw [shadows.capacity key held found, shadows.rate key held found]
          exact fills
        · exact past.trans ordered
        · linarith [swept.2]
  · intro key bucket found
    exact (shadows.past key bucket found).trans ordered

/-- A request finds the bucket that was kept, or one that comes to the same. -/
theorem bucket (shadows : Shadows limits (store.accessed now) kept uses now) {key : String}
    (close : Close store.cap (key :: uses)) :
    (store.getOrCreate key limits.1 limits.2 now).1.refill now =
      (kept.find limits key now).refill now := by
  rw [IpStore.getOrCreate_bucket]
  unfold KeptBuckets.find
  cases found : (store.accessed now).buckets.get? key with
  | some bucket => rw [shadows.stored key bucket found, Option.getD_some]
  | none =>
      cases known : kept key with
      | none => rfl
      | some bucket =>
          rcases shadows.dropped key bucket known found with full | overtaken
          · rw [Option.getD_none, Option.getD_some,
              Bucket.refill_of_full (shadows.past key bucket known) full,
              shadows.capacity key bucket known, shadows.rate key bucket known]
          · have few := close.overtaking (shadows.used key bucket known)
            rw [IpStore.accessed_cap] at overtaken
            omega

theorem find (shadows : Shadows limits store kept uses now) (room : 0 ≤ limits.1)
    (gain : 0 ≤ limits.2) (key : String) :
    (kept.find limits key now).Valid ∧ (kept.find limits key now).capacity = limits.1 ∧
      (kept.find limits key now).refillRate = limits.2 ∧
        (kept.find limits key now).lastRefill ≤ now := by
  unfold KeptBuckets.find
  cases known : kept key with
  | none => exact ⟨Bucket.full_valid gain room, rfl, rfl, le_refl now⟩
  | some bucket =>
      exact ⟨shadows.valid key bucket known, shadows.capacity key bucket known,
        shadows.rate key bucket known, shadows.past key bucket known⟩

theorem charged (shadows : Shadows limits (store.accessed request.now) kept uses request.now)
    (ordered : store.buckets.InOrder uses) (close : Close store.cap (request.key :: uses))
    (room : 0 ≤ limits.1)
    (gain : 0 ≤ limits.2) :
    Shadows limits (store.charged request.key limits.1 limits.2 request.cost request.now)
    (kept.charged limits request)
    (request.key :: uses) request.now := by
  have same := chargedBucket_congr (shadows.bucket close) request.cost
  obtain ⟨valid, capacity, rate, past⟩ := shadows.find room gain request.key
  have own : kept.charged limits request request.key =
      some (chargedBucket (kept.find limits request.key request.now) request.cost request.now) :=
    Function.update_self _ _ _
  have others : ∀ {wanted}, wanted ≠ request.key →
    kept.charged limits request wanted = kept wanted := by
    intro wanted differs
    exact Function.update_of_ne differs _ _
  have origin : ∀ wanted bucket, kept.charged limits request wanted = some bucket →
      (wanted = request.key ∧
        bucket = chargedBucket (kept.find limits request.key request.now) request.cost request.now) ∨
        (wanted ≠ request.key ∧ kept wanted = some bucket) := by
    intro wanted bucket found
    by_cases isOwn : wanted = request.key
    · rw [isOwn, own] at found
      exact .inl ⟨isOwn, (Option.some.inj found).symm⟩
    · rw [others isOwn] at found
      exact .inr ⟨isOwn, found⟩
  constructor
  · intro wanted bucket found
    rw [IpStore.charged_get?] at found
    by_cases isOwn : wanted = request.key
    · rw [if_pos isOwn] at found
      obtain ⟨before, -, isCharged⟩ := Option.map_eq_some_iff.mp found
      rw [isOwn, own, ← isCharged, same]
    · rw [if_neg isOwn] at found
      rw [others isOwn]
      exact shadows.stored wanted bucket (IpStore.getOrCreate_other isOwn found)
  · intro wanted bucket found gone
    rw [IpStore.charged_get?] at gone
    rw [IpStore.charged_cap]
    rcases origin wanted bucket found with ⟨isOwn, -⟩ | ⟨isOther, before⟩
    · -- only a store that may hold nothing drops the bucket it was asked for
      right
      rw [if_pos isOwn, Option.map_eq_none_iff] at gone
      by_cases roomy : 0 < store.cap
      · exact nomatch (IpStore.getOrCreate_own roomy).symm.trans gone
      · omega
    · rw [if_neg isOther] at gone
      cases there : (store.accessed request.now).buckets.get? wanted with
      | some held =>
          right
          exact IpStore.getOrCreate_overtaken ordered isOther there gone
      | none =>
          rcases shadows.dropped wanted bucket before there with full | overtaken
          · exact .inl full
          · right
            rw [IpStore.accessed_cap] at overtaken
            exact overtaken.trans (Finset.card_le_card (overtaking_grows uses (Ne.symm isOther)))
  · intro wanted bucket found
    rcases origin wanted bucket found with ⟨-, isCharged⟩ | ⟨-, before⟩
    · rw [isCharged]
      exact chargedBucket_valid_of_nonneg valid (Int.natCast_nonneg _)
    · exact shadows.valid wanted bucket before
  · intro wanted bucket found
    rcases origin wanted bucket found with ⟨-, isCharged⟩ | ⟨-, before⟩
    · rw [isCharged, (chargedBucket_fields _ _ _).1, capacity]
    · exact shadows.capacity wanted bucket before
  · intro wanted bucket found
    rcases origin wanted bucket found with ⟨-, isCharged⟩ | ⟨-, before⟩
    · rw [isCharged, (chargedBucket_fields _ _ _).2, rate]
    · exact shadows.rate wanted bucket before
  · intro wanted bucket found
    rcases origin wanted bucket found with ⟨-, isCharged⟩ | ⟨-, before⟩
    · rw [isCharged, chargedBucket_lastRefill _ past]
    · exact shadows.past wanted bucket before
  · intro wanted bucket found
    rcases origin wanted bucket found with ⟨isOwn, -⟩ | ⟨-, before⟩
    · exact isOwn ▸ List.mem_cons_self
    · exact List.mem_cons_of_mem _ (shadows.used wanted bucket before)
  · exact IpStore.charged_inOrder ordered

end Shadows

def IpStore.answers (limits : Rat × Rat) : IpStore → List TokenRequest → List (Bool × PyFloat)
  | _, [] => []
  | store, request :: rest =>
      bucketAnswer (store.getOrCreate request.key limits.1 limits.2 request.now).1 request.cost request.now ::
        (store.charged request.key limits.1 limits.2 request.cost request.now).answers limits rest

theorem Shadows.answers {limits : Rat × Rat} {store : IpStore} {kept : KeptBuckets}
    {uses : List String} {time : Rat} {requests : List TokenRequest}
    (shadows : Shadows limits store kept uses time)
    (fills : limits.1 ≤ limits.2 * store.idleTtlSec) (room : 0 ≤ limits.1) (gain : 0 ≤ limits.2)
    (monotone : (time :: requests.map TokenRequest.now).Pairwise (· ≤ ·))
    (close : Close store.cap ((requests.map TokenRequest.key).reverse ++ uses)) :
    store.answers limits requests = kept.answers limits requests := by
  induction requests generalizing store kept uses time with
  | nil => rfl
  | cons request rest ih =>
      obtain ⟨later, monotone⟩ := List.pairwise_cons.mp monotone
      rw [List.map_cons, List.reverse_cons, List.append_assoc, List.singleton_append] at close
      have swept := shadows.accessed (later request.now (by simp)) fills
      have answer := bucketAnswer_congr (swept.bucket close.of_append) request.cost
      have next := swept.charged shadows.ordered close.of_append room gain
      rw [IpStore.answers, KeptBuckets.answers, answer,
        ih next (by rw [IpStore.charged_ttl]; exact fills) monotone
        (by rw [IpStore.charged_cap]; exact close)]

theorem answersOn_store {axis : Axis} {limiter : RateLimiter} {store : IpStore}
    {requests : List TokenRequest} (has : limiter.store? axis = some store) :
    limiter.answersOn axis requests =
      store.answers (limiter.limits axis) (requests.filter fun request => request.axis = axis) := by
  induction requests generalizing limiter store with
  | nil => rfl
  | cons request rest ih =>
      have limits : (limiter.tryConsume request.axis request.key request.cost request.now).2.limits axis =
          limiter.limits axis :=
        RateLimiter.limits_congr RateLimiter.tryConsume_config axis
      have cons : limiter.answersOn axis (request :: rest) =
          if request.axis = axis then (limiter.tryConsume request.axis request.key request.cost request.now).1 ::
            (limiter.tryConsume request.axis request.key request.cost request.now).2.answersOn axis rest
          else (limiter.tryConsume request.axis request.key request.cost request.now).2.answersOn axis rest := rfl
      rw [cons, List.filter_cons]
      by_cases same : request.axis = axis
      · subst same
        have after := RateLimiter.tryConsume_store? request.key request.cost request.now has
        rw [if_pos rfl, if_pos (by simp), ih after, limits, RateLimiter.tryConsume_answer,
          RateLimiter.getBucket_given has, IpStore.answers]
      · have after : (limiter.tryConsume request.axis request.key request.cost request.now).2.store? axis = some store :=
          (RateLimiter.tryConsume_store_other (Ne.symm same)).trans has
        rw [if_neg same, if_neg (by simpa using same), ih after, limits]

def RateLimiter.Bounded (limiter : RateLimiter) : Prop :=
  ∀ axis store, limiter.store? axis = some store → store.cap = limiter.config.ipStoreCap ∧
    store.buckets.size ≤ store.cap

theorem RateLimiter.Bounded.tryConsume {limiter : RateLimiter} (bounded : limiter.Bounded)
    (axis : Axis) (key : String) (cost : Int) (now : Rat) :
    (limiter.tryConsume axis key cost now).2.Bounded := by
  intro other store has
  rw [tryConsume_config]
  by_cases same : other = axis
  · subst same
    cases before : limiter.store? other with
    | none => cases other <;> simp [store?] at before has
    | some old =>
        obtain ⟨after, found, cap, size⟩ := @tryConsume_store _ other cost _ key now before
        obtain ⟨own, few⟩ := bounded other old before
        rw [found, Option.some.injEq] at has
        rw [← has, cap, size]
        exact ⟨own, IpStore.getOrCreate_size_le few⟩
  · rw [tryConsume_store_other same] at has
    exact bounded other store has

theorem afterAll_bounded {limiter : RateLimiter} (bounded : limiter.Bounded)
    (requests : List TokenRequest) :
    (limiter.afterAll requests).Bounded ∧ (limiter.afterAll requests).config = limiter.config := by
  induction requests generalizing limiter with
  | nil => exact ⟨bounded, rfl⟩
  | cons request rest ih =>
      have next := ih (bounded.tryConsume request.axis request.key request.cost request.now)
      exact ⟨next.1, next.2.trans RateLimiter.tryConsume_config⟩

/-- The stores of the addresses answer as if they kept every bucket and swept none, where a bucket
refills while it may be idle and no address comes back after as many others as the store may hold;
and they never hold more. -/
theorem ipStore_transparent (config : RateLimitConfig) {axis : Axis} (isAddress : axis ≠ .session)
    (requests : List TokenRequest) :
    ((requests.map TokenRequest.now).Pairwise (· ≤ ·) →
      ((RateLimiter.init config).limits axis).1 ≤ ((RateLimiter.init config).limits axis).2 * config.ipIdleTtlSec →
      Close config.ipStoreCap ((requests.filter fun request =>
        request.axis = axis).map TokenRequest.key) →
      (RateLimiter.init config).answersOn axis requests =
        KeptBuckets.answers ((RateLimiter.init config).limits axis) (fun _ => none)
          (requests.filter fun request => request.axis = axis)) ∧
    (((RateLimiter.init config).afterAll requests).buckets axis).size ≤ config.ipStoreCap := by
  have has : (RateLimiter.init config).store? axis =
      some ⟨config.ipStoreCap, config.ipIdleTtlSec, Table.empty, 0⟩ := by
    cases axis with
    | session => exact absurd rfl isAddress
    | ip => rfl
    | ipSessionCreate => rfl
  constructor
  · intro monotone fills close
    obtain ⟨room, gain⟩ := (RateLimiter.init config).limits_nonneg axis
    rw [answersOn_store has]
    have ordered : ((requests.filter fun request =>
      request.axis = axis).map TokenRequest.now).Pairwise (· ≤ ·) :=
      monotone.sublist (List.filter_sublist.map _)
    cases asked : requests.filter fun request => request.axis = axis with
    | nil => rfl
    | cons first rest =>
        rw [asked] at ordered close
        apply (Shadows.init _ config.ipStoreCap config.ipIdleTtlSec first.now).answers fills room gain
        · apply List.pairwise_cons.mpr ⟨_, ordered⟩
          intro later member
          rcases List.mem_cons.mp member with rfl | after
          · exact le_refl _
          · exact (List.pairwise_cons.mp ordered).1 later after
        · rw [List.append_nil]
          exact close.reverse
  · have start : (RateLimiter.init config).Bounded := by
      intro other store found
      cases other with
      | session => exact nomatch found
      | ip =>
          rw [← Option.some.inj found]
          exact ⟨rfl, Nat.zero_le _⟩
      | ipSessionCreate =>
          rw [← Option.some.inj found]
          exact ⟨rfl, Nat.zero_le _⟩
    obtain ⟨bounded, same⟩ := afterAll_bounded start requests
    cases after : ((RateLimiter.init config).afterAll requests).store? axis with
    | none => cases axis <;> simp [RateLimiter.store?] at after isAddress
    | some store =>
        obtain ⟨cap, few⟩ := bounded axis store after
        rw [RateLimiter.store?_buckets after]
        rw [cap, same] at few
        exact few

/-- Two addresses under the limits of the server. -/
theorem twoAddresses_transparent :
    (RateLimiter.init {}).answersOn .ip [⟨.ip, "a", 1, 0⟩, ⟨.ipSessionCreate, "a", 1, 0⟩,
      ⟨.ip, "b", 1, 0⟩, ⟨.ip, "a", 1, 1⟩] =
      KeptBuckets.answers ((RateLimiter.init {}).limits .ip) (fun _ => none)
        [⟨.ip, "a", 1, 0⟩, ⟨.ip, "b", 1, 0⟩, ⟨.ip, "a", 1, 1⟩] := by
  apply (ipStore_transparent {} (by decide) [⟨.ip, "a", 1, 0⟩, ⟨.ipSessionCreate, "a", 1, 0⟩,
    ⟨.ip, "b", 1, 0⟩, ⟨.ip, "a", 1, 1⟩]).1
  · simp
  · norm_num [RateLimiter.limits, RateLimiter.init]
  · apply Close.of_length
    decide

end Megalos
