import Mathlib.Algebra.Order.Field.Basic
import Mathlib.Tactic.Linarith
import Mathlib.Tactic.Ring

/-!
Token buckets over an ordered field: a bucket gains tokens with time, up to its
capacity, and gives them away.  A clock that falls back gains nothing.
-/

namespace TokenBucket

@[ext] structure Bucket (α : Type) where
  capacity : α
  refillRate : α
  tokens : α
  lastRefill : α

variable {α : Type} [Field α] [LinearOrder α] [IsStrictOrderedRing α]

def Bucket.refill (bucket : Bucket α) (now : α) : Bucket α :=
  let elapsed := if now - bucket.lastRefill < 0 then 0 else now - bucket.lastRefill
  let added := elapsed * bucket.refillRate
  { bucket with
    tokens := if 0 < added then min bucket.capacity (bucket.tokens + added) else bucket.tokens
    lastRefill := if bucket.lastRefill < now then now else bucket.lastRefill }

def Bucket.spend (bucket : Bucket α) (cost : α) : Bucket α :=
    { bucket with tokens := bucket.tokens - cost }

def Bucket.full (capacity refillRate now : α) : Bucket α := ⟨capacity, refillRate, capacity, now⟩

structure Bucket.Valid (bucket : Bucket α) : Prop where
  rate : 0 ≤ bucket.refillRate
  some : 0 ≤ bucket.tokens
  room : bucket.tokens ≤ bucket.capacity

/-- The tokens that a request at a time would find. -/
def Bucket.balance (bucket : Bucket α) (now : α) : α := (bucket.refill now).tokens

section Fields

variable (bucket : Bucket α) (now cost : α)

omit [IsStrictOrderedRing α] in
@[simp] theorem Bucket.refill_capacity : (bucket.refill now).capacity = bucket.capacity := rfl

omit [IsStrictOrderedRing α] in
@[simp] theorem Bucket.refill_refillRate : (bucket.refill now).refillRate = bucket.refillRate := rfl

omit [IsStrictOrderedRing α] in
theorem Bucket.refill_lastRefill : (bucket.refill now).lastRefill = max bucket.lastRefill now := by
  unfold Bucket.refill
  dsimp only
  by_cases later : bucket.lastRefill < now
  · rw [if_pos later, max_eq_right later.le]
  · rw [if_neg later, max_eq_left (not_lt.mp later)]

omit [IsStrictOrderedRing α] in
theorem Bucket.refill_full (capacity refillRate : α) :
    ((Bucket.full capacity refillRate now).refill now).tokens = capacity := by
  have none : ¬0 < (if now - now < 0 then 0 else now - now) * refillRate := by
    rw [sub_self, if_neg (lt_irrefl 0), zero_mul]
    apply lt_irrefl
  unfold Bucket.refill Bucket.full
  dsimp only
  rw [if_neg none]

variable {bucket now cost}

/-- Once the missing tokens had the time to come back, only the capacity is in the way. -/
theorem Bucket.refill_enough_iff (rate : 0 < bucket.refillRate) (missing : bucket.tokens < cost)
    (waited : bucket.lastRefill + (cost - bucket.tokens) / bucket.refillRate ≤ now) :
    cost ≤ (bucket.refill now).tokens ↔ cost ≤ bucket.capacity := by
  have gap : 0 < (cost - bucket.tokens) / bucket.refillRate := div_pos (sub_pos.mpr missing) rate
  have elapsed : (cost - bucket.tokens) / bucket.refillRate ≤ now - bucket.lastRefill := by linarith
  have back : cost - bucket.tokens ≤ (now - bucket.lastRefill) * bucket.refillRate :=
    (div_le_iff₀ rate).mp elapsed
  have forward : ¬now - bucket.lastRefill < 0 := by linarith
  have gains : 0 < (now - bucket.lastRefill) * bucket.refillRate := by linarith
  unfold Bucket.refill
  dsimp only
  rw [if_neg forward, if_pos gains, le_min_iff]
  constructor
  · intro both
    exact both.1
  · intro room
    exact ⟨room, by linarith⟩

end Fields

section Valid

variable {bucket : Bucket α} {now later cost : α}

theorem Bucket.Valid.refill_tokens (valid : bucket.Valid) (now : α) : (bucket.refill now).tokens =
    min bucket.capacity (bucket.tokens + (max bucket.lastRefill now - bucket.lastRefill) * bucket.refillRate) := by
  have elapsed : (if now - bucket.lastRefill < 0 then 0 else now - bucket.lastRefill) =
      max bucket.lastRefill now - bucket.lastRefill := by
    by_cases back : now - bucket.lastRefill < 0
    · rw [if_pos back, max_eq_left (by linarith), sub_self]
    · rw [if_neg back, max_eq_right (by linarith)]
  have nonneg : 0 ≤ (max bucket.lastRefill now - bucket.lastRefill) * bucket.refillRate :=
    mul_nonneg (sub_nonneg.mpr (le_max_left _ _)) valid.rate
  unfold Bucket.refill
  dsimp only
  rw [elapsed]
  by_cases gains : 0 < (max bucket.lastRefill now - bucket.lastRefill) * bucket.refillRate
  · rw [if_pos gains]
  · have none : (max bucket.lastRefill now - bucket.lastRefill) * bucket.refillRate = 0 :=
      le_antisymm (not_lt.mp gains) nonneg
    rw [if_neg gains, none, add_zero, min_eq_right valid.room]

theorem Bucket.Valid.refill (valid : bucket.Valid) (now : α) : (bucket.refill now).Valid := by
  have nonneg : 0 ≤ (max bucket.lastRefill now - bucket.lastRefill) * bucket.refillRate :=
    mul_nonneg (sub_nonneg.mpr (le_max_left _ _)) valid.rate
  have capacity : 0 ≤ bucket.capacity := valid.some.trans valid.room
  refine ⟨valid.rate, ?_, ?_⟩
  · rw [valid.refill_tokens]
    exact le_min capacity (add_nonneg valid.some nonneg)
  · rw [valid.refill_tokens]
    exact min_le_left _ _

/-- A refill gains no more than the rate allows, wherever the clock stands. -/
theorem Bucket.Valid.refill_gain (valid : bucket.Valid) (now : α) : (bucket.refill now).tokens ≤
    bucket.tokens + ((bucket.refill now).lastRefill - bucket.lastRefill) * bucket.refillRate := by
  rw [valid.refill_tokens, Bucket.refill_lastRefill]
  exact min_le_right _ _

theorem Bucket.Valid.refill_le (valid : bucket.Valid) (forward : bucket.lastRefill ≤ now) :
    (bucket.refill now).tokens ≤ bucket.tokens + (now - bucket.lastRefill) * bucket.refillRate := by
  have gain := valid.refill_gain now
  rwa [Bucket.refill_lastRefill, max_eq_right forward] at gain

theorem Bucket.Valid.refill_refill (valid : bucket.Valid) (ordered : now ≤ later) :
    (bucket.refill now).refill later = bucket.refill later := by
  have last : max (max bucket.lastRefill now) later = max bucket.lastRefill later := by
    rw [max_assoc, max_eq_right ordered]
  have tokens : ((bucket.refill now).refill later).tokens = (bucket.refill later).tokens := by
    rw [(valid.refill now).refill_tokens, valid.refill_tokens, valid.refill_tokens,
      Bucket.refill_lastRefill, Bucket.refill_refillRate, Bucket.refill_capacity, last]
    have gain : 0 ≤ (max bucket.lastRefill later - max bucket.lastRefill now) * bucket.refillRate :=
      mul_nonneg (sub_nonneg.mpr (max_le_max le_rfl ordered)) valid.rate
    generalize earned : (max bucket.lastRefill now - bucket.lastRefill) * bucket.refillRate = first
    have whole : (max bucket.lastRefill later - bucket.lastRefill) * bucket.refillRate =
        first + (max bucket.lastRefill later - max bucket.lastRefill now) * bucket.refillRate := by
      rw [← earned]
      ring
    rw [whole]
    generalize (max bucket.lastRefill later - max bucket.lastRefill now) * bucket.refillRate =
      second at gain
    rcases le_total bucket.capacity (bucket.tokens + first) with above | below
    · rw [min_eq_left above, min_eq_left (by linarith), min_eq_left (by linarith)]
    · rw [min_eq_right below, add_assoc]
  have lasts : ((bucket.refill now).refill later).lastRefill =
    (bucket.refill later).lastRefill := by
    rw [Bucket.refill_lastRefill, Bucket.refill_lastRefill, Bucket.refill_lastRefill, last]
  exact Bucket.ext rfl rfl tokens lasts

theorem Bucket.Valid.spend (valid : bucket.Valid) (positive : 0 ≤ cost)
    (enough : cost ≤ bucket.tokens) :
    (bucket.spend cost).Valid := by
  refine ⟨valid.rate, sub_nonneg.mpr enough, ?_⟩
  have room := valid.room
  dsimp only [Bucket.spend]
  linarith

omit [IsStrictOrderedRing α] in
theorem Bucket.full_valid {capacity refillRate : α} (rate : 0 ≤ refillRate) (room : 0 ≤ capacity) :
    (Bucket.full capacity refillRate now).Valid :=
  ⟨rate, room, le_refl _⟩

theorem Bucket.Valid.balance_past (valid : bucket.Valid) (past : now ≤ bucket.lastRefill) :
    bucket.balance now = bucket.tokens := by
  unfold Bucket.balance
  rw [valid.refill_tokens, max_eq_left past, sub_self, zero_mul, add_zero, min_eq_right valid.room]

theorem Bucket.Valid.balance_refill (valid : bucket.Valid) (ordered : now ≤ later) :
    (bucket.refill now).balance later = bucket.balance later := by
  unfold Bucket.balance
  rw [valid.refill_refill ordered]

theorem Bucket.Valid.balance_full (valid : bucket.Valid)
    (isFull : bucket.balance now = bucket.capacity) (ordered : now ≤ later) :
    bucket.balance later = bucket.capacity := by
  have gain : 0 ≤ (max (bucket.refill now).lastRefill later - (bucket.refill now).lastRefill) * bucket.refillRate :=
    mul_nonneg (sub_nonneg.mpr (le_max_left _ _)) valid.rate
  have tokens : (bucket.refill now).tokens = bucket.capacity := isFull
  rw [← valid.balance_refill ordered]
  unfold Bucket.balance
  rw [(valid.refill now).refill_tokens, Bucket.refill_capacity, Bucket.refill_refillRate, tokens]
  exact min_eq_left (by linarith)

/-- A bucket that was idle for as long as it takes to fill it is full. -/
theorem Bucket.Valid.balance_idle (valid : bucket.Valid) (idle : α)
    (fills : bucket.capacity ≤ bucket.refillRate * idle) (past : bucket.lastRefill ≤ now)
    (rested : bucket.lastRefill + idle ≤ now) : bucket.balance now = bucket.capacity := by
  have gained : bucket.refillRate * idle ≤ bucket.refillRate * (now - bucket.lastRefill) :=
    mul_le_mul_of_nonneg_left (by linarith) valid.rate
  have some := valid.some
  unfold Bucket.balance
  rw [valid.refill_tokens, max_eq_right past]
  apply min_eq_left
  rw [mul_comm]
  linarith

omit [IsStrictOrderedRing α] in
theorem Bucket.refill_of_full (past : bucket.lastRefill ≤ now)
    (isFull : bucket.balance now = bucket.capacity) :
    bucket.refill now = (Bucket.full bucket.capacity bucket.refillRate now).refill now := by
  have last : (bucket.refill now).lastRefill =
    ((Bucket.full bucket.capacity bucket.refillRate now).refill now).lastRefill := by
    rw [Bucket.refill_lastRefill, Bucket.refill_lastRefill, max_eq_right past]
    exact (max_self now).symm
  have tokens : (bucket.refill now).tokens =
    ((Bucket.full bucket.capacity bucket.refillRate now).refill now).tokens := by
    rw [Bucket.refill_full]
    exact isFull
  exact Bucket.ext rfl rfl tokens last

end Valid

end TokenBucket
