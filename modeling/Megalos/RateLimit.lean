import Mathlib.Data.NNRat.Defs
import Megalos.Library.KeyedTable
import Megalos.Library.TokenBucket
import Megalos.Value

/-!
The token buckets of the rate limiter (`ratelimit.py`), in exact arithmetic: one store
for the sessions and two bounded ones for addresses.
-/

namespace Megalos

open KeyedTable TokenBucket

/-- What `from_env` accepts: no rate, burst or bound below zero. -/
structure RateLimitConfig where
  sessionRate : NNRat := 2
  sessionBurst : NNRat := 30
  ipRate : NNRat := 60
  ipBurst : NNRat := 200
  ipCreateRate : NNRat := 1
  ipCreateBurst : NNRat := 10
  ipStoreCap : Nat := 10000
  ipIdleTtlSec : NNRat := 600

/-- Buckets by address, the least recently used first. -/
structure IpStore where
  cap : Nat
  idleTtlSec : NNRat
  buckets : Dict (Bucket Rat)
  accessCount : Nat

def sweepEvery : Nat := 64

namespace IpStore

def expired (store : IpStore) (now : Rat) (bucket : Bucket Rat) : Bool :=
  decide (bucket.lastRefill < now - store.idleTtlSec)

def sweepExpired (store : IpStore) (now : Rat) : IpStore :=
  if store.idleTtlSec ≤ 0 then store
  else { store with buckets := store.buckets.deleteWhere fun entry => store.expired now entry.2 }

def evictIfOverCap (store : IpStore) : IpStore :=
  { store with buckets := store.buckets.dropOldest (store.buckets.size - store.cap) }

def accessed (store : IpStore) (now : Rat) : IpStore :=
  let counted := { store with accessCount := store.accessCount + 1 }
  if counted.accessCount % sweepEvery = 0 then counted.sweepExpired now else counted

def getOrCreate (store : IpStore) (key : String) (capacity refillRate now : Rat) :
    Bucket Rat × IpStore :=
  let swept := store.accessed now
  match swept.buckets.get? key with
  | none =>
      let bucket := Bucket.full capacity refillRate now
      (bucket, { swept with buckets := swept.buckets.set key bucket }.evictIfOverCap)
  | some bucket => (bucket, { swept with buckets := Dict.set (swept.buckets.erase key) key bucket })

end IpStore

inductive Axis where
  | session
  | ip
  | ipSessionCreate
  deriving DecidableEq, Repr

def Axis.text : Axis → String
  | .session => "session"
  | .ip => "ip"
  | .ipSessionCreate => "ip_session_create"

structure RateLimiter where
  config : RateLimitConfig
  sessionBuckets : Dict (Bucket Rat)
  ipStore : IpStore
  ipCreateStore : IpStore

namespace RateLimiter

def init (config : RateLimitConfig) : RateLimiter :=
  ⟨config, Table.empty, ⟨config.ipStoreCap, config.ipIdleTtlSec, Table.empty, 0⟩,
    ⟨config.ipStoreCap, config.ipIdleTtlSec, Table.empty, 0⟩⟩

def limits (limiter : RateLimiter) : Axis → Rat × Rat
  | .session => (limiter.config.sessionBurst, limiter.config.sessionRate)
  | .ip => (limiter.config.ipBurst, limiter.config.ipRate)
  | .ipSessionCreate => (limiter.config.ipCreateBurst, limiter.config.ipCreateRate)

def getBucket (limiter : RateLimiter) (axis : Axis) (key : String) (now : Rat) :
    Bucket Rat × RateLimiter :=
  let (burst, rate) := limiter.limits axis
  match axis with
  | .session =>
      match limiter.sessionBuckets.get? key with
      | none =>
          let bucket := Bucket.full burst rate now
          (bucket, { limiter with sessionBuckets := limiter.sessionBuckets.set key bucket })
      | some bucket => (bucket, limiter)
  | .ip =>
      let (bucket, store) := limiter.ipStore.getOrCreate key burst rate now
      (bucket, { limiter with ipStore := store })
  | .ipSessionCreate =>
      let (bucket, store) := limiter.ipCreateStore.getOrCreate key burst rate now
      (bucket, { limiter with ipCreateStore := store })

def mutate (limiter : RateLimiter) (axis : Axis) (key : String) (bucket : Bucket Rat) :
    RateLimiter :=
  let changed (buckets : Dict (Bucket Rat)) : Dict (Bucket Rat) :=
    buckets.update key fun entry => (entry.1, bucket)
  match axis with
  | .session => { limiter with sessionBuckets := changed limiter.sessionBuckets }
  | .ip => { limiter with ipStore :=
    { limiter.ipStore with buckets := changed limiter.ipStore.buckets } }
  | .ipSessionCreate =>
      { limiter with ipCreateStore :=
        { limiter.ipCreateStore with buckets := changed limiter.ipCreateStore.buckets } }

/-- `try_consume`: whether the call is allowed, the milliseconds to wait, and the limiter after it.
-/
def tryConsume (limiter : RateLimiter) (axis : Axis) (key : String) (cost : Int) (now : Rat) :
    (Bool × PyFloat) × RateLimiter :=
  let (bucket, found) := limiter.getBucket axis key now
  let refilled := bucket.refill now
  if cost ≤ refilled.tokens then ((true, .finite 0), found.mutate axis key (refilled.spend cost))
  else
    let deficit := cost - refilled.tokens
    let retryAfterMs : PyFloat :=
      if refilled.refillRate ≤ 0 then .infinite false else .finite (deficit / refilled.refillRate * 1000)
    ((false, retryAfterMs), found.mutate axis key refilled)

def dropSession (limiter : RateLimiter) (sessionId : String) : RateLimiter :=
  { limiter with sessionBuckets := limiter.sessionBuckets.erase sessionId }

end RateLimiter

end Megalos
