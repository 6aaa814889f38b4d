import Megalos.Middleware
import Megalos.RateLimitSpec

/-!
What the gate does to the limiter, axis by axis.
-/

namespace Megalos

open KeyedTable TokenBucket

section Consult

variable {limiter : RateLimiter} {now : Axis → Rat} {entries others : List (Axis × String)}

theorem consult_append : limiter.consult now (entries ++ others) =
    match limiter.consult now entries with
    | (none, charged) => charged.consult now others
    | (some denial, kept) => (some denial, kept) := by
  induction entries generalizing limiter with
  | nil => rfl
  | cons entry rest ih =>
      obtain ⟨axis, key⟩ := entry
      rw [List.cons_append, RateLimiter.consult, RateLimiter.consult]
      cases consumed : limiter.tryConsume axis key 1 (now axis) with
      | mk outcome charged =>
          obtain ⟨allowed, retryAfterMs⟩ := outcome
          cases allowed with
          | true => exact ih
          | false => rfl

theorem consult_config : (limiter.consult now entries).2.config = limiter.config := by
  induction entries generalizing limiter with
  | nil => rfl
  | cons entry rest ih =>
      obtain ⟨axis, key⟩ := entry
      have same : (limiter.tryConsume axis key 1 (now axis)).2.config = limiter.config :=
        RateLimiter.tryConsume_config
      rw [RateLimiter.consult]
      cases consumed : limiter.tryConsume axis key 1 (now axis) with
      | mk outcome charged =>
          obtain ⟨allowed, retryAfterMs⟩ := outcome
          rw [consumed] at same
          cases allowed with
          | true => exact ih.trans same
          | false => exact same

theorem consult_other (limiter : RateLimiter) (now : Axis → Rat) {axis : Axis} (wanted : String)
    (apart : ∀ entry ∈ entries, axis ≠ entry.1) :
    ((limiter.consult now entries).2.buckets axis).get? wanted =
      (limiter.buckets axis).get? wanted := by
  induction entries generalizing limiter with
  | nil => rfl
  | cons entry rest ih =>
      obtain ⟨consulted, key⟩ := entry
      have same : ((limiter.tryConsume consulted key 1 (now consulted)).2.buckets axis).get? wanted =
          (limiter.buckets axis).get? wanted :=
        RateLimiter.tryConsume_other (apart (consulted, key) (by simp))
      rw [RateLimiter.consult]
      cases consumed : limiter.tryConsume consulted key 1 (now consulted) with
      | mk outcome charged =>
          obtain ⟨allowed, retryAfterMs⟩ := outcome
          rw [consumed] at same
          cases allowed with
          | true => exact (ih charged fun entry member => apart entry (by simp [member])).trans same
          | false => exact same

end Consult

section Gate

variable {env : Env} {limiter : RateLimiter} {now : Axis → Rat} {context : ToolContext}

theorem onCallTool_limiter :
    (onCallTool env limiter now context).2 = (limiter.consult now (context.axes env)).2 := by
  unfold onCallTool
  cases limiter.consult now (context.axes env) with
  | mk denial after => cases denial <;> rfl

theorem onCallTool_passes : (onCallTool env limiter now context).1 = none ↔
    (limiter.consult now (context.axes env)).1 = none := by
  unfold onCallTool
  cases limiter.consult now (context.axes env) with
  | mk denial after => cases denial <;> simp

end Gate

end Megalos
