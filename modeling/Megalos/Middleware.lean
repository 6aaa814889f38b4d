import Megalos.Execution
import Megalos.RateLimit

/-!
The gate in front of the tools (`middleware.py`): what a call is charged to, and the
envelope of a refusal.
-/

namespace Megalos

/-- A call as the middleware sees it; the transport is absent without a context. -/
structure ToolContext where
  toolName : String
  arguments : Val
  fastmcpTransport : Option String
  clientHost : Option String

inductive Transport where
  | stdio
  | http
  | unknown
  deriving DecidableEq, Repr

def httpTransports : List String := ["sse", "streamable-http", "http"]

def detectTransport : Option String → Transport
  | none => .unknown
  | some transport =>
      if transport = "stdio" then .stdio
      else if transport ∈ httpTransports then .http
      else .unknown

def extractIp (clientHost : Option String) : Option String :=
    clientHost.filter fun host => host != ""

def sessionCreateTool : String := "start_workflow"

namespace ToolContext

def isHttp (context : ToolContext) : Bool := detectTransport context.fastmcpTransport == .http

def ip (context : ToolContext) : Option String :=
    if context.isHttp then extractIp context.clientHost else none

/-- The canonical form of the `session_id` argument, when it is a string that is not empty. -/
def sessionKey (env : Env) (context : ToolContext) : Option String :=
  match context.arguments.get? "session_id" with
  | some (.str raw) =>
      if raw = "" then none
      else
        let normalised := (env.normalizeSessionId raw).text
        if normalised = "" then none else some normalised
  | _ => none

/-- The axes that the gate consults, in this order, with the keys of their buckets. -/
def axes (env : Env) (context : ToolContext) : List (Axis × String) :=
  (if context.toolName = sessionCreateTool then context.ip.toList.map fun ip =>
    (Axis.ipSessionCreate, ip) else []) ++
    (context.sessionKey env).toList.map (fun key => (Axis.session, key)) ++
    context.ip.toList.map fun ip => (Axis.ip, ip)

end ToolContext

/-- One axis after the other, until one denies; every axis reads the clock for itself. -/
def RateLimiter.consult (limiter : RateLimiter) (now : Axis → Rat) :
    List (Axis × String) → Option (Axis × PyFloat) × RateLimiter
  | [] => (none, limiter)
  | (axis, key) :: rest =>
      match limiter.tryConsume axis key 1 (now axis) with
      | ((true, _), charged) => charged.consult now rest
      | ((false, retryAfterMs), kept) => (some (axis, retryAfterMs), kept)

def rateLimitedEnvelope (env : Env) (scope : Axis) (retryAfterMs : PyFloat)
    (sessionId : Option String) : Val :=
  errorResponse "rate_limited" "rate limit exceeded"
    ([("retry_after_ms", .float retryAfterMs), ("scope", .str scope.text)] ++
      (if scope = .session then
        sessionId.toList.map fun key =>
          ("session_fingerprint", Val.str (computeFingerprint env key))
      else []))

/-- `RateLimitMiddleware.on_call_tool`: the envelope of a refusal; `none` when the call goes on to
its tool. -/
def onCallTool (env : Env) (limiter : RateLimiter) (now : Axis → Rat) (context : ToolContext) :
    Option Val × RateLimiter :=
  match limiter.consult now (context.axes env) with
  | (none, charged) => (none, charged)
  | (some (scope, retryAfterMs), kept) =>
      (some (rateLimitedEnvelope env scope retryAfterMs (context.sessionKey env)), kept)

end Megalos
