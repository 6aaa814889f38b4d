import Megalos.McpRegistry

/-!
The client of the MCP servers (`mcp_client.py`): the cache of validators, one attempt,
the retries, and the call that the executor makes.  Each exchange with a server takes
one answer from the environment; `trace` remembers what was exchanged, and nothing
reads it.  Durations are left out.
-/

namespace Megalos

open KeyedTable StatefulProgram StatefulProgram.Program

namespace McpClient

/-- The classes under `httpx.HTTPError`, as far as the handlers tell them apart. -/
inductive HttpError where
  | readTimeout
  | connectTimeout
  | otherTimeout
  | connectError
  | other
  deriving DecidableEq

/-- The `__cause__` of a `RuntimeError`, when a handler looks for it. -/
inductive Cause where
  | asyncTimeout (text : String)
  | http (kind : HttpError) (text : String)
  deriving DecidableEq

inductive Raised where
  | asyncTimeout (text : String)
  | http (kind : HttpError) (text : String)
  | runtimeError (cause : Option Cause) (text : String)
  | mcpError (code : Int) (message text : String)
  | toolError (text : String)
  | schemaError (message : String)
  | unknownServer (text : String)
  /-- `_SchemaFetchTransportError` and `_SchemaFetchProtocolError`. -/
  | fetchTransport (detail : String)
  | fetchProtocol (detail : String)
  | other (text : String)
  deriving DecidableEq

structure ListedTool where
  name : String
  inputSchema : Val

inductive Block where
  | text (text : String)
  | other
  deriving DecidableEq

structure CallToolResult where
  isError : Bool
  content : List Block

inductive Validation where
  | valid
  | invalid (jsonPath message : String)
  | raised (exception : Raised)
  deriving DecidableEq

structure Request where
  serverName : String
  tool : String
  args : Val
  registry : McpRegistry.Registry
  timeout : Option PyFloat

/-- What was exchanged, and the sleeps between the attempts. -/
inductive Exchange where
  | listed (serverName tool : String) (answer : Except Raised (List ListedTool))
  | called (serverName tool : String) (args : Val) (answer : Except Raised CallToolResult)
  | slept (seconds : Rat)

inductive LogLevel where
  | info
  | warning
  deriving DecidableEq

inductive LogEntry where
  | schemaFetch (serverName tool : String) (cacheHit : Bool)
  | retry (serverName tool argFingerprint : String) (attempt : Nat) (backoffMs : Rat)
      (outcomeKind : String)
  | unexpected (serverName tool : String)
  | terminal (level : LogLevel) (message serverName tool outcome argFingerprint : String)
      (attempt : Nat)
      (detail : Option String)

structure ClientEnv where
  environ : Nat → String → Option String
  listTools : Nat → McpRegistry.ServerConfig → String → PyFloat → Except Raised (List ListedTool)
  callTool : Nat → McpRegistry.ServerConfig → String → PyFloat → String → Val →
    Except Raised CallToolResult
  /-- `Draft7Validator(schema)`. -/
  compile : Val → Except Raised Unit
  validate : Val → Val → Validation
  /-- `json.dumps(args, sort_keys=True, default=str)`. -/
  dumpsSorted : Val → Option String
  sha256 : String → String
  env : Env
  reprOf : Raised → String

structure Client where
  /-- Under each pair of a server and a tool, the schema that its validator was made of. -/
  validatorCache : Table (Prod.fst : (String × String) × Val → String × String)
  ticks : Nat
  trace : List Exchange
  logs : List LogEntry

def Client.start : Client := ⟨Table.empty, 0, [], []⟩

def Client.cached (client : Client) (serverName tool : String) : Option Val :=
  (client.validatorCache.lookup (serverName, tool)).map Prod.snd

abbrev Calling (α : Type) := Program Client Raised α

def retryMaxAttempts : Nat := 3

def retryBackoffs : List Rat := [1 / 5, 2 / 5]

def defaultTimeout : PyFloat := .finite 30

def invalidParams : Int := -32602

variable (env : ClientEnv)

def log (entry : LogEntry) : Calling Unit :=
    write fun client => { client with logs := entry :: client.logs }

def exchange {α : Type} (answers : Nat → α) (remember : α → Exchange) : Calling α := do
  let answer ← read fun client => answers client.ticks
  write fun client => { client with ticks := client.ticks + 1, trace := remember answer :: client.trace }
  return answer

def sleep (seconds : Rat) : Calling Unit := exchange (fun _ => ()) fun _ => .slept seconds

def lookupServer (registry : McpRegistry.Registry) (serverName : String) :
    Except Raised McpRegistry.ServerConfig :=
  match registry.get env.env serverName with
  | .ok config => .ok config
  | .error (.uncaught _ text) => .error (.unknownServer text)
  | .error _ => .error (.unknownServer "")

/-- `"failed to connect" in msg.lower() or "connection" in msg.lower()`. -/
def mentionsConnection (message : String) : Bool :=
  ["failed to connect", "connection"].any fun words =>
    decide (words.toList <:+: message.toLower.toList)

def listFailure (config : McpRegistry.ServerConfig) : Raised → Raised
  | .asyncTimeout text | .http .readTimeout text | .http .connectTimeout text | .http .otherTimeout text =>
      .fetchTransport ("tools/list timed out for " ++ config.url ++ ": " ++ text)
  | .http _ text => .fetchTransport ("tools/list http error for " ++ config.url ++ ": " ++ text)
  | .runtimeError (some (.http _ cause)) _ | .runtimeError (some (.asyncTimeout cause)) _ =>
      .fetchTransport ("tools/list connect error for " ++ config.url ++ ": " ++ cause)
  | .runtimeError none text =>
      if mentionsConnection text then .fetchTransport ("tools/list connect error for " ++
        config.url ++ ": " ++ text)
      else .runtimeError none text
  | .mcpError _ _ text => .fetchProtocol ("server inputSchema invalid: mcp error " ++ text)
  | raised => raised

def schemaIn (toolName : String) (tools : List ListedTool) : Except Raised Val :=
  match tools.find? fun tool => tool.name = toolName with
  | none =>
      .error (.fetchProtocol ("server inputSchema invalid: tool " ++
        env.env.pyRepr (.str toolName) ++ " not listed"))
  | some found =>
      if isDict found.inputSchema && (found.inputSchema.get? "type").isSome then .ok found.inputSchema
      else .error (.fetchProtocol ("server inputSchema invalid: not a dict with 'type' (got " ++
        found.inputSchema.typeName ++ ")"))

def fetchInputSchema (serverName toolName : String) (registry : McpRegistry.Registry)
    (timeout : PyFloat) : Calling Val := do
  let config ← ofExcept (lookupServer env registry serverName)
  match ← read fun client => env.environ client.ticks config.auth.tokenEnv with
  | none => raise (.fetchTransport ("auth env var $" ++ config.auth.tokenEnv ++ " not set"))
  | some token =>
      match ← exchange (fun tick => env.listTools tick config token timeout)
        (.listed serverName toolName) with
      | .error raised => raise (listFailure config raised)
      | .ok tools => ofExcept (schemaIn env toolName tools)

def fetchHandler : Raised → Calling (Except CallOutcome Val)
  | .fetchTransport detail => pure (.error (.transportError detail))
  | .fetchProtocol detail => pure (.error (.protocolError detail))
  | other => raise other

def attemptFetch (body : Calling Val) : Calling (Except CallOutcome Val) :=
  rescue (do return .ok (← body)) fetchHandler

/-- The first half of `_call_with_validation_async`: the cached validator, or a new one. -/
def obtainValidator (serverName tool : String) (registry : McpRegistry.Registry)
    (timeout : PyFloat) : Calling (Except CallOutcome Val) := do
  match ← read fun client => client.cached serverName tool with
  | some schema =>
      log (.schemaFetch serverName tool true)
      return .ok schema
  | none =>
      match ← attemptFetch (fetchInputSchema env serverName tool registry timeout) with
      | .error outcome => return .error outcome
      | .ok schema =>
          match env.compile schema with
          | .error (.schemaError message) =>
            return .error (.protocolError ("server inputSchema invalid: " ++ message))
          | .error raised => raise raised
          | .ok () =>
              write fun client =>
                { client with validatorCache :=
                  client.validatorCache.upsert ((serverName, tool), schema) }
              log (.schemaFetch serverName tool false)
              return .ok schema

/-- The handlers of `_call_async`; what they do not catch goes on to `call`. -/
def callFailure (config : McpRegistry.ServerConfig) : Raised → Except Raised CallOutcome
  | .asyncTimeout _ | .http .readTimeout _ => .ok .timeoutError
  | .http .connectTimeout _ => .ok (.transportError ("connect timeout to " ++ config.url))
  | .http .connectError text =>
    .ok (.transportError ("connect error to " ++ config.url ++ ": " ++ text))
  | .http _ text => .ok (.transportError ("http error to " ++ config.url ++ ": " ++ text))
  | .runtimeError (some (.http .connectTimeout _)) _ | .runtimeError (some (.http .readTimeout _)) _ =>
      .ok .timeoutError
  | .runtimeError (some (.http _ cause)) _ =>
      .ok (.transportError ("connect error to " ++ config.url ++ ": " ++ cause))
  | .runtimeError cause text =>
      if mentionsConnection text then .ok (.transportError ("connect error to " ++ config.url ++
        ": " ++ text))
      else .ok (.protocolError (env.reprOf (.runtimeError cause text)))
  | .mcpError code message _ =>
      if code = invalidParams then .ok (.schemaValidationError message)
      else .ok (.protocolError ("mcp error code=" ++ toString code ++ ": " ++ message))
  | .toolError text => .ok (.toolExecutionError text)
  | raised => .error raised

def Block.text? : Block → Option String
  | .text value => some value
  | .other => none

def flattenTextBlocks (content : List Block) : Option String :=
  match content.filterMap Block.text? with
  | [] => none
  | parts => some (String.join parts)

def classifyResult (result : CallToolResult) : CallOutcome :=
  if result.isError then
    .toolExecutionError ((flattenTextBlocks result.content).getD "tool returned isError with no text content")
  else if result.content.any fun block =>
    block.text?.isNone then .protocolError "v1 supports text content only"
  else .ok ((flattenTextBlocks result.content).getD "")

def callAsync (config : McpRegistry.ServerConfig) (serverName tool : String) (args : Val)
    (timeout : PyFloat) : Calling CallOutcome := do
  match ← read fun client => env.environ client.ticks config.auth.tokenEnv with
  | none => return .transportError ("auth env var $" ++ config.auth.tokenEnv ++ " not set")
  | some token =>
      match ← exchange (fun tick => env.callTool tick config token timeout tool args)
        (.called serverName tool args) with
      | .error raised => ofExcept (callFailure env config raised)
      | .ok result => return classifyResult result

/-- `_call_with_validation_async`. -/
def callWithValidation (config : McpRegistry.ServerConfig) (request : Request) (timeout : PyFloat) :
    Calling CallOutcome := do
  match ← obtainValidator env request.serverName request.tool request.registry timeout with
  | .error outcome => return outcome
  | .ok schema =>
      match env.validate schema request.args with
      | .raised exception => raise exception
      | .invalid jsonPath message => return .schemaValidationError (jsonPath ++ ": " ++ message)
      | .valid => callAsync env config request.serverName request.tool request.args timeout

/-- `isinstance(outcome, TransportError | TimeoutError)`. -/
def retriable : CallOutcome → Bool
  | .transportError _ | .timeoutError => true
  | _ => false

/-- `type(outcome).__name__`. -/
def className : CallOutcome → String
  | .ok _ => "Ok"
  | .toolExecutionError _ => "ToolExecutionError"
  | .transportError _ => "TransportError"
  | .protocolError _ => "ProtocolError"
  | .schemaValidationError _ => "SchemaValidationError"
  | .timeoutError => "TimeoutError"

/-- `outcome.kind`. -/
def kindOf : CallOutcome → String
  | .ok _ => "ok"
  | .toolExecutionError _ => "tool_execution_error"
  | .transportError _ => "transport_error"
  | .protocolError _ => "protocol_error"
  | .schemaValidationError _ => "schema_validation_error"
  | .timeoutError => "timeout"

/-- The loop of `_call_with_retry_async`, by the attempts that are left. -/
def callWithRetry (config : McpRegistry.ServerConfig) (request : Request) (timeout : PyFloat)
    (argFingerprint : String) : Nat → Calling (CallOutcome × Nat)
  | 0 => raise (.other "unreachable")
  | remaining + 1 => do
      let attempt := retryMaxAttempts - remaining
      let outcome ← callWithValidation env config request timeout
      if !retriable outcome || retryMaxAttempts ≤ attempt then return (outcome, attempt)
      else
        match retryBackoffs[attempt - 1]? with
        | none => raise (.other "IndexError")
        | some backoff =>
            log (.retry request.serverName request.tool argFingerprint attempt (backoff * 1000) (className outcome))
            sleep backoff
            callWithRetry config request timeout argFingerprint remaining

def argFingerprint (args : Val) : String :=
  match env.dumpsSorted args with
  | some blob => String.ofList ((env.sha256 blob).toList.take 8)
  | none => "unhashab"

def detailOf : CallOutcome → String
  | .transportError detail => detail
  | _ => "timeout"

def terminalLog (request : Request) (argFingerprint : String) (outcome : CallOutcome)
    (attempts : Nat) : LogEntry :=
  let entry := fun level message detail =>
    LogEntry.terminal level message request.serverName request.tool (kindOf outcome) argFingerprint attempts detail
  match outcome with
  | .ok _ => entry .info "mcp call terminal success" none
  | _ =>
      if retriable outcome && retryMaxAttempts ≤ attempts then
        entry .warning "mcp call terminal failure" (some (detailOf outcome))
      else entry .info "mcp call" none

def effectiveTimeout (request : Request) (config : McpRegistry.ServerConfig) : PyFloat :=
  request.timeout.getD (config.timeoutDefault.getD defaultTimeout)

def guardedRun (config : McpRegistry.ServerConfig) (request : Request) :
    Calling (CallOutcome × Nat) :=
  rescue (callWithRetry env config request (effectiveTimeout request config) (argFingerprint env request.args)
      retryMaxAttempts) fun raised => do
    log (.unexpected request.serverName request.tool)
    return (.protocolError (env.reprOf raised), 1)

def call (request : Request) : Calling CallOutcome := do
  let config ← ofExcept (lookupServer env request.registry request.serverName)
  let ended ← guardedRun env config request
  log (terminalLog request (argFingerprint env request.args) ended.1 ended.2)
  return ended.1

/-- The calls of one process, one after the other; an unknown server raises and leaves the rest to
run. -/
def runCalls : List Request → Client → Client
  | [], client => client
  | request :: rest, client => runCalls rest ((call env request).run client).2

end McpClient

end Megalos
