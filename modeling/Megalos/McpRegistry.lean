import Megalos.Execution
import Megalos.Schema

/-!
The registry of MCP servers (`mcp_registry.py`), from the parsed file on.  The loader
accepts a file exactly when it describes a registry; it sorts the keys it does not know,
prints what it refuses and turns numbers into floats, and each of these may raise
something else than its own error.
-/

namespace Megalos

open KeyedTable

namespace McpRegistry

structure AuthConfig where
  type : String
  tokenEnv : String
  deriving DecidableEq

structure ServerConfig where
  name : String
  url : String
  transport : String
  auth : AuthConfig
  timeoutDefault : Option PyFloat
  deriving DecidableEq

structure Registry where
  servers : Dict ServerConfig

structure LoaderEnv where
  env : Env
  /-- `float(value)`, when the number is not too large. -/
  floatOfInt : Int → Option PyFloat

/-- What `read_text` and `safe_load` make of the file. -/
inductive YamlFile where
  | unreadable (reason : String)
  /-- `read_text` decodes before it returns; a `UnicodeDecodeError` is no `OSError`. -/
  | undecodable (reason : String)
  | malformed (reason : String)
  /-- `safe_load` raises no `YAMLError`, as for the date `2020-13-45`. -/
  | unloadable (kind reason : String) (foreign : kind ≠ "RegistryLoadError")
  | parsed (doc : Val)

abbrev Loaded (α : Type) := Except Exn α

def loadError (text : String) : Exn := .uncaught "RegistryLoadError" text

def topLevelKeys : List String := ["servers"]

def serverKeys : List String := ["auth", "name", "timeout_default", "transport", "url"]

def serverRequired : List String := ["auth", "name", "transport", "url"]

def authKeys : List String := ["token_env", "type"]

def authRequired : List String := ["token_env", "type"]

/-- `set(raw.keys()) - known`. -/
def unknownKeys (known : List String) (entries : Mapping) : List Val :=
  (entries.map Prod.fst).filter fun key => !known.any fun name => key.isStr name

def missingFields (required : List String) (entries : Mapping) : List String :=
  required.filter fun name => !entries.has name

def refuse {α : Type} (env : Env) (value : Val) (text : String → String) : Loaded α := do
  let shown ← printed env value
  throw (loadError (text shown))

def refuseUnknown (env : Env) (unknown : List Val) (text : String) : Loaded Unit := do
  let ordered ← sortedKeys unknown
  refuse env (.list ordered) fun listed => text ++ " " ++ listed

/-- The two sets that every mapping of the file is compared with, each with its own text. -/
def checkKeys (env : Env) (known required : List String) (entries : Mapping)
    (unknownText missingText : String) : Loaded Unit := do
  let unknown := unknownKeys known entries
  if unknown ≠ [] then refuseUnknown env unknown unknownText
  let missing := missingFields required entries
  if missing ≠ [] then throw (loadError (missingText ++ " " ++ env.pyRepr (.strs missing)))

def entryPrefix (pathName : String) (index : Nat) (name : Val) : String :=
  match name with
  | .str text =>
      if text = "" then pathName ++ ": entry " ++ toString index
      else pathName ++ ": entry " ++ toString index ++ " (name=\x22" ++ text ++ "\x22)"
  | _ => pathName ++ ": entry " ++ toString index

def nameField (entries : Mapping) (key text : String) : Loaded String :=
  match entries.get? key with
  | some (.str value) => if value = "" then .error (loadError text) else .ok value
  | _ => .error (loadError text)

def parseAuth (env : Env) (heading : String) : Val → Loaded AuthConfig
  | .dict entries => do
      let mapping : Mapping := entries
      checkKeys env authKeys authRequired mapping (heading ++ ": unknown auth field(s)")
        (heading ++ ": 'auth' missing required field(s)")
      let authType := (mapping.get? "type").getD .none
      if !authType.isStr "bearer" then
        refuse env authType fun shown => heading ++ ": unsupported auth.type " ++ shown ++
          "; supported: ['bearer']"
      let tokenEnv ← nameField mapping "token_env" (heading ++
        ": auth.token_env must be a non-empty string")
      return { type := "bearer", tokenEnv }
  | _ => .error (loadError (heading ++ ": 'auth' must be a mapping"))

/-- `td <= 0`; a comparison with `nan` is false. -/
def notPositive (value : PyFloat) : Bool := Val.lessThan value (.finite 0) || value == .finite 0

def parseTimeout (loader : LoaderEnv) (heading : String) : Option Val → Loaded (Option PyFloat)
  | none => .ok none
  | some (.int value) =>
      if value ≤ 0 then .error (loadError (heading ++ ": 'timeout_default' must be positive"))
      else match loader.floatOfInt value with
        | some float => .ok (some float)
        | none => .error (.uncaught "OverflowError" "int too large to convert to float")
  | some (.float value) =>
      if notPositive value then .error (loadError (heading ++
        ": 'timeout_default' must be positive"))
      else .ok (some value)
  | some _ => .error (loadError (heading ++ ": 'timeout_default' must be a number"))

def parseServer (loader : LoaderEnv) (pathName : String) (index : Nat) : Val → Loaded ServerConfig
  | .dict entries => do
      let mapping : Mapping := entries
      let heading := entryPrefix pathName index ((mapping.get? "name").getD .none)
      checkKeys loader.env serverKeys serverRequired mapping (heading ++ ": unknown field(s)")
        (heading ++ ": missing required field(s)")
      let name ← nameField mapping "name" (heading ++ ": 'name' must be a non-empty string")
      let url ← nameField mapping "url" (heading ++ ": 'url' must be a non-empty string")
      let transport := (mapping.get? "transport").getD .none
      if !transport.isStr "http" then
        refuse loader.env transport fun shown =>
          heading ++ ": unsupported transport " ++ shown ++ "; supported: ['http']"
      let auth ← parseAuth loader.env heading ((mapping.get? "auth").getD .none)
      let timeoutDefault ← parseTimeout loader heading (mapping.get? "timeout_default")
      return { name, url, transport := "http", auth, timeoutDefault }
  | _ => .error (loadError (pathName ++ ": entry " ++ toString index ++
    ": server entry must be a mapping"))

/-- The loop of `from_yaml`, with the entry at which each name was seen. -/
def parseServers (loader : LoaderEnv) (pathName : String) :
    Nat → Dict Nat → Dict ServerConfig → List Val → Loaded (Dict ServerConfig)
  | _, _, servers, [] => .ok servers
  | index, seen, servers, raw :: rest => do
      let config ← parseServer loader pathName index raw
      match seen.get? config.name with
      | some first =>
          throw (loadError (pathName ++ ": duplicate server name " ++
            loader.env.pyRepr (.str config.name) ++
            " at entries " ++ toString first ++ " and " ++ toString index))
      | none =>
          parseServers loader pathName (index + 1) (seen.set config.name index)
            (servers.set config.name config) rest

def fromYaml (loader : LoaderEnv) (path pathName : String) : YamlFile → Loaded Registry
  | .unreadable reason => .error (loadError (path ++ ": cannot read file: " ++ reason))
  | .undecodable reason => .error (.uncaught "UnicodeDecodeError" reason)
  | .malformed reason => .error (loadError (pathName ++ ": YAML parse error: " ++ reason))
  | .unloadable kind reason _ => .error (.uncaught kind reason)
  | .parsed .none => .ok ⟨Table.empty⟩
  | .parsed (.dict entries) => do
      let mapping : Mapping := entries
      checkKeys loader.env topLevelKeys [] mapping (pathName ++ ": unknown top-level field(s)") ""
      match (mapping.get? "servers").getD (.list []) with
      | .list items => return ⟨← parseServers loader pathName 1 Table.empty Table.empty items⟩
      | other => throw (loadError (pathName ++ ": 'servers' must be a list, got " ++
        other.typeName))
  | .parsed other =>
      .error (loadError (pathName ++ ": top-level must be a mapping, got " ++ other.typeName))

def Registry.names (registry : Registry) : List String :=
  (registry.servers.rows.map Prod.fst).insertionSort (· ≤ ·)

def Registry.get (env : Env) (registry : Registry) (name : String) : Loaded ServerConfig :=
  match registry.servers.get? name with
  | some config => .ok config
  | none => .error (.uncaught "UnknownServer" ("unknown MCP server " ++ env.pyRepr (.str name) ++
    "; available: " ++
      env.pyRepr (.strs registry.names)))

end McpRegistry

end Megalos
