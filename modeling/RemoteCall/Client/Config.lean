/-
# Configuration of a client

How many connections the pool holds and how long a user waits for one, the time limits of the
connections, how many of them a batch uses, how many requests it sends ahead, and the longest
message.  A configuration is read from JSON, as an object by the names of the settings or as an
array by their order; settings that are left out keep their defaults.
-/
import RemoteCall.Error
import RemoteCall.Text.Json

namespace RemoteCall.Client

/-- The settings of a client. -/
structure Config where
  maxConnections : Nat := 10
  acquireTimeoutMs : Nat := 30000
  connectTimeoutMs : Nat := 5000
  ioTimeoutMs : Nat := 5000
  batchConnections : Nat := 4
  pipelineDepth : Nat := 8
  maxMessageSize : Nat := 100 * 1024 * 1024
  deriving DecidableEq, Repr, Inhabited

/-- A setting by itself. -/
inductive Setting where
  | maxConnections
  | acquireTimeoutMs
  | connectTimeoutMs
  | ioTimeoutMs
  | batchConnections
  | pipelineDepth
  | maxMessageSize
  deriving DecidableEq, Repr

namespace Setting

/-- The settings in their order. -/
def all : List Setting :=
  [maxConnections, acquireTimeoutMs, connectTimeoutMs, ioTimeoutMs, batchConnections,
    pipelineDepth, maxMessageSize]

/-- The name of a setting. -/
def name : Setting → String
  | maxConnections => "max_connections"
  | acquireTimeoutMs => "acquire_timeout_ms"
  | connectTimeoutMs => "connect_timeout_ms"
  | ioTimeoutMs => "io_timeout_ms"
  | batchConnections => "batch_connections"
  | pipelineDepth => "pipeline_depth"
  | maxMessageSize => "max_message_size"

/-- The setting of a name. -/
def ofName? (name : String) : Option Setting := all.find? (·.name == name)

end Setting

namespace Config

/-- The value of a setting. -/
def get (config : Config) : Setting → Nat
  | .maxConnections => config.maxConnections
  | .acquireTimeoutMs => config.acquireTimeoutMs
  | .connectTimeoutMs => config.connectTimeoutMs
  | .ioTimeoutMs => config.ioTimeoutMs
  | .batchConnections => config.batchConnections
  | .pipelineDepth => config.pipelineDepth
  | .maxMessageSize => config.maxMessageSize

/-- The configuration with one setting changed. -/
def set (config : Config) (setting : Setting) (value : Nat) : Config :=
  match setting with
  | .maxConnections => { config with maxConnections := value }
  | .acquireTimeoutMs => { config with acquireTimeoutMs := value }
  | .connectTimeoutMs => { config with connectTimeoutMs := value }
  | .ioTimeoutMs => { config with ioTimeoutMs := value }
  | .batchConnections => { config with batchConnections := value }
  | .pipelineDepth => { config with pipelineDepth := value }
  | .maxMessageSize => { config with maxMessageSize := value }

/-- The first limit that is zero, with which a client could make no progress. -/
def fault? (config : Config) : Option UsageFault :=
  ([.maxConnections, .batchConnections, .pipelineDepth] : List Setting).findSome? fun setting =>
    if config.get setting = 0 then some (.zeroLimit setting.name) else none

/-- Refuses a configuration with which a client could make no progress. -/
def validate (config : Config) : Except Error Unit :=
  match config.fault? with
  | some fault => .error (.usage fault)
  | none => .ok ()

/-- A number that a setting can have: a non-negative integer of 64 bits. -/
def setting? : Json → Option Nat
  | .number literal =>
    match Json.integer? literal with
    | some (.ofNat n) => if n < UInt64.size then some n else none
    | _ => none
  | _ => none

/-- The configuration that the fields of an object describe.  Unknown fields do not matter; a known
one stands once. -/
def ofFields? (config : Config) (seen : List Setting) :
    List (Option String × Json) → Option Config
  | [] => some config
  | (none, _) :: _ => none
  | (some name, json) :: fields =>
    match Setting.ofName? name with
    | none => ofFields? config seen fields
    | some setting =>
      if setting ∈ seen then none
      else
        match setting? json with
        | none => none
        | some n => ofFields? (config.set setting n) (setting :: seen) fields

/-- The configuration that the items of an array describe, one for each setting in order. -/
def ofItems? (config : Config) : List Setting → List Json → Option Config
  | _, [] => some config
  | [], _ :: _ => none
  | setting :: settings, json :: items =>
    match setting? json with
    | none => none
    | some n => ofItems? (config.set setting n) settings items

/-- The configuration that a JSON value describes. -/
def ofJson? : Json → Option Config
  | .object fields => ofFields? {} [] fields
  | .array items => ofItems? {} Setting.all items
  | _ => none

/-- Reads a configuration. -/
def parse (text : String) : Except Error Config :=
  match (Json.parse? text).bind ofJson? with
  | none => .error (.usage .malformedConfiguration)
  | some config =>
    match config.validate with
    | .ok () => .ok config
    | .error error => .error error

end Config

end RemoteCall.Client
