/-
# How the parts of a client describe themselves

Methods, calls, batches and futures have a short description of their state for people who look for
a mistake.  Nothing in a client depends on it.
-/
import RemoteCall.Client.Future
import RemoteCall.Client.Method
import RemoteCall.Text.Quoted

namespace RemoteCall

/-- A description: a name and described fields. -/
def describe (name : String) (fields : List (String × String)) : String :=
  let entries := String.intercalate ", " (fields.map fun (field, text) => s!"{field}: {text}")
  s!"{name} \x7b {entries} \x7d"

/-- The description of a binding. -/
def Naming.Binding.describe (binding : Naming.Binding) : String :=
  RemoteCall.describe "ParameterBinding"
    [("member", Quoted.encode binding.member), ("wire_name", Quoted.encode binding.wireName)]

namespace Client

/-- The description of a method. -/
def Method.describe (method : Method) : String :=
  let bindings := String.intercalate ", " (method.bindings.map (·.describe))
  RemoteCall.describe "Method"
    [("method", Quoted.encode method.name), ("bindings", s!"[{bindings}]")]

/-- The description of a call. -/
def Call.describe (call : Call) : String :=
  RemoteCall.describe "Call"
    [("method", Quoted.encode call.request.method), ("executed", toString call.executed),
      ("cancelled", toString call.isCancelled)]

/-- The description of what cancels a call. -/
def Call.describeCancel (call : Call) : String :=
  RemoteCall.describe "CancelHandle" [("cancelled", toString call.isCancelled)]

/-- The description of a batch. -/
def Batch.describe (batch : Batch) : String :=
  RemoteCall.describe "MultiCall"
    [("items", toString batch.items.length), ("started", toString batch.started)]

/-- The description of a future of a call. -/
def CallFuture.describe (future : CallFuture) (call : Call) : String :=
  RemoteCall.describe "CallFuture"
    [("call", call.describe), ("started", toString future.running.isSome),
      ("finished", toString future.finished)]

/-- The wording of the end of a batch that stopped early. -/
def BatchEnd.display? : BatchEnd → Option String
  | complete .. => none
  | failure error completed =>
    some s!"batch failed after {completed.length} responses: {error.message}"

/-- The description of a pool. -/
def Pool.describe (pool : Pool) : String :=
  RemoteCall.describe "ConnectionPool"
    [("max_connections", toString pool.limit),
      ("stats", RemoteCall.describe "PoolStats"
        [("idle", toString pool.idle.length), ("leased", toString pool.leased)])]

end Client

end RemoteCall
