/-
# What a client reports of its work

A client reports what it does as it does it: types resolved, methods composed, connections reused
or lost, calls and batches begun and ended.  A notice holds the facts; its level, its words and the
names of its fields are functions of it.
-/
import RemoteCall.Error

namespace RemoteCall.Client

/-- How much a notice matters. -/
inductive Level where
  | debug
  | warning
  deriving DecidableEq, Repr

/-- Something a client reports. -/
inductive Notice where
  | createdClient (maxConnections batchConnections : Nat)
  | resolvedType (type : String)
  | composedMethod (method : String) (parameters : Nat)
  | reusingConnection (idle leased : Nat)
  | connectFailed (error : Error)
  | discardingConnection (leased : Nat)
  | dispatchingCall (method : String)
  | callFailed (method : String) (error : Error)
  | startingAdaptedCall (method : String)
  | startingBatch (items workers depth : Nat)
  | workerWithoutConnection (error : Error)
  | batchAborted (completed total : Nat) (error : Error)
  | batchComplete (responses errors : Nat)
  deriving DecidableEq, Repr

namespace Notice

/-- The level of a notice: lost connections and batches are warnings. -/
def level : Notice → Level
  | connectFailed _ | discardingConnection _ | batchAborted .. => .warning
  | _ => .debug

/-- The words of a notice. -/
def words : Notice → String
  | createdClient .. => "Created client"
  | resolvedType _ => "Resolved type adapter"
  | composedMethod .. => "Composed method"
  | reusingConnection .. => "Reusing pooled connection"
  | connectFailed _ => "Failed to open connection"
  | discardingConnection _ => "Discarding broken connection"
  | dispatchingCall _ => "Dispatching call"
  | callFailed .. => "Call failed"
  | startingAdaptedCall _ => "Starting adapted call"
  | startingBatch .. => "Starting batch"
  | workerWithoutConnection _ => "Batch worker found no connection"
  | batchAborted .. => "Batch aborted"
  | batchComplete .. => "Batch complete"

/-- The facts of a notice, each under its name. -/
def fields : Notice → List (String × String)
  | createdClient maxConnections batchConnections =>
    [("max_connections", toString maxConnections), ("batch_connections", toString batchConnections)]
  | resolvedType type => [("target_type", type)]
  | composedMethod method parameters => [("method", method), ("params", toString parameters)]
  | reusingConnection idle leased => [("idle", toString idle), ("leased", toString leased)]
  | connectFailed error => [("error", error.message)]
  | discardingConnection leased => [("leased", toString leased)]
  | dispatchingCall method => [("method", method)]
  | callFailed method error => [("method", method), ("error", error.message)]
  | startingAdaptedCall method => [("method", method)]
  | startingBatch items workers depth =>
    [("items", toString items), ("workers", toString workers), ("depth", toString depth)]
  | workerWithoutConnection error => [("error", error.message)]
  | batchAborted completed total error =>
    [("completed", toString completed), ("total", toString total), ("error", error.message)]
  | batchComplete responses errors =>
    [("responses", toString responses), ("errors", toString errors)]

end Notice

end RemoteCall.Client
