/-
# What a client asks of its connections

The parts of a client that talk to an endpoint run as tasks.  A task asks for one operation on a
connection at a time and is told how it went; between two answers it takes internal steps, and each
of them may have effects on its surroundings: notices, aborts and closed connections, deliveries of
a batch.

A panic is an answer of its own kind: the operation did not come back at all, and the task ends
without a result.
-/
import RemoteCall.Client.Notice
import RemoteCall.Client.Pool
import RemoteCall.Typed.Type

namespace RemoteCall.Client

/-- An operation on a connection, or the opening of one. -/
inductive Operation where
  | connect
  | send (conn : ConnId) (frame : Bytes)
  | receive (conn : ConnId)
  deriving DecidableEq, Repr

/-- How an operation went. -/
inductive Answer where
  | connected
  | sent
  | received (frame : Bytes)
  | failed (error : Error)
  | panicked
  deriving DecidableEq, Repr

/-- What a batch tells its user about one item. -/
inductive Delivery where
  | response (key : String) (value : Datum)
  /-- The exchange succeeded, but its response is a failure or no value of the wanted type. -/
  | itemError (key : String) (error : Error)
  deriving Repr

/-- The key of the item. -/
def Delivery.key : Delivery → String
  | response key _ => key
  | itemError key _ => key

/-- How a batch ended. -/
inductive BatchEnd where
  /-- Every item was answered. -/
  | complete (responses : List (String × Datum)) (errors : List (String × Error))
  /-- The batch stopped early, with the responses delivered until then. -/
  | failure (error : Error) (completed : List (String × Datum))
  deriving Repr

/-- What a step does to its surroundings. -/
inductive Effect where
  | notice (notice : Notice)
  /-- Interrupts whatever happens on a connection. -/
  | abort (conn : ConnId)
  | close (conn : ConnId)
  | delivered (batch : Nat) (delivery : Delivery)
  | concluded (batch : Nat) (result : BatchEnd)
  deriving Repr

/-- What a user gets that asks a pool for a connection. -/
inductive Acquisition where
  | leased (conn : ConnId)
  | opening
  /-- The pool is full; nothing has happened. -/
  | waiting
  deriving DecidableEq, Repr

namespace Pool

/-- Asks for a connection. -/
def acquire (pool : Pool) : Acquisition × Pool × List Effect :=
  match pool.reserve with
  | (.reused conn, pool) =>
    (.leased conn, pool, [.notice (.reusingConnection pool.idle.length pool.leased)])
  | (.opening, pool) => (.opening, pool, [])
  | (.full, pool) => (.waiting, pool, [])

/-- Gives up a slot after connecting failed. -/
def refuse (pool : Pool) (error : Error) : Pool × List Effect :=
  (pool.connectFailed, [.notice (.connectFailed error)])

/-- Gives back a connection.  A broken one is closed. -/
def giveBack (pool : Pool) (conn : ConnId) (broken : Bool) : Pool × List Effect :=
  let pool := pool.release conn broken
  (pool, if broken then [.notice (.discardingConnection pool.leased), .close conn] else [])

end Pool

end RemoteCall.Client
