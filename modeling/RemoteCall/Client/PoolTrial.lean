/-
# A pool over stub connections

A user drives a pool by hand: it takes connections under names of its own, sends and receives on
them, marks them broken and gives them back.  The connections are stubs, numbered from one as they
are opened.  A stub answers with its number and the last message sent, which it then forgets;
sending the one byte `ff` fails; aborting only counts.

A single user never sees a connection come back while it waits, so a full pool stays full until the
time limit or the user's own condition ends the wait.
-/
import RemoteCall.Error
import RemoteCall.Client.Pool

namespace RemoteCall.Client

/-- A connection that is handed out. -/
structure TrialLease where
  conn : ConnId
  broken : Bool
  deriving DecidableEq, Repr

/-- A pool, its stub connections and the leases its user holds. -/
structure PoolTrial where
  pool : Pool
  timeoutMs : Nat
  /-- The leases, by the user's names. -/
  leases : List (String × TrialLease)
  /-- The last message sent on each connection and not yet answered. -/
  unanswered : List (ConnId × Bytes)
  /-- Whether connecting fails. -/
  refusing : Bool
  closed : Nat
  aborts : Nat
  deriving Repr

namespace PoolTrial

/-- A trial of an empty pool. -/
def new (limit timeoutMs : Nat) : PoolTrial := ⟨Pool.new limit, timeoutMs, [], [], false, 0, 0⟩

/-- How long a waiting user sleeps before it looks again, in milliseconds. -/
def retryMs : Nat := 10

/-- How often a user looks at a pool that stays full before it gives up. -/
def looks (trial : PoolTrial) : Nat := (trial.timeoutMs + retryMs - 1) / retryMs + 1

/-- Takes a connection unless a condition ends the wait that becomes true when it is checked for the
`giveUpAt`-th time; zero stands for never. -/
def take (trial : PoolTrial) (giveUpAt : Nat) : Except Error ConnId × PoolTrial :=
  if giveUpAt = 1 then (.error .cancelled, trial)
  else
    match trial.pool.reserve with
    | (.reused conn, pool) => (.ok conn, { trial with pool := pool })
    | (.opening, pool) =>
      if trial.refusing then
        (.error (.stated .connection "refused"), { trial with pool := pool.connectFailed })
      else
        let (conn, pool) := pool.connected
        (.ok conn, { trial with pool := pool })
    | (.full, _) =>
      if giveUpAt ≠ 0 ∧ giveUpAt ≤ trial.looks then (.error .cancelled, trial)
      else (.error (.poolTimeout trial.timeoutMs), trial)

/-- Gives back the lease of a name. -/
def release (trial : PoolTrial) (name : String) : PoolTrial :=
  match trial.leases.lookup name with
  | none => trial
  | some lease =>
    { trial with
      pool := trial.pool.release lease.conn lease.broken
      leases := trial.leases.filter (·.1 != name)
      closed := if lease.broken then trial.closed + 1 else trial.closed }

/-- The answer of a connection. -/
def receive (trial : PoolTrial) (conn : ConnId) : Bytes × PoolTrial :=
  (UInt8.ofNat conn :: (trial.unanswered.lookup conn).getD [],
    { trial with unanswered := trial.unanswered.filter (·.1 != conn) })

/-- Takes a connection, receives on it once and keeps the lease under a name.  A lease that has the
name is given back afterwards. -/
def acquire (trial : PoolTrial) (name : String) (giveUpAt : Nat) :
    Except Error ConnId × PoolTrial :=
  match trial.take giveUpAt with
  | (.error error, trial) => (.error error, trial)
  | (.ok conn, trial) =>
    let trial := ((trial.receive conn).2).release name
    (.ok conn, { trial with leases := (name, ⟨conn, false⟩) :: trial.leases })

/-- Sends a message. -/
def send (trial : PoolTrial) (name : String) (message : Bytes) : Except Error Unit × PoolTrial :=
  match trial.leases.lookup name with
  | none => (.error (.connection .leaseReleased), trial)
  | some lease =>
    if message = [0xFF] then (.error (.stated .connection "reset"), trial)
    else
      (.ok (), { trial with
        unanswered := (lease.conn, message) :: trial.unanswered.filter (·.1 != lease.conn) })

/-- Marks the lease of a name broken. -/
def markBroken (trial : PoolTrial) (name : String) : PoolTrial :=
  { trial with
    leases := trial.leases.map fun (other, lease) =>
      if other = name then (other, { lease with broken := true }) else (other, lease) }

/-- Whether the lease of a name is broken. -/
def isBroken (trial : PoolTrial) (name : String) : Bool :=
  (trial.leases.lookup name).any (·.broken)

/-- Drops every idle connection. -/
def clearIdle (trial : PoolTrial) : PoolTrial :=
  { trial with
    pool := trial.pool.clearIdle
    closed := trial.closed + trial.pool.idle.length }

/-- The counts that a user sees: idle, leased, opened and closed connections, and aborts. -/
def state (trial : PoolTrial) : List Nat :=
  [trial.pool.idle.length, trial.pool.leased, trial.pool.opened, trial.closed, trial.aborts]

end PoolTrial

end RemoteCall.Client
