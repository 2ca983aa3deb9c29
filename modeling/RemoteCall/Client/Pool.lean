/-
# The connection pool

A pool counts the connections that are handed out or being opened (`leased`) and keeps the others
(`idle`), the most recently returned first.  Together they never exceed the limit.

A user takes a connection in two steps.  `reserve` hands out the most recently returned connection,
or reserves a slot for a new one, or finds the pool full; connecting happens outside of the pool, and
then `connected` gives the new connection its number or `connectFailed` gives the slot back.
`release` returns a connection, or drops it if it is broken.
-/

namespace RemoteCall.Client

/-- The number of a connection; connections are numbered from one as they are opened. -/
abbrev ConnId := Nat

/-- The state of a pool. -/
structure Pool where
  limit : Nat
  /-- Connections that wait to be used again, the most recently returned first. -/
  idle : List ConnId
  /-- How many connections are handed out or being opened. -/
  leased : Nat
  /-- How many connections have been opened so far. -/
  opened : Nat
  deriving DecidableEq, Repr

/-- What a user of a pool gets. -/
inductive Reservation where
  | reused (conn : ConnId)
  /-- A slot for a connection that the user has to open. -/
  | opening
  | full
  deriving DecidableEq, Repr

namespace Pool

/-- An empty pool.  It holds one connection at least. -/
def new (limit : Nat) : Pool := ⟨max limit 1, [], 0, 0⟩

/-- Hands out a connection or a slot for one. -/
def reserve (pool : Pool) : Reservation × Pool :=
  match pool.idle with
  | conn :: idle => (.reused conn, { pool with idle := idle, leased := pool.leased + 1 })
  | [] =>
    if pool.leased < pool.limit then (.opening, { pool with leased := pool.leased + 1 })
    else (.full, pool)

/-- Puts a new connection into a slot that was reserved for it. -/
def connected (pool : Pool) : ConnId × Pool :=
  (pool.opened + 1, { pool with opened := pool.opened + 1 })

/-- Gives back the slot of a connection that could not be opened. -/
def connectFailed (pool : Pool) : Pool := { pool with leased := pool.leased - 1 }

/-- Takes a connection back; a broken one is dropped. -/
def release (pool : Pool) (conn : ConnId) (broken : Bool) : Pool :=
  { pool with
    leased := pool.leased - 1
    idle := if broken then pool.idle else conn :: pool.idle }

/-- Drops every idle connection. -/
def clearIdle (pool : Pool) : Pool := { pool with idle := [] }

end Pool

end RemoteCall.Client
