/-
# What a step does with the pool and on its connection

A task holds nothing of the pool, a slot for a connection, or a connection, and of a connection it
knows which requests are still to be answered (`Grip`).  What a step does to that is the same for
the executions of calls and for the workers of batches, and there are a dozen ways (`Handling`),
each with what it leaves in the log.
-/
import RemoteCall.Proofs.Client.World

namespace RemoteCall.Client

/-! ## 1. What a task holds -/

/-- What a task holds of the pool. -/
inductive Grip where
  | free
  /-- A slot for a connection that is being opened. -/
  | slot
  /-- A connection, with what was sent and has not been answered; none if the connection is to be
  closed whatever comes. -/
  | holds (conn : ConnId) (owed? : Option (List Subject))
  deriving DecidableEq, Repr

/-- The connection that a task holds. -/
def Grip.conn? : Grip → Option ConnId
  | free | slot => none
  | holds conn _ => some conn

/-- What an execution of call `id` holds. -/
def CallStage.grip (id : Nat) : CallStage → Grip
  | connecting => .slot
  | leased conn | registered conn | sending conn => .holds conn (some [])
  | receiving conn => .holds conn (some [.call id])
  | exchanged conn (.ok _) | withdrawn conn (.ok _) | releasing conn false _ =>
    .holds conn (some [])
  | exchanged conn (.error _) | withdrawn conn (.error _) | releasing conn true _ =>
    .holds conn none
  | entry | admitted | acquiring | settling _ | finished _ | abandoned => .free

/-- What items of batch `id` are sent for. -/
def subjectsOf (id : Nat) (items : List BatchItem) : List Subject :=
  items.map fun item => .item id item.key

/-- What a worker of batch `id` holds. -/
def WorkerStage.grip (id : Nat) : WorkerStage → Grip
  | connecting => .slot
  | leased conn | ready conn _ | fetching conn _ | releasing conn false => .holds conn (some [])
  | sending conn _ sent _ => .holds conn (some (subjectsOf id sent))
  | receiving conn _ waiting _ | received conn _ _ _ waiting _ =>
    .holds conn (some (subjectsOf id waiting))
  | failing conn _ | releasing conn true => .holds conn none
  | acquiring | finished | abandoned => .free

/-- What a task holds. -/
def Task.grip : Task → Grip
  | executing id stage => stage.grip id
  | working id stage => stage.grip id
  | cancelling _ _ | collecting _ _ | stopping _ _ => .free

/-! ## 2. How that changes -/

/-- The event is no traffic and closes nothing. -/
def Event.IsQuiet : Event → Prop
  | .exchange .. | .effect (.close _) => False
  | _ => True

/-- What the end of a lease leaves in the log. -/
def Pool.giveBackEvents (pool : Pool) (conn : ConnId) (broken : Bool) : List Event :=
  (pool.giveBack conn broken).2.map .effect

/-- How a step changes the pool and what its task holds of it, with what that leaves in the log. -/
inductive Handling (pool : Pool) : Grip → List Event → Pool → Grip → Prop
  | rest {grip : Grip} {events : List Event} (quiet : ∀ event ∈ events, event.IsQuiet) :
    Handling pool grip events pool grip
  /-- The connection is to be closed. -/
  | condemn {conn : ConnId} {owed? : Option (List Subject)} {events : List Event}
    (quiet : ∀ event ∈ events, event.IsQuiet) :
    Handling pool (.holds conn owed?) events pool (.holds conn none)
  | reuse {conn : ConnId} {idle : List ConnId} (found : pool.idle = conn :: idle)
    {events : List Event} (quiet : ∀ event ∈ events, event.IsQuiet) :
    Handling pool .free events { pool with idle := idle, leased := pool.leased + 1 }
      (.holds conn (some []))
  | reserve (none_idle : pool.idle = []) (room : pool.leased < pool.limit) :
    Handling pool .free [] { pool with leased := pool.leased + 1 } .slot
  | connected : Handling pool .slot [.exchange none .connect .connected]
    { pool with opened := pool.opened + 1 } (.holds (pool.opened + 1) (some []))
  | refused {error : Error} {events : List Event} (quiet : ∀ event ∈ events, event.IsQuiet) :
    Handling pool .slot (.exchange none .connect (.failed error) :: events) pool.connectFailed .free
  | lost : Handling pool .slot [.exchange none .connect .panicked] pool .free
  | sent {conn : ConnId} {subject : Subject} {frame : Bytes} {owed : List Subject} :
    Handling pool (.holds conn (some owed)) [.exchange (some subject) (.send conn frame) .sent] pool
      (.holds conn (some (owed ++ [subject])))
  | received {conn : ConnId} {subject : Subject} {frame : Bytes} {owed : List Subject} :
    Handling pool (.holds conn (some (subject :: owed)))
      [.exchange (some subject) (.receive conn) (.received frame)] pool (.holds conn (some owed))
  | failed {conn : ConnId} {subject : Subject} {operation : Operation} {error : Error}
    {owed? owed?' : Option (List Subject)} (on_conn : operation.conn? = some conn)
    (kept : owed?' = owed? ∨ owed?' = none) :
    Handling pool (.holds conn owed?) [.exchange (some subject) operation (.failed error)] pool
      (.holds conn owed?')
  | gaveBack {conn : ConnId} {broken : Bool} {owed? : Option (List Subject)}
    (level : broken = false → owed? = some []) :
    Handling pool (.holds conn owed?) (pool.giveBackEvents conn broken) (pool.release conn broken)
      .free
  | struck {conn : ConnId} {subject : Subject} {operation : Operation}
    {owed? : Option (List Subject)} (on_conn : operation.conn? = some conn) :
    Handling pool (.holds conn owed?) (.exchange (some subject) operation .panicked ::
      pool.giveBackEvents conn false) (pool.release conn false) .free

/-- The limit of a pool stays the same. -/
theorem Handling.limit_eq {pool pool' : Pool} {grip grip' : Grip} {events : List Event}
    (h : Handling pool grip events pool' grip') : pool'.limit = pool.limit := by
  cases h <;> rfl

/-- What a user gets that asks for a connection: an idle one, a slot, or nothing. -/
theorem Pool.acquire_cases (pool : Pool) :
    (∃ conn idle notice, pool.idle = conn :: idle ∧ pool.acquire =
        (.leased conn, { pool with idle := idle, leased := pool.leased + 1 }, [.notice notice])) ∨
      (pool.idle = [] ∧ pool.leased < pool.limit ∧
        pool.acquire = (.opening, { pool with leased := pool.leased + 1 }, [])) ∨
      (pool.idle = [] ∧ pool.limit ≤ pool.leased ∧ pool.acquire = (.waiting, pool, [])) := by
  unfold Pool.acquire Pool.reserve
  cases hidle : pool.idle with
  | cons conn idle => exact .inl ⟨conn, idle, _, rfl, rfl⟩
  | nil =>
    by_cases hroom : pool.leased < pool.limit
    · refine .inr (.inl ⟨rfl, hroom, ?_⟩)
      simp only [hroom, if_true]
    · refine .inr (.inr ⟨rfl, Nat.le_of_not_lt hroom, ?_⟩)
      simp only [hroom, if_false]

/-- The event of a response that is decoded. -/
def Event.ofDecoding (decoding : Subject × Bytes) : Event := .decoded decoding.1 decoding.2

end RemoteCall.Client
