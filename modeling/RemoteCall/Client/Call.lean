/-
# One call

A call is a request with the adapter that reads its response.  It runs at most once and can be
cancelled from anywhere at any time.  Cancellation and completion both leave the phase `pending` by
one atomic step, so exactly one of them wins.

`CallStage` is where an execution stands.  Each step of `advance` is one atomic action on the state
that others see: the call itself or the pool.  `answered` takes the answer to the operation that a
stage asks for, and `expire` ends the wait for a connection at its time limit.

`CancelStage` is where a cancellation stands.  It first claims the phase and only then fires the
abort handle that the execution has left; in between the execution may move on.
-/
import RemoteCall.Client.Exchange
import RemoteCall.Message.Request
import RemoteCall.Message.Response

namespace RemoteCall.Client

/-! ## 1. Calls -/

/-- How far a call has come. -/
inductive Phase where
  | pending
  | cancelled
  | completed
  deriving DecidableEq, Repr

/-- A call. -/
structure Call where
  request : Request
  decoder : Adapter
  executed : Bool
  phase : Phase
  /-- The connection that cancelling has to abort. -/
  abort : Option ConnId
  deriving Repr

namespace Call

/-- A call that has not run. -/
def new (request : Request) (decoder : Adapter) : Call := ⟨request, decoder, false, .pending, none⟩

/-- An independent call of the same request. -/
def clone (call : Call) : Call := new call.request call.decoder

/-- Whether the call was cancelled before it completed. -/
def isCancelled (call : Call) : Bool := call.phase == .cancelled

/-- Completes the call unless it is cancelled, and tells whether it is complete. -/
def complete (call : Call) : Bool × Call :=
  match call.phase with
  | .pending => (true, { call with phase := .completed })
  | .completed => (true, call)
  | .cancelled => (false, call)

/-- Cancels the call unless it is complete, and tells whether it was this that ended it. -/
def cancel (call : Call) : Bool × Call :=
  match call.phase with
  | .pending => (true, { call with phase := .cancelled })
  | .completed | .cancelled => (false, call)

end Call

/-! ## 2. Executing a call -/

/-- Where an execution of a call stands. -/
inductive CallStage where
  /-- Nothing has happened yet. -/
  | entry
  /-- The execution is the first one of its call. -/
  | admitted
  | acquiring
  | connecting
  /-- A connection is leased. -/
  | leased (conn : ConnId)
  /-- The connection is registered for abortion. -/
  | registered (conn : ConnId)
  | sending (conn : ConnId)
  | receiving (conn : ConnId)
  /-- The exchange is over. -/
  | exchanged (conn : ConnId) (result : Except Error Bytes)
  /-- The connection is no longer registered. -/
  | withdrawn (conn : ConnId) (result : Except Error Bytes)
  | releasing (conn : ConnId) (broken : Bool) (result : Except Error Bytes)
  /-- The connection, if there was one, is given back. -/
  | settling (result : Except Error Bytes)
  | finished (result : Except Error Datum)
  /-- The execution ended without a result. -/
  | abandoned
  deriving Repr

/-- What a step of an execution leaves behind. -/
structure CallTurn where
  pool : Pool
  call : Call
  stage : CallStage
  effects : List Effect

namespace CallStage

/-- The operation a stage waits for. -/
def operation? (call : Call) : CallStage → Option Operation
  | connecting => some .connect
  | sending conn => some (.send conn call.request.frame)
  | receiving conn => some (.receive conn)
  | _ => none

/-- What a finished execution makes of the outcome of its exchange. -/
def outcome (call : Call) : Except Error Bytes → Except Error Datum
  | .ok frame => Response.decodeWith call.decoder frame
  | .error error => .error error

/-- Takes a connection, or a slot for one, unless the call is cancelled or the pool is full. -/
def acquire (pool : Pool) (call : Call) : Option CallTurn :=
  if call.isCancelled then some ⟨pool, call, settling (.error .cancelled), []⟩
  else
    match pool.acquire with
    | (.leased conn, pool, effects) => some ⟨pool, call, leased conn, effects⟩
    | (.opening, pool, effects) => some ⟨pool, call, connecting, effects⟩
    | (.waiting, _, _) => none

/-- The next internal step; none if the execution waits or is over. -/
def advance (pool : Pool) (call : Call) : CallStage → Option CallTurn
  | entry =>
    if call.executed then
      some ⟨pool, call, finished (.error (.usage (.callExecuted call.request.method))), []⟩
    else
      some ⟨pool, { call with executed := true }, admitted, []⟩
  | admitted =>
    if call.isCancelled then some ⟨pool, call, settling (.error .cancelled), []⟩
    else some ⟨pool, call, acquiring, []⟩
  | acquiring => acquire pool call
  | leased conn => some ⟨pool, { call with abort := some conn }, registered conn, []⟩
  | registered conn =>
    if call.isCancelled then some ⟨pool, call, releasing conn true (.error .cancelled), []⟩
    else some ⟨pool, call, sending conn, [.notice (.dispatchingCall call.request.method)]⟩
  | exchanged conn result => some ⟨pool, { call with abort := none }, withdrawn conn result, []⟩
  | withdrawn conn result =>
    match call.complete, result with
    | (false, call), _ => some ⟨pool, call, releasing conn true (.error .cancelled), []⟩
    | (true, call), .ok frame => some ⟨pool, call, releasing conn false (.ok frame), []⟩
    | (true, call), .error error =>
      some ⟨pool, call, releasing conn true (.error error),
        [.notice (.callFailed call.request.method error)]⟩
  | releasing conn broken result =>
    let (pool, effects) := pool.giveBack conn broken
    some ⟨pool, call, settling result, effects⟩
  | settling result =>
    match call.complete with
    | (false, call) => some ⟨pool, call, finished (.error .cancelled), []⟩
    | (true, call) => some ⟨pool, call, finished (outcome call result), []⟩
  | connecting | sending _ | receiving _ | finished _ | abandoned => none

/-- Ends the wait for a connection: a last look, and then the time limit counts. -/
def expire (timeoutMs : Nat) (pool : Pool) (call : Call) : CallStage → Option CallTurn
  | acquiring =>
    match acquire pool call with
    | some turn => some turn
    | none => some ⟨pool, call, settling (.error (.poolTimeout timeoutMs)), []⟩
  | _ => none

/-- Takes the answer to the operation of a stage.  A panic gives the connection back as it is and
leaves a slot that was reserved for a new one taken. -/
def answered (pool : Pool) (call : Call) : CallStage → Answer → Option CallTurn
  | connecting, .connected =>
    let (conn, pool) := pool.connected
    some ⟨pool, call, leased conn, []⟩
  | connecting, .failed error =>
    let (pool, effects) := pool.refuse error
    some ⟨pool, call, settling (.error error), effects⟩
  | connecting, .panicked => some ⟨pool, call, abandoned, []⟩
  | sending conn, .sent => some ⟨pool, call, receiving conn, []⟩
  | sending conn, .failed error => some ⟨pool, call, exchanged conn (.error error), []⟩
  | receiving conn, .received frame => some ⟨pool, call, exchanged conn (.ok frame), []⟩
  | receiving conn, .failed error => some ⟨pool, call, exchanged conn (.error error), []⟩
  | sending conn, .panicked | receiving conn, .panicked =>
    let (pool, effects) := pool.giveBack conn false
    some ⟨pool, call, abandoned, effects⟩
  | _, _ => none

/-- Whether the execution is over. -/
def isOver : CallStage → Bool
  | finished _ | abandoned => true
  | _ => false

end CallStage

/-! ## 3. Cancelling a call -/

/-- Where a cancellation of a call stands. -/
inductive CancelStage where
  | entry
  /-- The cancellation has won. -/
  | claimed
  | done
  deriving DecidableEq, Repr

/-- The next step of a cancellation; none if it is over. -/
def CancelStage.advance (call : Call) : CancelStage → Option (Call × CancelStage × List Effect)
  | entry =>
    match call.cancel with
    | (true, call) => some (call, claimed, [])
    | (false, call) => some (call, done, [])
  | claimed =>
    match call.abort with
    | some conn => some ({ call with abort := none }, done, [.abort conn])
    | none => some (call, done, [])
  | done => none

end RemoteCall.Client
