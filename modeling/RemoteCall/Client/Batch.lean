/-
# Batches

A batch is an ordered set of requests under different keys, run together.  Workers, each with a
connection of its own, take chunks from the common queue, send the requests of a chunk and then read
the responses in order.  What they find they report over one channel to the collector, which
delivers it to the user and ends the batch: completely, or early at the first failure of an exchange
or after a cancellation.

* `Batch` is what all parties share.
* `WorkerStage.advance` and `answered` are the steps of a worker.  A worker that cannot get a
  connection leaves the queue to the others.
* `CollectorStage.advance` gives the steps of the collector up to the end of the batch.
* `StopStage.advance` gives the steps of a cancellation: raise the flag, then abort every registered
  connection.
-/
import RemoteCall.Client.Exchange
import RemoteCall.Message.Request
import RemoteCall.Message.Response

namespace RemoteCall.Client

/-! ## 1. Batches -/

/-- A request of a batch. -/
structure BatchItem where
  key : String
  request : Request
  decoder : Adapter
  deriving Repr

/-- What a worker reports. -/
inductive Report where
  | delivery (delivery : Delivery)
  /-- The exchanges of the worker ended early. -/
  | failed (error : Error)
  deriving Repr

/-- A batch. -/
structure Batch where
  items : List BatchItem
  /-- The keys that are taken: a set, in which only membership counts. -/
  keys : List String
  started : Bool
  cancelled : Bool
  /-- Whether the batch is over, for workers that still run. -/
  halted : Bool
  /-- The connections of the workers in the order of registration; none for one that was withdrawn
  or aborted. -/
  aborts : List (Option ConnId)
  /-- How the last worker failed that got no connection. -/
  acquireError : Option Error
  /-- The items that no worker has taken yet. -/
  queue : List BatchItem
  /-- The reports that the collector has not taken yet. -/
  channel : List Report
  deriving Repr

namespace Batch

/-- A batch of items that has not started. -/
def ofItems (items : List BatchItem) : Batch :=
  ⟨items, items.map (·.key), false, false, false, [], none, [], []⟩

/-- An independent batch of the same items under the same keys. -/
def clone (batch : Batch) : Batch := { ofItems batch.items with keys := batch.keys }

/-- Whether a key is taken. -/
def contains (batch : Batch) (key : String) : Bool := batch.keys.contains key

/-- Why nothing can be added under a key. -/
def addFault? (batch : Batch) (key : String) : Option UsageFault :=
  if batch.started then some .batchStarted
  else if batch.contains key then some .duplicateKey
  else none

/-- Adds an item and takes its key. -/
def add (batch : Batch) (item : BatchItem) : Batch :=
  { batch with
    items := batch.items ++ [item]
    keys := if batch.contains item.key then batch.keys else batch.keys ++ [item.key] }

/-- Whether workers are to stop. -/
def isStopping (batch : Batch) : Bool := batch.cancelled || batch.halted

/-- Puts a report into the channel. -/
def report (batch : Batch) (report : Report) : Batch :=
  { batch with channel := batch.channel ++ [report] }

/-- The registered connections. -/
def registered (batch : Batch) : List ConnId := batch.aborts.filterMap id

/-- Withdraws every registration. -/
def sweep (batch : Batch) : Batch := { batch with aborts := batch.aborts.map fun _ => none }

/-- Withdraws one registration, and tells whether it was still there. -/
def unregister (batch : Batch) (slot : Nat) : Bool × Batch :=
  ((batch.aborts.getD slot none).isSome, { batch with aborts := batch.aborts.set slot none })

end Batch

/-! ## 2. Workers -/

/-- Where a worker stands.  `slot` is the place of its registration. -/
inductive WorkerStage where
  | acquiring
  | connecting
  | leased (conn : ConnId)
  /-- Between two chunks. -/
  | ready (conn : ConnId) (slot : Nat)
  | fetching (conn : ConnId) (slot : Nat)
  /-- Sends the first of `todo`; `sent` has been sent. -/
  | sending (conn : ConnId) (slot : Nat) (sent todo : List BatchItem)
  /-- Receives the response to the first of `waiting`; a send has failed if there is an error. -/
  | receiving (conn : ConnId) (slot : Nat) (waiting : List BatchItem) (sendError : Option Error)
  /-- Has received the response to `item`. -/
  | received (conn : ConnId) (slot : Nat) (item : BatchItem) (frame : Bytes)
      (waiting : List BatchItem) (sendError : Option Error)
  | failing (conn : ConnId) (error : Error)
  | releasing (conn : ConnId) (broken : Bool)
  | finished
  /-- The worker ended without a report. -/
  | abandoned
  deriving Repr

/-- What a step of a worker leaves behind. -/
structure WorkerTurn where
  pool : Pool
  batch : Batch
  stage : WorkerStage
  effects : List Effect

namespace WorkerStage

/-- The operation a stage waits for. -/
def operation? : WorkerStage → Option Operation
  | connecting => some .connect
  | sending conn _ _ (item :: _) => some (.send conn item.request.frame)
  | receiving conn _ (_ :: _) _ => some (.receive conn)
  | _ => none

/-- Ends a worker that got no connection. -/
def emptyHanded (pool : Pool) (batch : Batch) (error : Error) (effects : List Effect) :
    WorkerTurn :=
  ⟨pool, { batch with acquireError := some error }, finished,
    effects ++ [.notice (.workerWithoutConnection error)]⟩

/-- Takes a connection, or a slot for one, unless the batch stops or the pool is full. -/
def acquire (pool : Pool) (batch : Batch) : Option WorkerTurn :=
  if batch.isStopping then some (emptyHanded pool batch .cancelled [])
  else
    match pool.acquire with
    | (.leased conn, pool, effects) => some ⟨pool, batch, leased conn, effects⟩
    | (.opening, pool, effects) => some ⟨pool, batch, connecting, effects⟩
    | (.waiting, _, _) => none

/-- Where a worker goes that has responses to wait for: on receiving, or to the end of the chunk. -/
def await (conn : ConnId) (slot : Nat) (waiting : List BatchItem) (sendError : Option Error) :
    WorkerStage :=
  match waiting, sendError with
  | [], none => ready conn slot
  | [], some error => failing conn error
  | _ :: _, _ => receiving conn slot waiting sendError

/-- Where a worker goes that has requests to send. -/
def dispatch (conn : ConnId) (slot : Nat) (sent todo : List BatchItem) : WorkerStage :=
  match todo with
  | [] => await conn slot sent none
  | _ :: _ => sending conn slot sent todo

/-- What is delivered for an item when its response has come. -/
def delivery (item : BatchItem) (frame : Bytes) : Delivery :=
  match Response.decodeWith item.decoder frame with
  | .ok value => .response item.key value
  | .error error => .itemError item.key error

/-- The next internal step; none if the worker waits or is over. -/
def advance (depth : Nat) (pool : Pool) (batch : Batch) : WorkerStage → Option WorkerTurn
  | acquiring => acquire pool batch
  | leased conn =>
    if batch.isStopping then some ⟨pool, batch, failing conn .cancelled, [.abort conn]⟩
    else
      some ⟨pool, { batch with aborts := batch.aborts ++ [some conn] },
        ready conn batch.aborts.length, []⟩
  | ready conn slot =>
    if batch.isStopping then some ⟨pool, batch, failing conn .cancelled, []⟩
    else some ⟨pool, batch, fetching conn slot, []⟩
  | fetching conn slot =>
    match batch.queue.take depth with
    | [] =>
      let (isRegistered, batch) := batch.unregister slot
      some ⟨pool, batch, releasing conn !isRegistered, []⟩
    | chunk =>
      some ⟨pool, { batch with queue := batch.queue.drop depth }, dispatch conn slot [] chunk, []⟩
  | received conn slot item frame waiting sendError =>
    some ⟨pool, batch.report (.delivery (delivery item frame)), await conn slot waiting sendError, []⟩
  | failing conn error => some ⟨pool, batch.report (.failed error), releasing conn true, []⟩
  | releasing conn broken =>
    let (pool, effects) := pool.giveBack conn broken
    some ⟨pool, batch, finished, effects⟩
  | connecting | sending .. | receiving .. | finished | abandoned => none

/-- Ends the wait for a connection: a last look, and then the time limit counts. -/
def expire (timeoutMs : Nat) (pool : Pool) (batch : Batch) : WorkerStage → Option WorkerTurn
  | acquiring =>
    match acquire pool batch with
    | some turn => some turn
    | none => some (emptyHanded pool batch (.poolTimeout timeoutMs) [])
  | _ => none

/-- Takes the answer to the operation of a stage.  If sending fails, the requests sent before are
still answered.  A panic gives the connection back as it is and leaves a slot that was reserved for
a new one taken. -/
def answered (pool : Pool) (batch : Batch) : WorkerStage → Answer → Option WorkerTurn
  | connecting, .connected =>
    let (conn, pool) := pool.connected
    some ⟨pool, batch, leased conn, []⟩
  | connecting, .failed error =>
    let (pool, effects) := pool.refuse error
    some (emptyHanded pool batch error effects)
  | connecting, .panicked => some ⟨pool, batch, abandoned, []⟩
  | sending conn slot sent (item :: todo), .sent =>
    some ⟨pool, batch, dispatch conn slot (sent ++ [item]) todo, []⟩
  | sending conn slot sent _, .failed error =>
    some ⟨pool, batch, await conn slot sent (some error), []⟩
  | receiving conn slot (item :: waiting) sendError, .received frame =>
    some ⟨pool, batch, received conn slot item frame waiting sendError, []⟩
  | receiving conn _ _ _, .failed error => some ⟨pool, batch, failing conn error, []⟩
  | sending conn _ _ _, .panicked | receiving conn _ _ _, .panicked =>
    let (pool, effects) := pool.giveBack conn false
    some ⟨pool, batch, abandoned, effects⟩
  | _, _ => none

/-- Whether the worker is over. -/
def isOver : WorkerStage → Bool
  | finished | abandoned => true
  | _ => false

/-- Whether the worker ended without a report. -/
def isAbandoned : WorkerStage → Bool
  | abandoned => true
  | _ => false

end WorkerStage

/-! ## 3. The collector -/

/-- Where the collector stands. -/
inductive CollectorStage where
  /-- Nothing has happened yet. -/
  | entry
  /-- The batch is started. -/
  | launching
  | listening
  /-- Has taken a report. -/
  | inspecting (report : Report)
  | delivering (delivery : Delivery)
  /-- A worker has failed. -/
  | rejecting (error : Error)
  /-- The batch ends early: the workers are to be told. -/
  | halting (error : Error)
  | sweeping (error : Error)
  | firing (conns : List ConnId) (error : Error)
  /-- Waits for the workers to end. -/
  | joining (failure : Option Error)
  /-- The workers are over. -/
  | joined (failure : Option Error)
  | concluding (failure : Option Error)
  | finished (result : Except Error BatchEnd)
  /-- A worker panicked, and the collector with it. -/
  | abandoned
  deriving Repr

/-- The collector of a batch with what it has delivered so far. -/
structure Collector where
  stage : CollectorStage
  completed : List (String × Datum)
  errors : List (String × Error)
  deriving Repr

namespace Collector

/-- A collector that has not started its batch. -/
def new : Collector := ⟨.entry, [], []⟩

/-- The collector of a batch that is started. -/
def launched : Collector := ⟨.launching, [], []⟩

/-- How many items are answered. -/
def answeredCount (collector : Collector) : Nat :=
  collector.completed.length + collector.errors.length

/-- Notes a delivery. -/
def note (collector : Collector) : Delivery → Collector
  | .response key value => { collector with completed := collector.completed ++ [(key, value)] }
  | .itemError key error => { collector with errors := collector.errors ++ [(key, error)] }

/-- The error with which a batch ends early although no worker failed: not every item is answered.
-/
def shortfall? (collector : Collector) (batch : Batch) : Option Error :=
  if collector.answeredCount < batch.items.length then
    some (batch.acquireError.getD
      (.transport (.unanswered collector.answeredCount batch.items.length)))
  else
    none

/-- The end of a batch. -/
def batchEnd (collector : Collector) : Option Error → BatchEnd
  | some error => .failure error collector.completed
  | none => .complete collector.completed collector.errors

/-- The notice of the end of a batch of `total` items. -/
def endNotice (collector : Collector) (total : Nat) : Option Error → Notice
  | some error => .batchAborted collector.completed.length total error
  | none => .batchComplete collector.completed.length collector.errors.length

/-- Whether the collector is over. -/
def isOver (collector : Collector) : Bool :=
  match collector.stage with
  | .finished _ | .abandoned => true
  | _ => false

end Collector

/-- How the workers of a batch stand, as far as the collector can see. -/
inductive Crew where
  | working
  | ended
  /-- All are over, and one of them panicked. -/
  | panicked
  deriving DecidableEq, Repr

/-- What a step of a collector leaves behind. -/
structure CollectorTurn where
  batch : Batch
  collector : Collector
  effects : List Effect
  /-- How many workers are to be started. -/
  hired : Nat := 0

namespace Collector

/-- The next step of the collector of batch `id`; none if it waits or is over.  `workers` is the
number of workers that may be started, `depth` the length of a chunk. -/
def advance (id : Nat) (workers depth : Nat) (crew : Crew) (batch : Batch)
    (collector : Collector) : Option CollectorTurn :=
  let goto (stage : CollectorStage) : Collector := { collector with stage := stage }
  match collector.stage with
  | .entry =>
    if batch.started then
      some ⟨batch, goto (.finished (.error (.usage .batchExecuted))), [], 0⟩
    else
      some ⟨{ batch with started := true }, goto .launching, [], 0⟩
  | .launching =>
    let total := batch.items.length
    let hired := min workers total
    some ⟨{ batch with queue := batch.items }, goto .listening,
      [.notice (.startingBatch total hired depth)], hired⟩
  | .listening =>
    match batch.channel, crew with
    | report :: channel, _ =>
      some ⟨{ batch with channel := channel }, goto (.inspecting report), [], 0⟩
    | [], .working => none
    | [], _ => some ⟨batch, goto (.joining none), [], 0⟩
  | .inspecting report =>
    if batch.cancelled then some ⟨batch, goto (.halting .cancelled), [], 0⟩
    else
      match report with
      | .delivery delivery => some ⟨batch, goto (.delivering delivery), [], 0⟩
      | .failed error => some ⟨batch, goto (.rejecting error), [], 0⟩
  | .delivering delivery =>
    some ⟨batch, (goto .listening).note delivery, [.delivered id delivery], 0⟩
  | .rejecting error =>
    some ⟨batch, goto (.halting (if batch.cancelled then .cancelled else error)), [], 0⟩
  | .halting error => some ⟨{ batch with halted := true }, goto (.sweeping error), [], 0⟩
  | .sweeping error => some ⟨batch.sweep, goto (.firing batch.registered error), [], 0⟩
  | .firing [] error => some ⟨batch, goto (.joining (some error)), [], 0⟩
  | .firing (conn :: conns) error => some ⟨batch, goto (.firing conns error), [.abort conn], 0⟩
  | .joining failure =>
    match crew with
    | .working => none
    | .ended => some ⟨batch, goto (.joined failure), [], 0⟩
    | .panicked => some ⟨batch, goto .abandoned, [], 0⟩
  | .joined failure =>
    match failure with
    | some error => some ⟨batch, goto (.concluding (some error)), [], 0⟩
    | none =>
      some ⟨batch, goto (.concluding (if batch.cancelled then some .cancelled else none)), [], 0⟩
  | .concluding failure =>
    let failure := failure.or (collector.shortfall? batch)
    let result := collector.batchEnd failure
    some ⟨{ batch with halted := true, aborts := [] }, goto (.finished (.ok result)),
      [.notice (collector.endNotice batch.items.length failure), .concluded id result], 0⟩
  | .finished _ | .abandoned => none

end Collector

/-! ## 4. Cancelling a batch -/

/-- Where a cancellation of a batch stands. -/
inductive StopStage where
  | entry
  | flagged
  | firing (conns : List ConnId)
  deriving DecidableEq, Repr

namespace StopStage

/-- The next step of a cancellation; none if it is over. -/
def advance (batch : Batch) : StopStage → Option (Batch × StopStage × List Effect)
  | entry => some ({ batch with cancelled := true }, flagged, [])
  | flagged => some (batch.sweep, firing batch.registered, [])
  | firing (conn :: conns) => some (batch, firing conns, [.abort conn])
  | firing [] => none

/-- Whether the cancellation is over. -/
def isOver : StopStage → Bool
  | firing [] => true
  | _ => false

end StopStage

end RemoteCall.Client
