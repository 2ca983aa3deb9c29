/-
# Runs of a client

A client is used by any number of users at once.  They make calls and batches and start tasks for
them (`Order`); the tasks take their steps in any order, and the endpoint answers as it likes
(`Label`).  A `World` is a client together with the log of what has happened so far: operations that
were answered, responses that were decoded, and the effects of steps.  Every statement about all
runs is one about every `Reachable` world, whatever the order of the steps and the answers.

The log is what statements about a run speak of.  `Log.sentOn` and `Log.receivedOn` are the traffic
of one connection, each entry with the request that it belongs to, and `Log.callbacks` is what the
user of a batch has been told.
-/
import RemoteCall.Client.Future

namespace RemoteCall.Client

/-! ## 1. What happens -/

/-- What a request is sent for. -/
inductive Subject where
  | call (id : Nat)
  | item (batch : Nat) (key : String)
  deriving DecidableEq, Repr

/-- Something that happens in a run. -/
inductive Event where
  /-- An operation is answered; a request or response belongs to a subject. -/
  | exchange (subject? : Option Subject) (operation : Operation) (answer : Answer)
  /-- A response is decoded. -/
  | decoded (subject : Subject) (frame : Bytes)
  | effect (effect : Effect)
  deriving Repr

/-- What the user of a batch is told. -/
inductive Callback where
  | delivery (delivery : Delivery)
  | terminal (result : BatchEnd)
  deriving Repr

/-- The connection that an operation is done on. -/
def Operation.conn? : Operation → Option ConnId
  | connect => none
  | send conn _ => some conn
  | receive conn => some conn

/-- What has happened, in order. -/
abbrev Log := List Event

namespace Log

/-- The requests that were sent on a connection. -/
def sentOn (log : Log) (conn : ConnId) : List (Subject × Bytes) :=
  log.filterMap fun
    | .exchange (some subject) (.send other frame) .sent =>
      if other = conn then some (subject, frame) else none
    | _ => none

/-- The responses that were received on a connection, with what they were received for. -/
def receivedOn (log : Log) (conn : ConnId) : List (Subject × Bytes) :=
  log.filterMap fun
    | .exchange (some subject) (.receive other) (.received frame) =>
      if other = conn then some (subject, frame) else none
    | _ => none

/-- An operation on the connection has failed. -/
def Failed (log : Log) (conn : ConnId) : Prop :=
  ∃ subject? operation error,
    .exchange subject? operation (.failed error) ∈ log ∧ operation.conn? = some conn

/-- An operation on the connection has panicked. -/
def Struck (log : Log) (conn : ConnId) : Prop :=
  ∃ subject? operation, .exchange subject? operation .panicked ∈ log ∧ operation.conn? = some conn

/-- The connection has been aborted. -/
def Aborted (log : Log) (conn : ConnId) : Prop := .effect (.abort conn) ∈ log

/-- The connections that were closed. -/
def closed (log : Log) : List ConnId :=
  log.filterMap fun
    | .effect (.close conn) => some conn
    | _ => none

/-- How often connecting has panicked.  Each time a slot of the pool is lost. -/
def lostSlots (log : Log) : Nat :=
  log.countP fun
    | .exchange _ .connect .panicked => true
    | _ => false

/-- What the user of a batch has been told. -/
def callbacks (log : Log) (batch : Nat) : List Callback :=
  log.filterMap fun
    | .effect (.delivered id delivery) => if id = batch then some (.delivery delivery) else none
    | .effect (.concluded id result) => if id = batch then some (.terminal result) else none
    | _ => none

end Log

/-! ## 2. What users and tasks do -/

/-- What an execution of call `id` sends or receives for. -/
def CallStage.subject? (id : Nat) : CallStage → Option Subject
  | sending _ | receiving _ => some (.call id)
  | _ => none

/-- The response that the next step of an execution of call `id` decodes. -/
def CallStage.decoding? (id : Nat) (call : Call) : CallStage → Option (Subject × Bytes)
  | settling (.ok frame) => if call.isCancelled then none else some (.call id, frame)
  | _ => none

/-- The item of batch `id` that a worker sends or receives for. -/
def WorkerStage.subject? (id : Nat) : WorkerStage → Option Subject
  | sending _ _ _ (item :: _) => some (.item id item.key)
  | receiving _ _ (item :: _) _ => some (.item id item.key)
  | _ => none

/-- The response that the next step of a worker of batch `id` decodes. -/
def WorkerStage.decoding? (id : Nat) : WorkerStage → Option (Subject × Bytes)
  | received _ _ item frame _ _ => some (.item id item.key, frame)
  | _ => none

/-- What a user does.  The first poll of a future of a call clones the call and executes the
clone. -/
inductive Order where
  | newCall (request : Request) (decoder : Adapter)
  | cloneCall (call : Nat)
  | execute (call : Nat)
  | cancel (call : Nat)
  | newBatch
  | addItem (batch : Nat) (item : BatchItem)
  | cloneBatch (batch : Nat)
  /-- Executes a batch. -/
  | collect (batch : Nat)
  /-- Executes a batch in the background. -/
  | enqueue (batch : Nat)
  /-- Polls a future of a batch for the first time. -/
  | poll (batch : Nat)
  /-- Cancels a batch. -/
  | stop (batch : Nat)
  deriving Repr

/-- A step of a run. -/
inductive Label where
  | order (order : Order)
  | advance (task : TaskId)
  | expire (task : TaskId)
  | answer (task : TaskId) (answer : Answer)
  deriving Repr

namespace Machine

/-- Does what a user orders, if that is possible. -/
def obey (machine : Machine) : Order → Option Machine
  | .newCall request decoder => some (machine.addCall (.new request decoder)).2
  | .cloneCall id => machine.calls[id]?.map fun call => (machine.addCall call.clone).2
  | .execute id => machine.calls[id]?.map fun _ => (machine.spawn (.executing id .entry)).2
  | .cancel id => machine.calls[id]?.map fun _ => (machine.spawn (.cancelling id .entry)).2
  | .newBatch => some (machine.addBatch (.ofItems [])).2
  | .addItem id item => machine.batches[id]?.bind fun batch =>
    match batch.addFault? item.key with
    | some _ => none
    | none => some { machine with batches := machine.batches.set id (batch.add item) }
  | .cloneBatch id => machine.batches[id]?.map fun batch => (machine.addBatch batch.clone).2
  | .collect id => machine.batches[id]?.map fun _ => (machine.spawn (.collecting id .new)).2
  | .enqueue id =>
    match machine.enqueue id with
    | .ok (_, machine) => some machine
    | .error _ => none
  | .poll id => machine.batches[id]?.map fun _ => ((BatchFuture.ofBatch id).poll machine).2.2.1
  | .stop id => machine.batches[id]?.map fun _ => (machine.spawn (.stopping id .entry)).2

/-- What the request or response of a waiting task belongs to. -/
def subject? (machine : Machine) (i : TaskId) : Option Subject :=
  match machine.tasks[i]? with
  | some (.executing id stage) => stage.subject? id
  | some (.working id stage) => stage.subject? id
  | _ => none

/-- The response that the next step of a task decodes. -/
def decoding? (machine : Machine) (i : TaskId) : Option (Subject × Bytes) :=
  match machine.tasks[i]? with
  | some (.executing id stage) => machine.calls[id]?.bind fun call => stage.decoding? id call
  | some (.working id stage) => stage.decoding? id
  | _ => none

end Machine

/-! ## 3. Runs -/

/-- A client at work with what has happened so far. -/
structure World where
  machine : Machine
  log : Log
  deriving Repr

namespace World

/-- A client that has done nothing. -/
def new (config : Config) : World := ⟨.new config, []⟩

/-- Takes a step; none if it is not possible. -/
def step (world : World) : Label → Option World
  | .order order => (world.machine.obey order).map fun machine => ⟨machine, world.log⟩
  | .advance i => (world.machine.advance i).map fun (machine, effects) =>
    let decoded := (world.machine.decoding? i).toList.map fun (subject, frame) =>
      Event.decoded subject frame
    ⟨machine, world.log ++ (decoded ++ effects.map .effect)⟩
  | .expire i => (world.machine.expire i).map fun (machine, effects) =>
    ⟨machine, world.log ++ effects.map .effect⟩
  | .answer i answer => (world.machine.operation? i).bind fun operation =>
    (world.machine.answer i answer).map fun (machine, effects) =>
      ⟨machine, world.log ++
        (.exchange (world.machine.subject? i) operation answer :: effects.map .effect)⟩

/-- The worlds that a client can come to. -/
inductive Reachable (config : Config) : World → Prop
  | new : Reachable config (.new config)
  | step {world world' : World} {label : Label} (before : Reachable config world)
    (taken : world.step label = some world') : Reachable config world'

end World

end RemoteCall.Client
