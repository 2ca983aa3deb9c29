/-
# The client as a machine of tasks

A machine holds the pool, the calls and the batches of one client and the tasks that work on them.
Everything that happens is one of three labelled steps of one task:

* `advance`: the task takes its next internal step, one atomic action on what others see;
* `answer`: the endpoint answers the operation that the task asks for;
* `expire`: the time limit of a task that waits for a connection is over.

Which task moves next, and what the endpoint answers, is left open: a statement about all runs is
one about all sequences of these steps.
-/
import RemoteCall.Client.Batch
import RemoteCall.Client.Call
import RemoteCall.Client.Config

namespace RemoteCall.Client

/-- The number of a task. -/
abbrev TaskId := Nat

/-- What is done on behalf of a user. -/
inductive Task where
  | executing (call : Nat) (stage : CallStage)
  | cancelling (call : Nat) (stage : CancelStage)
  | collecting (batch : Nat) (collector : Collector)
  | working (batch : Nat) (stage : WorkerStage)
  | stopping (batch : Nat) (stage : StopStage)
  deriving Repr

/-- Whether a task is over. -/
def Task.isOver : Task → Bool
  | executing _ stage => stage.isOver
  | cancelling _ stage => stage == .done
  | collecting _ collector => collector.isOver
  | working _ stage => stage.isOver
  | stopping _ stage => stage.isOver

/-- A client at work. -/
structure Machine where
  config : Config
  pool : Pool
  calls : List Call
  batches : List Batch
  tasks : List Task
  deriving Repr

namespace Machine

/-- A client that has done nothing. -/
def new (config : Config) : Machine := ⟨config, Pool.new config.maxConnections, [], [], []⟩

/-! ## 1. What a user starts -/

/-- Adds a call. -/
def addCall (machine : Machine) (call : Call) : Nat × Machine :=
  (machine.calls.length, { machine with calls := machine.calls ++ [call] })

/-- Adds a batch. -/
def addBatch (machine : Machine) (batch : Batch) : Nat × Machine :=
  (machine.batches.length, { machine with batches := machine.batches ++ [batch] })

/-- Starts a task. -/
def spawn (machine : Machine) (task : Task) : TaskId × Machine :=
  (machine.tasks.length, { machine with tasks := machine.tasks ++ [task] })

/-- Starts to collect a batch in the background, unless it was started before. -/
def enqueue (machine : Machine) (id : Nat) : Except Error (TaskId × Machine) :=
  match machine.batches[id]? with
  | none => .error (.usage .batchExecuted)
  | some batch =>
    if batch.started then .error (.usage .batchExecuted)
    else
      .ok ({ machine with batches := machine.batches.set id { batch with started := true } }.spawn
        (.collecting id .launched))

/-! ## 2. What can be seen of a task -/

/-- Whether a task is over. -/
def isOver (machine : Machine) (i : TaskId) : Bool := machine.tasks[i]?.all (·.isOver)

/-- The operation that a task waits for. -/
def operation? (machine : Machine) (i : TaskId) : Option Operation :=
  match machine.tasks[i]? with
  | some (.executing id stage) => machine.calls[id]?.bind stage.operation?
  | some (.working _ stage) => stage.operation?
  | _ => none

/-- The stages of the workers of a batch. -/
def workers (machine : Machine) (id : Nat) : List WorkerStage :=
  machine.tasks.filterMap fun
    | .working batch stage => if batch = id then some stage else none
    | _ => none

/-- How the workers of a batch stand. -/
def crew (machine : Machine) (id : Nat) : Crew :=
  let stages := machine.workers id
  if stages.all (·.isOver) then
    if stages.any (·.isAbandoned) then .panicked else .ended
  else
    .working

/-- How many workers a batch may have: more than the pool has connections would only wait for each
other. -/
def workerLimit (machine : Machine) : Nat := min machine.config.batchConnections machine.pool.limit

/-- The length of a chunk. -/
def depth (machine : Machine) : Nat := max machine.config.pipelineDepth 1

/-! ## 3. Steps -/

/-- Puts back what a step of an execution leaves behind. -/
def endCallTurn (machine : Machine) (i : TaskId) (id : Nat) (turn : CallTurn) :
    Machine × List Effect :=
  ({ machine with
      pool := turn.pool
      calls := machine.calls.set id turn.call
      tasks := machine.tasks.set i (.executing id turn.stage) }, turn.effects)

/-- Puts back what a step of a worker leaves behind. -/
def endWorkerTurn (machine : Machine) (i : TaskId) (id : Nat) (turn : WorkerTurn) :
    Machine × List Effect :=
  ({ machine with
      pool := turn.pool
      batches := machine.batches.set id turn.batch
      tasks := machine.tasks.set i (.working id turn.stage) }, turn.effects)

/-- Puts back what a step of a collector leaves behind, and starts the workers it asks for. -/
def endCollectorTurn (machine : Machine) (i : TaskId) (id : Nat) (turn : CollectorTurn) :
    Machine × List Effect :=
  ({ machine with
      batches := machine.batches.set id turn.batch
      tasks := machine.tasks.set i (.collecting id turn.collector)
        ++ List.replicate turn.hired (.working id .acquiring) }, turn.effects)

/-- The next internal step of a task; none if it waits or is over. -/
def advance (machine : Machine) (i : TaskId) : Option (Machine × List Effect) :=
  match machine.tasks[i]? with
  | none => none
  | some (.executing id stage) => do
    let call ← machine.calls[id]?
    let turn ← stage.advance machine.pool call
    return machine.endCallTurn i id turn
  | some (.cancelling id stage) => do
    let call ← machine.calls[id]?
    let (call, stage, effects) ← stage.advance call
    return ({ machine with
      calls := machine.calls.set id call
      tasks := machine.tasks.set i (.cancelling id stage) }, effects)
  | some (.collecting id collector) => do
    let batch ← machine.batches[id]?
    let turn ← collector.advance id machine.workerLimit machine.depth (machine.crew id) batch
    return machine.endCollectorTurn i id turn
  | some (.working id stage) => do
    let batch ← machine.batches[id]?
    let turn ← stage.advance machine.depth machine.pool batch
    return machine.endWorkerTurn i id turn
  | some (.stopping id stage) => do
    let batch ← machine.batches[id]?
    let (batch, stage, effects) ← stage.advance batch
    return ({ machine with
      batches := machine.batches.set id batch
      tasks := machine.tasks.set i (.stopping id stage) }, effects)

/-- Ends the wait of a task for a connection; none if it does not wait for one. -/
def expire (machine : Machine) (i : TaskId) : Option (Machine × List Effect) :=
  match machine.tasks[i]? with
  | some (.executing id stage) => do
    let call ← machine.calls[id]?
    let turn ← stage.expire machine.config.acquireTimeoutMs machine.pool call
    return machine.endCallTurn i id turn
  | some (.working id stage) => do
    let batch ← machine.batches[id]?
    let turn ← stage.expire machine.config.acquireTimeoutMs machine.pool batch
    return machine.endWorkerTurn i id turn
  | _ => none

/-- Answers the operation that a task waits for; none if the answer does not fit. -/
def answer (machine : Machine) (i : TaskId) (reply : Answer) : Option (Machine × List Effect) :=
  match machine.tasks[i]? with
  | some (.executing id stage) => do
    let call ← machine.calls[id]?
    let turn ← stage.answered machine.pool call reply
    return machine.endCallTurn i id turn
  | some (.working id stage) => do
    let batch ← machine.batches[id]?
    let turn ← stage.answered machine.pool batch reply
    return machine.endWorkerTurn i id turn
  | _ => none

end Machine

end RemoteCall.Client
