/-
# A session with a client

One user drives a client step by step under names of its own: it composes methods, makes calls and
batches, runs them at once or in the background, holds the endpoint and lets it go.  The endpoint is
in memory, or an address at which nothing can be reached.

This module holds the state of a session, what the effects of the client's steps do to it, and what
a task has come to.
-/
import RemoteCall.Client.Future
import RemoteCall.Client.Loopback
import RemoteCall.Client.Method

namespace RemoteCall.Client

/-! ## 1. State -/

/-- A task to be run when an event happens. -/
structure Hook where
  event : EventKind
  number : Nat
  task : Task
  deriving Repr

/-- How far a task has come with the operation it asks for. -/
structure Visit where
  task : TaskId
  /-- The number of the event. -/
  number : Nat
  /-- The task of the hook, until its result is noted. -/
  hook : Option TaskId
  deriving Repr

/-- How deliveries of a batch are taken. -/
structure Listening where
  /-- Cancels the batch inside the delivery of this number; zero for never. -/
  cancelAfter : Nat
  /-- Whether errors of single items are ignored. -/
  quiet : Bool
  /-- Whether what was heard is put in order of the keys, for several workers deliver in any order. -/
  sorted : Bool
  deriving DecidableEq, Repr

/-- Whether an audience takes a delivery. -/
def Listening.takes (listening : Listening) : Delivery → Bool
  | .response .. => true
  | .itemError .. => !listening.quiet

/-- What has been delivered to the user of a batch. -/
structure Audience where
  task : TaskId
  listening : Listening
  /-- The deliveries, last first. -/
  heard : List Delivery
  deriving Repr

/-- A method under a name, and the family of its return type if it is adapted. -/
structure NamedMethod where
  method : Method
  family : Option ReturnFamily
  deriving Repr

/-- A future under a name. -/
inductive Future where
  | call (future : CallFuture)
  | batch (future : BatchFuture)
  deriving Repr

/-- What a task has come to. -/
inductive Outcome where
  | cancelled
  | call (type : Ty) (result : Except Error Datum)
  | batch (type : Ty) (result : Except Error (List Delivery × BatchEnd))
  deriving Repr

/-- Where a client sends its requests. -/
inductive Endpoint where
  | loopback
  /-- An address at which nothing can be reached. -/
  | address (address : String)
  deriving DecidableEq, Repr

/-- A client, its endpoint and what its user has under names. -/
structure Session where
  machine : Machine
  registry : Registry
  adapters : CallAdapters
  endpoint : Endpoint
  loopback : Loopback
  hooks : List Hook
  visits : List Visit
  audiences : List Audience
  /-- Tasks that wait until another one is over. -/
  paused : List (TaskId × TaskId)
  /-- What the client has reported since the last step, last first. -/
  notices : List Notice
  /-- The results of hooks since the last step, last first. -/
  hookOutcomes : List Outcome
  methods : List (String × NamedMethod)
  calls : List (String × Nat)
  batches : List (String × Nat)
  futures : List (String × Future)
  threads : List (String × TaskId)

namespace Session

/-- A session with a new client. -/
def new (config : Config) (registry : Registry) (adapters : CallAdapters)
    (endpoint : Endpoint) (faults : List Fault) : Session where
  machine := .new config
  registry := registry
  adapters := adapters
  endpoint := endpoint
  loopback := .new faults
  hooks := []
  visits := []
  audiences := []
  paused := []
  notices := [.createdClient config.maxConnections config.batchConnections]
  hookOutcomes := []
  methods := []
  calls := []
  batches := []
  futures := []
  threads := []

/-- Opens a session, if the configuration allows progress and an endpoint is set. -/
def start (config : Config) (registry : Registry) (adapters : CallAdapters)
    (endpoint : Option Endpoint) (faults : List Fault) : Except Error Session := do
  config.validate
  match endpoint with
  | some endpoint => return new config registry adapters endpoint faults
  | none => throw (.usage .noEndpoint)

/-- The counts that a user sees: idle and leased connections, openings, sends and receives. -/
def stats (session : Session) : List Nat :=
  [session.machine.pool.idle.length, session.machine.pool.leased, session.loopback.connects,
    session.loopback.sends, session.loopback.receives]

/-! ## 2. Effects -/

/-- Starts a task. -/
def spawn (session : Session) (task : Task) : TaskId × Session :=
  let (id, machine) := session.machine.spawn task
  (id, { session with machine := machine })

/-- Starts a task for which another one waits. -/
def spawnFor (session : Session) (waiter : TaskId) (task : Task) : TaskId × Session :=
  let (id, session) := session.spawn task
  (id, { session with paused := (waiter, id) :: session.paused })

/-- Hands a delivery of a batch to the user that task `i` collects it for. -/
def deliver (session : Session) (i : TaskId) (batch : Nat) (delivery : Delivery) : Session :=
  match session.audiences.find? (·.task == i) with
  | none => session
  | some audience =>
    if audience.listening.takes delivery then
      let audience := { audience with heard := delivery :: audience.heard }
      let session := { session with
        audiences := audience :: session.audiences.filter (·.task != i) }
      if audience.heard.length = audience.listening.cancelAfter then
        (session.spawnFor i (.stopping batch .entry)).2
      else
        session
    else
      session

/-- Carries out an effect of a step of task `i`. -/
def carryOut (i : TaskId) (session : Session) : Effect → Session
  | .notice notice => { session with notices := notice :: session.notices }
  | .abort conn => { session with loopback := session.loopback.abort conn }
  | .close conn => { session with loopback := session.loopback.close conn }
  | .delivered batch delivery => session.deliver i batch delivery
  | .concluded .. => session

/-- Puts back the machine after a step of task `i` and carries out its effects. -/
def after (session : Session) (i : TaskId) (step : Machine × List Effect) : Session :=
  step.2.foldl (carryOut i) { session with machine := step.1 }

/-! ## 3. Outcomes -/

/-- The type of the responses of a batch. -/
def batchType (session : Session) (id : Nat) : Ty :=
  ((session.machine.batches[id]?.bind (·.items.head?)).map (·.decoder.type)).getD .unit

/-- Puts things in order of their keys. -/
def sortBy {α : Type} (key : α → String) (things : List α) : List α :=
  things.mergeSort fun first second => key first ≤ key second

/-- The end of a batch with its items in order of their keys. -/
def sortEnd : BatchEnd → BatchEnd
  | .complete responses errors => .complete (sortBy Prod.fst responses) (sortBy Prod.fst errors)
  | .failure error completed => .failure error (sortBy Prod.fst completed)

/-- What the user has heard of a batch that task `i` has collected. -/
def heard (session : Session) (i : TaskId) (result : BatchEnd) : List Delivery × BatchEnd :=
  match session.audiences.find? (·.task == i) with
  | none => ([], result)
  | some audience =>
    if audience.listening.sorted then (sortBy Delivery.key audience.heard.reverse, sortEnd result)
    else (audience.heard.reverse, result)

/-- What a task has come to, once it is over. -/
def outcome? (session : Session) (i : TaskId) : Option Outcome :=
  match session.machine.tasks[i]? with
  | some (.executing id stage) =>
    match stage, session.machine.calls[id]? with
    | .finished result, some call => some (.call call.decoder.type result)
    | .abandoned, some call => some (.call call.decoder.type (.error (.transport .callTaskFailed)))
    | _, _ => none
  | some (.collecting id collector) =>
    match collector.stage with
    | .finished (.ok result) => some (.batch (session.batchType id) (.ok (session.heard i result)))
    | .finished (.error error) => some (.batch (session.batchType id) (.error error))
    | .abandoned =>
      some (.batch (session.batchType id) (.error (.transport .batchThreadPanicked)))
    | _ => none
  | some task => if task.isOver then some .cancelled else none
  | none => none

end Session

end RemoteCall.Client
