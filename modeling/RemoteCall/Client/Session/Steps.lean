/-
# The steps of a session

What a user can do in a session, each step under the names that the user has given.  A step fails
with an error of the library, or because nothing has the name it is asked for.
-/
import RemoteCall.Client.Session.Schedule

namespace RemoteCall.Client

/-! ## 1. Steps and failures -/

/-- Why a step of a session fails. -/
inductive Failure where
  /-- Nothing of this kind has the name. -/
  | missing (noun : String)
  | error (error : Error)
  deriving Repr

/-- A step of a session. -/
abbrev Act (α : Type) := EStateM Failure Session α

namespace Session

/-- Fails with an error of the library. -/
def raise {α : Type} (error : Error) : Act α := throw (.error error)

/-- The value of a result. -/
def check {α : Type} : Except Error α → Act α
  | .ok value => pure value
  | .error error => raise error

/-- The thing of a name. -/
def find {α : Type} (noun : String) (table : Session → List (String × α)) (name : String) :
    Act α := do
  match (table (← get)).lookup name with
  | some thing => return thing
  | none => throw (.missing noun)

/-- The method of a name. -/
def method (name : String) : Act NamedMethod := find "method" (·.methods) name

/-- The call of a name. -/
def callId (name : String) : Act Nat := find "call" (·.calls) name

/-- The batch of a name. -/
def batchId (name : String) : Act Nat := find "batch" (·.batches) name

/-- The future of a name. -/
def future (name : String) : Act Future := find "future" (·.futures) name

/-- The call of a name as it is. -/
def callNamed (name : String) : Act Call := do
  match (← get).machine.calls[← callId name]? with
  | some call => return call
  | none => throw (.missing "call")

/-- The batch of a name as it is. -/
def batchNamed (name : String) : Act Batch := do
  match (← get).machine.batches[← batchId name]? with
  | some batch => return batch
  | none => throw (.missing "batch")

/-- Keeps a call under a name. -/
def keepCall (name : String) (call : Call) : Act Unit :=
  modify fun session =>
    let (id, machine) := session.machine.addCall call
    { session with machine := machine, calls := (name, id) :: session.calls }

/-- Keeps a batch under a name. -/
def keepBatch (name : String) (batch : Batch) : Act Unit :=
  modify fun session =>
    let (id, machine) := session.machine.addBatch batch
    { session with machine := machine, batches := (name, id) :: session.batches }

/-- Keeps a future under a name. -/
def keepFuture (name : String) (future : Future) : Act Unit :=
  modify fun session => { session with futures := (name, future) :: session.futures }

/-- Replaces a batch. -/
def putBatch (id : Nat) (batch : Batch) : Act Unit :=
  modify fun session =>
    { session with machine :=
      { session.machine with batches := session.machine.batches.set id batch } }

/-! ## 2. Waiting -/

/-- Starts a task. -/
def begin (task : Task) : Act TaskId := modifyGet (·.spawn task)

/-- Starts a task that collects a batch for the user. -/
def beginBatch (id : Nat) (listening : Listening) : Act TaskId := do
  let task ← begin (.collecting id .new)
  modify fun session => { session with audiences := ⟨task, listening, []⟩ :: session.audiences }
  return task

/-- Lets the tasks in the background move as far as they can. -/
def settle : Act Unit := modify (quiesceWithin patience)

/-- Waits for the outcome of a task. -/
def await (task : TaskId) : Act Outcome := do
  modify (awaitWithin task patience)
  match (← get).outcome? task with
  | some outcome => return outcome
  | none => throw (.missing "end")

/-- Runs a task to its end. -/
def run (task : Task) : Act Unit := do
  discard (await (← begin task))

/-! ## 3. Methods -/

/-- Does something on the workbench of the client and reports the types it has resolved. -/
def atBench {α : Type} (work : EStateM Error Workbench α) : Act α := do
  let session ← get
  let (result, bench) := match work.run ⟨session.registry, []⟩ with
    | .ok value bench => (Except.ok value, bench)
    | .error error bench => (Except.error error, bench)
  let resolved := bench.resolved.map fun type => Notice.resolvedType type.name
  set { session with registry := bench.registry, notices := resolved ++ session.notices }
  check result

/-- Does something on the workbench whose failures come as they are. -/
def resolving {α : Type} (work : EStateM TypeFault Workbench α) : Act α :=
  atBench fun bench =>
    match work.run bench with
    | .ok value bench => .ok value bench
    | .error fault bench => .error (.type fault) bench

/-- Reports something. -/
def report (notice : Notice) : Act Unit :=
  modify fun session => { session with notices := notice :: session.notices }

/-- Composes a method, adapted to a family if one is given, and keeps it under a name. -/
def compose (name : String) (family : Option ReturnFamily) (spec : MethodSpec)
    (arguments : ArgumentType) (response : Ty) : Act Method := do
  let adapters := (← get).adapters
  let method ← atBench <| match family with
    | some family => composeAdapted adapters family spec arguments response
    | none => Client.compose spec arguments response
  report (.composedMethod method.name spec.parameters.length)
  modify fun session => { session with methods := (name, ⟨method, family⟩) :: session.methods }
  return method

/-- The request of arguments written without a method. -/
def writeParameters (arguments : ArgumentType) (values : Arguments)
    (bindings : List Naming.Binding) : Act Request := do
  let encoder ← resolving (Encoder.resolve arguments)
  check (Request.build "direct" (encoder.write bindings values))

/-! ## 4. Calls -/

/-- A call of a method. -/
def newCall (method : Method) (arguments : Arguments) (payload : Option Bytes) : Act Call := do
  return Call.new (← check (method.request arguments payload)) method.decoder

/-- Makes a call under a name. -/
def call (name methodName : String) (arguments : Arguments) (payload : Option Bytes) :
    Act Request := do
  let call ← newCall (← method methodName).method arguments payload
  keepCall name call
  return call.request

/-- Makes a call of an encoded request under a name. -/
def rawCall (name methodName : String) (parameters : Fields Value) (response : Ty)
    (payload : Option Bytes) : Act Request := do
  let request ← check (Request.ofParameters methodName parameters)
  let request := match payload with
    | some payload => request.withPayload payload
    | none => request
  keepCall name (.new request (← resolving (Workbench.adapter response)))
  return request

/-- Executes a call. -/
def execute (name : String) : Act Outcome := do
  await (← begin (.executing (← callId name) .entry))

/-- Cancels a call. -/
def cancel (name : String) : Act Unit := do
  run (.cancelling (← callId name) .entry)

/-- Makes a fresh call of the same request. -/
def clone (name copy : String) : Act Unit := do
  keepCall copy (← callNamed name).clone

/-- Calls an adapted method.  A future is kept under a name; any other family runs the call at once
and yields its outcome. -/
def callAdapted (name methodName : String) (arguments : Arguments) (payload : Option Bytes) :
    Act (Option Outcome) := do
  let found ← method methodName
  let call ← newCall found.method arguments payload
  let (id, machine) := (← get).machine.addCall call
  modify fun session => { session with machine := machine }
  if found.family = some (← get).adapters.futures then
    keepFuture name (.call (.ofCall id))
    return none
  else
    return some (← await (← begin (.executing id .entry)))

/-! ## 5. Batches -/

/-- Adds the item of a call to a batch and answers how many there are. -/
def addItem (id : Nat) (batch : Batch) (key : String) (call : Call) : Act Nat := do
  let batch := batch.add ⟨key, call.request, call.decoder⟩
  putBatch id batch
  return batch.items.length

/-- Checks that a key may be added. -/
def checkKey (batch : Batch) (key : String) : Act Unit :=
  match batch.addFault? key with
  | some fault => raise (.usage fault)
  | none => pure ()

/-- Adds a call of a method to a batch. -/
def add (name key methodName : String) (arguments : Arguments) : Act Nat := do
  let batch ← batchNamed name
  let found ← method methodName
  checkKey batch key
  addItem (← batchId name) batch key (← newCall found.method arguments none)

/-- Adds the request of a call to a batch. -/
def addCall (name key callName : String) : Act Nat := do
  let batch ← batchNamed name
  let call ← callNamed callName
  checkKey batch key
  addItem (← batchId name) batch key call

/-- Makes a fresh batch of the same items. -/
def cloneBatch (name copy : String) : Act Unit := do
  keepBatch copy (← batchNamed name).clone

/-- Cancels a batch. -/
def cancelBatch (name : String) : Act Unit := do
  run (.stopping (← batchId name) .entry)

/-- Executes a batch. -/
def executeBatch (name : String) (listening : Listening) : Act Outcome := do
  await (← beginBatch (← batchId name) listening)

/-- Runs a batch in the background, cancels it on demand, and waits for its end.  Also tells whether
it was still running when the background had moved as far as it could. -/
def enqueueBatch (name : String) (listening : Listening) (cancelled : Bool) :
    Act (Outcome × Bool) := do
  let id ← batchId name
  let (task, machine) ← check ((← get).machine.enqueue id)
  modify fun session => { session with
    machine := machine
    audiences := ⟨task, listening, []⟩ :: session.audiences }
  settle
  let running := !(← get).machine.isOver task
  if cancelled then run (.stopping id .entry)
  return (← await task, running)

/-! ## 6. Futures -/

/-- Turns a call into a future. -/
def callIntoFuture (name copy : String) : Act Unit := do
  let id ← callId name
  modify fun session => { session with calls := session.calls.filter (·.1 != name) }
  keepFuture copy (.call (.ofCall id))

/-- Turns a batch into a future. -/
def batchIntoFuture (name copy : String) : Act Unit := do
  let id ← batchId name
  modify fun session => { session with batches := session.batches.filter (·.1 != name) }
  keepFuture copy (.batch (.ofBatch id))

/-- The type of the outcome of a future. -/
def futureType (session : Session) : Future → Ty
  | .call future => ((session.machine.calls[future.call]?).map (·.decoder.type)).getD .unit
  | .batch future => session.batchType future.batch

/-- The task that a future runs. -/
def futureTask? : Future → Option TaskId
  | .call future => future.running.map (·.1)
  | .batch future => future.running.map (·.1)

/-- Polls a future. -/
def poll (name : String) : Act (Option Outcome) := do
  let future ← future name
  let session ← get
  let type := session.futureType future
  let (outcome, future, machine, effects) := match future with
    | .call future =>
      let (result, future, machine, effects) := future.poll session.machine
      (result.map (Outcome.call type), Future.call future, machine, effects)
    | .batch future =>
      let (result, future, machine, effects) := future.poll session.machine
      (result.map fun result => .batch type (.ok ([], result)), .batch future, machine, effects)
  set (effects.foldl (carryOut 0) { session with machine := machine })
  keepFuture name future
  return outcome

/-- Polls a future once and lets the background move. -/
def pollOnce (name : String) : Act (Option Outcome) := do
  let outcome ← poll name
  settle
  return outcome

/-- Waits for the outcome of a future. -/
def awaitFuture (name : String) : Act Outcome := do
  match ← poll name with
  | some outcome => return outcome
  | none =>
    match futureTask? (← future name) with
    | some task => discard (await task)
    | none => pure ()
    match ← poll name with
    | some outcome => return outcome
    | none => throw (.missing "end")

/-- Cancels a future. -/
def cancelFuture (name : String) : Act Unit := do
  match ← future name with
  | .call future =>
    let (future, task) := future.cancel
    keepFuture name (.call future)
    task.forM run
  | .batch future => run future.cancel

/-- Drops a future and lets the background move. -/
def dropFuture (name : String) : Act Unit := do
  let task := match ← future name with
    | .call future => future.drop?
    | .batch future => future.drop?
  modify fun session => { session with futures := session.futures.filter (·.1 != name) }
  task.forM run
  settle

/-! ## 7. Threads and hooks -/

/-- What a user can run or cancel: a call or a batch, by its name. -/
inductive Target where
  | call (name : String)
  | batch (name : String)
  deriving DecidableEq, Repr

/-- The task that executes a target, or cancels it. -/
def taskOn (target : Target) (cancels : Bool) : Act Task := do
  match target with
  | .call name =>
    let id ← callId name
    return if cancels then .cancelling id .entry else .executing id .entry
  | .batch name =>
    let id ← batchId name
    return if cancels then .stopping id .entry else .collecting id .new

/-- Arms a hook. -/
def arm (event : EventKind) (number : Nat) (target : Target) (cancels : Bool) : Act Unit := do
  let task ← taskOn target cancels
  modify fun session => { session with hooks := session.hooks ++ [⟨event, number, task⟩] }

/-- Executes a target on a thread of its own. -/
def spawnThread (name : String) (target : Target) (listening : Listening) : Act Unit := do
  let task ← match target with
    | .call name => do begin (.executing (← callId name) .entry)
    | .batch name => do beginBatch (← batchId name) listening
  modify fun session => { session with threads := (name, task) :: session.threads }
  settle

/-- Waits for the outcome of a thread. -/
def join (name : String) : Act Outcome := do
  await (← find "thread" (·.threads) name)

/-- Starts or ends holding. -/
def hold (holding : Bool) : Act Unit :=
  modify fun session => { session with loopback := { session.loopback with holding := holding } }

/-- The requests that have come since the last time. -/
def received : Act (List ReceivedRequest) :=
  modifyGet fun session =>
    let (requests, loopback) := session.loopback.takeInbox
    (requests, { session with loopback := loopback })

/-! ## 8. What a session reports -/

/-- Takes the notices since the last step, in order. -/
def takeNotices (session : Session) : List Notice × Session :=
  (session.notices.reverse, { session with notices := [] })

/-- Takes the results of hooks since the last step, in order. -/
def takeHookOutcomes (session : Session) : List Outcome × Session :=
  (session.hookOutcomes.reverse, { session with hookOutcomes := [] })

end Session

end RemoteCall.Client
