/-
# In which order the tasks of a session move

While the user waits for a task, the first task that can move moves; when none can, the wait of the
first task that waits for a connection is over.

An operation on the endpoint is counted first.  A hook that is armed for it then runs a task of its
own, and only when that is over the operation fails or happens, or waits while the endpoint holds.
-/
import RemoteCall.Client.Session.State
import RemoteCall.Transport.Address

namespace RemoteCall.Client.Session

/-! ## 1. Operations -/

/-- Answers the operation of a task. -/
def reply (session : Session) (i : TaskId) (answer : Answer) : Option Session :=
  (session.machine.answer i answer).map fun step =>
    { session.after i step with visits := session.visits.filter (·.task != i) }

/-- Notes how far a task has come with its operation. -/
def note (session : Session) (visit : Visit) : Session :=
  { session with visits := visit :: session.visits.filter (·.task != visit.task) }

/-- Counts the operation of a task and starts the hook that waits for it. -/
def enter (session : Session) (i : TaskId) (operation : Operation) : Option Session :=
  match session.loopback.enter operation with
  | .error answer => session.reply i answer
  | .ok (number, loopback) =>
    let session := { session with loopback := loopback }
    let (armed, hooks) := session.hooks.partition fun hook =>
      hook.event = operation.event ∧ hook.number = number
    match armed with
    | [] => some (session.note ⟨i, number, none⟩)
    | hook :: others =>
      let (child, session) := { session with hooks := others ++ hooks }.spawnFor i hook.task
      let session := match hook.task with
        | .collecting .. =>
          { session with audiences := ⟨child, ⟨0, false, false⟩, []⟩ :: session.audiences }
        | _ => session
      some (session.note ⟨i, number, some child⟩)

/-- Goes on with an operation that has been counted. -/
def proceed (session : Session) (operation : Operation) (visit : Visit) : Option Session :=
  match visit.hook with
  | some child =>
    let outcomes := (session.outcome? child).toList
    some ({ session with hookOutcomes := outcomes ++ session.hookOutcomes }.note
      { visit with hook := none })
  | none =>
    match session.loopback.perform (session.machine.pool.opened + 1) visit.number operation with
    | none => none
    | some (answer, loopback) => { session with loopback := loopback }.reply visit.task answer

/-- Goes on with the operation of a task; none if it has to wait. -/
def operate (session : Session) (i : TaskId) (operation : Operation) : Option Session :=
  match session.endpoint with
  | .address address => session.reply i (.failed (Transport.Address.connectError address))
  | .loopback =>
    match session.visits.find? (·.task == i) with
    | some visit => session.proceed operation visit
    | none => session.enter i operation

/-! ## 2. Moves -/

/-- Whether a task waits for another one. -/
def isPaused (session : Session) (i : TaskId) : Bool :=
  session.paused.any fun (waiter, other) => waiter == i && !session.machine.isOver other

/-- Moves a task; none if it cannot move. -/
def move (session : Session) (i : TaskId) : Option Session :=
  if session.isPaused i then none
  else
    match session.machine.advance i with
    | some step => some (session.after i step)
    | none => (session.machine.operation? i).bind (session.operate i)

/-- Moves the first task that can move. -/
def moveFirst (session : Session) : Option Session :=
  (List.range session.machine.tasks.length).findSome? session.move

/-- Ends the wait of the first task that waits for a connection. -/
def expireFirst (session : Session) : Option Session :=
  (List.range session.machine.tasks.length).findSome? fun i =>
    if session.isPaused i then none else (session.machine.expire i).map (session.after i)

/-! ## 3. Waiting -/

/-- How many moves a session makes at most while its user waits. -/
def patience : Nat := 1000000

/-- Moves tasks until none can move. -/
def quiesceWithin : (fuel : Nat) → Session → Session
  | 0, session => session
  | fuel + 1, session =>
    match session.moveFirst with
    | some session => quiesceWithin fuel session
    | none => session

/-- Moves tasks until one is over.  Waits for connections end when nothing else can happen. -/
def awaitWithin (i : TaskId) : (fuel : Nat) → Session → Session
  | 0, session => session
  | fuel + 1, session =>
    if session.machine.isOver i then session
    else
      match session.moveFirst.orElse fun _ => session.expireFirst with
      | some session => awaitWithin i fuel session
      | none => session

end RemoteCall.Client.Session
