/-
# Futures of calls and batches

A future stands for an outcome that is not there yet.  It is cold: nothing is sent before it is
polled for the first time.  That poll runs a clone, so what the future was made from stays as it is;
later polls look whether the clone has ended.  Cancelling a future cancels its clone or, before the
first poll, keeps one from running; dropping an unfinished future cancels its clone.
-/
import RemoteCall.Client.Machine

namespace RemoteCall.Client

/-! ## 1. Calls -/

/-- A future made from a call. -/
structure CallFuture where
  call : Nat
  /-- The task that runs a clone, and the clone. -/
  running : Option (TaskId × Nat)
  cancelled : Bool
  finished : Bool
  deriving DecidableEq, Repr

namespace CallFuture

/-- A future of a call. -/
def ofCall (call : Nat) : CallFuture := ⟨call, none, false, false⟩

/-- The outcome of a task that executes a call, once it is over. -/
def outcome? : Task → Option (Except Error Datum)
  | .executing _ (.finished result) => some result
  | .executing _ .abandoned => some (.error (.transport .callTaskFailed))
  | _ => none

/-- Polls a future: its outcome, if it is there. -/
def poll (future : CallFuture) (machine : Machine) :
    Option (Except Error Datum) × CallFuture × Machine × List Effect :=
  if future.finished then (some (.error (.usage .callFutureFinished)), future, machine, [])
  else
    match future.running with
    | some (task, _) =>
      match machine.tasks[task]?.bind outcome? with
      | some result => (some result, { future with finished := true }, machine, [])
      | none => (none, future, machine, [])
    | none =>
      match machine.calls[future.call]? with
      | none => (none, future, machine, [])
      | some call =>
        if future.cancelled ∨ call.isCancelled then
          (some (.error .cancelled), { future with finished := true }, machine, [])
        else
          let (clone, machine) := machine.addCall call.clone
          let (task, machine) := machine.spawn (.executing clone .entry)
          (none, { future with running := some (task, clone) }, machine,
            [.notice (.startingAdaptedCall call.request.method)])

/-- The cancellation that a future asks for once its clone runs. -/
def stop? (future : CallFuture) : Option Task :=
  future.running.map fun (_, clone) => .cancelling clone .entry

/-- Cancels a future; the cancellation of a running clone is a task. -/
def cancel (future : CallFuture) : CallFuture × Option Task :=
  ({ future with cancelled := true }, future.stop?)

/-- What dropping a future starts. -/
def drop? (future : CallFuture) : Option Task := if future.finished then none else future.stop?

end CallFuture

/-! ## 2. Batches -/

/-- A future made from a batch. -/
structure BatchFuture where
  batch : Nat
  /-- The task that collects a clone, and the clone. -/
  running : Option (TaskId × Nat)
  finished : Bool
  deriving DecidableEq, Repr

namespace BatchFuture

/-- A future of a batch. -/
def ofBatch (batch : Nat) : BatchFuture := ⟨batch, none, false⟩

/-- The outcome of a task that collects a batch, once it is over. -/
def outcome? : Task → Option BatchEnd
  | .collecting _ ⟨.finished (.ok result), _, _⟩ => some result
  | .collecting _ ⟨.finished (.error error), _, _⟩ => some (.failure error [])
  | .collecting _ ⟨.abandoned, _, _⟩ => some (.failure (.transport .batchWithoutResult) [])
  | _ => none

/-- Polls a future: its outcome, if it is there.  A cancellation before the first poll is found on
the batch and passed on to the clone. -/
def poll (future : BatchFuture) (machine : Machine) :
    Option BatchEnd × BatchFuture × Machine × List Effect :=
  if future.finished then
    (some (.failure (.usage .batchFutureFinished) []), future, machine, [])
  else
    match future.running with
    | some (task, _) =>
      match machine.tasks[task]?.bind outcome? with
      | some result => (some result, { future with finished := true }, machine, [])
      | none => (none, future, machine, [])
    | none =>
      match machine.batches[future.batch]? with
      | none => (none, future, machine, [])
      | some batch =>
        let (clone, machine) :=
          machine.addBatch { batch.clone with started := true, cancelled := batch.cancelled }
        let (task, machine) := machine.spawn (.collecting clone .launched)
        (none, { future with running := some (task, clone) }, machine, [])

/-- The cancellation that cancelling a future starts: of its clone or, before the first poll, of
the batch. -/
def cancel (future : BatchFuture) : Task :=
  match future.running with
  | some (_, clone) => .stopping clone .entry
  | none => .stopping future.batch .entry

/-- What dropping a future starts. -/
def drop? (future : BatchFuture) : Option Task :=
  if future.finished then none
  else future.running.map fun (_, clone) => .stopping clone .entry

end BatchFuture

end RemoteCall.Client
